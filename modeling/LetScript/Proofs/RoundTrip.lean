import LetScript.Proofs.Rendering
import LetScript.Proofs.Words
import LetScript.Script

/-
  Rendering and reading back.

  `isReadable` says which programs some source text has: every left operand is a term, integers are
  not negative and in range, strings lack one of the quotes, and names are words that are not
  reserved. The rendered text of such a program is read as the program's words, once parentheses
  are dropped. The other way round, a program that was read is readable, because its literals and
  names come from lexemes that have a spelling (`isReadable_of_parse`).

  Main statement: `render_round_trip`.
-/

namespace LetScript

open LetScript.Tree

/-- Whether statements can be written so that they are read back: they group to the right, and
    their literals and names can be spelled. -/
def Tree.isReadable (statements : List Tree) : Bool :=
  isRightGrouped statements && statements.all (isSpellable isNumeral)

/-! ## What is read from a source text is readable -/

/-- Whether a lexeme has a spelling. -/
def Lexeme.IsSpelled (l : Lexeme) : Prop := ∃ text cls, Spells text cls l

/-- What a lexeme with a spelling carries. -/
def Lexeme.isSpellable : Lexeme → Bool
  | .integer n => isNumeral n
  | .string s => isQuotable s
  | .identifier name => isName name
  | .boolean _ | .mark .. | .eof => true

theorem isSpellable_of_isSpelled {l : Lexeme} (h : l.IsSpelled) : l.isSpellable = true := by
  obtain ⟨text, cls, h⟩ := h
  cases h with
  | number _ _ _ hmax =>
    rw [Lexeme.isSpellable, isNumeral, Bool.and_eq_true, decide_eq_true_eq, decide_eq_true_eq]
    exact ⟨Int.natCast_nonneg _, hmax⟩
  | reserved _ _ hmem =>
    have hall : Lexeme.words.all (fun p => p.2.isSpellable) = true := rfl
    exact List.all_eq_true.1 hall _ hmem
  | @name c cs halpha hall hnot =>
    exact isName_iff.2 ⟨c, cs, String.toList_ofList, halpha, hall, hnot⟩
  | string hquote hbody =>
    rw [Lexeme.isSpellable, isQuotable, String.toList_ofList]
    rcases hquote with rfl | rfl
    · simp [hbody]
    · simp [hbody]
  | symbol _ => rfl

theorem isSpellable_of_term? {t : Token} {x : Tree} (ht : t.term? = some x)
    (h : t.lexeme.IsSpelled) : x.isSpellable isNumeral = true := by
  have hl := isSpellable_of_isSpelled h
  rcases t with ⟨l, line⟩
  cases l <;> first | (cases ht; exact hl) | cases ht

theorem ExprTree.isSpellable {e : List Token} {x : Tree} (hx : ExprTree e x)
    (h : ∀ t ∈ e, t.lexeme.IsSpelled) : x.isSpellable isNumeral = true := by
  induction hx with
  | term ht => exact isSpellable_of_term? ht (h _ List.mem_cons_self)
  | more ht _ _ ih =>
    have hleft := isSpellable_of_term? ht (h _ List.mem_cons_self)
    have hright := ih fun u hu => h u (List.mem_cons_of_mem _ (List.mem_cons_of_mem _ hu))
    rw [Sign.join, Tree.isSpellable, hleft, hright]
    rfl

theorem ArgumentTree.isSpellable {e : List Token} {x : Tree} (hx : ArgumentTree e x)
    (h : ∀ t ∈ e, t.lexeme.IsSpelled) : x.isSpellable isNumeral = true := by
  cases hx with
  | bare => rfl
  | value hx => exact hx.isSpellable h

theorem StatementTree.isSpellable {s : List Token} {x : Tree} (hx : StatementTree s x)
    (h : ∀ t ∈ s, t.lexeme.IsSpelled) : x.isSpellable isNumeral = true := by
  cases hx with
  | @letting _ nameToken _ _ name e _ _ hname _ hx _ =>
    have hw := isSpellable_of_isSpelled (h nameToken (by simp))
    rw [hname, Lexeme.isSpellable] at hw
    have hvalue := hx.isSpellable fun t ht => h t (by simp [ht])
    rw [Tree.isSpellable, hw, hvalue]
    rfl
  | printing _ hx _ => exact hx.isSpellable fun t ht => h t (by simp [ht])
  | returning _ hx _ => exact hx.isSpellable fun t ht => h t (by simp [ht])

theorem isSpellable_of_trees {ss : List (List Token)} {p : List Tree}
    (hp : List.Forall₂ StatementTree ss p) (h : ∀ t ∈ ss.flatten, t.lexeme.IsSpelled) :
    ∀ x ∈ p, x.isSpellable isNumeral = true := by
  induction hp with
  | nil => intro x hx; cases hx
  | cons hs _ ih =>
    rw [List.flatten_cons] at h
    intro x hx
    rcases List.mem_cons.1 hx with rfl | hx
    · exact hs.isSpellable fun t ht => h t (List.mem_append_left _ ht)
    · exact ih (fun t ht => h t (List.mem_append_right _ ht)) x hx

theorem isSpelled_of_readAll {cs : List Char} {ls : List Lexeme}
    (h : readAll (pieces cs) = some ls) : ∀ l ∈ ls, l.IsSpelled := by
  obtain ⟨s, hs, -, rfl⟩ := Spacing.exists_spacing h
  intro l hl
  obtain ⟨i, hi, rfl⟩ := List.mem_map.1 hl
  exact ⟨i.text, i.cls, hs.spells i hi⟩

/-- The tokens of a source text, but for the end of input, have lexemes with a spelling. -/
theorem isSpelled_of_tokenize {file : Option String} {source : String} {ts : List Token}
    (h : tokenize file source = .ok ts) :
    ∃ ls, ts.map Token.lexeme = ls ++ [.eof] ∧ ∀ l ∈ ls, l.IsSpelled := by
  have hmap : (tokenize file source).map (List.map Token.lexeme) = .ok (ts.map Token.lexeme) := by
    rw [h]
    rfl
  obtain ⟨ls, hread, hls⟩ := tokenize_eq_ok_iff.1 hmap
  exact ⟨ls, hls, isSpelled_of_readAll hread⟩

/-- What a token of a source text carries can be spelled. -/
theorem isSpellable_of_tokenize {file : Option String} {source : String} {ts : List Token}
    (h : tokenize file source = .ok ts) {t : Token} (ht : t ∈ ts) : t.lexeme.isSpellable = true := by
  obtain ⟨ls, hls, hspelled⟩ := isSpelled_of_tokenize h
  have hmem : t.lexeme ∈ ls ++ [.eof] := by
    rw [← hls]
    exact List.mem_map_of_mem ht
  obtain hmem | hmem := List.mem_append.1 hmem
  · exact isSpellable_of_isSpelled (hspelled _ hmem)
  · rw [List.mem_singleton.1 hmem]
    rfl

/-- Tokens that others follow have a spelling: the end of input is none of them. -/
theorem isSpelled_of_mem_front {file : Option String} {source : String} {front rest : List Token}
    (h : tokenize file source = .ok (front ++ rest)) (hrest : rest ≠ []) {t : Token}
    (ht : t ∈ front) : t.lexeme.IsSpelled := by
  obtain ⟨ls, hls, hspelled⟩ := isSpelled_of_tokenize h
  have hfront : ls = front.map Token.lexeme ++ (rest.map Token.lexeme).dropLast := by
    rw [List.map_append] at hls
    have hdrop := congrArg List.dropLast hls
    rw [List.dropLast_append_of_ne_nil (by simpa using hrest), List.dropLast_concat] at hdrop
    exact hdrop.symm
  refine hspelled t.lexeme ?_
  rw [hfront]
  exact List.mem_append_left _ (List.mem_map_of_mem ht)

theorem isReadable_iff {p : List Tree} : isReadable p = true ↔
    (∀ x ∈ p, x.RightStatement) ∧ ∀ x ∈ p, x.isSpellable isNumeral = true := by
  rw [isReadable, Bool.and_eq_true, isRightGrouped_iff, List.all_eq_true]

theorem parse_eq_ok_iff {file : Option String} {source : String} {p : List Tree} :
    parse file source = .ok p ↔
      ∃ ts rest, tokenize file source = .ok ts ∧ Reader.program file ts = .ok p rest := by
  unfold parse
  cases tokenize file source with
  | error f => simp
  | ok ts => cases hp : Reader.program file ts <;> simp [hp]

/-- A program that was read from a source text is readable. -/
theorem isReadable_of_parse {file : Option String} {source : String} {p : List Tree}
    (h : parse file source = .ok p) : isReadable p = true := by
  obtain ⟨ts, rest, hts, hp⟩ := parse_eq_ok_iff.1 h
  obtain ⟨ss, stop, rfl, -, htrees⟩ := Reader.program_eq_ok_iff.1 hp
  refine isReadable_iff.2 ⟨rightStatements_of_trees htrees, isSpellable_of_trees htrees ?_⟩
  exact fun t ht => isSpelled_of_mem_front hts (List.cons_ne_nil _ _) ht

/-! ## Readable programs are read back -/

theorem exists_tokens (file : Option String) {source : String} {ls : List Lexeme}
    (h : readAll (pieces source.toList) = some ls) :
    ∃ ts, tokenize file source = .ok ts ∧ ts.map Token.lexeme = ls ++ [.eof] := by
  have hmap : (tokenize file source).map (List.map Token.lexeme) = .ok (ls ++ [.eof]) :=
    tokenize_eq_ok_iff.2 ⟨ls, h, rfl⟩
  cases hts : tokenize file source with
  | error f => rw [hts] at hmap; cases hmap
  | ok ts =>
    rw [hts] at hmap
    exact ⟨ts, rfl, Except.ok.inj hmap⟩

theorem lt_limit_of_isNumeral {n : Int} (h : isNumeral n = true) : n.natAbs < numeralLimit := by
  rw [isNumeral, Bool.and_eq_true, decide_eq_true_eq, decide_eq_true_eq, intMax] at h
  exact Text.lt_limit (by omega)

theorem obstacle?_of_isExpr {x : Tree} (hx : x.isExpr = true)
    (hs : x.isSpellable isNumeral = true) : x.obstacle? = none := by
  induction x, hx using expr_induction with
  | term x hterm =>
    cases x with
    | integer n line => exact if_pos (lt_limit_of_isNumeral hs)
    | string | boolean | identifier => rfl
    | _ => cases hterm
  | operation family left op right line hop _ _ ihl ihr =>
    rw [Tree.isSpellable, Bool.and_eq_true] at hs
    rw [obstacle?, ihl hs.1, ihr hs.2, hop]
    rfl

theorem obstacle?_of_isStatement {x : Tree} (hx : x.isStatement = true)
    (hs : x.isSpellable isNumeral = true) : x.obstacle? = none := by
  cases x with
  | binding name nameLine value line =>
    rw [Tree.isSpellable, Bool.and_eq_true] at hs
    rw [obstacle?]
    exact obstacle?_of_isExpr hx hs.2
  | printing value line | returning value line =>
    rw [obstacle?]
    obtain ha | he := Bool.or_eq_true_iff.1 hx
    · cases value with
      | absent => rfl
      | _ => cases ha
    · exact obstacle?_of_isExpr he hs
  | _ => cases hx

/-- A readable program can be written. -/
theorem render_of_isReadable {p : List Tree} (h : isReadable p = true) :
    render (.program p) = .ok (layout (.program p)) := by
  refine render_eq_ok_iff.2 ⟨?_, rfl⟩
  obtain ⟨hright, hs⟩ := isReadable_iff.1 h
  clear h
  rw [obstacle?]
  induction p with
  | nil => rfl
  | cons x p ih =>
    obtain ⟨hstmt, -⟩ := rightStatement_iff.1 (hright x List.mem_cons_self)
    rw [obstacleAll?, obstacle?_of_isStatement hstmt (hs x List.mem_cons_self),
      ih (fun y hy => hright y (List.mem_cons_of_mem x hy))
        (fun y hy => hs y (List.mem_cons_of_mem x hy))]
    rfl

/-- The text of a readable program is read as its words, once parentheses are dropped. -/
theorem readAll_layout {p : List Tree} (h : isReadable p = true) :
    ∃ ls, readAll (pieces (layout (.program p)).toList) = some ls ∧
      ls.filter (fun l => !l.kind.isParen) = p.flatMap words := by
  obtain ⟨hright, hs⟩ := isReadable_iff.1 h
  have hstmt : ∀ x ∈ p, x.isStatement = true := fun x hx =>
    (rightStatement_iff.1 (hright x hx)).1
  rw [← readAll_solid, solid_layout hstmt hs]
  exact reads_program hstmt hs

/-- Lexemes with spellings are the lexemes of a text: their spellings, with blanks between. -/
theorem exists_source {ls : List Lexeme} (h : ∀ l ∈ ls, l.IsSpelled) :
    ∃ cs, readAll (pieces cs) = some ls := by
  induction ls with
  | nil => exact ⟨[], by rw [pieces, readAll]⟩
  | cons l ls ih =>
    obtain ⟨text, cls, hspells⟩ := h l List.mem_cons_self
    obtain ⟨cs, hcs⟩ := ih fun k hk => h k (List.mem_cons_of_mem l hk)
    have hblank : Text.isBlank ' ' = true := rfl
    have hlead : readAll (pieces (' ' :: cs)) = readAll (pieces cs) :=
      Spacing.readAll_lead (List.forall_mem_singleton.2 hblank) cs
    refine ⟨text ++ ' ' :: cs, ?_⟩
    rw [Spacing.readAll_text hspells (ends_blank hblank cls cs), hlead, hcs]
    rfl

/-- Every word of a readable program has a spelling. -/
theorem isSpelled_words {p : List Tree} (h : isReadable p = true) :
    ∀ l ∈ p.flatMap words, l.IsSpelled := by
  obtain ⟨ls, hread, hfilter⟩ := readAll_layout h
  intro l hl
  rw [← hfilter] at hl
  exact isSpelled_of_readAll hread l (List.mem_filter.1 hl).1

/-- A readable program is read from some source text, but for its lines. -/
theorem parse_of_isReadable (file : Option String) {p : List Tree} (h : isReadable p = true) :
    ∃ source q, parse file source = .ok q ∧ unlinedAll q = unlinedAll p := by
  obtain ⟨cs, hcs⟩ := exists_source (isSpelled_words h)
  rw [← String.toList_ofList (l := cs)] at hcs
  obtain ⟨ts, hts, hlex⟩ := exists_tokens file hcs
  obtain ⟨q, hq, hsame⟩ := program_of_words file (isReadable_iff.1 h).1 hlex
  exact ⟨String.ofList cs, q, parse_eq_ok_iff.2 ⟨ts, [], hts, hq⟩, hsame⟩

/-- A readable program is rendered, its text is scanned, and the tokens without parentheses are read
    as the program, but for its lines. -/
theorem program_of_render (file : Option String) {p : List Tree} (h : isReadable p = true) :
    ∃ text ts q, render (.program p) = .ok text ∧ tokenize file text = .ok ts ∧
      Reader.program file (ts.filter fun t => !t.kind.isParen) = .ok q [] ∧
      unlinedAll q = unlinedAll p := by
  obtain ⟨ls, hread, hfilter⟩ := readAll_layout h
  obtain ⟨ts, hts, hlex⟩ := exists_tokens file hread
  have hwords : (ts.filter fun t => !t.kind.isParen).map Token.lexeme =
      p.flatMap words ++ [.eof] := by
    have hmap := (List.filter_map (f := Token.lexeme) (p := fun l => !l.kind.isParen) (l := ts)).symm
    rw [hlex, List.filter_append, hfilter] at hmap
    exact hmap
  obtain ⟨q, hq, hsame⟩ := program_of_words file (isReadable_iff.1 h).1 hwords
  exact ⟨_, ts, q, render_of_isReadable h, hts, hq, hsame⟩

/-! ## Being readable does not depend on lines -/

theorem isSpellable_unlined (number : Int → Bool) : ∀ t : Tree,
    (unlined t).isSpellable number = t.isSpellable number
  | .operation _ left _ right _ => by
    simp only [unlined, Tree.isSpellable, isSpellable_unlined number left,
      isSpellable_unlined number right]
  | .binding _ _ value _ | .printing value _ | .returning value _ => by
    simp only [unlined, Tree.isSpellable, isSpellable_unlined number value]
  | .integer .. | .string .. | .boolean .. | .identifier .. | .program .. | .absent => by rfl

theorem isReadable_unlined (p : List Tree) : isReadable (unlinedAll p) = isReadable p := by
  rw [isReadable, isReadable, isRightGrouped_unlined, unlinedAll_eq_map, List.all_map]
  simp only [Function.comp_def, isSpellable_unlined]

theorem same_program_iff {p q : List Tree} :
    same (.program q) (.program p) = true ↔ unlinedAll q = unlinedAll p := by
  rw [same_iff, unlined, unlined, Tree.program.injEq]

/-! ## Rendering and reading back -/

/-- A readable program is rendered, its text is scanned, and the tokens without parentheses are read
    as the program. Every program read from a source text is readable, so the readable programs are
    exactly those that some source text has. Lines are left aside. -/
theorem render_round_trip (file : Option String) :
    (∀ p, isReadable p = true → ∃ text tokens q, render (.program p) = .ok text ∧
      tokenize file text = .ok tokens ∧
      Reader.program file (tokens.filter fun t => !t.kind.isParen) = .ok q [] ∧
      same (.program q) (.program p) = true) ∧
    (∀ source p, parse file source = .ok p → isReadable p = true) ∧
    ∀ p, isReadable p = true ↔
      ∃ source q, parse file source = .ok q ∧ same (.program q) (.program p) = true := by
  refine ⟨?_, fun _ _ => isReadable_of_parse, fun p => ⟨?_, ?_⟩⟩
  · intro p hp
    obtain ⟨text, ts, q, htext, hts, hq, hsame⟩ := program_of_render file hp
    exact ⟨text, ts, q, htext, hts, hq, same_program_iff.2 hsame⟩
  · intro hp
    obtain ⟨source, q, hq, hsame⟩ := parse_of_isReadable file hp
    exact ⟨source, q, hq, same_program_iff.2 hsame⟩
  · rintro ⟨source, q, hq, hsame⟩
    rw [← isReadable_unlined, ← same_program_iff.1 hsame, isReadable_unlined]
    exact isReadable_of_parse hq

/-- A chain of three, a bare `print`, and strings with quotes, a parenthesis and a semicolon. -/
theorem render_round_trip_quotes :
    ∃ p, p = [binding "x1" none (.operation .arithmetic (.integer 7 none) .sub
          (.operation .logical (.string "a;\"(" none) .or (.boolean true none) none) none) none,
        printing .absent none, returning (.string "it's" none) none] ∧
      isReadable p = true ∧ ∃ text tokens q, render (.program p) = .ok text ∧
        tokenize none text = .ok tokens ∧
        Reader.program none (tokens.filter fun t => !t.kind.isParen) = .ok q [] ∧
        same (.program q) (.program p) = true :=
  ⟨_, rfl, rfl, (render_round_trip none).1 _ rfl⟩

end LetScript
