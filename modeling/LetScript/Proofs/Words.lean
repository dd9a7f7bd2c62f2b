import LetScript.Proofs.Lines
import LetScript.Proofs.Reading
import LetScript.Proofs.Spelling

/-
  The lexemes of a tree, between its layout and the tokens that are read.

  `words` lists the lexemes of a tree, without parentheses. The pieces of a layout are read as the
  words of the tree, once parentheses are dropped (`reads_program`); integers have to be in range
  for that, because others are refused or read with a minus sign. Tokens with the words of a program
  that groups to the right are read as that program, but for its lines (`program_of_words`).
-/

namespace LetScript

open LetScript.Tree

/-- Whether tokens of a kind are parentheses. -/
def Kind.isParen : Kind → Bool
  | .mark .lparen | .mark .rparen => true
  | _ => false

namespace Tree

/-- Whether an integer can be written as a literal. -/
def isNumeral (n : Int) : Bool := 0 ≤ n && n ≤ intMax

/-- The lexemes of a tree, without parentheses. -/
def words : Tree → List Lexeme
  | .integer n _ => [.integer n]
  | .string s _ => [.string s]
  | .boolean b _ => [.boolean b]
  | .identifier name _ => [.identifier name]
  | .operation _ left op right _ =>
    left.words ++ (op.mark?.map Lexeme.ofMark).toList ++ right.words
  | .binding name _ value _ =>
    [.ofMark .letWord] ++ [.identifier name] ++ [.ofMark .equal] ++ value.words ++
      [.ofMark .semicolon]
  | .printing value _ => [.ofMark .printWord] ++ value.words ++ [.ofMark .semicolon]
  | .returning value _ => [.ofMark .returnWord] ++ value.words ++ [.ofMark .semicolon]
  | .program _ | .absent => []

end Tree

/-! ## The pieces of a layout are read as the words of the tree -/

/-- Pieces are read as the given lexemes, once parentheses are dropped. -/
def Reads (ps : List Piece) (ls : List Lexeme) : Prop :=
  ∃ all, readAll ps = some all ∧ all.filter (fun l => !l.kind.isParen) = ls

theorem reads_nil : Reads [] [] := ⟨[], rfl, rfl⟩

theorem Reads.append {ps qs : List Piece} {ls ms : List Lexeme} (hp : Reads ps ls)
    (hq : Reads qs ms) : Reads (ps ++ qs) (ls ++ ms) := by
  obtain ⟨all, hall, rfl⟩ := hp
  obtain ⟨all', hall', rfl⟩ := hq
  refine ⟨all ++ all', ?_, List.filter_append ..⟩
  rw [readAll_append, hall, hall']
  rfl

theorem reads_lexeme {p : Piece} {l : Lexeme} (h : p.reading = .lexeme l)
    (hl : l.kind.isParen = false) : Reads [p] [l] := by
  refine ⟨[l], ?_, ?_⟩
  · rw [readAll, h]
    rfl
  · rw [List.filter_singleton, hl]
    rfl

theorem reading_mark (m : Mark) : m.piece.reading = .lexeme (.ofMark m) := by
  cases m <;> rfl

theorem reads_mark {m : Mark} (h : (Kind.mark m).isParen = false) :
    Reads [m.piece] [.ofMark m] :=
  reads_lexeme (reading_mark m) h

theorem reads_paren {m : Mark} (h : (Kind.mark m).isParen = true) : Reads [m.piece] [] := by
  refine ⟨[.ofMark m], ?_, ?_⟩
  · rw [readAll, reading_mark]
    rfl
  · rw [List.filter_singleton, Lexeme.ofMark, Lexeme.kind, h]
    rfl

theorem number_toDigits (n : Nat) : Piece.number (Nat.toDigits 10 n) = n := by
  rw [Piece.number, Nat.ofDigitChars_ten_toDigits]

theorem reading_name {w : String} (hw : isName w = true) :
    (Piece.word w.toList).reading = .lexeme (.identifier w) := by
  obtain ⟨-, -, -, -, -, hnot⟩ := isName_iff.1 hw
  rw [Piece.reading, String.ofList_toList, ofWord_of_not_mem hnot]

namespace Tree

theorem reads_integer {n : Int} (hn : isNumeral n = true) (line : Line) :
    Reads (cuts (.integer n line)) [.integer n] := by
  rw [isNumeral, Bool.and_eq_true, decide_eq_true_eq, decide_eq_true_eq] at hn
  have hnum : Piece.number (Nat.toDigits 10 n.toNat) = n := by
    rw [number_toDigits, Int.toNat_of_nonneg hn.1]
  have hlen : (Nat.toDigits 10 n.toNat).length ≤ 10 := by
    rw [Nat.length_toDigits_le_iff (by decide) (by decide)]
    have := hn.2
    rw [intMax] at this
    omega
  rw [cuts, if_pos hn.1]
  refine reads_lexeme ?_ rfl
  rw [Piece.reading, if_neg (Nat.not_lt.2 (Nat.le_trans hlen (by decide))), hnum,
    if_neg (Int.not_lt.2 hn.2)]

theorem reads_name {w : String} (hw : isName w = true) :
    Reads [.word w.toList] [.identifier w] :=
  reads_lexeme (reading_name hw) rfl

/-- Parentheses around a right operand are read and dropped. -/
theorem reads_bracketed (operand : Tree) {ps : List Piece} {ls : List Lexeme} (h : Reads ps ls) :
    Reads (bracketed operand ps) ls := by
  rw [bracketed]
  split
  · have hinner := (reads_paren (m := .lparen) rfl).append h
    have houter := hinner.append (reads_paren (m := .rparen) rfl)
    rw [List.append_nil] at houter
    exact houter
  · exact h

/-- The pieces of an expression are read as its words. -/
theorem reads_expr : ∀ {e : Tree}, e.isExpr = true → e.isSpellable isNumeral = true →
    Reads e.cuts e.words
  | .operation family left op right line, he, hs => by
    simp only [isExpr, Bool.and_eq_true, decide_eq_true_eq] at he
    obtain ⟨⟨hfam, hleft⟩, hright⟩ := he
    rw [isSpellable, Bool.and_eq_true] at hs
    obtain ⟨m, hm⟩ := exists_mark? hfam
    have hop : Reads [m.piece] [.ofMark m] := by
      refine reads_mark ?_
      cases op <;> cases hm <;> rfl
    rw [cuts, words, hm]
    exact ((reads_expr hleft hs.1).append hop).append (reads_bracketed right (reads_expr hright hs.2))
  | .integer n line, _, hs => reads_integer hs line
  | .string s _, _, _ => by
    refine reads_lexeme ?_ rfl
    rw [Piece.reading, String.ofList_toList]
  | .boolean b _, _, _ => by
    refine reads_lexeme ?_ rfl
    cases b <;> rfl
  | .identifier name _, _, hs => reads_name hs
  | .binding .., he, _ | .printing .., he, _ | .returning .., he, _ | .program .., he, _
  | .absent, he, _ => by cases he

theorem reads_argument {value : Tree} (hv : (value.isAbsent || value.isExpr) = true)
    (hs : value.isSpellable isNumeral = true) : Reads value.cuts value.words := by
  rcases Bool.or_eq_true _ _ |>.mp hv with ha | he
  · cases value <;> first | exact reads_nil | cases ha
  · exact reads_expr he hs

theorem reads_statement {s : Tree} (hstmt : s.isStatement = true)
    (hs : s.isSpellable isNumeral = true) : Reads s.cuts s.words := by
  cases s with
  | binding name nameLine value line =>
    rw [isSpellable, Bool.and_eq_true] at hs
    exact ((((reads_mark rfl).append (reads_name hs.1)).append (reads_mark rfl)).append
      (reads_expr hstmt hs.2)).append (reads_mark rfl)
  | printing value line =>
    exact ((reads_mark rfl).append (reads_argument hstmt hs)).append (reads_mark rfl)
  | returning value line =>
    exact ((reads_mark rfl).append (reads_argument hstmt hs)).append (reads_mark rfl)
  | _ => cases hstmt

theorem reads_program {ss : List Tree} (hstmt : ∀ s ∈ ss, s.isStatement = true)
    (hs : ∀ s ∈ ss, s.isSpellable isNumeral = true) : Reads (ss.flatMap cuts) (ss.flatMap words) := by
  induction ss with
  | nil => exact reads_nil
  | cons s ss ih =>
    rw [List.flatMap_cons, List.flatMap_cons]
    exact (reads_statement (hstmt s List.mem_cons_self) (hs s List.mem_cons_self)).append
      (ih (fun t ht => hstmt t (List.mem_cons_of_mem s ht))
        fun t ht => hs t (List.mem_cons_of_mem s ht))

end Tree

/-! ## Tokens with the words of a program are read as that program -/

/-- A token with the word of a term is that term, on the token's line. -/
theorem term?_of_words {x : Tree} (hx : x.isTerm = true) {t : Token} (h : [t.lexeme] = x.words) :
    ∃ y, t.term? = some y ∧ y.unlined = x.unlined := by
  rcases t with ⟨l, line⟩
  cases x <;> first | (cases h; exact ⟨_, rfl, rfl⟩) | cases hx

/-- A token with the mark of an operator is that operator, in a node of its family. -/
theorem sign?_of_mark? {op : Op} {family : Family} {m : Mark} (hfam : op.family? = some family)
    (hm : op.mark? = some m) {t : Token} (h : t.lexeme = .ofMark m) :
    t.sign? = some ⟨family, op, t.line⟩ := by
  rcases t with ⟨l, line⟩
  cases h
  cases op <;> cases hm <;> cases hfam <;> rfl

theorem words_of_isTerm {x : Tree} (hx : x.isTerm = true) : ∃ l, x.words = [l] := by
  cases x <;> first | exact ⟨_, rfl⟩ | cases hx

theorem exprTree_of_words {x : Tree} (hx : x.RightExpr) {e : List Token}
    (h : e.map Token.lexeme = x.words) : ∃ y, ExprTree e y ∧ y.unlined = x.unlined := by
  induction hx generalizing e with
  | term hterm =>
    obtain ⟨l, hl⟩ := words_of_isTerm hterm
    rw [hl] at h
    obtain ⟨t, rfl, ht⟩ := List.map_eq_singleton_iff.1 h
    obtain ⟨y, hy, hsame⟩ := term?_of_words hterm (by rw [hl, ht])
    exact ⟨y, .term hy, hsame⟩
  | @node family left op right line hfam hleft _ ih =>
    obtain ⟨m, hm⟩ := exists_mark? hfam
    obtain ⟨l, hl⟩ := words_of_isTerm hleft
    rw [words, hl, hm] at h
    obtain ⟨t, ys, rfl, ht, hys⟩ := List.map_eq_cons_iff.1 h
    obtain ⟨o, e, rfl, ho, he⟩ := List.map_eq_cons_iff.1 hys
    obtain ⟨y, hy, hsame⟩ := term?_of_words hleft (by rw [hl, ht])
    obtain ⟨z, hz, hright⟩ := ih he
    refine ⟨_, .more hy (sign?_of_mark? hfam hm ho) hz, ?_⟩
    rw [Sign.join, unlined, unlined, hsame, hright]

theorem argumentTree_of_words {x : Tree} (hx : x.RightArgument) {e : List Token}
    (h : e.map Token.lexeme = x.words) : ∃ y, ArgumentTree e y ∧ y.unlined = x.unlined := by
  cases hx with
  | absent =>
    obtain rfl := List.map_eq_nil_iff.1 h
    exact ⟨.absent, .bare, rfl⟩
  | value hx =>
    obtain ⟨y, hy, hsame⟩ := exprTree_of_words hx h
    exact ⟨y, .value hy, hsame⟩

theorem kind_of_ofMark {t : Token} {m : Mark} (h : t.lexeme = .ofMark m) : t.kind = .mark m := by
  rw [Token.kind, h]
  rfl

/-- Tokens with the words of a keyword, its argument and a semicolon. -/
theorem exists_keyword {s : List Token} {m : Mark} {value : Tree} (hv : value.RightArgument)
    (h : s.map Token.lexeme = [.ofMark m] ++ value.words ++ [.ofMark .semicolon]) :
    ∃ start e semi y, s = start :: (e ++ [semi]) ∧ start.kind = .mark m ∧ ArgumentTree e y ∧
      y.unlined = value.unlined ∧ semi.kind = .mark .semicolon := by
  obtain ⟨start, s, rfl, hstart, hs⟩ := List.map_eq_cons_iff.1 h
  obtain ⟨e, semi, rfl, he, hsemi⟩ := exists_last hs
  obtain ⟨y, hy, hsame⟩ := argumentTree_of_words hv he
  exact ⟨start, e, semi, y, rfl, kind_of_ofMark hstart, hy, hsame, kind_of_ofMark hsemi⟩

theorem statementTree_of_words {x : Tree} (hx : x.RightStatement) {s : List Token}
    (h : s.map Token.lexeme = x.words) : ∃ y, StatementTree s y ∧ y.unlined = x.unlined := by
  cases hx with
  | binding hvalue =>
    rw [words] at h
    obtain ⟨front, semi, rfl, hfront, hsemi⟩ := exists_last h
    obtain ⟨start, s, rfl, hstart, hs⟩ := List.map_eq_cons_iff.1 hfront
    obtain ⟨nameToken, s, rfl, hname, hs⟩ := List.map_eq_cons_iff.1 hs
    obtain ⟨equal, e, rfl, hequal, he⟩ := List.map_eq_cons_iff.1 hs
    obtain ⟨y, hy, hsame⟩ := exprTree_of_words hvalue he
    refine ⟨_, .letting (kind_of_ofMark hstart) hname (kind_of_ofMark hequal) hy
      (kind_of_ofMark hsemi), ?_⟩
    rw [unlined, unlined, hsame]
  | printing hvalue =>
    obtain ⟨start, e, semi, y, rfl, hstart, hy, hsame, hsemi⟩ := exists_keyword hvalue h
    refine ⟨_, .printing hstart hy hsemi, ?_⟩
    rw [unlined, unlined, hsame]
  | returning hvalue =>
    obtain ⟨start, e, semi, y, rfl, hstart, hy, hsame, hsemi⟩ := exists_keyword hvalue h
    refine ⟨_, .returning hstart hy hsemi, ?_⟩
    rw [unlined, unlined, hsame]

theorem statementTrees_of_words {p : List Tree} (hp : ∀ x ∈ p, x.RightStatement)
    {ts : List Token} (h : ts.map Token.lexeme = p.flatMap words) :
    ∃ ss q, ts = ss.flatten ∧ List.Forall₂ StatementTree ss q ∧ unlinedAll q = unlinedAll p := by
  induction p generalizing ts with
  | nil =>
    obtain rfl := List.map_eq_nil_iff.1 h
    exact ⟨[], [], rfl, .nil, rfl⟩
  | cons x p ih =>
    rw [List.flatMap_cons] at h
    obtain ⟨s, ts, rfl, hs, hts⟩ := List.map_eq_append_iff.1 h
    obtain ⟨y, hy, hsame⟩ := statementTree_of_words (hp x List.mem_cons_self) hs
    obtain ⟨ss, q, rfl, hq, hall⟩ := ih (fun z hz => hp z (List.mem_cons_of_mem x hz)) hts
    refine ⟨s :: ss, y :: q, rfl, .cons hy hq, ?_⟩
    rw [unlinedAll, unlinedAll, hsame, hall]

/-- Tokens with the words of a program that groups to the right are read as that program. -/
theorem program_of_words (file : Option String) {p : List Tree} (hp : ∀ x ∈ p, x.RightStatement)
    {ts : List Token} (h : ts.map Token.lexeme = p.flatMap words ++ [.eof]) :
    ∃ q, Reader.program file ts = .ok q [] ∧ unlinedAll q = unlinedAll p := by
  obtain ⟨front, stop, rfl, hfront, hstop⟩ := exists_last h
  obtain ⟨ss, q, rfl, hq, hall⟩ := statementTrees_of_words hp hfront
  refine ⟨q, Reader.program_eq_ok_iff.2 ⟨ss, stop, rfl, ?_, hq⟩, hall⟩
  rw [Token.kind, hstop]
  rfl

end LetScript
