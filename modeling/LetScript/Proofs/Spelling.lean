import LetScript.Proofs.Lexing
import LetScript.Proofs.Shape
import LetScript.Tree.Render

/-
  How the layout of a tree is cut into pieces.

  `isSpellable` says which literals and names a tree may hold for its layout to show them: a string
  lacks one of the two quotes, and a name is a word that is not reserved. `cuts` lists the pieces
  that the layout is meant to have, blanks left out.

  `Cuts text ps rest`: before `rest`, a text is cut into the pieces `ps`, blanks left out. Texts are
  put together by `Cuts.append`, and a blank may follow any of them (`Cuts.blank`). An expression
  may nest on both sides; its layout is cut as meant before every text that does not start with a
  letter or a digit (`cuts_expr`), a statement's before every text (`cuts_statement`).

  Main statement: `solid_layout`.
-/

namespace LetScript

/-! ## Trees that can be spelled, and their pieces -/

/-- Whether a text may be a name: a letter, then letters and digits, and no reserved word. -/
def isName (w : String) : Bool :=
  match w.toList with
  | [] => false
  | c :: cs => c.isAlpha && cs.all Char.isAlphanum && !(Lexeme.words.map Prod.fst).contains w

theorem isName_iff {w : String} : isName w = true ↔
    ∃ c cs, w.toList = c :: cs ∧ c.isAlpha = true ∧ (∀ d ∈ cs, d.isAlphanum = true) ∧
      w ∉ Lexeme.words.map Prod.fst := by
  unfold isName
  split
  next h => simp [h]
  next c cs h =>
    simp only [h, Bool.and_eq_true, List.all_eq_true, Bool.not_eq_true', ← Bool.not_eq_true,
      List.contains_iff_mem, List.cons.injEq]
    constructor
    · rintro ⟨⟨hc, hcs⟩, hw⟩
      exact ⟨c, cs, ⟨rfl, rfl⟩, hc, hcs, hw⟩
    · rintro ⟨_, _, ⟨rfl, rfl⟩, hc, hcs, hw⟩
      exact ⟨⟨hc, hcs⟩, hw⟩

/-- The piece that a mark is. -/
def Mark.piece (m : Mark) : Piece :=
  if m ∈ Mark.symbols then .symbol m else .word m.text.toList

namespace Tree

/-- Whether a text lacks one of the two quotes, so that it can stand between two others. -/
def isQuotable (s : String) : Bool :=
  !(s.toList.contains Text.doubleQuote && s.toList.contains Text.singleQuote)

/-- Whether the literals and names of a tree can be spelled, and its integers are as asked. -/
def isSpellable (number : Int → Bool) : Tree → Bool
  | .integer n _ => number n
  | .string s _ => isQuotable s
  | .identifier name _ => isName name
  | .operation _ left _ right _ => left.isSpellable number && right.isSpellable number
  | .binding name _ value _ => isName name && value.isSpellable number
  | .printing value _ | .returning value _ => value.isSpellable number
  | .boolean .. | .absent => true
  | .program _ => false

/-- The quote that a string literal stands in. -/
def quoteFor (s : String) : Char :=
  if s.toList.contains Text.doubleQuote then Text.singleQuote else Text.doubleQuote

/-- A right operand's pieces, in parentheses if the operand is an operator node. -/
def bracketed (operand : Tree) (ps : List Piece) : List Piece :=
  if operand.isOperation then [Mark.lparen.piece] ++ ps ++ [Mark.rparen.piece] else ps

/-- The pieces of a tree's layout, blanks left out. -/
def cuts : Tree → List Piece
  | .integer n _ =>
    if 0 ≤ n then [.digits (Nat.toDigits 10 n.toNat)]
    else [Mark.minus.piece, .digits (Nat.toDigits 10 (-n).toNat)]
  | .string s _ => [.quoted (quoteFor s) s.toList]
  | .boolean b _ => [.word (if b then "true" else "false").toList]
  | .identifier name _ => [.word name.toList]
  | .operation _ left op right _ =>
    left.cuts ++ (op.mark?.map Mark.piece).toList ++ bracketed right right.cuts
  | .binding name _ value _ =>
    [Mark.letWord.piece] ++ [.word name.toList] ++ [Mark.equal.piece] ++ value.cuts ++
      [Mark.semicolon.piece]
  | .printing value _ => [Mark.printWord.piece] ++ value.cuts ++ [Mark.semicolon.piece]
  | .returning value _ => [Mark.returnWord.piece] ++ value.cuts ++ [Mark.semicolon.piece]
  | .program _ | .absent => []

end Tree

/-! ## Texts cut into pieces -/

/-- Before `rest`, a text is cut into the given pieces, blanks left out. -/
def Cuts (text : List Char) (ps : List Piece) (rest : List Char) : Prop :=
  solid (text ++ rest) = ps ++ solid rest

theorem cuts_nil (rest : List Char) : Cuts [] [] rest := rfl

theorem Cuts.append {a b rest : List Char} {ps qs : List Piece} (ha : Cuts a ps (b ++ rest))
    (hb : Cuts b qs rest) : Cuts (a ++ b) (ps ++ qs) rest := by
  rw [Cuts] at ha hb ⊢
  rw [List.append_assoc, ha, hb, List.append_assoc]

/-- A text that nothing follows has the pieces that it is cut into. -/
theorem Cuts.solid_eq {text : List Char} {ps : List Piece} (h : Cuts text ps []) :
    solid text = ps := by
  rw [Cuts, List.append_nil, solid_nil, List.append_nil] at h
  exact h

theorem Cuts.blank {a rest : List Char} {c : Char} {ps : List Piece} (ha : Cuts a ps (c :: rest))
    (hc : Text.isBlank c = true) : Cuts (a ++ [c]) ps rest := by
  rw [Cuts] at ha ⊢
  have hblank : solid (c :: rest) = solid rest :=
    solid_blanks (List.forall_mem_singleton.2 hc) rest
  rw [List.append_assoc, List.singleton_append, ha, hblank]

/-- A text that does not start with a letter or a digit ends every lexeme before it. -/
theorem ends_of_blocks {rest : List Char} (h : Blocks Char.isAlphanum rest) (cls : LexClass) :
    cls.Ends rest := by
  cases cls with
  | number =>
    intro c hc
    exact (Bool.or_eq_false_iff.1 (h c hc)).2
  | word => exact h
  | string => exact trivial
  | symbol => exact trivial

/-- A piece that can be a lexeme is cut where no letter or digit follows. -/
theorem cuts_piece {p : Piece} {cls : LexClass} {rest : List Char} (hf : p.Formed)
    (hcls : p.class? = some cls) (h : Blocks Char.isAlphanum rest) : Cuts p.text [p] rest := by
  rw [Cuts, solid_append hf ((ends_iff_of_class? hcls rest).2 (ends_of_blocks h cls))]
  cases p <;> first | rfl | cases hcls

theorem cuts_symbol (m : Mark) (hm : m ∈ Mark.symbols) (rest : List Char) :
    Cuts m.text.toList [m.piece] rest := by
  have hf : (Piece.symbol m).Formed := hm
  rw [Mark.piece, if_pos hm]
  exact solid_append hf trivial

theorem cuts_mark (m : Mark) {rest : List Char} (h : Blocks Char.isAlphanum rest) :
    Cuts m.text.toList [m.piece] rest := by
  by_cases hm : m ∈ Mark.symbols
  · exact cuts_symbol m hm rest
  · rw [Mark.piece, if_neg hm]
    have hf : (Piece.word m.text.toList).Formed := by
      cases m <;>
        first | exact absurd (by decide) hm | exact ⟨_, _, rfl, rfl, List.all_eq_true.1 rfl⟩
    exact cuts_piece hf rfl h

theorem blocks_blank (rest : List Char) : Blocks Char.isAlphanum (' ' :: rest) := by
  intro c hc
  cases hc
  rfl

/-- A symbol ends what stands before it. -/
theorem blocks_symbol (m : Mark) (hm : m ∈ Mark.symbols) (rest : List Char) :
    Blocks Char.isAlphanum (m.text.toList ++ rest) := by
  obtain ⟨c, hc, -, hdigit, halpha, -⟩ := symbol_char hm
  rw [hc]
  intro d hd
  cases hd
  exact isAlphanum_eq_false halpha hdigit

/-! ## Terms -/

namespace Tree

theorem cuts_digits (n : Nat) {rest : List Char} (h : Blocks Char.isAlphanum rest) :
    Cuts n.repr.toList [.digits (Nat.toDigits 10 n)] rest := by
  have hf : (Piece.digits (Nat.toDigits 10 n)).Formed :=
    ⟨Nat.toDigits_ne_nil, fun _ hc => Nat.isDigit_of_mem_toDigits (by decide) (by decide) hc⟩
  rw [Nat.toList_repr]
  exact cuts_piece hf rfl h

/-- A minus sign is a piece of its own. -/
theorem cuts_integer (n : Int) (line : Line) {rest : List Char} (h : Blocks Char.isAlphanum rest) :
    Cuts (toString n).toList (cuts (.integer n line)) rest := by
  rw [Int.toString_eq_repr, Int.repr_eq_if, cuts]
  by_cases hn : 0 ≤ n
  · rw [if_pos hn, if_pos hn]
    exact cuts_digits n.toNat h
  · rw [if_neg hn, if_neg hn, String.toList_append]
    have hminus : Cuts "-".toList [Mark.minus.piece] ((-n).toNat.repr.toList ++ rest) :=
      cuts_symbol .minus (by decide) _
    exact hminus.append (cuts_digits (-n).toNat h)

theorem literal_toList (s : String) :
    (literal s).toList = quoteFor s :: (s.toList ++ [quoteFor s]) := by
  simp only [literal, String.toList_append, String.toList_singleton, quoteFor, List.nil_append,
    List.cons_append]

/-- The quote chosen for a string is not in it, if the string lacks one of the quotes. -/
theorem quoteFor_not_mem {s : String} (h : isQuotable s = true) : quoteFor s ∉ s.toList := by
  rw [quoteFor]
  by_cases hd : s.toList.contains Text.doubleQuote = true
  · rw [if_pos hd]
    rw [isQuotable, hd, Bool.true_and, Bool.not_eq_true'] at h
    intro hmem
    rw [List.contains_iff_mem.2 hmem] at h
    cases h
  · rw [if_neg hd]
    exact fun hmem => hd (List.contains_iff_mem.2 hmem)

theorem cuts_string {s : String} (hs : isQuotable s = true) {rest : List Char}
    (h : Blocks Char.isAlphanum rest) :
    Cuts (literal s).toList [.quoted (quoteFor s) s.toList] rest := by
  have hq : Piece.isQuote (quoteFor s) = true := by
    rw [quoteFor]
    split <;> rfl
  have hf : (Piece.quoted (quoteFor s) s.toList).Formed := ⟨hq, quoteFor_not_mem hs⟩
  rw [literal_toList]
  exact cuts_piece hf rfl h

theorem cuts_boolean (b : Bool) {rest : List Char} (h : Blocks Char.isAlphanum rest) :
    Cuts (if b then "true" else "false").toList
      [.word (if b then "true" else "false").toList] rest := by
  have hf : (Piece.word (if b then "true" else "false").toList).Formed := by
    cases b <;> exact ⟨_, _, rfl, rfl, List.all_eq_true.1 rfl⟩
  exact cuts_piece hf rfl h

theorem cuts_name {w : String} (hw : isName w = true) {rest : List Char}
    (h : Blocks Char.isAlphanum rest) : Cuts w.toList [.word w.toList] rest := by
  obtain ⟨c, cs, hcons, hc, hcs, -⟩ := isName_iff.1 hw
  have hf : (Piece.word w.toList).Formed := ⟨c, cs, hcons, hc, hcs⟩
  exact cuts_piece hf rfl h

/-! ## Expressions, statements and programs -/

theorem text_of_mark? {op : Op} {m : Mark} (h : op.mark? = some m) : op.text = m.text := by
  cases op <;> cases h <;> rfl

theorem exists_mark? {op : Op} {family : Family} (h : op.family? = some family) :
    ∃ m, op.mark? = some m := by
  cases op <;> first | exact ⟨_, rfl⟩ | cases h

/-- Parentheses around a right operand are pieces of their own. -/
theorem cuts_grouped (operand : Tree) {text : String} {ps : List Piece}
    (ht : ∀ {rest : List Char}, Blocks Char.isAlphanum rest → Cuts text.toList ps rest)
    {rest : List Char} (h : Blocks Char.isAlphanum rest) :
    Cuts (grouped operand text).toList (bracketed operand ps) rest := by
  rw [grouped, bracketed]
  split
  · rw [String.toList_append, String.toList_append]
    have hopen : Cuts "(".toList [Mark.lparen.piece] (text.toList ++ (")".toList ++ rest)) :=
      cuts_symbol .lparen (by decide) _
    have hinner : Cuts text.toList ps (")".toList ++ rest) :=
      ht (blocks_symbol .rparen (by decide) rest)
    have hclose : Cuts ")".toList [Mark.rparen.piece] rest := cuts_symbol .rparen (by decide) _
    exact (hopen.append hinner).append hclose
  · exact ht h

/-- The layout of an expression is cut as meant, where no letter or digit follows. -/
theorem cuts_expr {number : Int → Bool} : ∀ {e : Tree}, e.isExpr = true →
    e.isSpellable number = true → ∀ {rest : List Char}, Blocks Char.isAlphanum rest →
      Cuts (layout e).toList e.cuts rest
  | .operation family left op right line, he, hs, rest, h => by
    simp only [isExpr, Bool.and_eq_true, decide_eq_true_eq] at he
    obtain ⟨⟨hfam, hleft⟩, hright⟩ := he
    rw [isSpellable, Bool.and_eq_true] at hs
    obtain ⟨m, hm⟩ := exists_mark? hfam
    rw [layout, cuts, hm, text_of_mark? hm]
    simp only [String.toList_append]
    have hfront : ∀ r, Cuts ((layout left).toList ++ " ".toList ++ m.text.toList ++ " ".toList)
        (left.cuts ++ [m.piece]) r := fun r =>
      (((cuts_expr hleft hs.1 (blocks_blank _)).blank rfl).append
        (cuts_mark m (blocks_blank r))).blank rfl
    exact (hfront _).append (cuts_grouped right (fun hr => cuts_expr hright hs.2 hr) h)
  | .integer n line, _, _, _, h => cuts_integer n line h
  | .string s _, _, hs, _, h => cuts_string hs h
  | .boolean b _, _, _, _, h => cuts_boolean b h
  | .identifier name _, _, hs, _, h => cuts_name hs h
  | .binding .., he, _, _, _ | .printing .., he, _, _, _ | .returning .., he, _, _, _
  | .program .., he, _, _, _ | .absent, he, _, _, _ => by cases he

/-- A keyword, what follows it, and a semicolon. -/
theorem cuts_keyword {number : Int → Bool} (m : Mark) {value : Tree}
    (hv : (value.isAbsent || value.isExpr) = true) (hs : value.isSpellable number = true)
    (rest : List Char) :
    Cuts (m.text ++ argument value (layout value) ++ ";").toList
      ([m.piece] ++ value.cuts ++ [Mark.semicolon.piece]) rest := by
  have hsemi : Cuts ";".toList [Mark.semicolon.piece] rest := cuts_symbol .semicolon (by decide) _
  have hends : Blocks Char.isAlphanum (";".toList ++ rest) :=
    blocks_symbol .semicolon (by decide) rest
  rw [String.toList_append, String.toList_append, argument]
  by_cases ha : value.isAbsent = true
  · have hnil : value.cuts = [] := by cases value <;> first | rfl | cases ha
    rw [if_pos ha, hnil, String.toList_empty, List.append_nil, List.append_nil]
    exact (cuts_mark m hends).append hsemi
  · rw [if_neg ha, String.toList_append]
    have he : value.isExpr = true := by simpa [ha] using hv
    have hblank : Cuts " ".toList [] ((layout value).toList ++ (";".toList ++ rest)) :=
      (cuts_nil _).blank rfl
    have hvalue : Cuts (" ".toList ++ (layout value).toList) value.cuts (";".toList ++ rest) :=
      hblank.append (cuts_expr he hs hends)
    exact ((cuts_mark m (blocks_blank _)).append hvalue).append hsemi

/-- The layout of a statement is cut as meant, whatever follows. -/
theorem cuts_statement {number : Int → Bool} {s : Tree} (hstmt : s.isStatement = true)
    (hs : s.isSpellable number = true) (rest : List Char) : Cuts (layout s).toList s.cuts rest := by
  cases s with
  | binding name nameLine value line =>
    rw [isSpellable, Bool.and_eq_true] at hs
    rw [layout, cuts]
    simp only [String.toList_append]
    have hlet : ∀ r, Cuts "let ".toList [Mark.letWord.piece] r := fun r =>
      (cuts_mark .letWord (blocks_blank r)).blank rfl
    have hequal : ∀ r, Cuts " = ".toList [Mark.equal.piece] r := fun r =>
      (((cuts_nil _).blank rfl).append (cuts_symbol .equal (by decide) _)).blank rfl
    have hvalue : Cuts (layout value).toList value.cuts (";".toList ++ rest) :=
      cuts_expr hstmt hs.2 (blocks_symbol .semicolon (by decide) rest)
    have hsemi : Cuts ";".toList [Mark.semicolon.piece] rest :=
      cuts_symbol .semicolon (by decide) _
    exact ((((hlet _).append (cuts_name hs.1 (blocks_blank _))).append (hequal _)).append
      hvalue).append hsemi
  | printing value line => exact cuts_keyword .printWord hstmt hs rest
  | returning value line => exact cuts_keyword .returnWord hstmt hs rest
  | _ => cases hstmt

theorem cuts_program {number : Int → Bool} {ss : List Tree}
    (hstmt : ∀ s ∈ ss, s.isStatement = true) (hs : ∀ s ∈ ss, s.isSpellable number = true)
    (rest : List Char) :
    Cuts ("\n".intercalate (layoutAll ss)).toList (ss.flatMap cuts) rest := by
  induction ss with
  | nil =>
    rw [layoutAll, String.intercalate_nil]
    exact cuts_nil rest
  | cons s ss ih =>
    have hfirst := cuts_statement (hstmt s List.mem_cons_self) (hs s List.mem_cons_self)
    have hrest := ih (fun t ht => hstmt t (List.mem_cons_of_mem s ht))
      fun t ht => hs t (List.mem_cons_of_mem s ht)
    rw [layoutAll, List.flatMap_cons]
    cases ss with
    | nil =>
      rw [layoutAll, String.intercalate_singleton, List.flatMap_nil, List.append_nil]
      exact hfirst rest
    | cons t ss =>
      rw [layoutAll] at hrest ⊢
      rw [String.intercalate_cons_cons, String.toList_append, String.toList_append]
      have hline : Cuts ((layout s).toList ++ "\n".toList) s.cuts
          (("\n".intercalate (layout t :: layoutAll ss)).toList ++ rest) := (hfirst _).blank rfl
      exact hline.append hrest

/-- The layout of a program is cut as meant. -/
theorem solid_layout {number : Int → Bool} {ss : List Tree}
    (hstmt : ∀ s ∈ ss, s.isStatement = true) (hs : ∀ s ∈ ss, s.isSpellable number = true) :
    solid (layout (.program ss)).toList = ss.flatMap cuts := by
  rw [layout]
  exact (cuts_program hstmt hs []).solid_eq

end Tree

end LetScript
