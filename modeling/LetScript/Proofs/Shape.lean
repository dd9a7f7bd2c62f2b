import LetScript.Token
import LetScript.Tree

/-
  Shapes of trees, and trees read from left to right.

  `isExpr` and `isStatement` say which trees have expressions and statements where they belong and
  every operator in a node of its own family; operands may nest on both sides. `groupsRight` adds
  that every left operand is a term, which leaves one tree for each chain of terms and operators.

  `inorder` lists a tree's words from left to right: a statement's keyword, the name of a `let`,
  and left operand, operator, right operand. A word keeps the kind and the line of its token, and
  what a literal or a name carries (`Token.entry?`). A tree in the right shape is known from its
  words (`program_eq_of_inorder`).
-/

namespace LetScript

/-- Whether tokens of a kind are terms. -/
def Kind.isTerm : Kind → Bool
  | .boolean | .integer | .string | .identifier => true
  | _ => false

/-- Whether tokens of a kind are operators. -/
def Kind.isOperator : Kind → Bool
  | .mark .plus | .mark .minus | .mark .asterisk | .mark .slash | .mark .andWord
  | .mark .orWord => true
  | _ => false

/-- A word of a tree: the kind and the line of its token, and what a literal or a name carries. -/
structure Entry where
  kind : Kind
  line : Line
  payload : Option Datum
  deriving DecidableEq

/-- The word that a token is. Equality signs, semicolons and the end of the input are none. -/
def Token.entry? (t : Token) : Option Entry :=
  match t.lexeme with
  | .eof | .mark .equal _ | .mark .semicolon _ => none
  | .mark m _ => some ⟨.mark m, t.line, none⟩
  | l => some ⟨l.kind, t.line, some l.payload⟩

/-- The mark that an operator is written with. -/
def Op.mark? : Op → Option Mark
  | .add => some .plus
  | .sub => some .minus
  | .mul => some .asterisk
  | .div => some .slash
  | .and => some .andWord
  | .or => some .orWord
  | .other _ => none

namespace Tree

/-- Whether a tree is a literal or a name. -/
def isTerm : Tree → Bool
  | .integer .. | .string .. | .boolean .. | .identifier .. => true
  | _ => false

/-- Whether a tree is built of terms and of operator nodes of the operator's own family. -/
def isExpr : Tree → Bool
  | .operation family left op right _ => op.family? = some family && left.isExpr && right.isExpr
  | t => t.isTerm

/-- Whether a tree is a statement, with expressions where expressions belong. -/
def isStatement : Tree → Bool
  | .binding _ _ value _ => value.isExpr
  | .printing value _ | .returning value _ => value.isAbsent || value.isExpr
  | _ => false

/-- Whether every left operand is a term. -/
def groupsRight : Tree → Bool
  | .operation _ left _ right _ => left.isTerm && right.groupsRight
  | .binding _ _ value _ | .printing value _ | .returning value _ => value.groupsRight
  | _ => true

/-- Whether trees are the statements of a program in which every left operand is a term. -/
def isRightGrouped (statements : List Tree) : Bool :=
  statements.all fun s => s.isStatement && s.groupsRight

/-! ## Induction on operator nodes -/

/-- A tree is taken apart at its operator nodes only. -/
@[elab_as_elim]
theorem operation_induction {motive : Tree → Prop} (leaf : ∀ t, t.isOperation = false → motive t)
    (operation : ∀ family left op right line, motive left → motive right →
      motive (.operation family left op right line)) : ∀ t, motive t
  | .operation family left op right line =>
    operation family left op right line (operation_induction leaf operation left)
      (operation_induction leaf operation right)
  | .integer .. | .string .. | .boolean .. | .identifier .. | .binding .. | .printing ..
  | .returning .. | .program .. | .absent => leaf _ rfl

theorem isExpr_of_isTerm {x : Tree} (h : x.isTerm = true) : x.isExpr = true := by
  cases x <;> first | rfl | cases h

theorem isExpr_operation_iff {family : Family} {left : Tree} {op : Op} {right : Tree} {line : Line} :
    (operation family left op right line).isExpr = true ↔
      op.family? = some family ∧ left.isExpr = true ∧ right.isExpr = true := by
  simp only [isExpr, Bool.and_eq_true, decide_eq_true_eq, and_assoc]

/-- An expression is taken apart down to its terms, with every operator in its own family. -/
@[elab_as_elim]
theorem expr_induction {motive : (t : Tree) → t.isExpr = true → Prop}
    (term : ∀ t (h : t.isTerm = true), motive t (isExpr_of_isTerm h))
    (operation : ∀ family left op right line (hop : op.family? = some family)
      (hleft : left.isExpr = true) (hright : right.isExpr = true), motive left hleft →
      motive right hright →
      motive (.operation family left op right line) (isExpr_operation_iff.2 ⟨hop, hleft, hright⟩))
    (t : Tree) (h : t.isExpr = true) : motive t h := by
  induction t using operation_induction with
  | leaf t ht =>
    refine term t ?_
    cases t <;> first | rfl | cases h | cases ht
  | operation family left op right line ihl ihr =>
    obtain ⟨hop, hleft, hright⟩ := isExpr_operation_iff.1 h
    exact operation family left op right line hop hleft hright (ihl hleft) (ihr hright)

/-! ## Trees from left to right -/

mutual

/-- The words of a tree, from left to right. -/
def inorder : Tree → List Entry
  | .integer n line => [⟨.integer, line, some (.integer n)⟩]
  | .string s line => [⟨.string, line, some (.string s)⟩]
  | .boolean b line => [⟨.boolean, line, some (.boolean b)⟩]
  | .identifier name line => [⟨.identifier, line, some (.string name)⟩]
  | .operation _ left op right line =>
    inorder left ++ (op.mark?.map fun m => ⟨.mark m, line, none⟩).toList ++ inorder right
  | .binding name nameLine value line =>
    ⟨.mark .letWord, line, none⟩ :: ⟨.identifier, nameLine, some (.string name)⟩ :: inorder value
  | .printing value line => ⟨.mark .printWord, line, none⟩ :: inorder value
  | .returning value line => ⟨.mark .returnWord, line, none⟩ :: inorder value
  | .program statements => inorderAll statements
  | .absent => []

/-- The words of the trees of a list. -/
def inorderAll : List Tree → List Entry
  | [] => []
  | t :: ts => inorder t ++ inorderAll ts

end

/-! ## A tree is known from its words -/

/-- Whether the words of no expression go on with `es`. -/
def Closed (es : List Entry) : Prop :=
  ∀ e ∈ es.head?, e.kind.isTerm = false ∧ e.kind.isOperator = false

/-- An operator node's operator has a mark, and its words are those of the operands around it. -/
theorem inorder_operation {family : Family} {op : Op} (left right : Tree) (line : Line)
    (h : op.family? = some family) :
    ∃ m, op.mark? = some m ∧ (Kind.mark m).isOperator = true ∧
      inorder (.operation family left op right line) =
        left.inorder ++ ⟨.mark m, line, none⟩ :: right.inorder := by
  cases op with
  | other s => cases h
  | _ => exact ⟨_, rfl, rfl, by simp [inorder, Op.mark?]⟩

theorem op_eq_of_mark? {o o' : Op} {m : Mark} (h : o.mark? = some m) (h' : o'.mark? = some m) :
    o = o' := by
  cases o <;> cases h <;> cases o' <;> first | rfl | cases h'

/-- A term is one word, of a term's kind, and the word tells the term. -/
theorem inorder_of_isTerm {x : Tree} (h : x.isTerm = true) :
    ∃ e, x.inorder = [e] ∧ e.kind.isTerm = true := by
  cases x <;> first | exact ⟨_, rfl, rfl⟩ | cases h

theorem term_eq_of_inorder {x y : Tree} (hx : x.isTerm = true) (hy : y.isTerm = true)
    (h : x.inorder = y.inorder) : x = y := by
  cases x <;> cases y <;> simp_all [isTerm, inorder]

/-- An expression that groups to the right, term by term. -/
inductive RightExpr : Tree → Prop
  | term {x : Tree} : x.isTerm = true → RightExpr x
  | node {family : Family} {left : Tree} {op : Op} {right : Tree} {line : Line} :
    op.family? = some family → left.isTerm = true → RightExpr right →
      RightExpr (.operation family left op right line)

theorem rightExpr_of_isExpr : ∀ {x : Tree}, x.isExpr = true → x.groupsRight = true → RightExpr x
  | .operation family left op right line, he, hg => by
    simp only [isExpr, groupsRight, Bool.and_eq_true, decide_eq_true_eq] at he hg
    exact .node he.1.1 hg.1 (rightExpr_of_isExpr he.2 hg.2)
  | .integer .., he, _ | .string .., he, _ | .boolean .., he, _ | .identifier .., he, _
  | .binding .., he, _ | .printing .., he, _ | .returning .., he, _ | .program .., he, _
  | .absent, he, _ => .term he

theorem groupsRight_of_isTerm {x : Tree} (h : x.isTerm = true) : x.groupsRight = true := by
  cases x <;> first | rfl | cases h

theorem rightExpr_iff {x : Tree} : RightExpr x ↔ x.isExpr = true ∧ x.groupsRight = true := by
  constructor
  · intro h
    induction h with
    | term ht => exact ⟨isExpr_of_isTerm ht, groupsRight_of_isTerm ht⟩
    | node hfam hleft _ ih =>
      simp [isExpr, groupsRight, hfam, hleft, isExpr_of_isTerm hleft, ih.1, ih.2]
  · exact fun h => rightExpr_of_isExpr h.1 h.2

/-- The words of an operator node do not stop after its left operand. -/
theorem term_append_ne {family : Family} {left right : Tree} {op : Op} {line : Line} {e : Entry}
    {r r' : List Entry} (hr : Closed r) (hfam : op.family? = some family)
    (hleft : left.isTerm = true) :
    [e] ++ r ≠ inorder (.operation family left op right line) ++ r' := by
  intro h
  obtain ⟨m, -, hmop, hin⟩ := inorder_operation left right line hfam
  obtain ⟨e', hl, -⟩ := inorder_of_isTerm hleft
  rw [hin, hl] at h
  have hcons : r = ⟨.mark m, line, none⟩ :: (right.inorder ++ r') := (List.cons.inj h).2
  have hm := (hr ⟨.mark m, line, none⟩ (by rw [hcons]; rfl)).2
  rw [hmop] at hm
  cases hm

/-- An expression that groups to the right is known from its words, also where words follow that
    do not go on with it. -/
theorem expr_eq_of_inorder {x y : Tree} {r r' : List Entry} (hx : RightExpr x) (hy : RightExpr y)
    (hr : Closed r) (hr' : Closed r') (h : x.inorder ++ r = y.inorder ++ r') : x = y ∧ r = r' := by
  induction hx generalizing y with
  | @term x hterm =>
    obtain ⟨e, hin, -⟩ := inorder_of_isTerm hterm
    rw [hin] at h
    cases hy with
    | term hterm' =>
      obtain ⟨e', hin', -⟩ := inorder_of_isTerm hterm'
      rw [hin'] at h
      obtain ⟨he, hrest⟩ := List.cons.inj h
      exact ⟨term_eq_of_inorder hterm hterm' (by rw [hin, hin', he]), hrest⟩
    | node hfam hleft _ => exact absurd h (term_append_ne hr hfam hleft)
  | node hfam hleft _ ih =>
    cases hy with
    | term hterm =>
      obtain ⟨e, hin, -⟩ := inorder_of_isTerm hterm
      rw [hin] at h
      exact absurd h.symm (term_append_ne hr' hfam hleft)
    | node hfam' hleft' hright' =>
      obtain ⟨m, hm, -, hin⟩ := inorder_operation _ _ _ hfam
      obtain ⟨m', hm', -, hin'⟩ := inorder_operation _ _ _ hfam'
      obtain ⟨e, hl, -⟩ := inorder_of_isTerm hleft
      obtain ⟨e', hl', -⟩ := inorder_of_isTerm hleft'
      rw [hin, hin', hl, hl'] at h
      simp only [List.cons_append, List.nil_append, List.cons.injEq, Entry.mk.injEq,
        Kind.mark.injEq] at h
      obtain ⟨he, ⟨rfl, rfl, -⟩, htail⟩ := h
      obtain ⟨rfl, hrest⟩ := ih hright' htail
      obtain rfl := op_eq_of_mark? hm hm'
      obtain rfl := term_eq_of_inorder hleft hleft' (by rw [hl, hl', he])
      obtain rfl := Option.some.inj (hfam.symm.trans hfam')
      exact ⟨rfl, hrest⟩

/-! ## Statements and programs -/

/-- What may follow a keyword: nothing, or an expression that groups to the right. -/
inductive RightArgument : Tree → Prop
  | absent : RightArgument .absent
  | value {x : Tree} : RightExpr x → RightArgument x

theorem rightArgument_iff {x : Tree} :
    RightArgument x ↔ (x.isAbsent || x.isExpr) = true ∧ x.groupsRight = true := by
  constructor
  · rintro (_ | h)
    · exact ⟨rfl, rfl⟩
    · have := rightExpr_iff.1 h
      exact ⟨by rw [this.1, Bool.or_true], this.2⟩
  · rintro ⟨h, hg⟩
    rcases Bool.or_eq_true _ _ |>.mp h with ha | he
    · cases x <;> first | exact .absent | cases ha
    · exact .value (rightExpr_of_isExpr he hg)

/-- The words of an expression start with a term. -/
theorem inorder_of_rightExpr {x : Tree} (h : RightExpr x) :
    ∃ e es, x.inorder = e :: es ∧ e.kind.isTerm = true := by
  cases h with
  | term ht =>
    obtain ⟨e, hin, hk⟩ := inorder_of_isTerm ht
    exact ⟨e, [], hin, hk⟩
  | @node _ left _ right line hfam hleft _ =>
    obtain ⟨m, -, -, hin⟩ := inorder_operation left right line hfam
    obtain ⟨e, hl, hk⟩ := inorder_of_isTerm hleft
    exact ⟨e, ⟨.mark m, line, none⟩ :: right.inorder, by rw [hin, hl]; rfl, hk⟩

/-- No expression starts where the words are closed. -/
theorem closed_ne_inorder {x : Tree} {r r' : List Entry} (h : RightExpr x) (hr : Closed r) :
    r ≠ x.inorder ++ r' := by
  intro hrx
  obtain ⟨e, es, hin, hk⟩ := inorder_of_rightExpr h
  rw [hin] at hrx
  have hclosed := (hr e (by rw [hrx]; rfl)).1
  rw [hk] at hclosed
  cases hclosed

theorem argument_eq_of_inorder {x y : Tree} {r r' : List Entry} (hx : RightArgument x)
    (hy : RightArgument y) (hr : Closed r) (hr' : Closed r')
    (h : x.inorder ++ r = y.inorder ++ r') : x = y ∧ r = r' := by
  cases hx with
  | absent =>
    cases hy with
    | absent => exact ⟨rfl, h⟩
    | value hy => exact absurd h (closed_ne_inorder hy hr)
  | value hx =>
    cases hy with
    | absent => exact absurd h.symm (closed_ne_inorder hx hr')
    | value hy => exact expr_eq_of_inorder hx hy hr hr' h

/-- A statement whose expressions group to the right. -/
inductive RightStatement : Tree → Prop
  | binding {name : String} {nameLine line : Line} {value : Tree} : RightExpr value →
    RightStatement (.binding name nameLine value line)
  | printing {value : Tree} {line : Line} : RightArgument value →
    RightStatement (.printing value line)
  | returning {value : Tree} {line : Line} : RightArgument value →
    RightStatement (.returning value line)

theorem rightStatement_iff {s : Tree} :
    RightStatement s ↔ s.isStatement = true ∧ s.groupsRight = true := by
  constructor
  · rintro (h | h | h)
    · exact rightExpr_iff.1 h
    · exact rightArgument_iff.1 h
    · exact rightArgument_iff.1 h
  · rintro ⟨h, hg⟩
    cases s with
    | binding name nameLine value line => exact .binding (rightExpr_iff.2 ⟨h, hg⟩)
    | printing value line => exact .printing (rightArgument_iff.2 ⟨h, hg⟩)
    | returning value line => exact .returning (rightArgument_iff.2 ⟨h, hg⟩)
    | _ => cases h

theorem isRightGrouped_iff {ss : List Tree} :
    isRightGrouped ss = true ↔ ∀ s ∈ ss, RightStatement s := by
  simp only [isRightGrouped, List.all_eq_true, Bool.and_eq_true, rightStatement_iff]

theorem statement_eq_of_inorder {s t : Tree} {r r' : List Entry} (hs : RightStatement s)
    (ht : RightStatement t) (hr : Closed r) (hr' : Closed r')
    (h : s.inorder ++ r = t.inorder ++ r') : s = t ∧ r = r' := by
  cases hs with
  | binding hx =>
    cases ht with
    | binding hy =>
      simp only [inorder, List.cons_append, List.cons.injEq, Entry.mk.injEq, true_and, and_true,
        Option.some.injEq, Datum.string.injEq] at h
      obtain ⟨rfl, ⟨rfl, rfl⟩, htail⟩ := h
      obtain ⟨rfl, hrest⟩ := expr_eq_of_inorder hx hy hr hr' htail
      exact ⟨rfl, hrest⟩
    | _ => simp [inorder] at h
  | printing hx =>
    cases ht with
    | printing hy =>
      simp only [inorder, List.cons_append, List.cons.injEq, Entry.mk.injEq, true_and,
        and_true] at h
      obtain ⟨rfl, htail⟩ := h
      obtain ⟨rfl, hrest⟩ := argument_eq_of_inorder hx hy hr hr' htail
      exact ⟨rfl, hrest⟩
    | _ => simp [inorder] at h
  | returning hx =>
    cases ht with
    | returning hy =>
      simp only [inorder, List.cons_append, List.cons.injEq, Entry.mk.injEq, true_and,
        and_true] at h
      obtain ⟨rfl, htail⟩ := h
      obtain ⟨rfl, hrest⟩ := argument_eq_of_inorder hx hy hr hr' htail
      exact ⟨rfl, hrest⟩
    | _ => simp [inorder] at h

/-- Statements start with a keyword, so the words of those after it are closed. -/
theorem closed_inorderAll {ss : List Tree} (h : ∀ s ∈ ss, RightStatement s) :
    Closed (inorderAll ss) := by
  cases ss with
  | nil => intro e he; cases he
  | cons s ss =>
    intro e he
    cases h s List.mem_cons_self with
    | _ =>
      simp only [inorderAll, inorder, List.cons_append, List.head?_cons, Option.mem_def,
        Option.some.injEq] at he
      rw [← he]
      exact ⟨rfl, rfl⟩

/-- A program that groups to the right is known from its words. -/
theorem program_eq_of_inorder {ss ts : List Tree} (hs : ∀ s ∈ ss, RightStatement s)
    (ht : ∀ t ∈ ts, RightStatement t) (h : inorderAll ss = inorderAll ts) : ss = ts := by
  have hne : ∀ {s : Tree} {es : List Entry}, RightStatement s → s.inorder ++ es ≠ [] := by
    intro s es hs
    cases hs <;> simp [inorder]
  induction ss generalizing ts with
  | nil =>
    cases ts with
    | nil => rfl
    | cons t ts => exact absurd h.symm (hne (ht t List.mem_cons_self))
  | cons s ss ih =>
    cases ts with
    | nil => exact absurd h (hne (hs s List.mem_cons_self))
    | cons t ts =>
      have hss := fun x hx => hs x (List.mem_cons_of_mem s hx)
      have hts := fun x hx => ht x (List.mem_cons_of_mem t hx)
      obtain ⟨rfl, hrest⟩ := statement_eq_of_inorder (hs s List.mem_cons_self)
        (ht t List.mem_cons_self) (closed_inorderAll hss) (closed_inorderAll hts) h
      rw [ih hss hts hrest]

end Tree

end LetScript
