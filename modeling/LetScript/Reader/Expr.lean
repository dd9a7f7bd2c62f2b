import LetScript.Reader.Basic

/-
  Reading expressions. An expression is a chain of terms with operators between them, and it
  groups to the right whatever the operators are: `a - b - c` is `a - (b - c)`. An operator node
  carries the line of its operator.

  `tryExpr` reads the whole chain in one pass and then joins it from the right. `exprRule` is the
  grammar rule said recursively: a term, and after an operator another expression.
-/

namespace LetScript

/-- An operator as read: its family, the operator and its line. -/
structure Sign where
  family : Family
  op : Op
  line : Line

/-- The node of a sign. -/
def Sign.join (s : Sign) (left right : Tree) : Tree := .operation s.family left s.op right s.line

/-- The sign that a token is. -/
def Token.sign? (t : Token) : Option Sign :=
  match t.lexeme with
  | .mark m _ => m.op?.bind fun op => op.family?.map fun family => ⟨family, op, t.line⟩
  | _ => none

/-- The term that a token is. -/
def Token.term? (t : Token) : Option Tree :=
  match t.lexeme with
  | .integer n => some (.integer n t.line)
  | .string s => some (.string s t.line)
  | .boolean b => some (.boolean b t.line)
  | .identifier name => some (.identifier name t.line)
  | _ => none

/-- Joins operands to the left of `last`, the nearest first. -/
def Tree.joinLeft (pending : List (Tree × Sign)) (last : Tree) : Tree :=
  pending.foldl (fun right p => p.2.join p.1 right) last

namespace Reader

variable (file : Option String)

/-- Takes a term, if one is at the front. -/
def term : Reader (Option Tree) := fun queue =>
  match queue with
  | [] => .error (endOfInput file) []
  | t :: q =>
    match t.term? with
    | some term => .ok (some term) q
    | none => .ok none (t :: q)

/-- Reads on after the term `last`, while operators follow, and then joins the chain. -/
def chain (pending : List (Tree × Sign)) (last : Tree) (queue : List Token) :
    EStateM.Result Fault (List Token) Tree :=
  match queue with
  | [] => .error (endOfInput file) []
  | t :: q =>
    match t.sign? with
    | none => .ok (Tree.joinLeft pending last) (t :: q)
    | some sign =>
      match q with
      | [] => .error (endOfInput file) []
      | u :: q =>
        match u.term? with
        | none => .error (.raised file u.line (.expectedTerm u.lexeme)) (u :: q)
        | some next => chain ((last, sign) :: pending) next q

/-- Reads an expression, if a term is at the front. -/
def tryExpr : Reader (Option Tree) := do
  match ← term file with
  | none => return none
  | some first => return some (← chain file [] first)

/-- Reads an expression. -/
def expr : Reader Tree := do
  match ← tryExpr file with
  | some e => return e
  | none => failAt file .expectedTerm

/-! ## The rule, term by term -/

/-- A term, and after an operator another expression. -/
def exprRule (queue : List Token) : EStateM.Result Fault (List Token) (Option Tree) :=
  match queue with
  | [] => .error (endOfInput file) []
  | t :: q =>
    match t.term? with
    | none => .ok none (t :: q)
    | some left =>
      match q with
      | [] => .error (endOfInput file) []
      | o :: q =>
        match o.sign? with
        | none => .ok (some left) (o :: q)
        | some sign =>
          match exprRule q with
          | .ok (some right) rest => .ok (some (sign.join left right)) rest
          | .ok none rest => failAt file .expectedTerm rest
          | .error f rest => .error f rest

/-! ## What a success leaves -/

variable {file : Option String}

theorem length_le_of_term {t : Option Tree} {q r : List Token} (h : term file q = .ok t r) :
    r.length ≤ q.length := by
  cases q with
  | nil => simp [term] at h
  | cons u q =>
    unfold term at h
    dsimp only at h
    split at h
    · cases h; exact Nat.le_succ _
    · cases h; exact Nat.le_refl _

theorem length_le_of_chain {pending : List (Tree × Sign)} {last e : Tree} {q r : List Token}
    (h : chain file pending last q = .ok e r) : r.length ≤ q.length := by
  fun_induction chain file pending last q with
  | case1 => cases h
  | case2 => cases h; exact Nat.le_refl _
  | case3 => cases h
  | case4 => cases h
  | case5 pending last t sign hs u q next hn ih =>
    have := ih h
    simp only [List.length_cons]
    omega

theorem length_le_of_tryExpr {e : Option Tree} {q r : List Token} (h : tryExpr file q = .ok e r) :
    r.length ≤ q.length := by
  obtain ⟨first, s, hf, h⟩ := bind_eq_ok.1 h
  have hs := length_le_of_term hf
  cases first with
  | none => cases h; exact hs
  | some first =>
    obtain ⟨e', s', hc, h⟩ := bind_eq_ok.1 h
    cases h
    exact Nat.le_trans (length_le_of_chain hc) hs

theorem length_le_of_expr {e : Tree} {q r : List Token} (h : expr file q = .ok e r) :
    r.length ≤ q.length := by
  obtain ⟨e', s, hf, h⟩ := bind_eq_ok.1 h
  have hs := length_le_of_tryExpr hf
  cases e' with
  | none =>
    cases s with
    | nil => simp [failAt] at h
    | cons t s => simp [failAt] at h
  | some e' => cases h; exact hs

end Reader

end LetScript
