import LetScript.Apply

/-
  Values of expressions. Operands are evaluated from left to right, all of them, and operators are
  then applied from the innermost outwards; nothing is skipped, so the leftmost unbound name wins
  over every error of an operator.

  `evaluate` walks down the right operands with the operators still to be applied, so a long chain
  needs no deep recursion. `meaning` is the rule said recursively: left, right, operator.
-/

namespace LetScript

/-- The bindings made so far, the oldest first. -/
abbrev Env := List (String × Value)

/-- An operator that waits for its right operand. -/
structure Pending where
  family : Family
  left : Value
  op : Op
  line : Line

namespace Tree

variable (file : Option String)

/-- The value of a tree that is no operator node. -/
def leafValue (env : Env) : Tree → Except Fault Value
  | .integer n _ => .ok (.integer n)
  | .string s _ => .ok (.string s)
  | .boolean b _ => .ok (.boolean b)
  | .identifier name line =>
    match env.lookup name with
    | some v => .ok v
    | none => .error ⟨.notDefined name, line, file⟩
  | t => .error (.raised none none (.notExpression t))

/-- Applies the waiting operators, the innermost first. -/
def unwind : List Pending → Value → Except Fault Value
  | [], v => .ok v
  | p :: ps, v =>
    match p.family.apply file p.line p.op p.left v with
    | .ok w => unwind ps w
    | .error f => .error f

/-- Evaluates a tree that stands to the right of waiting operators. -/
def evalFrom (env : Env) (pending : List Pending) : Tree → Except Fault Value
  | .operation family left op right line =>
    match evalFrom env [] left with
    | .ok v => evalFrom env (⟨family, v, op, line⟩ :: pending) right
    | .error f => .error f
  | t =>
    match leafValue file env t with
    | .ok v => unwind file pending v
    | .error f => .error f

/-- The value of an expression. -/
def evaluate (env : Env) (t : Tree) : Except Fault Value := evalFrom file env [] t

/-! ## The rule, node by node -/

/-- The value of an expression, from the values of its operands. -/
def meaning (env : Env) : Tree → Except Fault Value
  | .operation family left op right line =>
    match meaning env left with
    | .error f => .error f
    | .ok v =>
      match meaning env right with
      | .error f => .error f
      | .ok w => family.apply file line op v w
  | t => leafValue file env t

end Tree

end LetScript
