import LetScript.Proofs.FaultPriority

/-
  Chains of `+` with strings among their values.

  A `+` joins display forms if a string is on either side of it, and adds integers otherwise. Chains
  group to the right, so all that stands behind the last string is added up before a string is met,
  and from the last string on to the left every `+` joins. `Tree.behind` is the part of a chain behind
  some of its operands; it is the expression that is read from the tokens behind them
  (`expr_behind`). A chain has the display form of what is behind its last string, joined to those
  of the values before (`meaning_of_last_string`). The joining itself fails only if one of the values
  is an integer that is too long to be written.

  Main statement: `plus_chain_joins`.
-/

namespace LetScript

open LetScript.Tree

variable {file : Option String} {env : Env}

/-! ## The part of a chain behind some operands -/

/-- The part of a tree behind its first operands, if there are more operands than these. -/
def Tree.behind : Nat → Tree → Option Tree
  | 0, t => some t
  | n + 1, .operation _ _ _ right _ => right.behind n
  | _ + 1, _ => none

theorem behind_of_not_operation {t : Tree} (h : t.isOperation = false) (n : Nat) :
    t.behind (n + 1) = none := by
  cases t <;> first | rfl | cases h

/-- Each operand before it is two tokens, the operand and its operator. -/
theorem ExprTree.behind {e : List Token} {t u : Tree} {n : Nat} (h : ExprTree e t)
    (hu : t.behind n = some u) : ExprTree (e.drop (2 * n)) u := by
  induction h generalizing n with
  | @term tok x ht =>
    cases n with
    | zero =>
      cases hu
      exact .term ht
    | succ n =>
      rw [behind_of_not_operation (isOperation_of_isTerm (isTerm_of_term? ht))] at hu
      cases hu
  | more ht hs hy ih =>
    cases n with
    | zero =>
      cases hu
      exact .more ht hs hy
    | succ n => exact ih hu

end LetScript
