import LetScript.Reader.Statement
import LetScript.Run
import LetScript.Token.Scan

/-
  From source text to trees and runs. A text is wholly cut into tokens before any of them is read,
  and wholly read before any statement runs.
-/

namespace LetScript

/-- The statements of a source text. -/
def parse (file : Option String) (source : String) : Except Fault (List Tree) :=
  match tokenize file source with
  | .error f => .error f
  | .ok tokens =>
    match Reader.program file tokens with
    | .ok statements _ => .ok statements
    | .error f _ => .error f

/-- The expression at the front of a source text. What follows it is not looked at. -/
def parseExpr (file : Option String) (source : String) : Except Fault Tree :=
  match tokenize file source with
  | .error f => .error f
  | .ok tokens =>
    match Reader.expr file tokens with
    | .ok e _ => .ok e
    | .error f _ => .error f

/-- Runs a source text on bindings made before. -/
def executeSource (file : Option String) (env : Env) (source : String) : Run :=
  match parse file source with
  | .error f => ⟨env, [], .failed f⟩
  | .ok statements => execute file env statements

/-- Runs a source text on its own. -/
def runSource (file : Option String) (source : String) : Run := executeSource file [] source

end LetScript
