import LetScript.Reader.Statement

/-
  Reading a queue in single steps. Each step is one reader; the next step goes on with the queue
  that the last one left, also after a fault.
-/

namespace LetScript.Reader

/-- One thing to read. -/
inductive Step
  | peek
  | describe
  | blame (message : String)
  | eat (kind : Kind)
  | accept (kinds : List Kind)
  | term
  | tryExpr
  | expr
  | statement
  | letStatement
  | printStatement
  | returnStatement
  | program

/-- What a step gives. -/
inductive Reply
  | token (token : Token)
  | noToken
  | text (text : String)
  | blamed (fault : Fault)
  | tree (tree : Tree)

/-- The reader of a step. `blame` makes a fault at the token at the front without failing. -/
def step (file : Option String) : Step → Reader Reply
  | .peek => do return .token (← Reader.peek file)
  | .describe => do return .text (← Reader.describe file)
  | .blame message => do
    return .blamed ⟨.stated .parsing message, (← Reader.peek file).line, file⟩
  | .eat kind => do return .token (← Reader.eat file kind)
  | .accept kinds => do
    match ← Reader.accept file kinds with
    | some t => return .token t
    | none => return .noToken
  | .term => do return .tree ((← Reader.term file).getD .absent)
  | .tryExpr => do return .tree ((← Reader.tryExpr file).getD .absent)
  | .expr => do return .tree (← Reader.expr file)
  | .statement => do return .tree (← Reader.statement file)
  | .letStatement => do return .tree (← Reader.letStatement file)
  | .printStatement => do return .tree (← Reader.printStatement file)
  | .returnStatement => do return .tree (← Reader.returnStatement file)
  | .program => do return .tree (.program (← Reader.program file))

/-- Takes steps in order. For each: what it gives, and the queue that it leaves. -/
def replies (file : Option String) : List Step → List Token → List (Except Fault Reply × List Token)
  | [], _ => []
  | s :: ss, queue =>
    match step file s queue with
    | .ok reply left => (.ok reply, left) :: replies file ss left
    | .error f left => (.error f, left) :: replies file ss left

end LetScript.Reader
