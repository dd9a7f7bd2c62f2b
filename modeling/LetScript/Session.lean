import LetScript.Operand
import LetScript.Script

/-
  Sessions. A session keeps its bindings from one request to the next; a request that fails keeps
  what it had bound before it failed.
-/

namespace LetScript

/-- A session: the file name that its errors give, and its bindings. -/
structure Session where
  file : Option String
  env : Env

namespace Session

/-- Something to do in a session. -/
inductive Request
  | run (source : String)
  | runTrees (statements : List Tree)
  | execute (source : String)
  | executeTrees (statements : List Tree)
  | eval (source : String)
  | evalTree (tree : Tree)
  | apply (family : Family) (op : Op) (lhs rhs : Operand) (line : Line)
  | emit (text : String)

/-- What a request gives. -/
inductive Answer
  | value (value : Value)
  | done
  | returned (value : Value)
  | failed (fault : Fault)

/-- An answer with the lines written on the way to it and the session after it. -/
structure Response where
  answer : Answer
  lines : List String
  session : Session

/-- A session without bindings. -/
def new (file : Option String) : Session := ⟨file, []⟩

/-- A value or a fault as an answer. -/
def Answer.ofExcept : Except Fault Value → Answer
  | .ok v => .value v
  | .error f => .failed f

/-- How a run ended, as an answer. -/
def Answer.ofEnding : Ending → Answer
  | .through => .done
  | .returned v => .returned v
  | .failed f => .failed f

/-- The response of a run, with an answer made from the run. -/
def respond (s : Session) (r : LetScript.Run) (answer : Answer) : Response :=
  ⟨answer, r.lines, ⟨s.file, r.env⟩⟩

/-- The response of something that binds and writes nothing. -/
def unchanged (s : Session) (result : Except Fault Value) : Response :=
  ⟨Answer.ofExcept result, [], s⟩

/-- Does what is asked. -/
def serve (s : Session) : Request → Response
  | .run source =>
    let r := executeSource s.file s.env source
    s.respond r (Answer.ofExcept r.result)
  | .runTrees statements =>
    let r := LetScript.execute s.file s.env statements
    s.respond r (Answer.ofExcept r.result)
  | .execute source =>
    let r := executeSource s.file s.env source
    s.respond r (Answer.ofEnding r.ending)
  | .executeTrees statements =>
    let r := LetScript.execute s.file s.env statements
    s.respond r (Answer.ofEnding r.ending)
  | .eval source =>
    match parseExpr s.file source with
    | .ok e => s.unchanged (e.evaluate s.file s.env)
    | .error f => s.unchanged (.error f)
  | .evalTree tree => s.unchanged (tree.evaluate s.file s.env)
  | .apply family op lhs rhs line => s.unchanged (family.applyTo s.file line op lhs rhs)
  | .emit text => ⟨.done, [text], s⟩

/-- Serves requests in order. -/
def responses (s : Session) : List Request → List Response
  | [] => []
  | q :: qs =>
    let r := s.serve q
    r :: responses r.session qs

end Session

end LetScript
