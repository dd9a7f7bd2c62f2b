import LetScript.Failure
import LetScript.Path
import LetScript.Script
import LetScript.Tree.Render

/-
  Scripts from files, and the command line. A file is read as UTF-8 with unified line ends. The
  command runs one script: it writes the script's output and then the display form of its result.
  A failure is reported in one line and gives the exit status 1; failures outside the language's
  own escape, and so does that of a result that is too long to be written.

  `runFile` names the file by its normal path, the command by the path as given.
-/

namespace LetScript

/-- The version of the language. -/
def version : String := "0.1.0"

/-- What reading the bytes of a path gives. -/
abbrev FileReader := String → Except ReadFault (List UInt8)

/-- The text of a file. -/
def FileReader.text (read : FileReader) (path : String) : Except Failure String :=
  match read path with
  | .error f => .error (.reading path f)
  | .ok bytes =>
    match Text.Utf8.decode bytes with
    | .error f => .error (.reading path (.undecodable f))
    | .ok cs => .ok (String.ofList (Text.unifyLineEnds cs))

/-- What running a file gives: the lines written, and the value or the failure. -/
structure FileRun where
  lines : List String
  result : Except Failure Value

/-- A run as the run of a file. -/
def Run.toFileRun (r : Run) : FileRun :=
  ⟨r.lines,
    match r.result with
    | .ok v => .ok v
    | .error f => .error (.script f)⟩

/-- Runs the script at a path. -/
def runFile (read : FileReader) (path : String) : FileRun :=
  let path := Path.normal path
  match read.text path with
  | .error f => ⟨[], .error f⟩
  | .ok source => (runSource (some path) source).toFileRun

namespace Command

/-- How a command ends: with an exit status, or by a failure that it does not report. -/
inductive Exit
  | status (code : Nat)
  | escaped (failure : Failure)

/-- What a command writes and how it ends. -/
structure Report where
  stdout : String
  stderr : String
  exit : Exit

/-- The options that ask for help. -/
def helpOptions : List String := ["-h", "--help"]

/-- The help text. -/
def usage : String :=
  "\n".intercalate
    ["",
     "Letlang Interpreter",
     "",
     "Usage:",
     "    letlang <script>",
     "",
     "Arguments:",
     "    <script>",
     "        Path to a Letlang source file to execute. Output of `print`",
     "        statements is written first, followed by the program's result.",
     "",
     "Example:",
     "    letlang hello.let",
     "",
     "Options:",
     "    -h, --help",
     "        Show this help message and exit.",
     "",
     ""]

/-- A failure after some output: reported with status 1, or escaping. -/
def failed (stdout stderr : String) (f : Failure) : Report :=
  if f.isReported then ⟨stdout, stderr ++ f.report, .status 1⟩ else ⟨stdout, stderr, .escaped f⟩

/-- The listing of a script's tokens and tree. -/
def listing (tokens : List Token) (statements : List Tree) : Except Fault String := do
  let lines ← tokens.mapM fun t => Fault.ofText? t.written?
  let tree ← (Tree.program statements).render
  return "\nTokens:\n\n" ++ outText lines ++ "\nAST:\n\n" ++ tree ++ "\n\n"

/-- Runs statements and writes their output and the result. -/
def runStatements (file : String) (stderr : String) (statements : List Tree) : Report :=
  let r := execute (some file) [] statements
  match r.result with
  | .error f => failed r.out stderr (.script f)
  | .ok v =>
    match Fault.ofText? v.display? with
    | .ok text => ⟨r.out ++ text ++ "\n", stderr, .status 0⟩
    | .error f => ⟨r.out, stderr, .escaped (.script f)⟩

/-- Runs the script at a path. With `debug` a script that can be read is first listed. -/
def runScript (read : FileReader) (debug : Bool) (path : String) : Report :=
  match read.text path with
  | .error f => failed "" "" f
  | .ok source =>
    match tokenize (some path) source with
    | .error f => failed "" "" (.script f)
    | .ok tokens =>
      match Reader.program (some path) tokens with
      | .error f _ => failed "" "" (.script f)
      | .ok statements _ =>
        match if debug then listing tokens statements else .ok "" with
        | .ok dump => runStatements path dump statements
        | .error f => failed "" "" (.script f)

/-- Whether the value of a variable asks for listings: the variable is set, and not to nothing. -/
def asksListing (value : Option String) : Bool := value.getD "" ≠ ""

/-- Whether the arguments ask for help. -/
def asksHelp : List String → Bool
  | [arg] => arg ∈ helpOptions
  | _ => false

/-- The script that the arguments name: a single argument that is no option. -/
def script? : List String → Option String
  | [arg] => if arg.startsWith "-" then none else some arg
  | _ => none

/-- Runs the command on its arguments. -/
def run (read : FileReader) (debug : Bool) (args : List String) : Report :=
  match script? args with
  | some path => runScript read debug path
  | none => if asksHelp args then ⟨usage, "", .status 0⟩ else ⟨"", usage, .status 1⟩

end Command

end LetScript
