import LetScript.Command
import LetScript.Proofs.IntegerRange
import Mathlib

/-
  The command line against the library.

  The command reads, scans, reads statements and runs them stage by stage, and deals with the failure
  of each stage. `runFile` does the same work in one piece. What the command reports is what `runFile`
  gives, written out, after a listing if one is asked for and the script can be read: `runScript_eq`.
  The integers of a source text and of its run are in range, so the listing can be written
  (`listing_of_parse`), and so can the result (`display_of_runFile`). The failures that the command
  reports are known by their titles: `isReported_iff`.

  Main statement: `command_agrees_with_runFile`.
-/

namespace LetScript

/-- The titles of the language's own errors. -/
def languageTitles : List String :=
  ["LetlangError", "LexError", "ParseError", "ScriptRuntimeError", "VariableRedefinedException",
    "UndefinedVariableException", "TypeMismatchException", "DivisionByZeroException",
    "IntegerOverflowException", "UnknownOpException"]

/-- The titles of errors of the system. -/
def systemTitles : List String :=
  ["OSError", "FileNotFoundError", "PermissionError", "NotADirectoryError", "IsADirectoryError"]

/-- The titles of the failures that a command reports. -/
def reportedTitles : List String := languageTitles ++ systemTitles ++ ["UnicodeDecodeError"]

theorem stage?_isSome_iff (c : Cause) : c.stage?.isSome = true ↔ c.title ∈ reportedTitles := by
  simp only [reportedTitles, languageTitles, systemTitles]
  cases c with
  | stated stage message => cases stage <;> simp [Cause.title, Cause.stage?]
  | _ => simp [Cause.title, Cause.stage?]

/-- The language's own errors are those of its stages. -/
theorem isReported_script (f : Fault) :
    (Failure.script f).isReported = f.cause.stage?.isSome := by
  rcases f with ⟨cause, line, file⟩
  cases cause with
  | stated stage message => cases stage <;> rfl
  | _ => rfl

/-- A command reports the language's own errors, errors of the system and undecodable files. -/
theorem isReported_iff (f : Failure) : f.isReported = true ↔ f.title ∈ reportedTitles := by
  cases f with
  | script f =>
    rw [isReported_script]
    exact stage?_isSome_iff f.cause
  | reading path f =>
    simp only [reportedTitles, languageTitles, systemTitles, Failure.title]
    cases f <;> simp [Failure.isReported, ReadFault.title]

/-! ## The command as a run of a file -/

theorem parse_of_tokenize_error {file : Option String} {source : String} {f : Fault}
    (h : tokenize file source = .error f) : parse file source = .error f := by
  rw [parse, h]

theorem runFile_of_normal (read : FileReader) {path : String} (h : Path.normal path = path) :
    runFile read path =
      match read.text path with
      | .error f => ⟨[], .error f⟩
      | .ok source => (runSource (some path) source).toFileRun := by
  have hrun : runFile read path =
      match read.text (Path.normal path) with
      | .error f => ⟨[], .error f⟩
      | .ok source => (runSource (some (Path.normal path)) source).toFileRun := rfl
  rw [hrun, h]

/-- The value of a file's run can be written. -/
theorem display_of_runFile {read : FileReader} {path : String} {v : Value}
    (h : (runFile read path).result = .ok v) : ∃ text, v.display? = some text := by
  unfold runFile at h
  dsimp only at h
  split at h
  · cases h
  next source _ =>
    have hresult : (runSource (some (Path.normal path)) source).result = .ok v := by
      unfold Run.toFileRun at h
      dsimp only at h
      split at h
      next hv => cases h; exact hv
      · cases h
    exact (inRange_of_runSource hresult).exists_display

namespace Command

/-! ## The listing -/

theorem written?_of_tokenize {file : Option String} {source : String} {tokens : List Token}
    (h : tokenize file source = .ok tokens) {t : Token} (ht : t ∈ tokens) :
    ∃ line, t.written? = some line := by
  have hs := isSpellable_of_tokenize h ht
  rcases t with ⟨lexeme, line⟩
  cases lexeme with
  | integer n =>
    have hdigits := Text.decimal?_eq_some_iff.2 ⟨lt_limit_of_isNumeral hs, rfl⟩
    exact ⟨_, congrArg (Option.map _) hdigits⟩
  | boolean b => cases b <;> exact ⟨_, rfl⟩
  | _ => exact ⟨_, rfl⟩

theorem mapM_written? {tokens : List Token} (h : ∀ t ∈ tokens, ∃ line, t.written? = some line) :
    ∃ lines : List String, tokens.map Token.written? = lines.map some ∧
      tokens.mapM (fun t => Fault.ofText? t.written?) = .ok lines := by
  induction tokens with
  | nil => exact ⟨[], rfl, rfl⟩
  | cons t tokens ih =>
    obtain ⟨line, hline⟩ := h t List.mem_cons_self
    obtain ⟨lines, hmap, hmapM⟩ := ih fun u hu => h u (List.mem_cons_of_mem t hu)
    refine ⟨line :: lines, ?_, ?_⟩
    · rw [List.map_cons, List.map_cons, hline, hmap]
    · rw [List.mapM_cons, hline, hmapM]
      rfl

/-- The listing of a script that can be read: a line for each token, and the text of the program. -/
theorem listing_of_parse {file : Option String} {source : String} {tokens : List Token}
    {statements : List Tree} (htokens : tokenize file source = .ok tokens)
    (hparse : parse file source = .ok statements) :
    ∃ (lines : List String) (tree : String), tokens.map Token.written? = lines.map some ∧
      (Tree.program statements).render = .ok tree ∧
      listing tokens statements =
        .ok ("\nTokens:\n\n" ++ outText lines ++ "\nAST:\n\n" ++ tree ++ "\n\n") := by
  obtain ⟨lines, hmap, hmapM⟩ := mapM_written? fun t ht => written?_of_tokenize htokens ht
  have hrender := render_of_isReadable (isReadable_of_parse hparse)
  refine ⟨lines, _, hmap, hrender, ?_⟩
  rw [listing, hmapM, hrender]
  rfl

/-! ## The command as a run -/

/-- What a command writes about the run of a file, after what it wrote to the error output before. -/
def ofFileRun (stderr : String) (r : FileRun) : Report :=
  match r.result with
  | .ok v =>
    match Fault.ofText? v.display? with
    | .ok text => ⟨outText r.lines ++ text ++ "\n", stderr, .status 0⟩
    | .error f => ⟨outText r.lines, stderr, .escaped (.script f)⟩
  | .error f => failed (outText r.lines) stderr f

/-- What a command writes before it runs a script. -/
def dump (read : FileReader) (debug : Bool) (path : String) : String :=
  match read.text path with
  | .error _ => ""
  | .ok source =>
    match tokenize (some path) source, parse (some path) source with
    | .ok tokens, .ok statements =>
      if debug then (listing tokens statements).toOption.getD "" else ""
    | _, _ => ""

/-- Statements that are run by the command are run as by `runFile`. -/
theorem runStatements_eq (path stderr : String) (statements : List Tree) :
    runStatements path stderr statements =
      ofFileRun stderr (execute (some path) [] statements).toFileRun := by
  unfold runStatements ofFileRun Run.toFileRun
  dsimp only
  cases (execute (some path) [] statements).result with
  | ok v => cases v.display? <;> rfl
  | error f => rfl

/-- The stages of the command on a text, taken together. -/
theorem runScript_of_text {read : FileReader} {path source : String}
    (htext : read.text path = .ok source) (debug : Bool) :
    runScript read debug path =
      ofFileRun (dump read debug path) (runSource (some path) source).toFileRun := by
  rw [runScript, dump, htext]
  dsimp only [runSource, executeSource]
  cases htokens : tokenize (some path) source with
  | error f =>
    rw [parse_of_tokenize_error htokens]
    rfl
  | ok tokens =>
    dsimp only
    cases hread : Reader.program (some path) tokens with
    | error f rest =>
      have hparse : parse (some path) source = .error f := by simp only [parse, htokens, hread]
      rw [hparse]
      rfl
    | ok statements rest =>
      have hparse : parse (some path) source = .ok statements := by
        simp only [parse, htokens, hread]
      obtain ⟨lines, tree, -, -, hlisting⟩ := listing_of_parse htokens hparse
      rw [hparse]
      dsimp only
      rw [hlisting]
      cases debug with
      | true => exact runStatements_eq path _ statements
      | false => exact runStatements_eq path _ statements

theorem runScript_eq (read : FileReader) (debug : Bool) {path : String}
    (hnormal : Path.normal path = path) :
    runScript read debug path = ofFileRun (dump read debug path) (runFile read path) := by
  rw [runFile_of_normal read hnormal]
  cases htext : read.text path with
  | error f =>
    rw [runScript, dump, htext]
    rfl
  | ok source => exact runScript_of_text htext debug

/-! ## What is listed -/

theorem asksListing_iff {value : Option String} :
    asksListing value = true ↔ ∃ v, value = some v ∧ v ≠ "" := by
  cases value <;> simp [asksListing]

theorem asksListing_eq_false {value : Option String} (h : ∀ v, value = some v → v = "") :
    asksListing value = false := by
  rw [Bool.eq_false_iff]
  intro hasks
  obtain ⟨v, hvalue, hne⟩ := asksListing_iff.1 hasks
  exact hne (h v hvalue)

theorem dump_of_parse {read : FileReader} {debug : Bool} {path source : String}
    {tokens : List Token} {statements : List Tree} (hdebug : debug = true)
    (htext : read.text path = .ok source) (htokens : tokenize (some path) source = .ok tokens)
    (hparse : parse (some path) source = .ok statements) :
    ∃ (lines : List String) (tree : String), tokens.map Token.written? = lines.map some ∧
      (Tree.program statements).render = .ok tree ∧
      dump read debug path =
        "\nTokens:\n\n" ++ outText lines ++ "\nAST:\n\n" ++ tree ++ "\n\n" := by
  obtain ⟨lines, tree, hmap, hrender, hlisting⟩ := listing_of_parse htokens hparse
  refine ⟨lines, tree, hmap, hrender, ?_⟩
  simp only [dump, htext, htokens, hparse, hdebug, if_true, hlisting]
  rfl

/-- Nothing is listed unless it is asked for and the script can be read. -/
theorem dump_eq_empty {read : FileReader} {debug : Bool} {path : String}
    (h : debug = false ∨ ∀ source statements, read.text path = .ok source →
      parse (some path) source ≠ .ok statements) :
    dump read debug path = "" := by
  unfold dump
  split
  · rfl
  next source htext =>
    split
    next tokens statements _ hparse =>
      rcases h with rfl | h
      · rfl
      · exact absurd hparse (h source statements htext)
    · rfl

/-! ## What is reported -/

variable {stderr : String} {r : FileRun}

theorem ofFileRun_ok {v : Value} {text : String} (h : r.result = .ok v)
    (htext : v.display? = some text) :
    ofFileRun stderr r = ⟨outText r.lines ++ text ++ "\n", stderr, .status 0⟩ := by
  simp only [ofFileRun, h, htext]
  rfl

theorem ofFileRun_reported {e : Failure} (h : r.result = .error e) (he : e.title ∈ reportedTitles) :
    ofFileRun stderr r = ⟨outText r.lines, stderr ++ e.report, .status 1⟩ := by
  simp only [ofFileRun, h]
  rw [failed, if_pos ((isReported_iff e).2 he)]

theorem ofFileRun_escaped {e : Failure} (h : r.result = .error e) (he : e.title ∉ reportedTitles) :
    ofFileRun stderr r = ⟨outText r.lines, stderr, .escaped e⟩ := by
  simp only [ofFileRun, h]
  rw [failed, if_neg (mt (isReported_iff e).1 he)]

/-- What a command writes about a failure, by its title. -/
theorem ofFileRun_error {e : Failure} (h : r.result = .error e) :
    (ofFileRun stderr r).stdout = outText r.lines ∧
      (e.title ∈ reportedTitles →
        (ofFileRun stderr r).stderr = stderr ++ (e.title ++ ": " ++ e.message ++ "\n")) ∧
      (e.title ∉ reportedTitles → (ofFileRun stderr r).stderr = stderr) := by
  by_cases htitle : e.title ∈ reportedTitles
  · rw [ofFileRun_reported h htitle]
    exact ⟨rfl, fun _ => rfl, fun hnot => absurd htitle hnot⟩
  · rw [ofFileRun_escaped h htitle]
    exact ⟨rfl, fun hmem => absurd hmem htitle, fun _ => rfl⟩

/-- How a command ends, by the result of the run. -/
theorem exit_ofFileRun (stderr : String)
    (hdisplay : ∀ v, r.result = .ok v → ∃ text, v.display? = some text) :
    ((ofFileRun stderr r).exit = .status 0 ↔ ∃ v, r.result = .ok v) ∧
      ((ofFileRun stderr r).exit = .status 1 ↔
        ∃ e, r.result = .error e ∧ e.title ∈ reportedTitles) ∧
      ∀ e, (ofFileRun stderr r).exit = .escaped e ↔
        r.result = .error e ∧ e.title ∉ reportedTitles := by
  cases hresult : r.result with
  | ok v =>
    obtain ⟨text, htext⟩ := hdisplay v hresult
    simp [ofFileRun_ok hresult htext]
  | error f =>
    by_cases hf : f.title ∈ reportedTitles
    · simp only [ofFileRun_reported hresult hf]
      simp [hf]
    · simp only [ofFileRun_escaped hresult hf]
      simp [hf]

/-- What stands on the error output decides neither the output nor the end of a command. -/
theorem ofFileRun_stderr (stderr stderr' : String)
    (hdisplay : ∀ v, r.result = .ok v → ∃ text, v.display? = some text) :
    (ofFileRun stderr r).stdout = (ofFileRun stderr' r).stdout ∧
      (ofFileRun stderr r).exit = (ofFileRun stderr' r).exit := by
  cases hresult : r.result with
  | ok v =>
    obtain ⟨text, htext⟩ := hdisplay v hresult
    rw [ofFileRun_ok hresult htext, ofFileRun_ok hresult htext]
    exact ⟨rfl, rfl⟩
  | error f =>
    by_cases hf : f.title ∈ reportedTitles
    · rw [ofFileRun_reported hresult hf, ofFileRun_reported hresult hf]
      exact ⟨rfl, rfl⟩
    · rw [ofFileRun_escaped hresult hf, ofFileRun_escaped hresult hf]
      exact ⟨rfl, rfl⟩

/-- The command on a script is the run of the file, written out. -/
theorem run_script {opened read : FileReader} {path : String}
    (hsame : opened.text path = read.text path) (hnormal : Path.normal path = path)
    (hoption : path.startsWith "-" = false) (debug : Bool) :
    run opened debug [path] = ofFileRun (dump read debug path) (runFile read path) := by
  have hscript : script? [path] = some path := by rw [script?, hoption]; rfl
  have hfile : runFile opened path = runFile read path := by
    rw [runFile_of_normal opened hnormal, runFile_of_normal read hnormal, hsame]
  have hdump : dump opened debug path = dump read debug path := by rw [dump, dump, hsame]
  rw [run, hscript]
  dsimp only
  rw [runScript_eq opened debug hnormal, hfile, hdump]

end Command

/-- The command, on a path in normal form that is no option, does what `runFile` does with the path,
    if both read the same text from it. It ends with 0 and writes the output and the result, or
    ends with 1 and reports the failure, or lets it escape, as `runFile` ends. Before, it lists the
    tokens, one on a line, and the text of the program, each under a heading, if that is asked for and
    the script can be read, and the listing changes nothing else. -/
theorem command_agrees_with_runFile (opened read : FileReader) (debug : Option String)
    (path : String) (hsame : opened.text path = read.text path) (hnormal : Path.normal path = path)
    (hoption : path.startsWith "-" = false) :
    let report := Command.run opened (Command.asksListing debug) [path]
    let run := runFile read path
    (report.exit = .status 0 ↔ ∃ v, run.result = .ok v) ∧
    (report.exit = .status 1 ↔ ∃ e, run.result = .error e ∧ e.title ∈ reportedTitles) ∧
    (∀ e, report.exit = .escaped e ↔ run.result = .error e ∧ e.title ∉ reportedTitles) ∧
    (∃ dump : String,
      (∀ v, run.result = .ok v → ∃ text, v.display? = some text ∧
        report.stdout = outText run.lines ++ text ++ "\n" ∧ report.stderr = dump) ∧
      (∀ e, run.result = .error e → report.stdout = outText run.lines ∧
        (e.title ∈ reportedTitles →
          report.stderr = dump ++ (e.title ++ ": " ++ e.message ++ "\n")) ∧
        (e.title ∉ reportedTitles → report.stderr = dump)) ∧
      (∀ value source tokens statements, debug = some value → value ≠ "" →
        read.text path = .ok source → tokenize (some path) source = .ok tokens →
        parse (some path) source = .ok statements →
        ∃ (lines : List String) (tree : String), tokens.map Token.written? = lines.map some ∧
          (Tree.program statements).render = .ok tree ∧
          dump = "\nTokens:\n\n" ++ outText lines ++ "\nAST:\n\n" ++ tree ++ "\n\n") ∧
      ((∀ value, debug = some value → value = "") ∨
        (∀ source statements, read.text path = .ok source →
          parse (some path) source ≠ .ok statements) → dump = "")) ∧
    ∀ debug', let report' := Command.run opened (Command.asksListing debug') [path]
      report'.stdout = report.stdout ∧ report'.exit = report.exit := by
  intro report run
  have hreport : report =
      Command.ofFileRun (Command.dump read (Command.asksListing debug) path) run :=
    Command.run_script hsame hnormal hoption (Command.asksListing debug)
  have hdisplay : ∀ v, run.result = .ok v → ∃ text, v.display? = some text :=
    fun v => display_of_runFile
  obtain ⟨hzero, hone, hescaped⟩ :=
    Command.exit_ofFileRun (Command.dump read (Command.asksListing debug) path) hdisplay
  rw [hreport]
  refine ⟨hzero, hone, hescaped, ⟨Command.dump read (Command.asksListing debug) path, ?_, ?_, ?_, ?_⟩,
    ?_⟩
  · intro v hv
    obtain ⟨text, htext⟩ := hdisplay v hv
    rw [Command.ofFileRun_ok hv htext]
    exact ⟨text, htext, rfl, rfl⟩
  · intro e he
    exact Command.ofFileRun_error he
  · intro value source tokens statements hdebug hvalue htext htokens hparse
    have hasks := Command.asksListing_iff.2 ⟨value, hdebug, hvalue⟩
    exact Command.dump_of_parse hasks htext htokens hparse
  · rintro (hdebug | hnone)
    · exact Command.dump_eq_empty (.inl (Command.asksListing_eq_false hdebug))
    · exact Command.dump_eq_empty (.inr hnone)
  · intro debug'
    rw [Command.run_script hsame hnormal hoption]
    exact Command.ofFileRun_stderr _ _ hdisplay

/-- A script that prints, and then returns a name that is not bound: both its listing and its error
    stand on the error output. -/
theorem command_agrees_on_undefined_name :
    let read : FileReader := fun _ => .ok "print 1; return x;".toUTF8.toList
    let report := Command.run read (Command.asksListing (some "1")) ["a/b"]
    read.text "a/b" = .ok "print 1; return x;" ∧ Path.normal "a/b" = "a/b" ∧
      "a/b".startsWith "-" = false ∧ report.stdout = "1\n" ∧ report.exit = .status 1 ∧
      report.stderr = "\nTokens:\n\n" ++
        "Token(PRINT, 'print', line=1)\n" ++ "Token(INTEGER, 1, line=1)\n" ++
        "Token(SEMICOLON, ';', line=1)\n" ++ "Token(RETURN, 'return', line=1)\n" ++
        "Token(IDENTIFIER, 'x', line=1)\n" ++ "Token(SEMICOLON, ';', line=1)\n" ++
        "Token(EOF, None, line=1)\n" ++ "\nAST:\n\n" ++ "print 1;\nreturn x;" ++ "\n\n" ++
        "UndefinedVariableException: Variable 'x' not defined on line 1 in a/b\n" := by
  intro read report
  have htext : read.text "a/b" = .ok "print 1; return x;" := by cbv
  have hnormal : Path.normal "a/b" = "a/b" := by cbv
  have hoption : "a/b".startsWith "-" = false := by cbv
  have hsource : runSource (some "a/b") "print 1; return x;" =
      ⟨[], ["1"], .failed ⟨.notDefined "x", some 1, some "a/b"⟩⟩ := by cbv
  have hrun : runFile read "a/b" =
      ⟨["1"], .error (.script ⟨.notDefined "x", some 1, some "a/b"⟩)⟩ := by
    rw [runFile_of_normal read hnormal, htext]
    dsimp only
    rw [hsource]
    rfl
  have htokens : tokenize (some "a/b") "print 1; return x;" = .ok [⟨.ofMark .printWord, some 1⟩,
      ⟨.integer 1, some 1⟩, ⟨.ofMark .semicolon, some 1⟩, ⟨.ofMark .returnWord, some 1⟩,
      ⟨.identifier "x", some 1⟩, ⟨.ofMark .semicolon, some 1⟩, ⟨.eof, some 1⟩] := by cbv
  have hparse : parse (some "a/b") "print 1; return x;" =
      .ok [.printing (.integer 1 (some 1)) (some 1),
        .returning (.identifier "x" (some 1)) (some 1)] := by cbv
  obtain ⟨-, hone, -, ⟨dump, -, herror, hlisted, -⟩, -⟩ :=
    command_agrees_with_runFile read read (some "1") "a/b" rfl hnormal hoption
  rw [hrun] at hone herror
  obtain ⟨lines, tree, hlines, htree, rfl⟩ :=
    hlisted "1" _ _ _ rfl (by decide) htext htokens hparse
  have hwritten : lines = ["Token(PRINT, 'print', line=1)", "Token(INTEGER, 1, line=1)",
      "Token(SEMICOLON, ';', line=1)", "Token(RETURN, 'return', line=1)",
      "Token(IDENTIFIER, 'x', line=1)", "Token(SEMICOLON, ';', line=1)",
      "Token(EOF, None, line=1)"] := by
    refine List.map_injective_iff.2 (Option.some_injective _) (hlines.symm.trans ?_)
    decide +kernel
  have hprogram : tree = "print 1;\nreturn x;" := by
    rw [← (Tree.render_eq_ok_iff.1 htree).2]
    decide
  refine ⟨htext, hnormal, hoption, (herror _ rfl).1, hone.2 ⟨_, rfl, by decide⟩, ?_⟩
  rw [(herror _ rfl).2.1 (by decide), hwritten, hprogram]
  decide +kernel

end LetScript
