import LetScript.Proofs.Lookahead
import LetScript.Session

/-
  What a request does in a session, and the sessions that requests lead to.

  A request that runs or evaluates comes down to statements or to an expression, once its source
  text is read (`statements?`, `tree?`). `Serves` gives the rules by which it is answered, and it is
  answered by one of them (`serves`). A text that is not read is refused with a fault that no
  statement and no operator has (`stage_of_parse`). `Reached` are the sessions after any number of
  requests of some sort, so what each of them preserves holds in all these sessions.
-/

namespace LetScript

variable {file : Option String} {source : String} {f : Fault}

/-! ## Texts that are refused -/

theorem stage_of_reading {p : Piece} {c : Cause} (h : p.reading = .refuse c) :
    c.stage? ≠ some .running := by
  cases p with
  | digits run =>
    rw [Piece.reading] at h
    split at h
    · cases h; simp [Cause.stage?]
    · split at h <;> cases h
      simp [Cause.stage?]
  | unclosed quote body => cases h; simp [Cause.stage?]
  | stray c => cases h; simp [Cause.stage?]
  | _ => cases h

theorem stage_of_ofPieces {line : Nat} {ps : List Piece}
    (h : (Scan.ofPieces file line ps).fault = some f) : f.cause.stage? ≠ some .running := by
  induction ps generalizing line with
  | nil => cases h
  | cons p ps ih =>
    rw [Scan.ofPieces] at h
    cases hreading : p.reading with
    | skip =>
      rw [hreading] at h
      exact ih h
    | refuse cause =>
      rw [hreading] at h
      obtain rfl := Option.some.inj h
      rw [Fault.cause_placed]
      exact stage_of_reading hreading
    | lexeme l =>
      rw [hreading] at h
      exact ih h

theorem stage_of_tokenize (h : tokenize file source = .error f) :
    f.cause.stage? ≠ some .running := by
  rw [tokenize, Scan.result] at h
  cases hfault : (Scan.ofText file source).fault with
  | none => rw [hfault] at h; cases h
  | some f' =>
    rw [hfault] at h
    cases h
    exact stage_of_ofPieces hfault

theorem stage_of_local {α : Type} {x : Reader α} {q r : List Token} (hx : Reader.LocalAt file x q)
    (h : x q = .error f r) : f.cause.stage? ≠ some .running := by
  obtain ⟨taken, -, hpoints, -⟩ := hx.error h
  obtain ⟨hstage, -⟩ | ⟨rfl, -⟩ := hpoints.parsing
  · rw [hstage]
    decide
  · decide

/-- The fault of a text that is not read as statements is none of running them. -/
theorem stage_of_parse (h : parse file source = .error f) : f.cause.stage? ≠ some .running := by
  unfold parse at h
  cases hts : tokenize file source with
  | error f' =>
    rw [hts] at h
    cases h
    exact stage_of_tokenize hts
  | ok ts =>
    simp only [hts] at h
    split at h
    · cases h
    next f' rest hread =>
      cases h
      exact stage_of_local (Reader.local_program ts) hread

/-- Nor is the fault of a text that is not read as an expression. -/
theorem stage_of_parseExpr (h : parseExpr file source = .error f) :
    f.cause.stage? ≠ some .running := by
  unfold parseExpr at h
  cases hts : tokenize file source with
  | error f' =>
    rw [hts] at h
    cases h
    exact stage_of_tokenize hts
  | ok ts =>
    simp only [hts] at h
    split at h
    · cases h
    next f' rest hread =>
      cases h
      exact stage_of_local (Reader.local_expr ts) hread

theorem toOption_eq_some_iff {α : Type} {x : Except Fault α} {a : α} :
    x.toOption = some a ↔ x = .ok a := by
  cases x <;> simp [Except.toOption]

/-- Running a text that is read is running its statements. -/
theorem executeSource_of_parse {p : List Tree} (h : parse file source = .ok p) (env : Env) :
    executeSource file env source = execute file env p := by
  unfold executeSource
  rw [h]

/-! ## Requests -/

namespace Session

/-- Whether a request runs statements or evaluates an expression. -/
def Request.isStep : Request → Bool
  | .apply .. | .emit _ => false
  | _ => true

/-- The statements that a request runs, if it runs any and its text is read. -/
def Request.statements? (file : Option String) : Request → Option (List Tree)
  | .run source | .execute source => (parse file source).toOption
  | .runTrees ss | .executeTrees ss => some ss
  | _ => none

/-- The expression that a request evaluates, if it evaluates one and its text is read. -/
def Request.tree? (file : Option String) : Request → Option Tree
  | .eval source => (parseExpr file source).toOption
  | .evalTree t => some t
  | _ => none

/-- How the ending of a run is answered: by the result of the run, or as it is. -/
inductive Reports : Ending → Answer → Prop
  | zero : Reports .through (.value (.integer 0))
  | done : Reports .through .done
  | value {v : Value} : Reports (.returned v) (.value v)
  | returned {v : Value} : Reports (.returned v) (.returned v)
  | failed {f : Fault} : Reports (.failed f) (.failed f)

theorem reports_result (r : LetScript.Run) : Reports r.ending (.ofExcept r.result) := by
  rw [Run.result]
  cases r.ending with
  | through => exact .zero
  | returned v => exact .value
  | failed f => exact .failed

theorem reports_ending (ending : Ending) : Reports ending (.ofEnding ending) := by
  cases ending with
  | through => exact .done
  | returned v => exact .returned
  | failed f => exact .failed

theorem ofEnding_eq_done_iff {ending : Ending} :
    Answer.ofEnding ending = .done ↔ ending = .through := by
  cases ending <;> simp [Answer.ofEnding]

/-- The rules by which requests are served: statements are run, an expression is evaluated, or a
    text is not read and nothing changes. -/
inductive Serves (s : Session) (q : Request) : Response → Prop
  | statements {ss : List Tree} {answer : Answer} : q.statements? s.file = some ss →
    Reports (LetScript.execute s.file s.env ss).ending answer →
      Serves s q (s.respond (LetScript.execute s.file s.env ss) answer)
  | tree {t : Tree} : q.tree? s.file = some t →
    Serves s q (s.unchanged (t.evaluate s.file s.env))
  | unread {f : Fault} : q.statements? s.file = none → f.cause.stage? ≠ some .running →
    Serves s q (s.unchanged (.error f))

/-- Every run and every evaluation is served by one of the rules. -/
theorem serves (s : Session) {q : Request} (hq : q.isStep = true) : Serves s q (s.serve q) := by
  cases q with
  | run source | execute source =>
    simp only [serve, executeSource]
    cases hp : parse s.file source with
    | error f => exact .unread (by rw [Request.statements?, hp]; rfl) (stage_of_parse hp)
    | ok ss =>
      refine .statements (by rw [Request.statements?, hp]; rfl) ?_
      first | exact reports_result _ | exact reports_ending _
  | runTrees ss => exact .statements rfl (reports_result _)
  | executeTrees ss => exact .statements rfl (reports_ending _)
  | eval source =>
    simp only [serve]
    cases ht : parseExpr s.file source with
    | error f => exact .unread rfl (stage_of_parseExpr ht)
    | ok t => exact .tree (by rw [Request.tree?, ht]; rfl)
  | evalTree t => exact .tree rfl
  | apply | emit => cases hq

/-- The sessions after any number of allowed requests, served or refused, from one without
    bindings. -/
inductive Reached (allowed : Request → Bool) (file : Option String) : Session → Prop
  | new : Reached allowed file (new file)
  | serve {s : Session} {q : Request} : Reached allowed file s → allowed q = true →
    Reached allowed file (s.serve q).session

end Session

end LetScript
