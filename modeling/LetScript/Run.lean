import LetScript.Eval

/-
  Running statements. Each statement has one effect: it binds a name, writes a line, ends the run
  with a value, or fails. A run keeps what was bound and written before it ended. A run that no
  `return` ends has the result 0.

  Main statements: `execute_append_of_through` and `execute_append_of_ended` (statements in two
  parts run one part after the other, and nothing runs after a part that ended).
-/

namespace LetScript

/-- What one statement does. -/
inductive Effect
  | bind (name : String) (value : Value)
  | write (text : String)
  | finish (value : Value)
  | fail (fault : Fault)

/-- How a run ends: past its last statement, at a `return`, or at a failing statement. -/
inductive Ending
  | through
  | returned (value : Value)
  | failed (fault : Fault)

/-- A run: the bindings after it, the lines that it wrote, and how it ended. -/
structure Run where
  env : Env
  lines : List String
  ending : Ending

/-- The value of an optional expression. -/
def Tree.evaluateOr (file : Option String) (env : Env) (default : Value) (t : Tree) :
    Except Fault Value :=
  if t.isAbsent then .ok default else t.evaluate file env

/-- What a statement does. A name is looked up only after the value of its `let` is known. -/
def Tree.effect (file : Option String) (env : Env) : Tree → Effect
  | .binding name _ value line =>
    match value.evaluate file env with
    | .error f => .fail f
    | .ok v =>
      if (env.lookup name).isSome then .fail ⟨.alreadyDefined name, line, file⟩ else .bind name v
  | .printing value _ =>
    match value.evaluateOr file env (.string "") with
    | .error f => .fail f
    | .ok v =>
      match v.display? with
      | some text => .write text
      | none => .fail (.unplaced .unwritable)
  | .returning value _ =>
    match value.evaluateOr file env (.integer 0) with
    | .error f => .fail f
    | .ok v => .finish v
  | t => .fail (.unplaced (.notStatement t))

/-- Runs statements in order. -/
def execute (file : Option String) (env : Env) : List Tree → Run
  | [] => ⟨env, [], .through⟩
  | s :: ss =>
    match s.effect file env with
    | .bind name v => execute file (env ++ [(name, v)]) ss
    | .write text =>
      let rest := execute file env ss
      ⟨rest.env, text :: rest.lines, rest.ending⟩
    | .finish v => ⟨env, [], .returned v⟩
    | .fail f => ⟨env, [], .failed f⟩

/-- Lines as output text. -/
def outText (lines : List String) : String := String.join (lines.map (· ++ "\n"))

namespace Run

/-- The result: the returned value, or 0. -/
def result (r : Run) : Except Fault Value :=
  match r.ending with
  | .through => .ok (.integer 0)
  | .returned v => .ok v
  | .failed f => .error f

/-- The output text. -/
def out (r : Run) : String := outText r.lines

theorem result_eq_error_iff {r : Run} {f : Fault} : r.result = .error f ↔ r.ending = .failed f := by
  unfold result
  split <;> simp [*]

end Run

/-! ## Statements in two parts -/

variable {file : Option String}

theorem execute_append_of_through (env : Env) (as bs : List Tree)
    (h : (execute file env as).ending = .through) :
    execute file env (as ++ bs) =
      let first := execute file env as
      let second := execute file first.env bs
      ⟨second.env, first.lines ++ second.lines, second.ending⟩ := by
  induction as generalizing env with
  | nil => rfl
  | cons s ss ih =>
    simp only [List.cons_append, execute] at h ⊢
    cases hs : s.effect file env with
    | bind name v => simp only [hs] at h ⊢; exact ih _ h
    | write text => simp only [hs] at h ⊢; rw [ih _ h]; rfl
    | finish v => simp [hs] at h
    | fail f => simp [hs] at h

theorem execute_append_of_ended (env : Env) (as bs : List Tree)
    (h : (execute file env as).ending ≠ .through) :
    execute file env (as ++ bs) = execute file env as := by
  induction as generalizing env with
  | nil => exact absurd rfl h
  | cons s ss ih =>
    simp only [List.cons_append, execute] at h ⊢
    cases hs : s.effect file env with
    | bind name v => simp only [hs] at h ⊢; exact ih _ h
    | write text => simp only [hs] at h ⊢; rw [ih _ h]
    | finish v => rfl
    | fail f => rfl

end LetScript
