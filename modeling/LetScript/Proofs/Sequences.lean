import LetScript.Proofs.AppendOnly

/-
  Statements in two parts, in a session, and the `return` that gives the result of a run.

  A part that is run through hands its bindings to the part behind it. A part that ends in a `return`
  or in a fault is all that is run, whatever stands behind it (`serve_append_of_done`,
  `serve_append_of_ended`). No statement that is run through is a `return` (`not_isReturn_of_through`),
  so the `return` at which a run ends is the first one of its statements (`result_execute_eq_ok_iff`).

  Main statement: `parts_run_in_sequence`.
-/

namespace LetScript

/-- Whether a statement is a `return`. -/
def Tree.isReturn : Tree → Bool
  | .returning .. => true
  | _ => false

variable {file : Option String} {env : Env}

/-! ## The first `return` -/

/-- A statement that binds or writes is no `return`. -/
theorem not_isReturn_of_effect {s : Tree} (h : (s.effect file env).ending? = none) :
    s.isReturn = false := by
  cases hs : s.effect file env with
  | bind name v =>
    cases acts_of_effect hs
    rfl
  | write text =>
    cases acts_of_effect hs
    rfl
  | finish v => rw [hs] at h; cases h
  | fail f => rw [hs] at h; cases h

theorem not_isReturn_of_through {ss : List Tree} (h : (execute file env ss).ending = .through) :
    ∀ x ∈ ss, x.isReturn = false := by
  fun_induction execute file env ss with
  | case1 => simp
  | case2 env s ss name v hs ih =>
    have hhead : s.isReturn = false := not_isReturn_of_effect (by rw [hs]; rfl)
    exact List.forall_mem_cons.2 ⟨hhead, ih h⟩
  | case3 env s ss text hs rest ih =>
    have hhead : s.isReturn = false := not_isReturn_of_effect (by rw [hs]; rfl)
    exact List.forall_mem_cons.2 ⟨hhead, ih h⟩
  | case4 => cases h
  | case5 => cases h

/-- A run has the value of the `return` that it gets to, or 0 if it gets through. -/
theorem result_execute_eq_ok_iff {ss : List Tree} {v : Value} :
    (execute file env ss).result = .ok v ↔
      (∃ before value line after, ss = before ++ .returning value line :: after ∧
        (execute file env before).ending = .through ∧
        value.evaluateOr file (execute file env before).env (.integer 0) = .ok v) ∨
      (execute file env ss).ending = .through ∧ v = .integer 0 := by
  constructor
  · intro h
    cases hend : (execute file env ss).ending with
    | through =>
      rw [Run.result, hend] at h
      exact .inr ⟨rfl, (Except.ok.inj h).symm⟩
    | returned w =>
      rw [Run.result, hend] at h
      obtain rfl := Except.ok.inj h
      obtain ⟨s, e, ⟨before, after, rfl, hthrough, rfl⟩, hs⟩ := arrives_of_returned hend
      cases acts_of_effect hs with
      | finish hvalue => exact .inl ⟨before, _, _, after, rfl, hthrough, hvalue⟩
    | failed f =>
      rw [Run.result, hend] at h
      cases h
  · rintro (⟨before, value, line, after, rfl, hthrough, hvalue⟩ | ⟨hthrough, rfl⟩)
    · have hstop : ((Tree.returning value line).effect file (execute file env before).env).ending? =
          some (.returned v) := by
        rw [Tree.effect, hvalue]
        rfl
      rw [execute_stop hthrough hstop after]
      rfl
    · rw [Run.result, hthrough]

/-! ## Parts in a session -/

namespace Session

variable {s : Session} {as : List Tree} {ask : List Tree → Request}

/-- The requests that run statements: one is answered by how the run ends, the other by its
    result. -/
def runners : List (List Tree → Request) := [.executeTrees, .runTrees]

theorem serve_append_of_ended (hask : ask ∈ runners)
    (h : (LetScript.execute s.file s.env as).ending ≠ .through) (bs : List Tree) :
    s.serve (ask (as ++ bs)) = s.serve (ask as) := by
  have hrun := execute_append_of_ended s.env as bs h
  simp only [runners, List.mem_cons, List.not_mem_nil, or_false] at hask
  obtain rfl | rfl := hask
  · simp only [serve, hrun]
  · simp only [serve, hrun]

/-- The part behind statements that are run through is run in the session that they leave. -/
theorem serve_append_of_done (hask : ask ∈ runners)
    (h : (LetScript.execute s.file s.env as).ending = .through) (bs : List Tree) :
    let first := s.serve (.executeTrees as)
    let second := first.session.serve (ask bs)
    s.serve (ask (as ++ bs)) = ⟨second.answer, first.lines ++ second.lines, second.session⟩ := by
  have hrun := execute_append_of_through s.env as bs h
  simp only [runners, List.mem_cons, List.not_mem_nil, or_false] at hask
  obtain rfl | rfl := hask
  · simp only [serve, hrun]
    rfl
  · simp only [serve, hrun]
    rfl

theorem answer_runTrees_eq_value_iff {v : Value} :
    (s.serve (.runTrees as)).answer = .value v ↔
      (LetScript.execute s.file s.env as).result = .ok v := by
  simp only [serve, respond]
  cases (LetScript.execute s.file s.env as).result <;> simp [Answer.ofExcept]

end Session

/-- In every session, and for statements of any sort in two parts: where the first part ends in a
    `return` or in a fault, both parts give what the first part gives, the answer, the output and the
    bindings. Otherwise they give what the second part gives in the session that the first one leaves,
    with the output of both. So the result of a run is the value of its first `return`, with all before
    it run through, or 0 if it is run through without one. -/
theorem parts_run_in_sequence (s : Session) (as bs : List Tree) :
    let first := s.serve (.executeTrees as)
    (first.answer ≠ .done → ∀ ask ∈ Session.runners,
      s.serve (ask (as ++ bs)) = s.serve (ask as)) ∧
    (first.answer = .done → ∀ ask ∈ Session.runners,
      let second := first.session.serve (ask bs)
      s.serve (ask (as ++ bs)) = ⟨second.answer, first.lines ++ second.lines, second.session⟩) ∧
    ∀ v, (s.serve (.runTrees as)).answer = .value v ↔
      (∃ before value line after, as = before ++ .returning value line :: after ∧
        (∀ x ∈ before, x.isReturn = false) ∧ (s.serve (.executeTrees before)).answer = .done ∧
        value.evaluateOr s.file (s.serve (.executeTrees before)).session.env (.integer 0) = .ok v) ∨
      (∀ x ∈ as, x.isReturn = false) ∧ first.answer = .done ∧ v = .integer 0 := by
  intro first
  have hdone : ∀ {ss}, (s.serve (.executeTrees ss)).answer = .done ↔
      (execute s.file s.env ss).ending = .through := Session.answer_executeTrees_eq_done_iff
  refine ⟨?_, ?_, ?_⟩
  · intro hended ask hask
    exact Session.serve_append_of_ended hask (mt hdone.2 hended) bs
  · intro hthrough ask hask
    exact Session.serve_append_of_done hask (hdone.1 hthrough) bs
  · intro v
    rw [Session.answer_runTrees_eq_value_iff, result_execute_eq_ok_iff]
    constructor
    · rintro (⟨before, value, line, after, rfl, hthrough, hvalue⟩ | ⟨hthrough, rfl⟩)
      · exact .inl ⟨before, value, line, after, rfl, not_isReturn_of_through hthrough,
          hdone.2 hthrough, hvalue⟩
      · exact .inr ⟨not_isReturn_of_through hthrough, hdone.2 hthrough, rfl⟩
    · rintro (⟨before, value, line, after, rfl, -, hthrough, hvalue⟩ | ⟨-, hthrough, rfl⟩)
      · exact .inl ⟨before, value, line, after, rfl, hdone.1 hthrough, hvalue⟩
      · exact .inr ⟨hdone.1 hthrough, rfl⟩

/-- Behind a bare `return` stand a tree that is no statement and a name that is not bound. -/
theorem parts_run_in_sequence_dead_code :
    ((Session.new none).serve (.executeTrees [.printing (.string "a" none) none,
      .returning .absent none])).answer ≠ .done ∧
    (Session.new none).serve (.runTrees ([.printing (.string "a" none) none,
      .returning .absent none] ++ [.absent, .printing (.identifier "x" none) none])) =
        ⟨.value (.integer 0), ["a"], Session.new none⟩ := by
  have hended : ((Session.new none).serve (.executeTrees [.printing (.string "a" none) none,
      .returning .absent none])).answer ≠ .done := nofun
  exact ⟨hended, (parts_run_in_sequence _ _ _).1 hended .runTrees (by simp [Session.runners])⟩

end LetScript
