import LetScript.Proofs.Effects
import LetScript.Proofs.Histories
import Mathlib

/-
  Bindings are only added, and a statement that ends a run leaves nothing behind.

  A run is through with the statements before the one at which it ends, and what it has bound and
  written is what these bind and write (`execute_stop`, `exists_completed`). The bindings that they
  add have the names of the `let` statements among them, in order (`exists_added`). A `let` checks
  that its name is free before it binds, so no name is bound twice, whatever was asked in the
  session before (`Session.Reached.nodup`).

  Main statement: `session_append_only`.
-/

namespace LetScript

/-- The name that a statement binds, if it is a `let`. -/
def Tree.boundName? : Tree → Option String
  | .binding name _ _ _ => some name
  | _ => none

/-- How an effect ends the run, if it does. -/
def Effect.ending? : Effect → Option Ending
  | .bind _ _ | .write _ => none
  | .finish v => some (.returned v)
  | .fail f => some (.failed f)

variable {file : Option String} {env : Env}

/-! ## The statements that a run completes -/

theorem execute_cons_stop {s : Tree} {ending : Ending}
    (hstop : (s.effect file env).ending? = some ending) (after : List Tree) :
    execute file env (s :: after) = ⟨env, [], ending⟩ := by
  unfold execute
  cases hs : s.effect file env with
  | bind | write => rw [hs] at hstop; cases hstop
  | finish | fail => rw [hs] at hstop; cases hstop; rfl

/-- A run that ends at a statement has bound and written what the statements before it have. -/
theorem execute_stop {before : List Tree} {s : Tree} {ending : Ending}
    (hthrough : (execute file env before).ending = .through)
    (hstop : (s.effect file (execute file env before).env).ending? = some ending)
    (after : List Tree) :
    execute file env (before ++ s :: after) =
      ⟨(execute file env before).env, (execute file env before).lines, ending⟩ := by
  have hrest := execute_cons_stop hstop after
  rw [execute_append_of_through env before (s :: after) hthrough]
  dsimp only
  rw [hrest, List.append_nil]

/-- A run of `done ++ rest` completes `done`: it ends there, or at the first statement of `rest`, and
    it has bound and written what `done` has. -/
structure Completes (file : Option String) (env : Env) (done rest : List Tree) : Prop where
  through : (execute file env done).ending = .through
  env_eq : (execute file env (done ++ rest)).env = (execute file env done).env
  lines_eq : (execute file env (done ++ rest)).lines = (execute file env done).lines
  stop : ∀ {next after}, rest = next :: after → (execute file env (done ++ rest)).ending ≠ .through ∧
    (execute file env (done ++ [next])).ending = (execute file env (done ++ rest)).ending

/-- The statements before the one at which a run ends are completed. -/
theorem Arrives.completes {ss : List Tree} {s : Tree} {e : Env} {ending : Ending}
    (h : Arrives file env ss s e) (hstop : (s.effect file e).ending? = some ending) :
    ∃ done rest, ss = done ++ rest ∧ Completes file env done rest := by
  obtain ⟨before, after, rfl, hthrough, rfl⟩ := h
  have hrun := execute_stop hthrough hstop after
  have hends : ending ≠ .through := by
    rintro rfl
    cases heffect : s.effect file (execute file env before).env <;> rw [heffect] at hstop <;>
      cases hstop
  refine ⟨before, s :: after, rfl, hthrough, by rw [hrun], by rw [hrun], ?_⟩
  intro next after' hnext
  obtain ⟨rfl, rfl⟩ := List.cons.inj hnext
  rw [hrun, execute_stop hthrough hstop []]
  exact ⟨hends, rfl⟩

/-- A run completes all its statements, or those before the one at which it ends. -/
theorem exists_completed (file : Option String) (env : Env) (ss : List Tree) :
    ∃ done rest, ss = done ++ rest ∧ Completes file env done rest := by
  cases hend : (execute file env ss).ending with
  | through =>
    exact ⟨ss, [], (List.append_nil ss).symm, hend, by rw [List.append_nil],
      by rw [List.append_nil], fun h => nomatch h⟩
  | returned v =>
    obtain ⟨s, e, harrives, hs⟩ := arrives_of_returned hend
    have hstop : (s.effect file e).ending? = some (.returned v) := by rw [hs]; rfl
    exact harrives.completes hstop
  | failed f =>
    obtain ⟨s, e, harrives, hs⟩ := arrives_of_failed hend
    have hstop : (s.effect file e).ending? = some (.failed f) := by rw [hs]; rfl
    exact harrives.completes hstop

/-! ## Names that are bound -/

/-- Statements that are run through add the bindings of their `let` statements. -/
theorem exists_added {ss : List Tree} (h : (execute file env ss).ending = .through) :
    ∃ added, (execute file env ss).env = env ++ added ∧
      added.map Prod.fst = ss.filterMap Tree.boundName? := by
  fun_induction execute file env ss with
  | case1 => exact ⟨[], (List.append_nil _).symm, rfl⟩
  | case2 env s ss name v hs ih =>
    obtain ⟨added, henv, hnames⟩ := ih h
    have hname : s.boundName? = some name := by
      cases acts_of_effect hs
      rfl
    refine ⟨(name, v) :: added, ?_, ?_⟩
    · rw [henv, List.append_assoc]
      rfl
    · rw [List.filterMap_cons_some hname, List.map_cons, hnames]
  | case3 env s ss text hs rest ih =>
    obtain ⟨added, henv, hnames⟩ := ih h
    have hname : s.boundName? = none := by
      cases acts_of_effect hs
      rfl
    refine ⟨added, henv, ?_⟩
    rw [List.filterMap_cons_none hname, hnames]
  | case4 => cases h
  | case5 => cases h

theorem not_mem_of_lookup {name : String} (h : env.lookup name = none) :
    name ∉ env.map Prod.fst := by
  intro hmem
  obtain ⟨b, hb, rfl⟩ := List.mem_map.1 hmem
  have hne := List.lookup_eq_none_iff.1 h b hb
  simp at hne

/-- A `let` binds a name that is free. -/
theorem nodup_of_bind {s : Tree} {name : String} {v : Value} (h : (env.map Prod.fst).Nodup)
    (hs : s.effect file env = .bind name v) : ((env ++ [(name, v)]).map Prod.fst).Nodup := by
  cases acts_of_effect hs with
  | bind _ hfree =>
    rw [List.map_append, List.nodup_append]
    refine ⟨h, by simp, fun a ha b hb => ?_⟩
    obtain rfl := List.mem_singleton.1 hb
    rintro rfl
    exact not_mem_of_lookup hfree ha

theorem execute_nodup (ss : List Tree) (h : (env.map Prod.fst).Nodup) :
    ((execute file env ss).env.map Prod.fst).Nodup :=
  execute_preserves (P := fun e => (e.map Prod.fst).Nodup) h fun _ _ _ _ _ => nodup_of_bind

theorem prefix_execute (file : Option String) (env : Env) (ss : List Tree) :
    env <+: (execute file env ss).env := by
  refine execute_preserves (P := fun e => env <+: e) (List.prefix_refl env) ?_
  intro s _ e name v he _
  exact he.trans (List.prefix_append e [(name, v)])

/-! ## Requests -/

namespace Session

variable {s : Session} {q : Request}

/-- A request that runs statements is answered by their run. -/
theorem serve_of_statements? {ss : List Tree} (h : q.statements? s.file = some ss) :
    ∃ answer, Reports (LetScript.execute s.file s.env ss).ending answer ∧
      s.serve q = s.respond (LetScript.execute s.file s.env ss) answer := by
  cases q with
  | run source =>
    have hsource := executeSource_of_parse (toOption_eq_some_iff.1 h) s.env
    exact ⟨_, reports_result _, by simp only [serve, hsource]⟩
  | execute source =>
    have hsource := executeSource_of_parse (toOption_eq_some_iff.1 h) s.env
    exact ⟨_, reports_ending _, by simp only [serve, hsource]⟩
  | runTrees => cases h; exact ⟨_, reports_result _, rfl⟩
  | executeTrees => cases h; exact ⟨_, reports_ending _, rfl⟩
  | _ => cases h

/-- A text that is not read changes nothing. -/
theorem serve_of_parse_error {source : String} {f : Fault} (h : parse s.file source = .error f)
    (hq : q = .run source ∨ q = .execute source) : s.serve q = ⟨.failed f, [], s⟩ := by
  have hsource : executeSource s.file s.env source = ⟨s.env, [], .failed f⟩ := by
    unfold executeSource
    rw [h]
  obtain rfl | rfl := hq
  · simp only [serve, hsource]
    rfl
  · simp only [serve, hsource]
    rfl

/-- A request without statements to run leaves the session as it is. -/
theorem session_of_statements?_none (h : q.statements? s.file = none) :
    (s.serve q).session = s := by
  cases q with
  | run source | execute source =>
    cases hp : parse s.file source with
    | error f => rw [serve_of_parse_error hp (by simp)]
    | ok ss => rw [Request.statements?, hp] at h; cases h
  | runTrees | executeTrees => cases h
  | eval source =>
    simp only [serve]
    cases parseExpr s.file source <;> rfl
  | evalTree | apply | emit => rfl

/-- Whatever is asked, no binding is changed or taken back. -/
theorem prefix_serve (s : Session) (q : Request) : s.env <+: (s.serve q).session.env := by
  cases h : q.statements? s.file with
  | none =>
    have henv : (s.serve q).session.env = s.env :=
      congrArg Session.env (session_of_statements?_none h)
    exact ⟨[], by rw [henv, List.append_nil]⟩
  | some ss =>
    obtain ⟨answer, -, hserve⟩ := serve_of_statements? h
    rw [hserve]
    exact prefix_execute s.file s.env ss

theorem nodup_serve (h : (s.env.map Prod.fst).Nodup) (q : Request) :
    ((s.serve q).session.env.map Prod.fst).Nodup := by
  cases hq : q.statements? s.file with
  | none => rw [session_of_statements?_none hq]; exact h
  | some ss =>
    obtain ⟨answer, -, hserve⟩ := serve_of_statements? hq
    rw [hserve]
    exact execute_nodup ss h

/-- In every session that requests lead to, no name is bound twice. -/
theorem Reached.nodup {allowed : Request → Bool} (h : Reached allowed file s) :
    (s.env.map Prod.fst).Nodup := by
  induction h with
  | new => exact List.nodup_nil
  | serve _ _ ih => exact nodup_serve ih _

theorem Reports.failed_iff {ending : Ending} {answer : Answer} (h : Reports ending answer)
    (f : Fault) : answer = .failed f ↔ ending = .failed f := by
  cases h <;> simp

theorem answer_executeTrees_eq_done_iff {ss : List Tree} :
    (s.serve (.executeTrees ss)).answer = .done ↔
      (LetScript.execute s.file s.env ss).ending = .through :=
  ofEnding_eq_done_iff

/-- A request fails exactly where the first statement that it does not complete fails. -/
theorem failed_iff_of_completes {done rest : List Tree} {f : Fault}
    (h : Completes s.file s.env done rest) (hq : q.statements? s.file = some (done ++ rest)) :
    (s.serve q).answer = .failed f ↔ ∃ next after, rest = next :: after ∧
      (s.serve (.executeTrees (done ++ [next]))).answer = .failed f := by
  obtain ⟨answer, hreports, hserve⟩ := serve_of_statements? hq
  have hanswer : (s.serve q).answer = answer := by rw [hserve]; rfl
  rw [hanswer, hreports.failed_iff]
  cases rest with
  | nil =>
    rw [List.append_nil, h.through]
    simp
  | cons next after =>
    have hnext := (h.stop rfl).2
    have hreports' : Reports (LetScript.execute s.file s.env (done ++ [next])).ending
        (s.serve (.executeTrees (done ++ [next]))).answer := reports_ending _
    rw [← hnext, ← hreports'.failed_iff]
    constructor
    · intro hf
      exact ⟨next, after, rfl, hf⟩
    · rintro ⟨next', after', heq, hf⟩
      obtain ⟨rfl, rfl⟩ := List.cons.inj heq
      exact hf

end Session

/-- After any requests and for any next one, no name is bound twice, and the bindings before the
    request are the first ones after it. A request that runs statements completes some of them, from
    the first on: these alone, run from the same bindings, are done, and with the next statement
    they are not. The request binds and writes what they do, the names bound are those of their
    `let` statements, in order, and it fails exactly if the next statement fails. A text that is not
    read binds and writes nothing. -/
theorem session_append_only (file : Option String) (s : Session)
    (hs : Session.Reached (fun _ => true) file s) (q : Session.Request) :
    (s.env.map Prod.fst).Nodup ∧ ((s.serve q).session.env.map Prod.fst).Nodup ∧
    s.env <+: (s.serve q).session.env ∧
    (∀ ss, q.statements? s.file = some ss → ∃ done rest, ss = done ++ rest ∧
      (s.serve (.executeTrees done)).answer = .done ∧
      (∀ next after, rest = next :: after →
        (s.serve (.executeTrees (done ++ [next]))).answer ≠ .done) ∧
      (s.serve q).session = (s.serve (.executeTrees done)).session ∧
      (s.serve q).lines = (s.serve (.executeTrees done)).lines ∧
      (∃ added, (s.serve q).session.env = s.env ++ added ∧
        added.map Prod.fst = done.filterMap Tree.boundName?) ∧
      ∀ f, (s.serve q).answer = .failed f ↔ ∃ next after, rest = next :: after ∧
        (s.serve (.executeTrees (done ++ [next]))).answer = .failed f) ∧
    ∀ source f, q = .run source ∨ q = .execute source → parse s.file source = .error f →
      s.serve q = ⟨.failed f, [], s⟩ := by
  have hnodup := hs.nodup
  refine ⟨hnodup, Session.nodup_serve hnodup q, Session.prefix_serve s q, fun ss hss => ?_,
    fun source f hq hp => Session.serve_of_parse_error hp hq⟩
  obtain ⟨answer, -, hserve⟩ := Session.serve_of_statements? hss
  obtain ⟨done, rest, rfl, hdone⟩ := exists_completed s.file s.env ss
  obtain ⟨added, henv, hnames⟩ := exists_added hdone.through
  refine ⟨done, rest, rfl, ?_, ?_, ?_, ?_, ⟨added, ?_, hnames⟩, ?_⟩
  · exact Session.answer_executeTrees_eq_done_iff.2 hdone.through
  · intro next after hrest hnext
    obtain ⟨hends, hsame⟩ := hdone.stop hrest
    rw [Session.answer_executeTrees_eq_done_iff, hsame] at hnext
    exact hends hnext
  · rw [hserve]
    exact congrArg (Session.mk s.file) hdone.env_eq
  · rw [hserve]
    exact hdone.lines_eq
  · rw [hserve, ← henv]
    exact hdone.env_eq
  · exact fun f => Session.failed_iff_of_completes hdone hss

/-- After a text that is not read and a run that fails, a run prints, binds, and fails at a name that
    an earlier one has bound. -/
theorem session_append_only_rebinding :
    ∃ (s : Session) (q : Session.Request) (ss : List Tree),
      s = (((Session.new none).serve (.run "let x")).session.serve
        (.executeTrees [.binding "x" none (.integer 1 none) none,
          .printing (.identifier "y" none) none])).session ∧
      q = .run "print x; let z = x; let x = 2; print 5;" ∧
      Session.Reached (fun _ => true) none s ∧ q.statements? s.file = some ss ∧
      (s.serve q).session.env = [("x", .integer 1), ("z", .integer 1)] ∧ (s.serve q).lines = ["1"] ∧
      s.env <+: (s.serve q).session.env ∧
      ∃ done rest, ss = done ++ rest ∧ (s.serve (.executeTrees done)).answer = .done ∧
        (s.serve q).lines = (s.serve (.executeTrees done)).lines ∧
        ∃ added, (s.serve q).session.env = s.env ++ added ∧
          added.map Prod.fst = done.filterMap Tree.boundName? := by
  have hs : Session.Reached (fun _ => true) none
      (((Session.new none).serve (.run "let x")).session.serve
        (.executeTrees [.binding "x" none (.integer 1 none) none,
          .printing (.identifier "y" none) none])).session := .serve (.serve .new rfl) rfl
  have hq : Session.Request.statements? none (.run "print x; let z = x; let x = 2; print 5;") =
      some [.printing (.identifier "x" (some 1)) (some 1),
        .binding "z" (some 1) (.identifier "x" (some 1)) (some 1),
        .binding "x" (some 1) (.integer 2 (some 1)) (some 1),
        .printing (.integer 5 (some 1)) (some 1)] := by cbv
  obtain ⟨-, -, hbefore, hcompleted, -⟩ := session_append_only none _ hs
    (.run "print x; let z = x; let x = 2; print 5;")
  obtain ⟨done, rest, hsplit, hdone, -, -, hlines, hadded, -⟩ := hcompleted _ hq
  exact ⟨_, _, _, rfl, rfl, hs, hq, by cbv, by cbv, hbefore, done, rest, hsplit, hdone, hlines,
    hadded⟩

end LetScript
