import LetScript.Proofs.IntegerRange
import LetScript.Proofs.Relabeling
import LetScript.Proofs.SourceLines
import Mathlib

/-
  The faults of a script.

  A fault of running well-formed statements is that of an integer too long to be written, or it has
  one of five causes, the name of the session's file, and the line of a word of the statements
  (`Fault.Arises`). This goes from operators to expressions by induction on the expression, then to
  statements by the rules of `Acts`, then to the statement at which a run fails. Statements read from
  a source text are well formed, their words have lines of the text and their literals are in range.
  So no other fault comes out unless an integer out of range was bound in the session before, which
  no source text does.

  Main statement: `script_run_outcome`.
-/

namespace LetScript

open LetScript.Tree

/-- The causes of the faults that a script runs into. -/
def Cause.isScripted : Cause → Bool
  | .notDefined _ | .alreadyDefined _ | .typeMismatch .. | .divisionByZero | .overflow .. => true
  | _ => false

/-- The names under which they are reported. -/
def scriptTitles : List String :=
  ["UndefinedVariableException", "VariableRedefinedException", "TypeMismatchException",
    "DivisionByZeroException", "IntegerOverflowException"]

theorem title_mem_scriptTitles {c : Cause} (h : c.isScripted = true) : c.title ∈ scriptTitles := by
  cases c <;> first | (simp [Cause.title, scriptTitles]; done) | cases h

/-- The lines of a tree's words. -/
def Tree.lines (t : Tree) : List Line := t.inorder.map Entry.line

/-- A fault of a script, in a file and at one of some lines. -/
structure Fault.Arises (f : Fault) (file : Option String) (lines : List Line) : Prop where
  cause : f.cause.isScripted = true
  file_eq : f.file = file
  line_mem : f.line ∈ lines

variable {file : Option String} {env : Env} {f : Fault}

theorem Fault.Arises.mono {lines lines' : List Line} (h : f.Arises file lines)
    (hsub : lines ⊆ lines') : f.Arises file lines' :=
  ⟨h.cause, h.file_eq, hsub h.line_mem⟩

theorem lines_of_argument? {s t : Tree} (h : s.argument? = some t) : t.lines ⊆ s.lines := by
  obtain ⟨name, nameLine, line, rfl⟩ | ⟨-, line, rfl | rfl⟩ := argument?_eq_some h
  · exact List.Subset.trans (List.subset_cons_self _ _) (List.subset_cons_self _ _)
  · exact List.subset_cons_self _ _
  · exact List.subset_cons_self _ _

theorem inorder_subset_inorderAll {s : Tree} {ss : List Tree} (h : s ∈ ss) :
    s.inorder ⊆ inorderAll ss := by
  induction ss with
  | nil => cases h
  | cons t ss ih =>
    rw [inorderAll]
    obtain rfl | h := List.mem_cons.1 h
    · exact List.subset_append_left _ _
    · exact List.Subset.trans (ih h) (List.subset_append_right _ _)

/-! ## Expressions, statements and runs -/

section

variable (hshort : f ≠ .unplaced .unwritable)

include hshort

/-- An operator in a node of its own family fails at the node's line, and is never unknown. -/
theorem apply_arises {family : Family} {op : Op} (hop : op.family? = some family) {line : Line}
    {lhs rhs : Value} (h : family.apply file line op lhs rhs = .error f) :
    f.Arises file [line] := by
  cases applies_of_apply h with
  | longJoin | longOverflow => exact absurd rfl hshort
  | overflow | byZero | mismatch => exact ⟨rfl, rfl, List.mem_singleton_self line⟩
  | unknown hno => exact absurd hop hno

/-- An expression fails at a name or at an operator of its own. -/
theorem meaning_arises {t : Tree} (ht : t.isExpr = true) (h : t.meaning file env = .error f) :
    f.Arises file t.lines := by
  induction t, ht using expr_induction with
  | term t hterm =>
    cases t with
    | identifier name line =>
      simp only [meaning, leafValue] at h
      split at h
      · cases h
      · cases h
        exact ⟨rfl, rfl, List.mem_singleton_self line⟩
    | integer | string | boolean => cases h
    | _ => cases hterm
  | operation family left op right line hop hleft hright ihl ihr =>
    obtain ⟨m, -, -, hin⟩ := inorder_operation left right line hop
    have hlines : (Tree.operation family left op right line).lines =
        left.lines ++ line :: right.lines := by
      rw [Tree.lines, hin, List.map_append, List.map_cons]
      rfl
    rw [hlines]
    obtain hl | ⟨v, -, hr | ⟨w, -, hop'⟩⟩ := meaning_operation_eq_error_iff.1 h
    · exact (ihl hl).mono (List.subset_append_left _ _)
    · exact (ihr hr).mono
        (List.Subset.trans (List.subset_cons_self _ _) (List.subset_append_right _ _))
    · exact (apply_arises hshort hop hop').mono (by simp)

/-- A statement fails in its expression, or at the line of a `let` whose name is bound. -/
theorem effect_arises {s : Tree} (hs : s.isStatement = true) (h : s.effect file env = .fail f) :
    f.Arises file s.lines := by
  cases acts_of_effect h with
  | longWrite => exact absurd rfl hshort
  | rebind _ _ => exact ⟨rfl, rfl, List.mem_cons_self⟩
  | fail harg ht =>
    rw [evaluate, evalFrom_nil] at ht
    exact (meaning_arises hshort (isExpr_of_argument? hs harg) ht).mono (lines_of_argument? harg)
  | misplaced hno => rw [hs] at hno; cases hno

/-- A run of statements fails at a word of theirs. -/
theorem execute_arises {p : List Tree} (hp : ∀ s ∈ p, s.isStatement = true)
    (h : (execute file env p).ending = .failed f) :
    f.Arises file ((inorderAll p).map Entry.line) := by
  obtain ⟨s, e, harrives, hs⟩ := arrives_of_failed h
  have hfault := effect_arises hshort (hp s harrives.mem) hs
  exact hfault.mono (List.map_subset _ (inorder_subset_inorderAll harrives.mem))

end

/-! ## Scripts -/

theorem stage?_of_isScripted {c : Cause} (h : c.isScripted = true) : c.stage? ≠ none := by
  cases c <;> first | (simp [Cause.stage?]; done) | cases h

/-- Running statements fails with errors of the language, but for an integer that is too long to be
    written. -/
theorem stage?_of_result {p : List Tree} {env : Env} {f : Fault}
    (hp : ∀ s ∈ p, s.isStatement = true) (h : (execute file env p).result = .error f) :
    f.cause.stage? ≠ none ∨ f = .unplaced .unwritable := by
  refine or_iff_not_imp_right.2 fun hshort => ?_
  exact stage?_of_isScripted (execute_arises hshort hp (Run.result_eq_error_iff.1 h)).cause

/-- None of these faults tells anything of a tree. -/
theorem isTreeless_of_result {p : List Tree} {env : Env} {f : Fault}
    (hp : ∀ s ∈ p, s.isStatement = true) (h : (execute file env p).result = .error f) :
    f.cause.isTreeless = true := by
  obtain hstage | rfl := stage?_of_result hp h
  · exact Cause.isTreeless_of_stage hstage
  · rfl

/-- Running the text and running its statements are the same. -/
theorem serve_run_of_parse {source : String} {p : List Tree} (s : Session)
    (h : parse file source = .ok p) : s.serve (.run source) = s.serve (.runTrees p) := by
  have hsource : executeSource s.file s.env source = execute s.file s.env p := by
    rw [executeSource, parse_file h s.file]
  simp only [Session.serve, hsource]

/-- In every session, a program that was read from a source text runs to a value or into one of five
    errors, at a line of the text and in the session's file, unless it comes to an integer that is too
    long to be written. That needs an integer bound before that is out of range, and none is in a
    session that served source texts, or trees with literals in range. Whether the text or the
    statements read from it are run makes no difference. -/
theorem script_run_outcome (s : Session) (file : Option String) (source : String) (p : List Tree)
    (hp : parse file source = .ok p) :
    s.serve (.run source) = s.serve (.runTrees p) ∧
    ((∃ v, (s.serve (.runTrees p)).answer = .value v) ∨
      (∃ f n, (s.serve (.runTrees p)).answer = .failed f ∧ f.cause.title ∈ scriptTitles ∧
        f.file = s.file ∧ f.line = some n ∧ 1 ≤ n ∧ n ≤ 1 + Text.newlines source.toList) ∨
      (s.serve (.runTrees p)).answer = .failed (.unplaced .unwritable) ∧ ¬s.env.IsInRange) ∧
    ∀ file', Session.Reached Session.Request.isBounded file' s → s.env.IsInRange := by
  refine ⟨serve_run_of_parse s hp, ?_, fun _ => Session.Reached.inRange⟩
  have hstatements : ∀ t ∈ p, t.isStatement = true := fun _ => isStatement_of_parse hp
  have hanswer : (s.serve (.runTrees p)).answer =
      Session.Answer.ofExcept (execute s.file s.env p).result := rfl
  rw [hanswer]
  cases hresult : (execute s.file s.env p).result with
  | ok v => exact .inl ⟨v, rfl⟩
  | error f =>
    by_cases hlong : f = .unplaced .unwritable
    · subst hlong
      refine .inr (.inr ⟨rfl, fun henv => ?_⟩)
      exact not_unwritable_of_result (allBounded_of_parse hp) henv hstatements hresult
    · have hfault := execute_arises hlong hstatements (Run.result_eq_error_iff.1 hresult)
      obtain ⟨e, he, hline⟩ := List.mem_map.1 hfault.line_mem
      obtain ⟨n, hn, hpos, hle⟩ := line_of_parse hp he
      rw [hline] at hn
      exact .inr (.inl ⟨f, n, rfl, title_mem_scriptTitles hfault.cause, hfault.file_eq, hn, hpos,
        hle⟩)

/-- A name bound earlier in the session is bound again on the third line, after a string that goes
    over two lines. -/
theorem script_run_outcome_rebinding :
    ∃ (s : Session) (source : String) (p : List Tree),
      s = ((Session.new (some "a.let")).serve (.run "let x = 1;")).session ∧
      source = "print 'a\nb';\nlet x = 2;" ∧ parse none source = .ok p ∧
      s.serve (.run source) = s.serve (.runTrees p) ∧
      ((∃ v, (s.serve (.runTrees p)).answer = .value v) ∨
        ∃ f n, (s.serve (.runTrees p)).answer = .failed f ∧ f.cause.title ∈ scriptTitles ∧
          f.file = s.file ∧ f.line = some n ∧ 1 ≤ n ∧ n ≤ 1 + Text.newlines source.toList) := by
  have hp : parse none "print 'a\nb';\nlet x = 2;" =
      .ok [.printing (.string "a\nb" (some 1)) (some 1),
        .binding "x" (some 3) (.integer 2 (some 3)) (some 3)] := by cbv
  obtain ⟨hsame, houtcome, hreached⟩ := script_run_outcome
    ((Session.new (some "a.let")).serve (.run "let x = 1;")).session _ _ _ hp
  refine ⟨_, _, _, rfl, rfl, hp, hsame, ?_⟩
  obtain hvalue | hfault | ⟨-, hnot⟩ := houtcome
  · exact .inl hvalue
  · exact .inr hfault
  · exact absurd (hreached _ (.serve .new rfl)) hnot

-- each of the five comes out of some script
example : ["print x;", "let x = 1; let x = 2;", "print 1 - true;", "print 1 / 0;",
    "print 2147483647 + 1;"].map (fun source =>
      match (Session.new none |>.serve (.run source)).answer with
      | .failed f => f.cause.title
      | _ => "") = scriptTitles := by cbv

end LetScript
