import LetScript.Proofs.EarliestFault
import LetScript.Reader.Step

/-
  What single steps take off the queue.

  A step looks one token ahead, like the readers that it is made of (`local_step`), so it takes tokens
  off the front only, and a fault points at the token that is then at the front, unless that token
  cannot be described. A tree that it gives
  has the words of the tokens that it took (`gives_of_exprTree`, `gives_of_statementTree`,
  `gives_of_program`). `Consumes` puts together what a step does, from any queue (`step_consumes`), so
  it holds of every step of a sequence, also behind steps that failed in the middle of a statement.

  Main statement: `steps_consume`.
-/

namespace LetScript

theorem ne_of_not_prefix {start rest text : String} (h : ¬start.toList <+: text.toList) :
    start ++ rest ≠ text := by
  rintro rfl
  exact h ⟨rest.toList, String.toList_append.symm⟩

theorem getD_map_ne {write : String → String} {other : String} (hempty : "" ≠ other)
    (h : ∀ text, write text ≠ other) (text? : Option String) :
    (text?.map write).getD "" ≠ other := by
  cases text? with
  | none => exact hempty
  | some text => exact h text

/-- A fault that tells what it found does not say that the input ended. -/
theorem text_ne_of_found? {c : Cause} {l : Lexeme} (h : c.found? = some l) :
    c.text ≠ "Unexpected end of input" := by
  cases c with
  | expectedKind kind found =>
    refine getD_map_ne (by decide) (fun text => ?_) found.described?
    rw [String.append_assoc, String.append_assoc]
    exact ne_of_not_prefix (by decide)
  | expectedTerm found | expectedStatement found =>
    refine getD_map_ne (by decide) (fun text => ?_) found.described?
    rw [String.append_assoc]
    exact ne_of_not_prefix (by decide)
  | _ => cases h

namespace Reader

variable {file : Option String} {q r : List Token} {x : Tree}

/-- Whether a step only looks at the queue. -/
def Step.isLook : Step → Bool
  | .peek | .describe | .blame _ => true
  | _ => false

/-- The kinds of token that a step is to take one of. -/
def Step.kinds? : Step → Option (List Kind)
  | .eat kind => some [kind]
  | .accept kinds => some kinds
  | _ => none

/-- Whether a step may find nothing to read. -/
def Step.isTry : Step → Bool
  | .term | .tryExpr => true
  | _ => false

/-- A tree that is read from the tokens in front of `after`: there is one at least, and their words are
    those of the tree. An empty program takes the end of the input alone. -/
structure Gives (before : List Token) (x : Tree) (after : List Token) : Prop where
  isTree : x ≠ .absent
  taken : ∃ taken, before = taken ++ after ∧ taken ≠ [] ∧
    taken.filterMap Token.entry? = x.inorder ∧
    (x = .program [] → ∃ stop, taken = [stop] ∧ stop.kind = .eof)

/-- An error of parsing that has the line of the token at the front, or is the end of the input. -/
structure FailsAt (file : Option String) (f : Fault) (after : List Token) : Prop where
  title : f.cause.title = "ParseError"
  file : f.file = file
  line : f.line = after.head?.bind Token.line
  ended : f.cause.text = "Unexpected end of input" ↔ after = []

/-- What a step does to the queue. -/
structure Consumes (file : Option String) (step : Step) (before : List Token)
    (outcome : Except Fault Reply) (after : List Token) : Prop where
  suffix : after <:+ before
  look : step.isLook = true → after = before
  blamed : ∀ f, outcome = .ok (.blamed f) → f.line = after.head?.bind Token.line
  take : ∀ kinds, step.kinds? = some kinds →
    (∃ t, t.kind ∈ kinds ∧ before = t :: after ∧ outcome = .ok (.token t)) ∨
    (∀ t ∈ before.head?, t.kind ∉ kinds) ∧ after = before ∧ ∀ t, outcome ≠ .ok (.token t)
  tree : ∀ x, outcome = .ok (.tree x) →
    step.isTry = true ∧ x = .absent ∧ after = before ∨ Gives before x after
  fault : ∀ f, outcome = .error f → FailsAt file f after ∨ Undescribed f after

/-! ## Trees and the tokens that they are read from -/

theorem gives_of_exprTree {e : List Token} (h : ExprTree e x) (r : List Token) :
    Gives (e ++ r) x r := by
  have hright := h.right
  refine ⟨?_, e, rfl, ?_, h.inorder.symm, ?_⟩
  · rintro rfl
    cases hright with
    | term ht => cases ht
  · rintro rfl
    cases h
  · rintro rfl
    cases hright with
    | term ht => cases ht

theorem gives_of_statementTree {s : List Token} (h : StatementTree s x) (r : List Token) :
    Gives (s ++ r) x r := by
  refine ⟨?_, s, rfl, ?_, h.inorder.symm, ?_⟩
  · rintro rfl
    cases h
  · rintro rfl
    cases h
  · rintro rfl
    cases h

theorem entry?_of_eof {t : Token} (h : t.kind = .eof) : t.entry? = none := by
  rcases t with ⟨l, line⟩
  cases l with
  | eof => rfl
  | _ => cases h

theorem gives_of_program {p : List Tree} (h : program file q = .ok p r) : Gives q (.program p) r := by
  obtain ⟨ss, stop, rfl, hstop, hall⟩ := program_eq_ok_iff.1 h
  refine ⟨nofun, ss.flatten ++ [stop], by simp, by simp, ?_, ?_⟩
  · rw [List.filterMap_append, ← inorderAll_of_trees hall,
      List.filterMap_cons_none (entry?_of_eof hstop), List.filterMap_nil, List.append_nil, Tree.inorder]
  · intro hempty
    cases hempty
    cases hall
    exact ⟨stop, rfl, hstop⟩

/-! ## Steps -/

theorem local_accept (kinds : List Kind) (q : List Token) : LocalAt file (accept file kinds) q := by
  refine local_of_turn (accept file kinds) rfl (fun t => ?_) q
  by_cases h : t.kind ∈ kinds
  · exact .take (some t) fun q => if_pos h
  · exact .leave none fun q => if_neg h

theorem local_describe (q : List Token) : LocalAt file (describe file) q := by
  refine local_of_turn (describe file) rfl (fun t => ?_) q
  cases h : t.lexeme.described? with
  | some text => exact .leave text fun q => by rw [describe, h]
  | none =>
    have hraised : Fault.raised file t.line (.expectedTerm t.lexeme) = .unplaced .unwritable :=
      Fault.raised_of_unwritten (by rw [Cause.text?, h]; rfl)
    refine .refuse _ ⟨.expectedTerm t.lexeme, rfl, hraised.symm⟩ fun q => ?_
    rw [describe, h]

/-- A step looks at most one token ahead. -/
theorem local_step (s : Step) (q : List Token) : LocalAt file (step file s) q := by
  cases s with
  | peek => exact (local_peek q).bind fun _ r _ => local_pure _ r
  | describe => exact (local_describe q).bind fun _ r _ => local_pure _ r
  | blame message => exact (local_peek q).bind fun _ r _ => local_pure _ r
  | eat kind => exact (local_eat kind q).bind fun _ r _ => local_pure _ r
  | accept kinds =>
    refine (local_accept kinds q).bind fun read r _ => ?_
    cases read with
    | none => exact local_pure _ r
    | some t => exact local_pure _ r
  | term => exact (local_term q).bind fun _ r _ => local_pure _ r
  | tryExpr => exact (local_tryExpr q).bind fun _ r _ => local_pure _ r
  | expr => exact (local_expr q).bind fun _ r _ => local_pure _ r
  | statement => exact (local_statement q).bind fun _ r _ => local_pure _ r
  | letStatement => exact (local_letStatement q).bind fun _ r _ => local_pure _ r
  | printStatement => exact (local_keyword .printWord Tree.printing q).bind fun _ r _ => local_pure _ r
  | returnStatement =>
    exact (local_keyword .returnWord Tree.returning q).bind fun _ r _ => local_pure _ r
  | program => exact (local_program q).bind fun _ r _ => local_pure _ r

theorem PointsAt.failsAt {f : Fault} (h : PointsAt file f q) :
    FailsAt file f q ∨ Undescribed f q := by
  cases q with
  | nil =>
    obtain rfl : f = endOfInput file := h
    exact .inl ⟨rfl, rfl, rfl, iff_of_true rfl rfl⟩
  | cons t q =>
    obtain ⟨hfound, hline, hfile⟩ | hlong := h.at_token
    · have htitle := title_of_parsing (stage?_of_found? hfound)
      exact .inl ⟨htitle, hfile, hline, iff_of_false (text_ne_of_found? hfound) nofun⟩
    · exact .inr hlong

theorem reply_eq_ok {α : Type} {read : Reader α} {reply : α → Reply} {given : Reply}
    (h : (read >>= fun a => pure (reply a) : Reader Reply) q = .ok given r) :
    ∃ a, read q = .ok a r ∧ reply a = given := by
  obtain ⟨a, r', hread, hpure⟩ := bind_eq_ok.1 h
  cases hpure
  exact ⟨a, hread, rfl⟩

/-- A step that gives a tree has read it with the reader of the step. -/
theorem tree_of_step {s : Step} (h : step file s q = .ok (.tree x) r) :
    s.isTry = true ∧ x = .absent ∧ r = q ∨ Gives q x r := by
  cases s with
  | term =>
    obtain ⟨read, hread, ⟨⟩⟩ := reply_eq_ok h
    cases read with
    | none => exact .inl ⟨rfl, rfl, (term_eq_none_iff.1 hread).1⟩
    | some x =>
      obtain ⟨t, rfl, ht⟩ := term_eq_some_iff.1 hread
      exact .inr (gives_of_exprTree (.term ht) r)
  | tryExpr =>
    obtain ⟨read, hread, ⟨⟩⟩ := reply_eq_ok h
    cases read with
    | none => exact .inl ⟨rfl, rfl, (tryExpr_eq_none_iff.1 hread).1⟩
    | some x =>
      obtain ⟨e, rfl, he, -⟩ := tryExpr_eq_some_iff.1 hread
      exact .inr (gives_of_exprTree he r)
  | expr =>
    obtain ⟨x, hread, ⟨⟩⟩ := reply_eq_ok h
    obtain ⟨e, rfl, he, -⟩ := expr_eq_ok_iff.1 hread
    exact .inr (gives_of_exprTree he r)
  | statement =>
    obtain ⟨x, hread, ⟨⟩⟩ := reply_eq_ok h
    obtain ⟨s, rfl, hs⟩ := statement_eq_ok_iff.1 hread
    exact .inr (gives_of_statementTree hs r)
  | letStatement =>
    obtain ⟨x, hread, ⟨⟩⟩ := reply_eq_ok h
    obtain ⟨s, rfl, hs, -⟩ := letStatement_eq_ok_iff.1 hread
    exact .inr (gives_of_statementTree hs r)
  | printStatement =>
    obtain ⟨x, hread, ⟨⟩⟩ := reply_eq_ok h
    obtain ⟨s, rfl, hs, -⟩ := printStatement_eq_ok_iff.1 hread
    exact .inr (gives_of_statementTree hs r)
  | returnStatement =>
    obtain ⟨x, hread, ⟨⟩⟩ := reply_eq_ok h
    obtain ⟨s, rfl, hs, -⟩ := returnStatement_eq_ok_iff.1 hread
    exact .inr (gives_of_statementTree hs r)
  | program =>
    obtain ⟨p, hread, ⟨⟩⟩ := reply_eq_ok h
    exact .inr (gives_of_program hread)
  | accept kinds =>
    obtain ⟨read, r', -, hpure⟩ := bind_eq_ok.1 h
    cases read <;> cases hpure
  | _ => obtain ⟨read, -, ⟨⟩⟩ := reply_eq_ok h

/-- A fault that a step makes without failing has the line of the token at the front. -/
theorem line_of_blamed {s : Step} {f : Fault} (h : step file s q = .ok (.blamed f) r) :
    f.line = r.head?.bind Token.line := by
  cases s with
  | blame message =>
    obtain ⟨t, hread, ⟨⟩⟩ := reply_eq_ok h
    cases q with
    | nil => cases hread
    | cons u q => cases hread; rfl
  | accept kinds =>
    obtain ⟨read, r', -, hpure⟩ := bind_eq_ok.1 h
    cases read <;> cases hpure
  | _ => obtain ⟨read, -, ⟨⟩⟩ := reply_eq_ok h

/-- What a step gives and the queue that it leaves, as an entry of `replies`. -/
def settle : EStateM.Result Fault (List Token) Reply → Except Fault Reply × List Token
  | .ok reply after => (.ok reply, after)
  | .error f after => (.error f, after)

theorem eq_ok_of_settle {res : EStateM.Result Fault (List Token) Reply} {reply : Reply}
    (h : (settle res).1 = .ok reply) : res = .ok reply (settle res).2 := by
  cases res with
  | ok given after => cases h; rfl
  | error f after => cases h

theorem eq_error_of_settle {res : EStateM.Result Fault (List Token) Reply} {f : Fault}
    (h : (settle res).1 = .error f) : res = .error f (settle res).2 := by
  cases res with
  | ok given after => cases h
  | error f after => cases h; rfl

theorem settle_suffix (s : Step) (q : List Token) : (settle (step file s q)).2 <:+ q := by
  cases h : step file s q with
  | ok reply after =>
    obtain ⟨taken, hq, -⟩ := (local_step s q).ok h
    exact ⟨taken, hq.symm⟩
  | error f after =>
    obtain ⟨taken, hq, -⟩ := (local_step s q).error h
    exact ⟨taken, hq.symm⟩

theorem settle_look {s : Step} (h : s.isLook = true) (q : List Token) :
    (settle (step file s q)).2 = q := by
  cases s with
  | peek => cases q <;> rfl
  | describe =>
    cases q with
    | nil => rfl
    | cons t q =>
      cases htext : t.lexeme.described? with
      | some text =>
        have hstep : step file .describe (t :: q) = .ok (.text text) (t :: q) :=
          bind_eq_ok.2 ⟨text, t :: q, by rw [describe, htext], rfl⟩
        rw [hstep]
        rfl
      | none =>
        have hstep : step file .describe (t :: q) = .error (.unplaced .unwritable) (t :: q) :=
          bind_eq_error.2 (.inl (by rw [describe, htext]))
        rw [hstep]
        rfl
  | blame message => cases q <;> rfl
  | _ => cases h

theorem settle_take {s : Step} {kinds : List Kind} (h : s.kinds? = some kinds) (q : List Token) :
    let entry := settle (step file s q)
    (∃ t, t.kind ∈ kinds ∧ q = t :: entry.2 ∧ entry.1 = .ok (.token t)) ∨
    (∀ t ∈ q.head?, t.kind ∉ kinds) ∧ entry.2 = q ∧ ∀ t, entry.1 ≠ .ok (.token t) := by
  cases q with
  | nil =>
    cases s with
    | eat kind => exact .inr ⟨nofun, rfl, nofun⟩
    | accept kinds => exact .inr ⟨nofun, rfl, nofun⟩
    | _ => cases h
  | cons t q =>
    cases s with
    | eat kind =>
      cases h
      by_cases hkind : t.kind = kind
      · have hstep : step file (.eat kind) (t :: q) = .ok (.token t) q :=
          bind_eq_ok.2 ⟨t, q, eat_eq_ok_iff.2 ⟨rfl, hkind⟩, rfl⟩
        rw [hstep]
        exact .inl ⟨t, List.mem_singleton.2 hkind, rfl, rfl⟩
      · have hstep : step file (.eat kind) (t :: q) =
            .error (.raised file t.line (.expectedKind kind t.lexeme)) (t :: q) :=
          bind_eq_error.2 (.inl (if_neg hkind))
        rw [hstep]
        exact .inr ⟨by simpa using hkind, rfl, nofun⟩
    | accept kinds =>
      cases h
      by_cases hkind : t.kind ∈ kinds
      · have hstep : step file (.accept kinds) (t :: q) = .ok (.token t) q :=
          bind_eq_ok.2 ⟨some t, q, if_pos hkind, rfl⟩
        rw [hstep]
        exact .inl ⟨t, hkind, rfl, rfl⟩
      · have hstep : step file (.accept kinds) (t :: q) = .ok .noToken (t :: q) :=
          bind_eq_ok.2 ⟨none, t :: q, if_neg hkind, rfl⟩
        rw [hstep]
        exact .inr ⟨by simpa using hkind, rfl, nofun⟩
    | _ => cases h

/-- What a step does, from any queue. -/
theorem step_consumes (s : Step) (q : List Token) :
    Consumes file s q (settle (step file s q)).1 (settle (step file s q)).2 where
  suffix := settle_suffix s q
  look h := settle_look h q
  blamed f h := line_of_blamed (eq_ok_of_settle h)
  take kinds h := settle_take h q
  tree x h := tree_of_step (eq_ok_of_settle h)
  fault f h := by
    obtain ⟨taken, -, hpoints, -⟩ := (local_step s q).error (eq_error_of_settle h)
    exact hpoints.failsAt

/-! ## Steps in order -/

theorem replies_cons (s : Step) (ss : List Step) (q : List Token) :
    replies file (s :: ss) q =
      settle (step file s q) :: replies file ss (settle (step file s q)).2 := by
  rw [replies]
  cases step file s q <;> rfl

/-- The queue that steps leave, which the last one of them tells. -/
def left (file : Option String) (steps : List Step) (queue : List Token) : List Token :=
  ((replies file steps queue).getLast?.map Prod.snd).getD queue

theorem left_cons (s : Step) (ss : List Step) (q : List Token) :
    left file (s :: ss) q = left file ss (settle (step file s q)).2 := by
  unfold left
  rw [replies_cons, List.getLast?_cons]
  cases (replies file ss (settle (step file s q)).2).getLast? <;> rfl

theorem replies_append (ss ts : List Step) (q : List Token) :
    replies file (ss ++ ts) q = replies file ss q ++ replies file ts (left file ss q) := by
  induction ss generalizing q with
  | nil => rfl
  | cons s ss ih => rw [List.cons_append, replies_cons, replies_cons, left_cons, ih, List.cons_append]

theorem left_suffix (ss : List Step) (q : List Token) : left file ss q <:+ q := by
  induction ss generalizing q with
  | nil => exact List.suffix_rfl
  | cons s ss ih =>
    rw [left_cons]
    exact (ih _).trans (settle_suffix s q)

end Reader

/-- Whatever steps are taken from whatever queue, each of them does to the queue that the steps before
    it left what `Consumes` says, and what it leaves is a suffix of that queue and of the first one. -/
theorem steps_consume (file : Option String) (queue : List Token) (earlier : List Reader.Step)
    (s : Reader.Step) (later : List Reader.Step) :
    let before := Reader.left file earlier queue
    ∃ outcome after,
      Reader.replies file (earlier ++ s :: later) queue =
        Reader.replies file earlier queue ++ (outcome, after) :: Reader.replies file later after ∧
      before <:+ queue ∧ Reader.Consumes file s before outcome after := by
  intro before
  refine ⟨_, _, ?_, Reader.left_suffix earlier queue, Reader.step_consumes s before⟩
  rw [Reader.replies_append, Reader.replies_cons]

end LetScript
