import LetScript.Proofs.Fronts
import LetScript.Token.Cursor
import Mathlib

/-
  Reading a text token by token, and at once.

  A cursor has a scan still to give (`Cursor.unread`), at first the scan of its whole text. One `next`
  takes the first thing off that scan (`next_unread`) and a `drain` takes all of it (`drain_unread`). In
  a pool a step changes the cursor of its own name only (`get_step`), so after any steps the cursor
  of a name has what its own actions have left (`unread_after`). What they have left is known without
  replaying them: `Scan.left`.

  Main statement: `interleaved_replies`.
-/

namespace LetScript

/-! ## A scan read piecemeal -/

namespace Scan

/-- The scan that has nothing to give. -/
def spent : Scan := ⟨[], none⟩

/-- What a scan gives first, and what is left of it. A fault comes after the tokens, once. -/
def next : Scan → Cursor.Reply × Scan
  | ⟨t :: ts, fault⟩ => (.token t, ⟨ts, fault⟩)
  | ⟨[], some f⟩ => (.fault f, spent)
  | ⟨[], none⟩ => (.stop, spent)

/-- The result of a scan, from what it gives first. -/
theorem result_next (s : Scan) :
    s.result =
      match s.next with
      | (.stop, _) => .ok []
      | (.fault f, _) => .error f
      | (.token t, rest) => rest.result.map (t :: ·) := by
  rcases s with ⟨tokens, fault⟩
  cases tokens <;> cases fault <;> rfl

end Scan

namespace Cursor

/-- What a cursor has still to give. -/
def unread : Cursor → Scan
  | .finished => .spent
  | .before file line ps => .ofPieces file line ps

theorem unread_ofText (file : Option String) (source : String) :
    (ofText file source).unread = .ofText file source := rfl

theorem nextOf_unread (file : Option String) (line : Nat) (ps : List Piece) :
    (Scan.ofPieces file line ps).next = ((nextOf file line ps).1, (nextOf file line ps).2.unread) := by
  induction ps generalizing line with
  | nil => rfl
  | cons p ps ih =>
    rw [nextOf]
    cases hreading : p.reading with
    | skip =>
      rw [Scan.ofPieces_skip hreading]
      exact ih _
    | refuse cause =>
      rw [Scan.ofPieces_refuse hreading]
      rfl
    | lexeme l =>
      rw [Scan.ofPieces_lexeme hreading]
      rfl

/-- One token read is the first thing off the scan. -/
theorem next_unread (c : Cursor) : c.unread.next = (c.next.1, c.next.2.unread) := by
  cases c with
  | finished => rfl
  | before file line ps => exact nextOf_unread file line ps

/-- All tokens read at once are the result of the scan. -/
theorem drain_unread (c : Cursor) : c.drain = c.unread.result := by
  rw [drain_eq, Scan.result_next, next_unread]
  rcases hnext : c.next with ⟨reply, c'⟩
  cases reply with
  | token t =>
    dsimp only
    rw [drain_unread c']
    cases c'.unread.result <;> rfl
  | fault f => rfl
  | stop => rfl
termination_by c.size
decreasing_by exact size_next_lt hnext

end Cursor

/-! ## Actions on one cursor -/

namespace Pool

/-- What can be done with the cursor of a name. -/
inductive Action
  | next
  | drain
  deriving DecidableEq

/-- The step that does an action with the cursor of a name. -/
def Action.on (name : String) : Action → Step
  | .next => .next name
  | .drain => .drain name

/-- What a step does with the cursor of a name, if it does something with it. -/
def Step.action? (name : String) : Step → Option Action
  | .open .. => none
  | .next other => if other = name then some .next else none
  | .drain other => if other = name then some .drain else none

/-- Whether a step opens a cursor under a name. -/
def Step.opens (name : String) : Step → Bool
  | .open other .. => other = name
  | _ => false

/-- What steps do with the cursor of a name. -/
def actions (name : String) (steps : List Step) : List Action := steps.filterMap (Step.action? name)

/-- The reply that a cursor gives, as a reply of the pool. -/
def Reply.ofNext : Cursor.Reply → Reply
  | .token t => .token t
  | .fault f => .fault f
  | .stop => .stop

/-- The tokens that a cursor gives at once, as a reply of the pool. -/
def Reply.ofDrain : Except Fault (List Token) → Reply
  | .ok ts => .tokens ts
  | .error f => .fault f

end Pool

namespace Scan

open Pool (Action)

/-- The reply to an action, read off what a cursor has still to give. -/
def reply (s : Scan) : Action → Pool.Reply
  | .next => .ofNext s.next.1
  | .drain => .ofDrain s.result

/-- What an action leaves. -/
def act (s : Scan) : Action → Scan
  | .next => s.next.2
  | .drain => spent

/-- What actions leave. Each `next` takes one thing, a `drain` takes all. -/
def left (s : Scan) (actions : List Action) : Scan :=
  if .drain ∈ actions ∨ s.tokens.length < actions.length then spent
  else ⟨s.tokens.drop actions.length, s.fault⟩

theorem left_nil (s : Scan) : s.left [] = s := by
  simp [left]

theorem left_spent (actions : List Action) : spent.left actions = spent := by
  simp [left, spent]

theorem left_cons (s : Scan) (a : Action) (actions : List Action) :
    s.left (a :: actions) = (s.act a).left actions := by
  cases a with
  | drain => rw [act, left_spent, left, if_pos (.inl List.mem_cons_self)]
  | next =>
    rcases s with ⟨tokens, fault⟩
    cases tokens with
    | nil =>
      have hspent : act ⟨[], fault⟩ .next = spent := by cases fault <;> rfl
      rw [hspent, left_spent, left, if_pos (.inr (Nat.succ_pos _))]
    | cons t ts =>
      have hiff : (.drain ∈ Action.next :: actions ∨
          (t :: ts).length < (Action.next :: actions).length) ↔
            .drain ∈ actions ∨ ts.length < actions.length := by simp
      by_cases h : .drain ∈ actions ∨ ts.length < actions.length
      · rw [left, if_pos (hiff.2 h), act, next, left, if_pos h]
      · rw [left, if_neg (mt hiff.1 h), act, next, left, if_neg h]
        rfl

end Scan

/-! ## Cursors in a pool -/

namespace Pool

/-- The pool after steps. -/
def after (pool : Pool) : List Step → Pool
  | [] => pool
  | s :: ss => after (pool.step s).2 ss

theorem replies_append (pool : Pool) (ss rest : List Step) :
    pool.replies (ss ++ rest) = pool.replies ss ++ (pool.after ss).replies rest := by
  induction ss generalizing pool with
  | nil => rfl
  | cons s ss ih => exact congrArg (List.cons _) (ih _)

theorem length_replies (pool : Pool) (ss : List Step) : (pool.replies ss).length = ss.length := by
  induction ss generalizing pool with
  | nil => rfl
  | cons s ss ih => exact congrArg Nat.succ (ih _)

theorem after_append (pool : Pool) (ss rest : List Step) :
    pool.after (ss ++ rest) = (pool.after ss).after rest := by
  induction ss generalizing pool with
  | nil => rfl
  | cons s ss ih => exact ih _

theorem get_cons_self (pool : Pool) (name : String) (c : Cursor) :
    Pool.get ((name, c) :: pool) name = c := by
  simp [get]

theorem get_cons_of_ne {name other : String} (h : other ≠ name) (pool : Pool) (c : Cursor) :
    Pool.get ((other, c) :: pool) name = pool.get name := by
  have hne : (name == other) = false := by simpa using fun heq => h heq.symm
  simp [get, List.lookup_cons, hne]

theorem step_next (pool : Pool) (name : String) :
    pool.step (.next name) =
      (.ofNext (pool.get name).next.1, (name, (pool.get name).next.2) :: pool) := by
  rw [step]
  rcases (pool.get name).next with ⟨reply, c⟩
  cases reply <;> rfl

theorem step_drain (pool : Pool) (name : String) :
    pool.step (.drain name) = (.ofDrain (pool.get name).drain, (name, .finished) :: pool) := by
  rw [step]
  cases (pool.get name).drain <;> rfl

/-- An action is answered from what its cursor has still to give, and leaves the rest of that. -/
theorem step_on (pool : Pool) (name : String) (a : Action) :
    (pool.step (a.on name)).1 = (pool.get name).unread.reply a ∧
      ((pool.step (a.on name)).2.get name).unread = (pool.get name).unread.act a := by
  cases a with
  | next =>
    rw [Action.on, step_next, get_cons_self, Scan.reply, Scan.act, Cursor.next_unread]
    exact ⟨rfl, rfl⟩
  | drain =>
    rw [Action.on, step_drain, get_cons_self, Scan.reply, Scan.act, Cursor.drain_unread]
    exact ⟨rfl, rfl⟩

/-- A step that neither opens the cursor of a name nor does something with it leaves it as it is. -/
theorem get_step {s : Step} {name : String} (hopens : s.opens name = false)
    (haction : s.action? name = none) (pool : Pool) : (pool.step s).2.get name = pool.get name := by
  cases s with
  | «open» other file source =>
    have hne : other ≠ name := by simpa [Step.opens] using hopens
    exact get_cons_of_ne hne pool _
  | next other =>
    have hne : other ≠ name := by simpa [Step.action?] using haction
    rw [step_next]
    exact get_cons_of_ne hne pool _
  | drain other =>
    have hne : other ≠ name := by simpa [Step.action?] using haction
    rw [step_drain]
    exact get_cons_of_ne hne pool _

theorem eq_on_of_action? {s : Step} {name : String} {a : Action} (h : s.action? name = some a) :
    s = a.on name := by
  cases s with
  | «open» other file source => cases h
  | next other | drain other =>
    rw [Step.action?] at h
    split at h
    next heq =>
      cases h
      rw [heq]
      rfl
    · cases h

/-- After steps that do not open it anew, a cursor has what its own actions have left. -/
theorem unread_after {name : String} {steps : List Step}
    (hopens : ∀ s ∈ steps, s.opens name = false) (pool : Pool) :
    ((pool.after steps).get name).unread =
      (pool.get name).unread.left (actions name steps) := by
  induction steps generalizing pool with
  | nil => exact (Scan.left_nil _).symm
  | cons s ss ih =>
    have htail := ih (fun s hs => hopens s (List.mem_cons_of_mem _ hs)) (pool.step s).2
    rw [after, htail]
    cases haction : s.action? name with
    | none =>
      have hactions : actions name (s :: ss) = actions name ss := List.filterMap_cons_none haction
      rw [hactions, get_step (hopens s List.mem_cons_self) haction]
    | some a =>
      have hactions : actions name (s :: ss) = a :: actions name ss :=
        List.filterMap_cons_some haction
      rw [hactions, eq_on_of_action? haction, (step_on pool name a).2, Scan.left_cons]

/-- The reply to an action on the cursor of a name, with steps before it and after it. -/
def replyTo (pool : Pool) (before : List Step) (name : String) (a : Action) (after : List Step) :
    Option Reply :=
  (pool.replies (before ++ a.on name :: after))[before.length]?

/-- A reply is read off what the actions since the last opening have left of the scan of the text. -/
theorem replyTo_eq {name : String} {mid : List Step} (hmid : ∀ s ∈ mid, s.opens name = false)
    (pool : Pool) (file : Option String) (source : String) (before after : List Step) (a : Action) :
    pool.replyTo (before ++ .open name file source :: mid) name a after =
      some (((Scan.ofText file source).left (actions name mid)).reply a) := by
  have hunread : ((pool.after (before ++ .open name file source :: mid)).get name).unread =
      (Scan.ofText file source).left (actions name mid) := by
    rw [after_append, Pool.after, unread_after hmid, step, get_cons_self, Cursor.unread_ofText]
  have hlength := length_replies pool (before ++ .open name file source :: mid)
  rw [replyTo, replies_append, List.getElem?_append_right (Nat.le_of_eq hlength), hlength,
    Nat.sub_self, replies, List.getElem?_cons_zero, (step_on _ name a).1, hunread]

end Pool

/-! ## What the replies are -/

namespace Scan

open Pool (Action)

variable {s : Scan} {actions : List Action} {f : Fault}

theorem left_of_le (hdrain : .drain ∉ actions) (hle : actions.length ≤ s.tokens.length) :
    s.left actions = ⟨s.tokens.drop actions.length, s.fault⟩ := by
  rw [left, if_neg]
  rintro (h | h)
  · exact hdrain h
  · omega

theorem left_of_spent (h : .drain ∈ actions ∨ s.tokens.length < actions.length) :
    s.left actions = spent := if_pos h

/-- Without a fault the tokens are all that is left. -/
theorem left_of_fault_none (hfault : s.fault = none) (hdrain : .drain ∉ actions) :
    s.left actions = ⟨s.tokens.drop actions.length, none⟩ := by
  rcases Nat.lt_or_ge s.tokens.length actions.length with hlt | hle
  · rw [left_of_spent (.inr hlt), List.drop_eq_nil_of_le (Nat.le_of_lt hlt)]
    rfl
  · rw [left_of_le hdrain hle, hfault]

theorem left_eq_spent (hfault : s.fault = none)
    (h : .drain ∈ actions ∨ s.tokens.length ≤ actions.length) : s.left actions = spent := by
  by_cases hdrain : .drain ∈ actions
  · exact left_of_spent (.inl hdrain)
  · rw [left_of_fault_none hfault hdrain, List.drop_eq_nil_of_le (h.resolve_left hdrain)]
    rfl

theorem reply_next_token {t : Token} (hdrain : .drain ∉ actions)
    (ht : s.tokens[actions.length]? = some t) : (s.left actions).reply .next = .token t := by
  obtain ⟨hlt, ht⟩ := List.getElem?_eq_some_iff.1 ht
  rw [left_of_le hdrain (Nat.le_of_lt hlt), List.drop_eq_getElem_cons hlt, ht]
  rfl

theorem reply_drain_tokens (hfault : s.fault = none) (hdrain : .drain ∉ actions) :
    (s.left actions).reply .drain = .tokens (s.tokens.drop actions.length) := by
  rw [left_of_fault_none hfault hdrain]
  rfl

theorem reply_next_fault (hfault : s.fault = some f) (hdrain : .drain ∉ actions)
    (hlength : actions.length = s.tokens.length) : (s.left actions).reply .next = .fault f := by
  rw [left_of_le hdrain (Nat.le_of_eq hlength), List.drop_eq_nil_of_le (Nat.le_of_eq hlength.symm),
    hfault]
  rfl

theorem reply_drain_fault (hfault : s.fault = some f) (hdrain : .drain ∉ actions)
    (hle : actions.length ≤ s.tokens.length) : (s.left actions).reply .drain = .fault f := by
  rw [left_of_le hdrain hle, hfault]
  rfl

end Scan

namespace Pool

/-- Whatever is done with other cursors and was done before, the replies to actions on the cursor of
    a text depend on the text and on the actions on this cursor since it was opened. Each `next`
    before a `drain` gives one more token of the text. A `drain` gives the others up to the end of
    input, and then nothing is left. A fault of the text comes once, with the first action that gets
    to it. -/
theorem interleaved_replies (pool : Pool) (name : String) (file : Option String) (source : String)
    (before mid after : List Step) (hmid : ∀ s ∈ mid, s.opens name = false) :
    let reply := fun a => pool.replyTo (before ++ .open name file source :: mid) name a after
    let own := actions name mid
    let tokens := (Scan.ofText file source).tokens
    (∀ (pool' : Pool) (name' : String) (before' mid' after' : List Step),
      (∀ s ∈ mid', s.opens name' = false) → actions name' mid' = own → ∀ a,
        pool'.replyTo (before' ++ .open name' file source :: mid') name' a after' = reply a) ∧
    (.drain ∉ own → ∀ t, tokens[own.length]? = some t → reply .next = some (.token t)) ∧
    (∀ ts, tokenize file source = .ok ts → tokens = ts ∧
      (.drain ∉ own → reply .drain = some (.tokens (ts.drop own.length))) ∧
      (own.length < ts.length → ∃ front line, ts.drop own.length = front ++ [⟨.eof, line⟩]) ∧
      (.drain ∈ own ∨ ts.length ≤ own.length →
        reply .next = some .stop ∧ reply .drain = some (.tokens []))) ∧
    ∀ f, tokenize file source = .error f →
      (.drain ∉ own → own.length = tokens.length → reply .next = some (.fault f)) ∧
      (.drain ∉ own → own.length ≤ tokens.length → reply .drain = some (.fault f)) ∧
      (.drain ∈ own ∨ tokens.length < own.length →
        reply .next = some .stop ∧ reply .drain = some (.tokens [])) := by
  intro reply own tokens
  have hreply : ∀ a, reply a = some (((Scan.ofText file source).left own).reply a) :=
    replyTo_eq hmid pool file source before after
  have hspent : (Scan.ofText file source).left own = .spent →
      reply .next = some .stop ∧ reply .drain = some (.tokens []) := by
    intro hleft
    rw [hreply, hreply, hleft]
    exact ⟨rfl, rfl⟩
  refine ⟨?_, ?_, ?_, ?_⟩
  · intro pool' name' before' mid' after' hmid' hown a
    rw [replyTo_eq hmid' pool' file source before' after' a, hown, hreply]
  · intro hdrain t ht
    rw [hreply, Scan.reply_next_token hdrain ht]
  · intro ts hts
    obtain ⟨hfault, htokens⟩ := Scan.result_eq_ok_iff.1 hts
    refine ⟨htokens, ?_, ?_, ?_⟩
    · intro hdrain
      rw [hreply, Scan.reply_drain_tokens hfault hdrain, htokens]
    · intro hlt
      obtain ⟨front, line, rfl⟩ := exists_eof_of_tokenize hts
      rw [List.length_append, List.length_singleton] at hlt
      exact ⟨_, line, List.drop_append_of_le_length (by omega)⟩
    · intro h
      rw [← htokens] at h
      exact hspent (Scan.left_eq_spent hfault h)
  · intro f hf
    have hfault := Scan.result_eq_error_iff.1 hf
    refine ⟨?_, ?_, fun h => hspent (Scan.left_of_spent h)⟩
    · intro hdrain hlength
      rw [hreply, Scan.reply_next_fault hfault hdrain hlength]
    · intro hdrain hle
      rw [hreply, Scan.reply_drain_fault hfault hdrain hle]

theorem interleaved_replies_fault :
    tokenize none "x\n?" = .error ⟨.strayCharacter '?', some 2, none⟩ ∧
      replyTo [] [.open "a" none "x\n?", .open "b" none "1", .next "b", .next "a"] "a" .next [] =
        some (.fault ⟨.strayCharacter '?', some 2, none⟩) := by
  have hfault : tokenize none "x\n?" = .error ⟨.strayCharacter '?', some 2, none⟩ := by cbv
  have hreplies := interleaved_replies [] "a" none "x\n?" []
    [.open "b" none "1", .next "b", .next "a"] [] (by decide)
  exact ⟨hfault, (hreplies.2.2.2 _ hfault).1 (by decide) (by cbv)⟩

end Pool

end LetScript
