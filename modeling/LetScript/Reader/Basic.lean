import LetScript.Fault

/-
  Reading from a queue of tokens. A reader takes tokens off the front of the queue and gives a
  result or a fault; either way the queue that is left is part of the outcome, so tokens taken
  before a fault stay taken. A reader looks at one token at most before it takes it, and an empty
  queue is a fault.

  Main statement: `bind_eq_ok` (when one reader after another succeeds).
-/

namespace LetScript

/-- A reader of tokens. -/
abbrev Reader := EStateM Fault (List Token)

namespace Reader

variable (file : Option String)

/-- The fault of an empty queue, which has no line. -/
def endOfInput : Fault := ⟨.endOfInput, none, file⟩

/-- The token at the front. -/
def peek : Reader Token := fun queue =>
  match queue with
  | [] => .error (endOfInput file) []
  | t :: q => .ok t (t :: q)

/-- The description of the token at the front. -/
def describe : Reader String := fun queue =>
  match queue with
  | [] => .error (endOfInput file) []
  | t :: q =>
    match t.lexeme.described? with
    | some text => .ok text (t :: q)
    | none => .error (.unplaced .unwritable) (t :: q)

/-- Fails at the token at the front. -/
def failAt {α : Type} (cause : Lexeme → Cause) : Reader α := fun queue =>
  match queue with
  | [] => .error (endOfInput file) []
  | t :: q => .error (.raised file t.line (cause t.lexeme)) (t :: q)

/-- Takes a token of the given kind. -/
def eat (kind : Kind) : Reader Token := fun queue =>
  match queue with
  | [] => .error (endOfInput file) []
  | t :: q =>
    if t.kind = kind then .ok t q
    else .error (.raised file t.line (.expectedKind kind t.lexeme)) (t :: q)

/-- Takes an identifier and gives its name and line. -/
def eatName : Reader (String × Line) := fun queue =>
  match queue with
  | [] => .error (endOfInput file) []
  | t :: q =>
    match t.lexeme with
    | .identifier name => .ok (name, t.line) q
    | found => .error (.raised file t.line (.expectedKind .identifier found)) (t :: q)

/-- Takes the token at the front if it is of one of the given kinds. -/
def accept (kinds : List Kind) : Reader (Option Token) := fun queue =>
  match queue with
  | [] => .error (endOfInput file) []
  | t :: q => if t.kind ∈ kinds then .ok (some t) q else .ok none (t :: q)

/-! ## What a success leaves -/

/-- One reader after another succeeds when both do. -/
theorem bind_eq_ok {α β : Type} {x : Reader α} {f : α → Reader β} {b : β} {q r : List Token} :
    (x >>= f) q = .ok b r ↔ ∃ a s, x q = .ok a s ∧ f a s = .ok b r := by
  change EStateM.bind x f q = .ok b r ↔ _
  unfold EStateM.bind
  cases x q with
  | ok a s =>
    constructor
    · intro h; exact ⟨a, s, rfl, h⟩
    · rintro ⟨_, _, h, hf⟩; cases h; exact hf
  | error e s => simp

variable {file : Option String}

theorem length_lt_of_eat {kind : Kind} {t : Token} {q r : List Token}
    (h : eat file kind q = .ok t r) : r.length < q.length := by
  cases q with
  | nil => simp [eat] at h
  | cons u q =>
    unfold eat at h
    dsimp only at h
    split at h
    · cases h; exact Nat.lt_succ_self _
    · cases h

theorem length_lt_of_eatName {n : String × Line} {q r : List Token}
    (h : eatName file q = .ok n r) : r.length < q.length := by
  cases q with
  | nil => simp [eatName] at h
  | cons u q =>
    unfold eatName at h
    dsimp only at h
    split at h
    · cases h; exact Nat.lt_succ_self _
    · cases h

end Reader

end LetScript
