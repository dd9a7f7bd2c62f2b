import LetScript.Reader.Statement

/-
  One token of lookahead. A reader takes tokens off the front of the queue and decides by these and
  by the token that is then at the front, if there is one. So its outcome stays the same when the
  queue that it leaves is exchanged for another one with the same front, and a fault points at that
  front: `LocalAt` says both, of success and of failure.

  One reader after another is local if both are (`LocalAt.bind`). The loops over terms and over
  statements are such sequences with the loop itself at the end (`chain_eq_bind`,
  `statements_eq_bind`), so they are local by induction on the length of the queue.

  Main statement: `local_program`.
-/

namespace LetScript

/-- The lexeme at which a fault of reading was found, if it tells one. -/
def Cause.found? : Cause → Option Lexeme
  | .expectedKind _ found | .expectedTerm found | .expectedStatement found => some found
  | _ => none

theorem stage?_of_found? {c : Cause} {l : Lexeme} (h : c.found? = some l) :
    c.stage? = some .parsing := by
  cases c <;> first | rfl | cases h

/-- A fault that tells what it found is raised if that can be written. -/
theorem text?_isSome_of_found? {c : Cause} {l : Lexeme} (h : c.found? = some l) :
    c.text?.isSome = l.described?.isSome := by
  cases c with
  | expectedKind _ found | expectedTerm found | expectedStatement found =>
    cases h
    exact Option.isSome_map
  | _ => cases h

namespace Reader

variable {file : Option String} {α β : Type}

/-- Where a fault points: at the token at the front of the queue, which it tells with its line, or at
    the end of the input. -/
def PointsAt (file : Option String) (f : Fault) : List Token → Prop
  | [] => f = endOfInput file
  | t :: _ => ∃ c : Cause, c.found? = some t.lexeme ∧ f = .raised file t.line c

/-- A fault for which a token cannot be described: that token is at the front, and it is an integer
    that is too long to be written. -/
def Undescribed (f : Fault) (q : List Token) : Prop :=
  f = .unplaced .unwritable ∧
    ∃ n line rest, q = ⟨.integer n, line⟩ :: rest ∧ numeralLimit ≤ n.natAbs

theorem undescribed_of_described? {t : Token} {q : List Token} (h : t.lexeme.described? = none) :
    Undescribed (.unplaced .unwritable) (t :: q) := by
  obtain ⟨l, line⟩ := t
  obtain ⟨n, rfl, hn⟩ := Lexeme.described?_eq_none_iff.1 h
  exact ⟨rfl, n, line, q, rfl, hn⟩

/-- The two faults at a token: one that tells it, and the one for which it cannot be described. -/
theorem PointsAt.at_token {f : Fault} {t : Token} {q : List Token} (h : PointsAt file f (t :: q)) :
    (f.cause.found? = some t.lexeme ∧ f.line = t.line ∧ f.file = file) ∨
      Undescribed f (t :: q) := by
  obtain ⟨c, hfound, rfl⟩ := h
  cases htext : t.lexeme.described? with
  | some text =>
    have hwritten : c.text?.isSome = true := by rw [text?_isSome_of_found? hfound, htext]; rfl
    have hplaced : Fault.placed file t.line c = ⟨c, t.line, file⟩ := by
      rw [Fault.placed, stage?_of_found? hfound]
      rfl
    rw [Fault.raised_of_written hwritten, hplaced]
    exact .inl ⟨hfound, rfl, rfl⟩
  | none =>
    have hunwritten : c.text? = none := by
      rw [← Option.isNone_iff_eq_none, ← Option.not_isSome, text?_isSome_of_found? hfound, htext]
      rfl
    rw [Fault.raised_of_unwritten hunwritten]
    exact .inr (undescribed_of_described? htext)

theorem PointsAt.parsing {f : Fault} {q : List Token} (h : PointsAt file f q) :
    (f.cause.stage? = some .parsing ∧ f.file = file) ∨ Undescribed f q := by
  cases q with
  | nil =>
    rw [show f = endOfInput file from h]
    exact .inl ⟨rfl, rfl⟩
  | cons t q =>
    obtain ⟨hfound, -, hfile⟩ | hlong := h.at_token
    · exact .inl ⟨stage?_of_found? hfound, hfile⟩
    · exact .inr hlong

/-- On this queue the outcome depends on the tokens that are taken and on the next one only. -/
structure LocalAt (file : Option String) (x : Reader α) (q : List Token) : Prop where
  ok : ∀ {s : List Token} {a : α}, x q = .ok a s →
    ∃ taken, q = taken ++ s ∧ ∀ s', s'.head? = s.head? → x (taken ++ s') = .ok a s'
  error : ∀ {s : List Token} {f : Fault}, x q = .error f s →
    ∃ taken, q = taken ++ s ∧ PointsAt file f s ∧
      ∀ s', s'.head? = s.head? → x (taken ++ s') = .error f s'

/-! ## One reader after another -/

theorem bind_eq_error {x : Reader α} {g : α → Reader β} {f : Fault} {q r : List Token} :
    (x >>= g) q = .error f r ↔
      x q = .error f r ∨ ∃ a s, x q = .ok a s ∧ g a s = .error f r := by
  change EStateM.bind x g q = .error f r ↔ _
  unfold EStateM.bind
  cases x q with
  | ok a s =>
    constructor
    · intro h; exact .inr ⟨a, s, rfl, h⟩
    · rintro (h | ⟨_, _, h, hg⟩)
      · cases h
      · cases h; exact hg
  | error e s => simp

theorem head?_append_eq {s s' : List Token} (taken : List Token) (h : s'.head? = s.head?) :
    (taken ++ s').head? = (taken ++ s).head? := by
  rw [List.head?_append, List.head?_append, h]

/-- The first reader is local, and so is the second on what the first one leaves. -/
theorem LocalAt.bind {x : Reader α} {g : α → Reader β} {q : List Token} (hx : LocalAt file x q)
    (hg : ∀ a s, x q = .ok a s → LocalAt file (g a) s) : LocalAt file (x >>= g) q where
  ok := by
    intro r b h
    obtain ⟨a, s, h₁, h₂⟩ := bind_eq_ok.1 h
    obtain ⟨taken₁, rfl, hswap₁⟩ := hx.ok h₁
    obtain ⟨taken₂, rfl, hswap₂⟩ := (hg a s h₁).ok h₂
    refine ⟨taken₁ ++ taken₂, (List.append_assoc _ _ _).symm, fun r' hr' => ?_⟩
    rw [List.append_assoc]
    -- the front that the first reader saw is the same, whether or not the second takes it
    exact bind_eq_ok.2 ⟨a, _, hswap₁ _ (head?_append_eq taken₂ hr'), hswap₂ r' hr'⟩
  error := by
    intro r f h
    rcases bind_eq_error.1 h with h₁ | ⟨a, s, h₁, h₂⟩
    · obtain ⟨taken, rfl, hpoints, hswap⟩ := hx.error h₁
      exact ⟨taken, rfl, hpoints, fun r' hr' => bind_eq_error.2 (.inl (hswap r' hr'))⟩
    · obtain ⟨taken₁, rfl, hswap₁⟩ := hx.ok h₁
      obtain ⟨taken₂, rfl, hpoints, hswap₂⟩ := (hg a s h₁).error h₂
      refine ⟨taken₁ ++ taken₂, (List.append_assoc _ _ _).symm, hpoints, fun r' hr' => ?_⟩
      rw [List.append_assoc]
      exact bind_eq_error.2
        (.inr ⟨a, _, hswap₁ _ (head?_append_eq taken₂ hr'), hswap₂ r' hr'⟩)

theorem local_pure (a : α) (q : List Token) : LocalAt file (pure a : Reader α) q where
  ok := by
    intro s b h
    cases h
    exact ⟨[], rfl, fun s' _ => rfl⟩
  error := by
    intro s f h
    cases h

/-! ## Readers of one token -/

/-- What a reader does with the token at the front, whatever comes after it: it takes the token,
    leaves it, or refuses it. -/
inductive Turn (file : Option String) (x : Reader α) (t : Token) : Prop
  | take (a : α) : (∀ q, x (t :: q) = .ok a q) → Turn file x t
  | leave (a : α) : (∀ q, x (t :: q) = .ok a (t :: q)) → Turn file x t
  | refuse (f : Fault) : PointsAt file f [t] → (∀ q, x (t :: q) = .error f (t :: q)) → Turn file x t

/-- A reader that decides by the token at the front alone is local. -/
theorem local_of_turn (x : Reader α) (hnil : x [] = .error (endOfInput file) [])
    (hcons : ∀ t, Turn file x t) (q : List Token) : LocalAt file x q := by
  cases q with
  | nil =>
    refine ⟨fun h => ?_, fun h => ?_⟩
    · rw [hnil] at h; cases h
    · have hx := h
      rw [hnil] at h
      cases h
      refine ⟨[], rfl, rfl, fun s' hs' => ?_⟩
      rw [List.head?_eq_none_iff.1 hs']
      exact hx
  | cons t q =>
    cases hcons t with
    | take a htake =>
      refine ⟨fun h => ?_, fun h => ?_⟩
      · rw [htake] at h
        cases h
        exact ⟨[t], rfl, fun s' _ => htake s'⟩
      · rw [htake] at h; cases h
    | leave a hleave =>
      refine ⟨fun h => ?_, fun h => ?_⟩
      · rw [hleave] at h
        cases h
        refine ⟨[], rfl, fun s' hs' => ?_⟩
        obtain ⟨q', rfl⟩ := List.head?_eq_some_iff.1 hs'
        exact hleave q'
      · rw [hleave] at h; cases h
    | refuse f hpoints hrefuse =>
      refine ⟨fun h => ?_, fun h => ?_⟩
      · rw [hrefuse] at h; cases h
      · rw [hrefuse] at h
        cases h
        refine ⟨[], rfl, hpoints, fun s' hs' => ?_⟩
        obtain ⟨q', rfl⟩ := List.head?_eq_some_iff.1 hs'
        exact hrefuse q'

theorem local_peek (q : List Token) : LocalAt file (peek file) q :=
  local_of_turn (peek file) rfl (fun t => .leave t fun _ => rfl) q

theorem length_le_of_peek {t : Token} {q r : List Token} (h : peek file q = .ok t r) :
    r.length ≤ q.length := by
  cases q with
  | nil => cases h
  | cons u q => cases h; exact Nat.le_refl _

theorem local_failAt {cause : Lexeme → Cause} (h : ∀ l, (cause l).found? = some l)
    (q : List Token) : LocalAt file (failAt file cause : Reader α) q :=
  local_of_turn (failAt file cause) rfl (fun t => .refuse _ ⟨_, h t.lexeme, rfl⟩ fun _ => rfl) q

theorem local_eat (kind : Kind) (q : List Token) : LocalAt file (eat file kind) q := by
  refine local_of_turn (eat file kind) rfl (fun t => ?_) q
  by_cases h : t.kind = kind
  · exact .take t fun q => if_pos h
  · exact .refuse _ ⟨.expectedKind kind t.lexeme, rfl, rfl⟩ fun q => if_neg h

theorem local_eatName (q : List Token) : LocalAt file (eatName file) q := by
  refine local_of_turn (eatName file) rfl (fun t => ?_) q
  rcases t with ⟨l, line⟩
  cases l with
  | identifier name => exact .take (name, line) fun _ => rfl
  | _ => exact .refuse _ ⟨.expectedKind .identifier _, rfl, rfl⟩ fun _ => rfl

theorem local_term (q : List Token) : LocalAt file (term file) q := by
  refine local_of_turn (term file) rfl (fun t => ?_) q
  cases h : t.term? with
  | some x => exact .take (some x) fun q => by rw [term, h]
  | none => exact .leave none fun q => by rw [term, h]

/-- Takes an operator, if one is at the front. -/
def operator (file : Option String) : Reader (Option Sign) := fun queue =>
  match queue with
  | [] => .error (endOfInput file) []
  | t :: q =>
    match t.sign? with
    | some sign => .ok (some sign) q
    | none => .ok none (t :: q)

theorem local_operator (q : List Token) : LocalAt file (operator file) q := by
  refine local_of_turn (operator file) rfl (fun t => ?_) q
  cases h : t.sign? with
  | some sign => exact .take (some sign) fun q => by rw [operator, h]
  | none => exact .leave none fun q => by rw [operator, h]

theorem length_lt_of_operator {sign : Sign} {q r : List Token}
    (h : operator file q = .ok (some sign) r) : r.length < q.length := by
  cases q with
  | nil => cases h
  | cons t q =>
    unfold operator at h
    dsimp only at h
    split at h
    · cases h; exact Nat.lt_succ_self _
    · cases h

/-! ## Expressions -/

/-- What follows a term of a chain: no operator, or an operator and a term with what follows it. -/
theorem chain_eq_bind (pending : List (Tree × Sign)) (last : Tree) :
    chain file pending last = (operator file >>= fun read =>
      match read with
      | none => pure (Tree.joinLeft pending last)
      | some sign => term file >>= fun next =>
        match next with
        | none => failAt file .expectedTerm
        | some x => chain file ((last, sign) :: pending) x) := by
  funext q
  cases q with
  | nil => rw [chain]; rfl
  | cons t q =>
    rw [chain]
    cases hs : t.sign? with
    | none => simp only [bind, EStateM.bind, operator, hs]; rfl
    | some sign =>
      simp only [bind, EStateM.bind, operator, hs]
      cases q with
      | nil => rfl
      | cons u q =>
        cases hn : u.term? with
        | none => simp only [term, hn]; rfl
        | some x => simp only [term, hn]

theorem local_chain (pending : List (Tree × Sign)) (last : Tree) (q : List Token) :
    LocalAt file (chain file pending last) q := by
  rw [chain_eq_bind]
  refine (local_operator q).bind fun read s hread => ?_
  cases read with
  | none => exact local_pure _ s
  | some sign =>
    refine (local_term s).bind fun next r hnext => ?_
    cases next with
    | none => exact local_failAt (fun _ => rfl) r
    | some x => exact local_chain ((last, sign) :: pending) x r
termination_by q.length
decreasing_by exact Nat.lt_of_le_of_lt (length_le_of_term hnext) (length_lt_of_operator hread)

theorem local_tryExpr (q : List Token) : LocalAt file (tryExpr file) q := by
  refine (local_term q).bind fun first s _ => ?_
  cases first with
  | none => exact local_pure none s
  | some x => exact (local_chain [] x s).bind fun e r _ => local_pure (some e) r

theorem local_expr (q : List Token) : LocalAt file (expr file) q := by
  refine (local_tryExpr q).bind fun read s _ => ?_
  cases read with
  | none => exact local_failAt (fun _ => rfl) s
  | some e => exact local_pure e s

/-! ## Statements and programs -/

theorem local_letStatement (q : List Token) : LocalAt file (letStatement file) q := by
  refine (local_eat _ q).bind fun start q₁ _ => ?_
  refine (local_eatName q₁).bind fun name q₂ _ => ?_
  refine (local_eat _ q₂).bind fun _ q₃ _ => ?_
  refine (local_expr q₃).bind fun value q₄ _ => ?_
  exact (local_eat _ q₄).bind fun _ q₅ _ => local_pure _ q₅

theorem local_argument (q : List Token) : LocalAt file (argument file) q := by
  refine (local_tryExpr q).bind fun value q₁ _ => ?_
  exact (local_eat _ q₁).bind fun _ q₂ _ => local_pure _ q₂

/-- A keyword with what may follow it: the common part of `print` and `return`. -/
theorem local_keyword (m : Mark) (node : Tree → Line → Tree) (q : List Token) :
    LocalAt file (eat file (.mark m) >>= fun start => argument file >>= fun value =>
      pure (node value start.line) : Reader Tree) q := by
  refine (local_eat _ q).bind fun start q₁ _ => ?_
  exact (local_argument q₁).bind fun _ q₂ _ => local_pure _ q₂

/-- The reader of the statement that a token of a kind starts. -/
def statementFor (file : Option String) : Kind → Reader Tree
  | .mark .returnWord => returnStatement file
  | .mark .letWord => letStatement file
  | .mark .printWord => printStatement file
  | _ => failAt file .expectedStatement

/-- The first token tells the statement, and is then read again as its keyword. -/
theorem statement_eq_bind :
    statement file = (peek file >>= fun t => statementFor file t.kind) := by
  funext q
  cases q with
  | nil => rfl
  | cons t q =>
    rcases t with ⟨l, line⟩
    cases l with
    | mark m text => cases m <;> rfl
    | _ => rfl

theorem local_statement (q : List Token) : LocalAt file (statement file) q := by
  rw [statement_eq_bind]
  refine (local_peek q).bind fun t s _ => ?_
  unfold statementFor
  split
  · exact local_keyword .returnWord Tree.returning s
  · exact local_letStatement s
  · exact local_keyword .printWord Tree.printing s
  · exact local_failAt (fun _ => rfl) s

/-- Statements are read up to an end of input, which the front of the queue tells. -/
theorem statements_eq_bind :
    statements file = (peek file >>= fun t =>
      if t.kind = .eof then pure []
      else statement file >>= fun s => statements file >>= fun ss => pure (s :: ss)) := by
  funext q
  cases q with
  | nil => rw [statements]; rfl
  | cons t q =>
    rw [statements_cons]
    by_cases ht : t.kind = .eof
    · simp only [bind, EStateM.bind, peek, if_pos ht]; rfl
    · simp only [bind, EStateM.bind, peek, if_neg ht]
      cases statement file (t :: q) with
      | error f rest => rfl
      | ok s rest =>
        dsimp only
        cases statements file rest <;> rfl

theorem local_statements (q : List Token) : LocalAt file (statements file) q := by
  rw [statements_eq_bind]
  refine (local_peek q).bind fun t s hpeek => ?_
  split
  · exact local_pure [] s
  · refine (local_statement s).bind fun x r hx => ?_
    exact (local_statements r).bind fun ss left _ => local_pure (x :: ss) left
termination_by q.length
decreasing_by exact Nat.lt_of_lt_of_le (length_lt_of_statement hx) (length_le_of_peek hpeek)

/-- Reading a program looks at most one token ahead. -/
theorem local_program (q : List Token) : LocalAt file (program file) q := by
  refine (local_statements q).bind fun ss s _ => ?_
  exact (local_eat _ s).bind fun _ r _ => local_pure ss r

end Reader

end LetScript
