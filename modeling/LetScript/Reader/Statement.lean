import LetScript.Reader.Expr

/-
  Reading statements and programs. A statement is `let` with a name and an expression, or `print`
  or `return` with an expression or without; each ends in a semicolon. A program is statements up
  to the end-of-input token, which is taken too; tokens after it stay in the queue.
-/

namespace LetScript.Reader

variable (file : Option String)

/-- Reads a `let` statement. -/
def letStatement : Reader Tree := do
  let start ← eat file (.mark .letWord)
  let name ← eatName file
  let _ ← eat file (.mark .equal)
  let value ← expr file
  let _ ← eat file (.mark .semicolon)
  return .binding name.1 name.2 value start.line

/-- Reads what may follow `print` or `return`, and the semicolon. -/
def argument : Reader Tree := do
  let value ← tryExpr file
  let _ ← eat file (.mark .semicolon)
  return value.getD .absent

/-- Reads a `print` statement. -/
def printStatement : Reader Tree := do
  let start ← eat file (.mark .printWord)
  let value ← argument file
  return .printing value start.line

/-- Reads a `return` statement. -/
def returnStatement : Reader Tree := do
  let start ← eat file (.mark .returnWord)
  let value ← argument file
  return .returning value start.line

/-- Reads a statement, which its first token tells. -/
def statement : Reader Tree := fun queue =>
  match queue with
  | [] => .error (endOfInput file) []
  | t :: q =>
    match t.kind with
    | .mark .returnWord => returnStatement file (t :: q)
    | .mark .letWord => letStatement file (t :: q)
    | .mark .printWord => printStatement file (t :: q)
    | _ => .error (.raised file t.line (.expectedStatement t.lexeme)) (t :: q)

/-! ## What a success leaves -/

section

variable {file : Option String}

theorem length_lt_of_letStatement {s : Tree} {q r : List Token}
    (h : letStatement file q = .ok s r) : r.length < q.length := by
  obtain ⟨_, q₁, h₁, h⟩ := bind_eq_ok.1 h
  obtain ⟨_, q₂, h₂, h⟩ := bind_eq_ok.1 h
  obtain ⟨_, q₃, h₃, h⟩ := bind_eq_ok.1 h
  obtain ⟨_, q₄, h₄, h⟩ := bind_eq_ok.1 h
  obtain ⟨_, q₅, h₅, h⟩ := bind_eq_ok.1 h
  cases h
  have := length_lt_of_eat h₁
  have := length_lt_of_eatName h₂
  have := length_lt_of_eat h₃
  have := length_le_of_expr h₄
  have := length_lt_of_eat h₅
  omega

theorem length_lt_of_argument {v : Tree} {q r : List Token} (h : argument file q = .ok v r) :
    r.length < q.length := by
  obtain ⟨_, q₁, h₁, h⟩ := bind_eq_ok.1 h
  obtain ⟨_, q₂, h₂, h⟩ := bind_eq_ok.1 h
  cases h
  exact Nat.lt_of_lt_of_le (length_lt_of_eat h₂) (length_le_of_tryExpr h₁)

theorem length_lt_of_printStatement {s : Tree} {q r : List Token}
    (h : printStatement file q = .ok s r) : r.length < q.length := by
  obtain ⟨_, q₁, h₁, h⟩ := bind_eq_ok.1 h
  obtain ⟨_, q₂, h₂, h⟩ := bind_eq_ok.1 h
  cases h
  exact Nat.lt_trans (length_lt_of_argument h₂) (length_lt_of_eat h₁)

theorem length_lt_of_returnStatement {s : Tree} {q r : List Token}
    (h : returnStatement file q = .ok s r) : r.length < q.length := by
  obtain ⟨_, q₁, h₁, h⟩ := bind_eq_ok.1 h
  obtain ⟨_, q₂, h₂, h⟩ := bind_eq_ok.1 h
  cases h
  exact Nat.lt_trans (length_lt_of_argument h₂) (length_lt_of_eat h₁)

/-- A statement takes at least one token. -/
theorem length_lt_of_statement {s : Tree} {q r : List Token} (h : statement file q = .ok s r) :
    r.length < q.length := by
  cases q with
  | nil => simp [statement] at h
  | cons t q =>
    unfold statement at h
    dsimp only at h
    split at h
    · exact length_lt_of_returnStatement h
    · exact length_lt_of_letStatement h
    · exact length_lt_of_printStatement h
    · cases h

end

/-- Reads statements up to the end-of-input token. -/
def statements (queue : List Token) : EStateM.Result Fault (List Token) (List Tree) :=
  match queue with
  | [] => .error (endOfInput file) []
  | t :: q =>
    if t.kind = .eof then .ok [] (t :: q)
    else
      match _h : statement file (t :: q) with
      | .error f rest => .error f rest
      | .ok s rest =>
        match statements rest with
        | .ok ss left => .ok (s :: ss) left
        | .error f left => .error f left
termination_by queue.length
decreasing_by exact length_lt_of_statement _h

/-- What the front of the queue decides. -/
theorem statements_cons (t : Token) (q : List Token) :
    statements file (t :: q) =
      if t.kind = .eof then .ok [] (t :: q)
      else
        match statement file (t :: q) with
        | .error f rest => .error f rest
        | .ok s rest =>
          match statements file rest with
          | .ok ss left => .ok (s :: ss) left
          | .error f left => .error f left := by
  rw [statements]
  split
  · rfl
  · split
    next h => rw [h]
    next h => simp only [h]

/-- Reads a program, up to the end-of-input token and with it. -/
def program : Reader (List Tree) := do
  let ss ← statements file
  let _ ← eat file .eof
  return ss

end LetScript.Reader
