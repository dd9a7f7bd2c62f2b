import LetScript.Token.Scan

/-
  Reading tokens one at a time. A cursor stands before the pieces that are still unread; it is
  finished once it has given the end-of-input token or an error. A pool holds any number of
  cursors under names.
-/

namespace LetScript

/-- A place in a source text from which tokens are read one at a time. -/
inductive Cursor
  | finished
  | before (file : Option String) (line : Nat) (pieces : List Piece)

namespace Cursor

/-- What reading one token gives. -/
inductive Reply
  | token (token : Token)
  | fault (fault : Fault)
  | stop

/-- The cursor at the start of a source text. -/
def ofText (file : Option String) (source : String) : Cursor :=
  .before file 1 (LetScript.pieces source.toList)

/-- Reads the next token of the given pieces. -/
def nextOf (file : Option String) (line : Nat) : List Piece → Reply × Cursor
  | [] => (.token ⟨.eof, some line⟩, .finished)
  | p :: ps =>
    match p.reading with
    | .skip => nextOf file (line + Text.newlines p.text) ps
    | .refuse cause => (.fault (Fault.placed file (some line) cause), .finished)
    | .lexeme l => (.token ⟨l, some line⟩, .before file (line + Text.newlines p.text) ps)

/-- Reads the next token. -/
def next : Cursor → Reply × Cursor
  | .finished => (.stop, .finished)
  | .before file line ps => nextOf file line ps

/-- The number of steps that a cursor can still take. -/
def size : Cursor → Nat
  | .finished => 0
  | .before _ _ ps => ps.length + 1

theorem size_nextOf_le (file : Option String) (line : Nat) (ps : List Piece) :
    (nextOf file line ps).2.size ≤ ps.length := by
  fun_induction nextOf file line ps with
  | case1 => simp [size]
  | case2 line p ps h ih => rw [List.length_cons]; omega
  | case3 => simp [size]
  | case4 => simp [size]

/-- A token moves the cursor on. -/
theorem size_next_lt {c c' : Cursor} {t : Token} (h : c.next = (.token t, c')) :
    c'.size < c.size := by
  cases c with
  | finished => simp [next] at h
  | before file line ps =>
    have hle := size_nextOf_le file line ps
    rw [next] at h
    rw [h] at hle
    exact Nat.lt_succ_of_le hle

/-- Reads every token that is left. An error discards those read on the way to it. -/
def drain (c : Cursor) : Except Fault (List Token) :=
  match _h : c.next with
  | (.stop, _) => .ok []
  | (.fault f, _) => .error f
  | (.token t, c') =>
    match drain c' with
    | .ok ts => .ok (t :: ts)
    | .error f => .error f
termination_by c.size
decreasing_by exact size_next_lt _h

/-- What the next token decides. -/
theorem drain_eq (c : Cursor) :
    c.drain =
      match c.next with
      | (.stop, _) => .ok []
      | (.fault f, _) => .error f
      | (.token t, c') =>
        match c'.drain with
        | .ok ts => .ok (t :: ts)
        | .error f => .error f := by
  rw [drain]
  split
  next h => rw [h]
  next h => rw [h]
  next h => simp only [h]

end Cursor

/-! ## Several cursors under names -/

/-- Cursors under names, the newest of each name first. -/
abbrev Pool := List (String × Cursor)

namespace Pool

/-- One thing to do with a named cursor. -/
inductive Step
  | open (name : String) (file : Option String) (source : String)
  | next (name : String)
  | drain (name : String)

/-- What a step gives. -/
inductive Reply
  | opened
  | token (token : Token)
  | stop
  | tokens (tokens : List Token)
  | fault (fault : Fault)

/-- The cursor of a name; a name never opened is finished. -/
def get (pool : Pool) (name : String) : Cursor := (pool.lookup name).getD .finished

/-- Does one step. A drained cursor is finished, whether the drain succeeded or not. -/
def step (pool : Pool) : Step → Reply × Pool
  | .open name file source => (.opened, (name, Cursor.ofText file source) :: pool)
  | .next name =>
    match (pool.get name).next with
    | (.token t, c) => (.token t, (name, c) :: pool)
    | (.fault f, c) => (.fault f, (name, c) :: pool)
    | (.stop, c) => (.stop, (name, c) :: pool)
  | .drain name =>
    match (pool.get name).drain with
    | .ok ts => (.tokens ts, (name, .finished) :: pool)
    | .error f => (.fault f, (name, .finished) :: pool)

/-- Does steps in order and collects what each gives. -/
def replies (pool : Pool) : List Step → List Reply
  | [] => []
  | s :: ss =>
    let r := step pool s
    r.1 :: replies r.2 ss

end Pool

end LetScript
