import LetScript.Proofs.Lines
import LetScript.Proofs.Lookahead

/-
  Other names, other lines, other files. A relabeling exchanges the names, the lines and the files
  that stand in trees, tokens and faults, and leaves their shape as it is.

  Reading commutes with relabeling: on relabeled tokens each reader does what it does on the tokens,
  relabeled, whether it succeeds or fails and with the queue that it leaves (`Follows`). One reader
  after another follows if both do (`Follows.bind`), so this goes from single tokens up to programs.

  Main statement: `program_relabel`.
-/

namespace LetScript

/-- New names, lines and files for old ones. What has no line gets none, and so with files. -/
structure Relabeling where
  name : String → String
  line : Line → Line
  file : Option String → Option String
  line_none : line none = none
  file_none : file none = none

namespace Relabeling

/-- New names only. -/
def ofNames (r : String → String) : Relabeling := ⟨r, id, id, rfl, rfl⟩

/-- Lines further down by a number of lines. -/
def shift (n : Int) : Relabeling := ⟨id, Option.map (· + n), id, rfl, rfl⟩

/-- No lines and no files. -/
def nowhere : Relabeling := ⟨id, fun _ => none, fun _ => none, rfl, rfl⟩

end Relabeling

/-! ## What is relabeled -/

namespace Tree

mutual

/-- A tree with new names and lines. -/
def relabel (m : Relabeling) : Tree → Tree
  | .integer n line => .integer n (m.line line)
  | .string s line => .string s (m.line line)
  | .boolean b line => .boolean b (m.line line)
  | .identifier name line => .identifier (m.name name) (m.line line)
  | .operation family left op right line =>
    .operation family (relabel m left) op (relabel m right) (m.line line)
  | .binding name nameLine value line =>
    .binding (m.name name) (m.line nameLine) (relabel m value) (m.line line)
  | .printing value line => .printing (relabel m value) (m.line line)
  | .returning value line => .returning (relabel m value) (m.line line)
  | .program statements => .program (relabelAll m statements)
  | .absent => .absent

/-- The trees of a list with new names and lines. -/
def relabelAll (m : Relabeling) : List Tree → List Tree
  | [] => []
  | t :: ts => relabel m t :: relabelAll m ts

end

end Tree

/-- A lexeme with its name, if it is one, exchanged. -/
def Lexeme.rename (r : String → String) : Lexeme → Lexeme
  | .identifier name => .identifier (r name)
  | l => l

/-- A token with a new name and line. -/
def Token.relabel (m : Relabeling) (t : Token) : Token := ⟨t.lexeme.rename m.name, m.line t.line⟩

/-- An operator as read, with a new line. -/
def Sign.relabel (m : Relabeling) (s : Sign) : Sign := ⟨s.family, s.op, m.line s.line⟩

/-- A cause with new names, also in the lexeme or tree that it is about. -/
def Cause.relabel (m : Relabeling) : Cause → Cause
  | .expectedKind kind found => .expectedKind kind (found.rename m.name)
  | .expectedTerm found => .expectedTerm (found.rename m.name)
  | .expectedStatement found => .expectedStatement (found.rename m.name)
  | .alreadyDefined name => .alreadyDefined (m.name name)
  | .notDefined name => .notDefined (m.name name)
  | .notStatement tree => .notStatement (tree.relabel m)
  | .notExpression tree => .notExpression (tree.relabel m)
  | c => c

/-- A fault with new names, line and file. -/
def Fault.relabel (m : Relabeling) (f : Fault) : Fault :=
  ⟨f.cause.relabel m, m.line f.line, m.file f.file⟩

variable {m : Relabeling}

theorem Fault.relabel_unplaced (c : Cause) :
    (Fault.unplaced c).relabel m = Fault.unplaced (c.relabel m) := by
  unfold Fault.unplaced Fault.relabel
  rw [m.line_none, m.file_none]

theorem Fault.relabel_unwritable :
    (Fault.unplaced .unwritable).relabel m = Fault.unplaced .unwritable :=
  relabel_unplaced .unwritable

theorem Lexeme.rename_id (l : Lexeme) : l.rename id = l := by
  cases l <;> rfl

theorem Lexeme.kind_rename (r : String → String) (l : Lexeme) : (l.rename r).kind = l.kind := by
  cases l <;> rfl

theorem Lexeme.isSome_described?_rename (r : String → String) (l : Lexeme) :
    (l.rename r).described?.isSome = l.described?.isSome := by
  cases l with
  | identifier name => simp only [rename, described?, payload, Datum.written?, Option.map_some,
      Option.isSome_some]
  | _ => rfl

theorem Token.kind_relabel (t : Token) : (t.relabel m).kind = t.kind :=
  Lexeme.kind_rename m.name t.lexeme

/-- Whether a cause tells nothing of a tree, which has lines. -/
def Cause.isTreeless : Cause → Bool
  | .notStatement _ | .notExpression _ => false
  | _ => true

/-- Errors of the language tell nothing of a tree. -/
theorem Cause.isTreeless_of_stage {c : Cause} (h : c.stage? ≠ none) : c.isTreeless = true := by
  cases c with
  | notStatement | notExpression => exact absurd rfl h
  | _ => rfl

/-- Where names stay, so does every cause that tells nothing of a tree. -/
theorem Cause.relabel_of_isTreeless (hm : m.name = id) {c : Cause} (h : c.isTreeless = true) :
    c.relabel m = c := by
  cases c with
  | notStatement | notExpression => cases h
  | _ => simp only [Cause.relabel, hm, Lexeme.rename_id, id_eq]

namespace Tree

theorem isAbsent_relabel (t : Tree) : (t.relabel m).isAbsent = t.isAbsent := by
  cases t <;> rfl

mutual

/-- A relabeled tree has its integers, so it is described if the tree is. -/
theorem isSome_described?_relabel : ∀ t : Tree,
    (t.relabel m).described?.isSome = t.described?.isSome
  | .integer n line => by
    rw [relabel, described?, described?]
    cases Text.decimal? n <;> rfl
  | .string .. | .boolean .. | .identifier .. | .absent => by
    simp only [relabel, described?, Option.isSome_some]
  | .operation family left op right line => by
    simp only [relabel, isSome_described?_operation, isSome_described?_relabel left,
      isSome_described?_relabel right]
  | .binding _ _ value _ => by
    simp only [relabel, isSome_described?_binding, isSome_described?_relabel value]
  | .printing value _ => by
    simp only [relabel, isSome_described?_printing, isSome_described?_relabel value]
  | .returning value _ => by
    simp only [relabel, isSome_described?_returning, isSome_described?_relabel value]
  | .program statements => by
    simp only [relabel, isSome_described?_program, isSome_describedAll?_relabel statements]

theorem isSome_describedAll?_relabel : ∀ ts : List Tree,
    (describedAll? (relabelAll m ts)).isSome = (describedAll? ts).isSome
  | [] => rfl
  | t :: ts => by
    simp only [relabelAll, isSome_describedAll?_cons, isSome_described?_relabel t,
      isSome_describedAll?_relabel ts]

end

mutual

theorem relabel_nowhere : ∀ t : Tree, t.relabel .nowhere = t.unlined
  | .integer .. | .string .. | .boolean .. | .identifier .. | .absent => by
    simp [relabel, unlined, Relabeling.nowhere]
  | .operation _ left _ right _ => by
    rw [relabel, unlined, relabel_nowhere left, relabel_nowhere right]
    rfl
  | .binding _ _ value _ | .printing value _ | .returning value _ => by
    rw [relabel, unlined, relabel_nowhere value]
    rfl
  | .program statements => by rw [relabel, unlined, relabelAll_nowhere statements]

/-- Trees without lines are trees relabeled. -/
theorem relabelAll_nowhere : ∀ ts : List Tree, relabelAll .nowhere ts = unlinedAll ts
  | [] => rfl
  | t :: ts => by rw [relabelAll, unlinedAll, relabel_nowhere t, relabelAll_nowhere ts]

end

/-- The node of a chain is relabeled by relabeling its operands and operators. -/
theorem joinLeft_relabel (pending : List (Tree × Sign)) (last : Tree) :
    (joinLeft pending last).relabel m =
      joinLeft (pending.map (Prod.map (relabel m) (Sign.relabel m))) (last.relabel m) := by
  induction pending generalizing last with
  | nil => rfl
  | cons p pending ih => exact ih (p.2.join p.1 last)

end Tree

/-- A cause and the relabeled one tell the same integers. -/
theorem Cause.isSome_text?_relabel (c : Cause) : (c.relabel m).text?.isSome = c.text?.isSome := by
  cases c with
  | expectedKind kind found | expectedTerm found | expectedStatement found =>
    simp only [relabel, text?, Option.isSome_map, Lexeme.isSome_described?_rename]
  | notExpression tree =>
    simp only [relabel, text?, Option.isSome_map, Tree.isSome_described?_relabel]
  | _ => simp only [relabel, text?, Option.isSome_some]

theorem Cause.stage?_relabel (c : Cause) : (c.relabel m).stage? = c.stage? := by
  cases c <;> rfl

/-- What is raised in other words at another place is the fault, relabeled. -/
theorem Fault.relabel_raised (file : Option String) (line : Line) (c : Cause) :
    (Fault.raised file line c).relabel m = Fault.raised (m.file file) (m.line line) (c.relabel m) := by
  unfold Fault.raised Fault.placed
  rw [Cause.isSome_text?_relabel, Cause.stage?_relabel]
  split
  · split
    · rfl
    · exact relabel_unplaced c
  · exact relabel_unwritable

theorem Token.term?_relabel (t : Token) : (t.relabel m).term? = t.term?.map (Tree.relabel m) := by
  rcases t with ⟨l, line⟩
  cases l <;> rfl

theorem Token.sign?_relabel (t : Token) : (t.relabel m).sign? = t.sign?.map (Sign.relabel m) := by
  rcases t with ⟨l, line⟩
  cases l with
  | mark k text => cases k <;> rfl
  | _ => rfl

/-! ## Readers of relabeled tokens -/

namespace Reader

variable {file : Option String} {α β γ δ : Type}

/-- An outcome with its result, its fault and its queue relabeled. -/
def relabelOutcome (m : Relabeling) (φ : α → β) :
    EStateM.Result Fault (List Token) α → EStateM.Result Fault (List Token) β
  | .ok a q => .ok (φ a) (q.map (Token.relabel m))
  | .error f q => .error (f.relabel m) (q.map (Token.relabel m))

/-- On relabeled tokens `y` does what `x` does on the tokens, relabeled. -/
def Follows (m : Relabeling) (φ : α → β) (x : Reader α) (y : Reader β) : Prop :=
  ∀ q, y (q.map (Token.relabel m)) = relabelOutcome m φ (x q)

theorem Follows.bind {φ : α → β} {ψ : γ → δ} {x : Reader α} {y : Reader β} {g : α → Reader γ}
    {k : β → Reader δ} (hx : Follows m φ x y) (hg : ∀ a, Follows m ψ (g a) (k (φ a))) :
    Follows m ψ (x >>= g) (y >>= k) := by
  intro q
  change EStateM.bind y k (q.map (Token.relabel m)) = relabelOutcome m ψ (EStateM.bind x g q)
  unfold EStateM.bind
  rw [hx q]
  cases x q with
  | ok a r => exact hg a r
  | error f r => rfl

theorem follows_pure {φ : α → β} (a : α) : Follows m φ (pure a) (pure (φ a)) :=
  fun _ => rfl

theorem relabel_endOfInput : (endOfInput file).relabel m = endOfInput (m.file file) := by
  unfold endOfInput Fault.relabel
  rw [m.line_none]
  rfl

theorem follows_peek : Follows m (Token.relabel m) (peek file) (peek (m.file file)) := by
  intro q
  cases q with
  | nil => simp only [peek, relabelOutcome, List.map_nil, relabel_endOfInput]
  | cons t q => rfl

theorem follows_failAt {φ : α → β} {cause : Lexeme → Cause}
    (h : ∀ l, cause (l.rename m.name) = (cause l).relabel m) :
    Follows m φ (failAt file cause) (failAt (m.file file) cause) := by
  intro q
  cases q with
  | nil => simp only [failAt, relabelOutcome, List.map_nil, relabel_endOfInput]
  | cons t q =>
    simp only [failAt, List.map_cons, relabelOutcome, Fault.relabel_raised, ← h]
    rfl

theorem follows_eat (kind : Kind) :
    Follows m (Token.relabel m) (eat file kind) (eat (m.file file) kind) := by
  intro q
  cases q with
  | nil => simp only [eat, relabelOutcome, List.map_nil, relabel_endOfInput]
  | cons t q =>
    simp only [eat, List.map_cons, Token.kind_relabel]
    by_cases hk : t.kind = kind
    · rw [if_pos hk, if_pos hk]
      rfl
    · rw [if_neg hk, if_neg hk, relabelOutcome, Fault.relabel_raised]
      rfl

theorem follows_eatName :
    Follows m (Prod.map m.name m.line) (eatName file) (eatName (m.file file)) := by
  intro q
  cases q with
  | nil => simp only [eatName, relabelOutcome, List.map_nil, relabel_endOfInput]
  | cons t q =>
    rcases t with ⟨l, line⟩
    cases l with
    | identifier name => rfl
    | _ =>
      simp only [eatName, List.map_cons, relabelOutcome, Fault.relabel_raised]
      rfl

theorem follows_term :
    Follows m (Option.map (Tree.relabel m)) (term file) (term (m.file file)) := by
  intro q
  cases q with
  | nil => simp only [term, relabelOutcome, List.map_nil, relabel_endOfInput]
  | cons t q =>
    simp only [term, List.map_cons, Token.term?_relabel]
    cases t.term? <;> rfl

/-! ## Expressions, statements and programs -/

theorem follows_chain (pending : List (Tree × Sign)) (last : Tree) :
    Follows m (Tree.relabel m) (chain file pending last)
      (chain (m.file file) (pending.map (Prod.map (Tree.relabel m) (Sign.relabel m)))
        (last.relabel m)) := by
  intro q
  fun_induction chain file pending last q with
  | case1 pending last => simp only [chain, relabelOutcome, List.map_nil, relabel_endOfInput]
  | case2 pending last t q hs =>
    have hsign : (t.relabel m).sign? = none := by rw [Token.sign?_relabel, hs]; rfl
    rw [List.map_cons, chain, hsign, relabelOutcome, Tree.joinLeft_relabel]
    rfl
  | case3 pending last t sign hs =>
    have hsign : (t.relabel m).sign? = some (sign.relabel m) := by rw [Token.sign?_relabel, hs]; rfl
    rw [List.map_cons, List.map_nil, chain, hsign, relabelOutcome, relabel_endOfInput]
    rfl
  | case4 pending last t sign hs u q hn =>
    have hsign : (t.relabel m).sign? = some (sign.relabel m) := by rw [Token.sign?_relabel, hs]; rfl
    have hterm : (u.relabel m).term? = none := by rw [Token.term?_relabel, hn]; rfl
    rw [List.map_cons, List.map_cons, chain, hsign]
    simp only [hterm, relabelOutcome, Fault.relabel_raised]
    rfl
  | case5 pending last t sign hs u q next hn ih =>
    have hsign : (t.relabel m).sign? = some (sign.relabel m) := by rw [Token.sign?_relabel, hs]; rfl
    have hterm : (u.relabel m).term? = some (next.relabel m) := by
      rw [Token.term?_relabel, hn]
      rfl
    rw [List.map_cons, List.map_cons, chain, hsign]
    simp only [hterm]
    exact ih

theorem follows_tryExpr :
    Follows m (Option.map (Tree.relabel m)) (tryExpr file) (tryExpr (m.file file)) := by
  refine follows_term.bind fun first => ?_
  cases first with
  | none => exact follows_pure none
  | some x => exact (follows_chain [] x).bind fun e => follows_pure (some e)

theorem follows_expr : Follows m (Tree.relabel m) (expr file) (expr (m.file file)) := by
  refine follows_tryExpr.bind fun read => ?_
  cases read with
  | none => exact follows_failAt fun _ => rfl
  | some e => exact follows_pure e

theorem follows_letStatement :
    Follows m (Tree.relabel m) (letStatement file) (letStatement (m.file file)) := by
  refine (follows_eat _).bind fun start => ?_
  refine follows_eatName.bind fun name => ?_
  refine (follows_eat _).bind fun _ => ?_
  refine follows_expr.bind fun value => ?_
  exact (follows_eat _).bind fun _ => follows_pure (Tree.binding name.1 name.2 value start.line)

theorem follows_argument :
    Follows m (Tree.relabel m) (argument file) (argument (m.file file)) := by
  refine follows_tryExpr.bind fun value => ?_
  refine (follows_eat _).bind fun _ => ?_
  cases value with
  | none => exact follows_pure Tree.absent
  | some x => exact follows_pure x

theorem follows_printStatement :
    Follows m (Tree.relabel m) (printStatement file) (printStatement (m.file file)) := by
  refine (follows_eat _).bind fun start => ?_
  exact follows_argument.bind fun value => follows_pure (Tree.printing value start.line)

theorem follows_returnStatement :
    Follows m (Tree.relabel m) (returnStatement file) (returnStatement (m.file file)) := by
  refine (follows_eat _).bind fun start => ?_
  exact follows_argument.bind fun value => follows_pure (Tree.returning value start.line)

theorem follows_statement :
    Follows m (Tree.relabel m) (statement file) (statement (m.file file)) := by
  rw [statement_eq_bind, statement_eq_bind]
  refine follows_peek.bind fun t => ?_
  rw [Token.kind_relabel]
  unfold statementFor
  split
  · exact follows_returnStatement
  · exact follows_letStatement
  · exact follows_printStatement
  · exact follows_failAt fun _ => rfl

theorem statements_relabel (q : List Token) :
    statements (m.file file) (q.map (Token.relabel m)) =
      relabelOutcome m (List.map (Tree.relabel m)) (statements file q) := by
  cases q with
  | nil => simp only [statements, List.map_nil, relabelOutcome, relabel_endOfInput]
  | cons t q =>
    have hfollows : Follows m (Tree.relabel m) (statement file) (statement (m.file file)) :=
      follows_statement
    have hread := hfollows (t :: q)
    rw [List.map_cons] at hread
    rw [List.map_cons, statements_cons, statements_cons, Token.kind_relabel, hread]
    by_cases hstop : t.kind = .eof
    · rw [if_pos hstop, if_pos hstop]
      rfl
    · rw [if_neg hstop, if_neg hstop]
      cases hs : statement file (t :: q) with
      | error f rest => rfl
      | ok s rest =>
        have hrest := statements_relabel rest
        simp only [relabelOutcome, hrest]
        cases statements file rest <;> rfl
termination_by q.length
decreasing_by exact length_lt_of_statement hs

/-- Reading a program from relabeled tokens gives what reading it from the tokens gives, relabeled. -/
theorem program_relabel (m : Relabeling) (file : Option String) (q : List Token) :
    program (m.file file) (q.map (Token.relabel m)) =
      relabelOutcome m (List.map (Tree.relabel m)) (program file q) := by
  have h : Follows m (List.map (Tree.relabel m)) (program file) (program (m.file file)) := by
    refine Follows.bind statements_relabel fun ss => ?_
    exact (follows_eat _).bind fun _ => follows_pure ss
  exact h q

end Reader

end LetScript
