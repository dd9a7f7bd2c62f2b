import LetScript.Proofs.Rendering
import LetScript.Proofs.Words

/-
  The text of a tree shows its grouping.

  In a rendered text only right operands stand in parentheses, so `a - b - c` is `(a - b) - c`
  there, and a minus sign may also be the sign of an integer. `Point.step` reads such a text token
  by token: what was read so far is the left operand of the operator that follows it, and a
  parenthesis sets the operator before it aside until it is closed. `Sheet.step` reads the
  statements around.

  What is read from the pieces of an expression or a program is that tree without its lines
  (`leads_expr`, `leads_program`). It depends on the text alone, so trees with one text agree but
  for their lines. The other way round, neither a text nor what keeps it from being written depends on
  lines (`layout_unlined`, `obstacle?_unlined`).

  Main statement: `render_eq_iff_same`.
-/

namespace LetScript

open LetScript.Tree

/-- The token that a piece is, on no line. A digit run is a number of any size. -/
def Piece.token? : Piece → Option Token
  | .digits run => some ⟨.integer (Piece.number run), none⟩
  | p =>
    match p.reading with
    | .lexeme l => some ⟨l, none⟩
    | _ => none

theorem token?_of_reading {p : Piece} {l : Lexeme} (h : p.reading = .lexeme l) :
    p.token? = some ⟨l, none⟩ := by
  cases p with
  | digits run =>
    rw [Piece.reading] at h
    split at h
    · cases h
    · split at h
      · cases h
      · cases h; rfl
  | _ => first | (cases h; rfl) | cases h

namespace Grouping

/-! ## Reading a text with its parentheses and signs -/

/-- An operator node without its right operand. -/
structure Half where
  left : Tree
  sign : Sign

/-- Where an operand is due. `outer` are the nodes whose right operands stand in open parentheses,
    the innermost first; `node` is the one that the operand belongs to, if it is not the first
    operand there. -/
structure Gap where
  outer : List Half
  node : Option Half

/-- Where the reading of an expression stands: before an operand, after the minus sign of an
    integer, or after an operand. -/
inductive Point
  | operand (gap : Gap)
  | negative (gap : Gap)
  | after (outer : List Half) (x : Tree)

/-- The node with its right operand. -/
def Half.join (h : Half) (right : Tree) : Tree := h.sign.join h.left right

/-- The point after the operand that was due. -/
def Gap.fill (gap : Gap) (x : Tree) : Point :=
  .after gap.outer (match gap.node with
    | none => x
    | some h => h.join x)

/-- The point before an expression. -/
def Point.start : Point := .operand ⟨[], none⟩

/-- Reads a token of an expression. -/
def Point.step : Point → Token → Option Point
  | .operand gap, t =>
    match t.term? with
    | some x => some (gap.fill x)
    | none =>
      match t.kind with
      | .mark .minus => some (.negative gap)
      -- the first operand never stands in parentheses
      | .mark .lparen => gap.node.map fun h => .operand ⟨h :: gap.outer, none⟩
      | _ => none
  | .negative gap, t =>
    match t.lexeme with
    | .integer n => some (gap.fill (.integer (-n) none))
    | _ => none
  | .after outer x, t =>
    match t.sign? with
    | some s => some (.operand ⟨outer, some ⟨x, s⟩⟩)
    | none =>
      match outer with
      | h :: outer => if t.kind = .mark .rparen then some (.after outer (h.join x)) else none
      | [] => none

/-- The expression that was read, if it is whole. -/
def Point.tree? : Point → Option Tree
  | .operand ⟨[], none⟩ => some .absent
  | .after [] x => some x
  | _ => none

/-- A statement without its value. -/
inductive Head
  | binding (name : String)
  | printing
  | returning

/-- The statement with its value. -/
def Head.node : Head → Tree → Tree
  | .binding name, x => .binding name none x none
  | .printing, x => .printing x none
  | .returning, x => .returning x none

/-- Where the reading of statements stands: between two of them, after `let`, after the name that
    is bound, or in the value. -/
inductive Phase
  | idle
  | letting
  | named (name : String)
  | value (head : Head) (point : Point)

/-- The statements that were read, and where the reading stands. -/
structure Sheet where
  statements : List Tree
  phase : Phase

/-- Reads a token of a program. -/
def Sheet.step : Sheet → Token → Option Sheet
  | ⟨ss, .idle⟩, t =>
    match t.kind with
    | .mark .letWord => some ⟨ss, .letting⟩
    | .mark .printWord => some ⟨ss, .value .printing .start⟩
    | .mark .returnWord => some ⟨ss, .value .returning .start⟩
    | _ => none
  | ⟨ss, .letting⟩, t =>
    match t.lexeme with
    | .identifier name => some ⟨ss, .named name⟩
    | _ => none
  | ⟨ss, .named name⟩, t =>
    if t.kind = .mark .equal then some ⟨ss, .value (.binding name) .start⟩ else none
  | ⟨ss, .value head point⟩, t =>
    match point.step t with
    | some point => some ⟨ss, .value head point⟩
    | none =>
      -- no expression goes on with a semicolon
      if t.kind = .mark .semicolon then point.tree?.map fun x => ⟨ss ++ [head.node x], .idle⟩
      else none

/-! ## What pieces lead to -/

/-- Reading the pieces one after another leads from one state to another. -/
def Leads {σ : Type} (step : σ → Token → Option σ) (s : σ) (ps : List Piece) (s' : σ) : Prop :=
  ps.foldlM (fun s p => p.token?.bind (step s)) s = some s'

section Leads

variable {σ : Type} {step : σ → Token → Option σ} {s s' s'' : σ} {ps qs : List Piece}

theorem leads_nil (s : σ) : Leads step s [] s := rfl

theorem Leads.append (h : Leads step s ps s') (h' : Leads step s' qs s'') :
    Leads step s (ps ++ qs) s'' := by
  rw [Leads, List.foldlM_append, h]
  exact h'

theorem leads_piece {p : Piece} {t : Token} (hp : p.token? = some t) (hs : step s t = some s') :
    Leads step s [p] s' := by
  rw [Leads, List.foldlM_cons, hp, Option.bind_some, hs]
  rfl

theorem leads_lexeme {p : Piece} {l : Lexeme} (hp : p.reading = .lexeme l)
    (hs : step s ⟨l, none⟩ = some s') : Leads step s [p] s' :=
  leads_piece (token?_of_reading hp) hs

theorem leads_mark (m : Mark) (hs : step s ⟨.ofMark m, none⟩ = some s') :
    Leads step s [m.piece] s' :=
  leads_lexeme (reading_mark m) hs

/-- What each step does within a larger state, a run of steps does. -/
theorem Leads.map {τ : Type} {step' : τ → Token → Option τ} (f : σ → τ)
    (hstep : ∀ {s t s'}, step s t = some s' → step' (f s) t = some (f s'))
    (h : Leads step s ps s') : Leads step' (f s) ps (f s') := by
  induction ps generalizing s with
  | nil =>
    cases h
    exact leads_nil _
  | cons p ps ih =>
    rw [Leads, List.foldlM_cons] at h
    obtain ⟨s₁, hfirst, hrest⟩ := Option.bind_eq_some_iff.1 h
    obtain ⟨t, ht, hs⟩ := Option.bind_eq_some_iff.1 hfirst
    exact (leads_piece ht (hstep hs)).append (ih hrest)

/-- The pieces lead to one state only. -/
theorem Leads.unique (h : Leads step s ps s') (h' : Leads step s ps s'') : s' = s'' :=
  Option.some.inj (h.symm.trans h')

end Leads

/-! ## Expressions -/

theorem token?_toDigits (n : Nat) :
    (Piece.digits (Nat.toDigits 10 n)).token? = some ⟨.integer n, none⟩ := by
  rw [Piece.token?, number_toDigits]

theorem leads_integer (n : Int) (line : Line) (gap : Gap) :
    Leads Point.step (.operand gap) (cuts (.integer n line)) (gap.fill (.integer n none)) := by
  rw [cuts]
  by_cases hn : 0 ≤ n
  · rw [if_pos hn]
    refine leads_piece (token?_toDigits n.toNat) ?_
    rw [Int.toNat_of_nonneg hn]
    rfl
  · rw [if_neg hn]
    have hminus : Leads Point.step (.operand gap) [Mark.minus.piece] (.negative gap) :=
      leads_mark .minus rfl
    refine hminus.append (leads_piece (token?_toDigits (-n).toNat) ?_)
    have hneg : -((-n).toNat : Int) = n := by omega
    change some (gap.fill (.integer (-((-n).toNat : Int)) none)) = _
    rw [hneg]

/-- A term is read where an operand is due. -/
theorem leads_term {number : Int → Bool} {x : Tree} (hx : x.isTerm = true)
    (hs : x.isSpellable number = true) (gap : Gap) :
    Leads Point.step (.operand gap) x.cuts (gap.fill x.unlined) := by
  cases x with
  | integer n line => exact leads_integer n line gap
  | string s line =>
    refine leads_lexeme (l := .string s) ?_ rfl
    rw [Piece.reading, String.ofList_toList]
  | boolean b line => cases b <;> exact leads_lexeme rfl rfl
  | identifier name line => exact leads_lexeme (reading_name hs) rfl
  | _ => cases hx

/-- An operator is read after an operand. -/
theorem leads_op {op : Op} {family : Family} {m : Mark} (hfam : op.family? = some family)
    (hm : op.mark? = some m) (outer : List Half) (x : Tree) :
    Leads Point.step (.after outer x) [m.piece] (.operand ⟨outer, some ⟨x, family, op, none⟩⟩) := by
  have hsign : Token.sign? ⟨.ofMark m, none⟩ = some ⟨family, op, none⟩ :=
    sign?_of_mark? hfam hm rfl
  refine leads_mark m ?_
  simp only [Point.step, hsign]

/-- A right operand is read: a term as it stands, an operator node between parentheses. -/
theorem leads_right {number : Int → Bool} {right : Tree} (hright : right.isExpr = true)
    (hs : right.isSpellable number = true) (node : Half) (outer : List Half)
    (hinner : ∀ outer,
      Leads Point.step (.operand ⟨outer, none⟩) right.cuts (.after outer right.unlined)) :
    Leads Point.step (.operand ⟨outer, some node⟩) (bracketed right right.cuts)
      (.after outer (node.join right.unlined)) := by
  rw [bracketed]
  by_cases h : right.isOperation = true
  · rw [if_pos h]
    have hopen : Leads Point.step (.operand ⟨outer, some node⟩) [Mark.lparen.piece]
        (.operand ⟨node :: outer, none⟩) := leads_mark .lparen rfl
    exact (hopen.append (hinner (node :: outer))).append (leads_mark .rparen rfl)
  · rw [if_neg h]
    have hterm : right.isTerm = true := by
      cases right <;> first | exact hright | exact absurd rfl h
    exact leads_term hterm hs ⟨outer, some node⟩

/-- An expression is read where the first operand is due, inside any open parentheses. -/
theorem leads_expr {number : Int → Bool} {x : Tree} (hx : x.isExpr = true)
    (hs : x.isSpellable number = true) (outer : List Half) :
    Leads Point.step (.operand ⟨outer, none⟩) x.cuts (.after outer x.unlined) := by
  -- the left operand stands in the same parentheses, the right one may stand in one more pair
  induction x, hx using expr_induction generalizing outer with
  | term x hterm => exact leads_term hterm hs ⟨outer, none⟩
  | operation family left op right line hop hleft hright ihl ihr =>
    rw [isSpellable, Bool.and_eq_true] at hs
    obtain ⟨m, hm⟩ := exists_mark? hop
    rw [cuts, hm]
    have hfront := (ihl hs.1 outer).append (leads_op hop hm outer left.unlined)
    exact hfront.append (leads_right hright hs.2 _ outer (ihr hs.2))

/-! ## Statements and programs -/

theorem step_value {point point' : Point} {t : Token} (h : point.step t = some point')
    (ss : List Tree) (head : Head) :
    Sheet.step ⟨ss, .value head point⟩ t = some ⟨ss, .value head point'⟩ := by
  simp only [Sheet.step, h]

/-- A semicolon after a whole expression ends the statement. -/
theorem step_semicolon {point : Point} {x : Tree} (h : point.tree? = some x) (ss : List Tree)
    (head : Head) :
    Sheet.step ⟨ss, .value head point⟩ ⟨.ofMark .semicolon, none⟩ =
      some ⟨ss ++ [head.node x], .idle⟩ := by
  unfold Point.tree? at h
  split at h
  · cases h; rfl
  · cases h; rfl
  · cases h

/-- What may follow a keyword is read as a whole: nothing, or an expression. -/
theorem leads_argument {number : Int → Bool} {value : Tree}
    (hv : (value.isAbsent || value.isExpr) = true) (hs : value.isSpellable number = true) :
    ∃ point, Leads Point.step .start value.cuts point ∧ point.tree? = some value.unlined := by
  rcases Bool.or_eq_true _ _ |>.mp hv with ha | he
  · cases value <;> first | exact ⟨.start, leads_nil _, rfl⟩ | cases ha
  · exact ⟨.after [] value.unlined, leads_expr he hs [], rfl⟩

/-- A statement's value and its semicolon are read. -/
theorem leads_value {number : Int → Bool} {value : Tree}
    (hv : (value.isAbsent || value.isExpr) = true) (hs : value.isSpellable number = true)
    (ss : List Tree) (head : Head) :
    Leads Sheet.step ⟨ss, .value head .start⟩ (value.cuts ++ [Mark.semicolon.piece])
      ⟨ss ++ [head.node value.unlined], .idle⟩ := by
  obtain ⟨point, hpoint, htree⟩ := leads_argument hv hs
  have hvalue : Leads Sheet.step ⟨ss, .value head .start⟩ value.cuts ⟨ss, .value head point⟩ :=
    hpoint.map (fun q => Sheet.mk ss (.value head q)) fun h => step_value h ss head
  exact hvalue.append (leads_mark .semicolon (step_semicolon htree ss head))

theorem leads_statement {number : Int → Bool} {s : Tree} (hstmt : s.isStatement = true)
    (hs : s.isSpellable number = true) (ss : List Tree) :
    Leads Sheet.step ⟨ss, .idle⟩ s.cuts ⟨ss ++ [s.unlined], .idle⟩ := by
  cases s with
  | binding name nameLine value line =>
    rw [isSpellable, Bool.and_eq_true] at hs
    have hv : (value.isAbsent || value.isExpr) = true := by
      rw [show value.isExpr = true from hstmt, Bool.or_true]
    have hlet : Leads Sheet.step ⟨ss, .idle⟩ [Mark.letWord.piece] ⟨ss, .letting⟩ :=
      leads_mark .letWord rfl
    have hname : Leads Sheet.step ⟨ss, .letting⟩ [.word name.toList] ⟨ss, .named name⟩ :=
      leads_lexeme (reading_name hs.1) rfl
    have hequal : Leads Sheet.step ⟨ss, .named name⟩ [Mark.equal.piece]
        ⟨ss, .value (.binding name) .start⟩ := leads_mark .equal rfl
    rw [cuts, List.append_assoc _ value.cuts]
    exact ((hlet.append hname).append hequal).append (leads_value hv hs.2 ss (.binding name))
  | printing value line =>
    have hprint : Leads Sheet.step ⟨ss, .idle⟩ [Mark.printWord.piece]
        ⟨ss, .value .printing .start⟩ := leads_mark .printWord rfl
    rw [cuts, List.append_assoc]
    exact hprint.append (leads_value hstmt hs ss .printing)
  | returning value line =>
    have hreturn : Leads Sheet.step ⟨ss, .idle⟩ [Mark.returnWord.piece]
        ⟨ss, .value .returning .start⟩ := leads_mark .returnWord rfl
    rw [cuts, List.append_assoc]
    exact hreturn.append (leads_value hstmt hs ss .returning)
  | _ => cases hstmt

theorem leads_program {number : Int → Bool} {p : List Tree}
    (hstmt : ∀ s ∈ p, s.isStatement = true) (hs : ∀ s ∈ p, s.isSpellable number = true)
    (ss : List Tree) :
    Leads Sheet.step ⟨ss, .idle⟩ (p.flatMap cuts) ⟨ss ++ unlinedAll p, .idle⟩ := by
  induction p generalizing ss with
  | nil =>
    rw [List.flatMap_nil, unlinedAll, List.append_nil]
    exact leads_nil _
  | cons s p ih =>
    have hfirst := leads_statement (hstmt s List.mem_cons_self) (hs s List.mem_cons_self) ss
    have hrest := ih (fun t ht => hstmt t (List.mem_cons_of_mem s ht))
      (fun t ht => hs t (List.mem_cons_of_mem s ht)) (ss ++ [s.unlined])
    rw [List.append_assoc] at hrest
    exact hfirst.append hrest

end Grouping

namespace Tree

/-! ## Texts do not depend on lines -/

mutual

theorem layout_unlined : ∀ t : Tree, layout t.unlined = layout t
  | .operation _ left _ right _ => by
    rw [unlined, layout, layout, layout_unlined left, layout_unlined right, grouped, grouped,
      isOperation_unlined]
  | .binding _ _ value _ => by rw [unlined, layout, layout, layout_unlined value]
  | .printing value _ | .returning value _ => by
    rw [unlined, layout, layout, layout_unlined value, argument, argument, isAbsent_unlined]
  | .program statements => by rw [unlined, layout, layout, layoutAll_unlined statements]
  | .integer .. | .string .. | .boolean .. | .identifier .. | .absent => by rfl

theorem layoutAll_unlined : ∀ ts : List Tree, layoutAll (unlinedAll ts) = layoutAll ts
  | [] => by rfl
  | t :: ts => by rw [unlinedAll, layoutAll, layoutAll, layout_unlined t, layoutAll_unlined ts]

end

mutual

theorem obstacle?_unlined : ∀ t : Tree, obstacle? t.unlined = obstacle? t
  | .operation _ left _ right _ => by
    rw [unlined, obstacle?, obstacle?, obstacle?_unlined left, obstacle?_unlined right]
  | .binding _ _ value _ | .printing value _ | .returning value _ => by
    rw [unlined, obstacle?, obstacle?, obstacle?_unlined value]
  | .program statements => by rw [unlined, obstacle?, obstacle?, obstacleAll?_unlined statements]
  | .integer .. | .string .. | .boolean .. | .identifier .. | .absent => by rfl

theorem obstacleAll?_unlined : ∀ ts : List Tree, obstacleAll? (unlinedAll ts) = obstacleAll? ts
  | [] => by rfl
  | t :: ts => by
    rw [unlinedAll, obstacleAll?, obstacleAll?, obstacle?_unlined t, obstacleAll?_unlined ts]

end

/-! ## The text tells the tree -/

/-- Whether the strings of a tree lack one of the quotes and its names are words that are not
    reserved. Integers may be any. -/
def isWritable (t : Tree) : Bool := t.isSpellable fun _ => true

theorem render_of_unlined {t u : Tree} (h : t.unlined = u.unlined) : render t = render u := by
  rw [render_eq_laidOut, render_eq_laidOut, laidOut, laidOut, ← obstacle?_unlined t,
    ← layout_unlined t, h, obstacle?_unlined, layout_unlined]

theorem unlined_of_layout {x y : Tree} (hx : x.isExpr = true) (hy : y.isExpr = true)
    (hxs : x.isWritable = true) (hys : y.isWritable = true) (h : layout x = layout y) :
    x.unlined = y.unlined := by
  have hends : Blocks Char.isAlphanum [] := by
    intro c hc
    cases hc
  have hcuts : x.cuts = y.cuts := by
    rw [← (cuts_expr hx hxs hends).solid_eq, h, (cuts_expr hy hys hends).solid_eq]
  have hread := Grouping.leads_expr hx hxs []
  rw [hcuts] at hread
  exact (Grouping.Point.after.inj (hread.unique (Grouping.leads_expr hy hys []))).2

theorem unlinedAll_of_layout {p q : List Tree} (hp : ∀ s ∈ p, s.isStatement = true)
    (hq : ∀ s ∈ q, s.isStatement = true) (hps : ∀ s ∈ p, s.isWritable = true)
    (hqs : ∀ s ∈ q, s.isWritable = true) (h : layout (.program p) = layout (.program q)) :
    unlinedAll p = unlinedAll q := by
  have hcuts : p.flatMap cuts = q.flatMap cuts := by
    rw [← solid_layout hp hps, h, solid_layout hq hqs]
  have hread := Grouping.leads_program hp hps []
  rw [hcuts] at hread
  exact (Grouping.Sheet.mk.inj (hread.unique (Grouping.leads_program hq hqs []))).1

/-- Trees that have one text have one layout. -/
theorem layout_of_render {x y : Tree} {text : String} (hx : render x = .ok text)
    (hy : render y = .ok text) : layout x = layout y :=
  (render_eq_ok_iff.1 hx).2.trans (render_eq_ok_iff.1 hy).2.symm

/-- An expression that has a text has it in common with exactly the expressions that agree with it
    but for their lines, however their operators nest, and a program with exactly such programs. Trees
    that agree but for their lines are written alike, or refused alike, and nothing but an obstacle
    keeps a tree from having a text. -/
theorem render_eq_iff_same :
    (∀ x y : Tree, x.isExpr = true → y.isExpr = true → x.isWritable = true → y.isWritable = true →
      ∀ text, render x = .ok text → (render y = .ok text ↔ same x y = true)) ∧
    (∀ p q : List Tree, (∀ s ∈ p, s.isStatement = true ∧ s.isWritable = true) →
      (∀ s ∈ q, s.isStatement = true ∧ s.isWritable = true) →
      ∀ text, render (.program p) = .ok text →
        (render (.program q) = .ok text ↔ same (.program p) (.program q) = true)) ∧
    (∀ x y : Tree, same x y = true → render x = render y) ∧
    ∀ x : Tree, x.obstacle? = none → ∃ text, render x = .ok text := by
  have hsame : ∀ x y : Tree, same x y = true → render x = render y :=
    fun x y h => render_of_unlined ((same_iff x y).1 h)
  refine ⟨fun x y hx hy hxs hys text htext => ⟨fun h => ?_, fun h => ?_⟩,
    fun p q hp hq text htext => ⟨fun h => ?_, fun h => ?_⟩, hsame, fun x h => ?_⟩
  · exact (same_iff x y).2 (unlined_of_layout hx hy hxs hys (layout_of_render htext h))
  · exact (hsame x y h).symm.trans htext
  · have hall := unlinedAll_of_layout (fun s hs => (hp s hs).1) (fun s hs => (hq s hs).1)
      (fun s hs => (hp s hs).2) (fun s hs => (hq s hs).2) (layout_of_render htext h)
    rw [same_iff, unlined, unlined, hall]
  · exact (hsame _ _ h).symm.trans htext
  · exact ⟨layout x, render_eq_ok_iff.2 ⟨h, rfl⟩⟩

/-- `1 - -2 - "b)"` and `1 - (-2 - "b)")` differ, and a program has one text with and without its
    lines. -/
theorem render_eq_iff_same_nested :
    ∃ x y p q, x = operation .arithmetic
          (.operation .arithmetic (.integer 1 none) .sub (.integer (-2) none) none) .sub
          (.string "b)" none) none ∧
      y = operation .arithmetic (.integer 1 none) .sub
          (.operation .arithmetic (.integer (-2) none) .sub (.string "b)" none) none) none ∧
      p = [binding "a" (some 1) x (some 1), printing .absent (some 2)] ∧
      q = [binding "a" none x none, printing .absent none] ∧
      x.isExpr = true ∧ y.isExpr = true ∧ x.isWritable = true ∧ y.isWritable = true ∧
      (∀ s ∈ p ++ q, s.isStatement = true ∧ s.isWritable = true) ∧
      render x = .ok "1 - -2 - \"b)\"" ∧ render y ≠ .ok "1 - -2 - \"b)\"" ∧
      render (.program p) = .ok "let a = 1 - -2 - \"b)\";\nprint;" ∧
      render (.program q) = .ok "let a = 1 - -2 - \"b)\";\nprint;" := by
  have hx : render (.operation .arithmetic
      (.operation .arithmetic (.integer 1 none) .sub (.integer (-2) none) none) .sub
      (.string "b)" none) none) = .ok "1 - -2 - \"b)\"" := by
    rw [render_eq_ok_iff]
    decide +kernel
  refine ⟨_, _, _, _, rfl, rfl, rfl, rfl, rfl, rfl, rfl, rfl, ?_, hx, ?_, ?_⟩
  · decide
  · intro h
    have hsame := (render_eq_iff_same.1 _ _ rfl rfl rfl rfl _ hx).1 h
    revert hsame
    decide
  · have hp : render (.program [binding "a" (some 1) (.operation .arithmetic
        (.operation .arithmetic (.integer 1 none) .sub (.integer (-2) none) none) .sub
        (.string "b)" none) none) (some 1), printing .absent (some 2)]) =
        .ok "let a = 1 - -2 - \"b)\";\nprint;" := by
      rw [render_eq_ok_iff]
      decide +kernel
    exact ⟨hp, (render_eq_iff_same.2.1 _ _ (by decide) (by decide) _ hp).2 rfl⟩

-- a string with both quotes may be read as an operator node
example : layout (.string "\"' + '\"" none) =
    layout (.operation .arithmetic (.string "\"" none) .add (.string "\"" none) none) := by
  decide

end Tree

end LetScript
