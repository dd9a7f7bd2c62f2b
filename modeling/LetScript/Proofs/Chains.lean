import LetScript.Proofs.Reading

/-
  Expressions as chains of terms with operators between them.

  `Tree.terms` and `Tree.signs` walk down the right operands of a tree and list the operands and the
  operators met on the way. For an expression that was read they are its terms and its operators in
  the order of the tokens (`expr_reads_chain`), and a tree is known from the two lists: `fold?` joins
  them from the right (`fold?_terms_signs`).

  Reading a chain in one pass is reading by the rule. `chain_eq_exprRule` is the invariant of the pass
  that joins each operand to its operator at once, `collect_eq_exprRule` that of the pass that lists
  all operands and all operators first.

  Main statement: `tryExpr_eq_exprRule`.
-/

namespace LetScript

/-! ## The operands and the operators of a tree -/

namespace Tree

/-- The left operands down the right side of a tree, and then the last right operand. -/
def terms : Tree → List Tree
  | .operation _ left _ right _ => left :: right.terms
  | t => [t]

/-- The operators down the right side of a tree. -/
def signs : Tree → List Sign
  | .operation family _ op right line => ⟨family, op, line⟩ :: right.signs
  | _ => []

/-- Joins operands from the right. The last one is the first right operand, and the operators and the
    operands before it are paired from their ends. -/
def fold? (operands : List Tree) (operators : List Sign) : Option Tree :=
  operands.getLast?.map fun last =>
    (operators.reverse.zip operands.dropLast.reverse).foldl (fun right p => p.1.join p.2 right) last

theorem terms_of_not_operation {t : Tree} (h : t.isOperation = false) : t.terms = [t] := by
  cases t <;> first | rfl | cases h

theorem signs_of_not_operation {t : Tree} (h : t.isOperation = false) : t.signs = [] := by
  cases t <;> first | rfl | cases h

theorem isOperation_of_isTerm {t : Tree} (h : t.isTerm = true) : t.isOperation = false := by
  cases t <;> first | rfl | cases h

/-- There is one operand more than there are operators. -/
theorem length_terms (t : Tree) : t.terms.length = t.signs.length + 1 := by
  induction t using operation_induction with
  | leaf t ht => rw [terms_of_not_operation ht, signs_of_not_operation ht]; rfl
  | operation family left op right line _ ih =>
    rw [terms, signs, List.length_cons, ih, List.length_cons]

/-- An operator in front of the others is the last to be joined. -/
theorem fold?_cons (left : Tree) (sign : Sign) {operands : List Tree} {operators : List Sign}
    (h : operands.length = operators.length + 1) :
    fold? (left :: operands) (sign :: operators) =
      (fold? operands operators).map (sign.join left) := by
  cases operands with
  | nil => cases h
  | cons next operands =>
    have hlength : operators.reverse.length = (next :: operands).dropLast.reverse.length := by
      rw [List.length_reverse, List.length_reverse, List.length_dropLast, h, Nat.add_sub_cancel]
    rw [fold?, fold?, List.getLast?_cons_cons, List.dropLast_cons_cons, List.reverse_cons,
      List.reverse_cons, List.zip_append hlength, Option.map_map]
    simp only [List.zip_cons_cons, List.zip_nil_left, List.foldl_append, List.foldl_cons,
      List.foldl_nil]
    rfl

/-- A tree is joined from its operands and its operators. -/
theorem fold?_terms_signs (t : Tree) : fold? t.terms t.signs = some t := by
  induction t using operation_induction with
  | leaf t ht => rw [terms_of_not_operation ht, signs_of_not_operation ht]; rfl
  | operation family left op right line _ ih =>
    rw [terms, signs, fold?_cons left _ (length_terms right), ih]
    rfl

/-- In an expression every operator stands in a node of its own family. -/
theorem RightExpr.family?_of_mem {t : Tree} {s : Sign} (h : t.RightExpr) (hs : s ∈ t.signs) :
    s.op.family? = some s.family := by
  induction h with
  | term ht =>
    rw [signs_of_not_operation (isOperation_of_isTerm ht)] at hs
    cases hs
  | node hfam _ _ ih =>
    rcases List.mem_cons.1 hs with rfl | hs
    · exact hfam
    · exact ih hs

end Tree

/-! ## The terms and the operators of an expression that was read -/

theorem sign?_of_term? {t : Token} {x : Tree} (h : t.term? = some x) : t.sign? = none := by
  rcases t with ⟨l, line⟩
  cases l <;> first | rfl | cases h

theorem term?_of_sign? {t : Token} {s : Sign} (h : t.sign? = some s) : t.term? = none := by
  rcases t with ⟨l, line⟩
  cases l <;> first | rfl | cases h

theorem ExprTree.terms_eq {e : List Token} {t : Tree} (h : ExprTree e t) :
    e.filterMap Token.term? = t.terms := by
  induction h with
  | term ht =>
    rw [Tree.terms_of_not_operation (Tree.isOperation_of_isTerm (isTerm_of_term? ht)),
      List.filterMap_cons_some ht]
    rfl
  | more ht hs _ ih =>
    rw [List.filterMap_cons_some ht, List.filterMap_cons_none (term?_of_sign? hs), ih]
    rfl

theorem ExprTree.signs_eq {e : List Token} {t : Tree} (h : ExprTree e t) :
    e.filterMap Token.sign? = t.signs := by
  induction h with
  | term ht =>
    rw [Tree.signs_of_not_operation (Tree.isOperation_of_isTerm (isTerm_of_term? ht)),
      List.filterMap_cons_none (sign?_of_term? ht)]
    rfl
  | more ht hs _ ih =>
    rw [List.filterMap_cons_none (sign?_of_term? ht), List.filterMap_cons_some hs, ih]
    rfl

/-- The terms and the operators of an expression stand in the order of the tokens it was read
    from. -/
theorem expr_reads_chain {file : Option String} {q rest : List Token} {t : Tree}
    (h : Reader.expr file q = .ok t rest) :
    ∃ e, q = e ++ rest ∧ e.filterMap Token.term? = t.terms ∧ e.filterMap Token.sign? = t.signs := by
  obtain ⟨e, hq, ht, -⟩ := Reader.expr_eq_ok_iff.1 h
  exact ⟨e, hq, ht.terms_eq, ht.signs_eq⟩

theorem rightExpr_of_expr {file : Option String} {q rest : List Token} {t : Tree}
    (h : Reader.expr file q = .ok t rest) : t.RightExpr := by
  obtain ⟨e, -, ht, -⟩ := Reader.expr_eq_ok_iff.1 h
  exact ht.right

/-! ## One pass against the rule -/

namespace Reader

variable (file : Option String)

/-- Reads operators and operands in turn, and lists them after those read before. -/
def collect (operands : List Tree) (operators : List Sign) (queue : List Token) :
    EStateM.Result Fault (List Token) (List Tree × List Sign) :=
  match queue with
  | [] => .error (endOfInput file) []
  | t :: q =>
    match t.sign? with
    | none => .ok (operands, operators) (t :: q)
    | some sign =>
      match q with
      | [] => .error (endOfInput file) []
      | u :: q =>
        match u.term? with
        | none => .error (.raised file u.line (.expectedTerm u.lexeme)) (u :: q)
        | some next => collect (operands ++ [next]) (operators ++ [sign]) q

/-- Reads an expression by listing its operands and its operators, and then joins them from the
    right. -/
def collectThenFold : Reader (Option Tree) := do
  match ← term file with
  | none => return none
  | some first => do
    let (operands, operators) ← collect file [first] []
    return Tree.fold? operands operators

/-- An outcome with a function applied to what was read. -/
def mapRead {α β : Type} (f : α → β) :
    EStateM.Result Fault (List Token) α → EStateM.Result Fault (List Token) β
  | .ok a rest => .ok (f a) rest
  | .error e rest => .error e rest

/-- An outcome where an expression has to stand: reading none is a fault. -/
def required :
    EStateM.Result Fault (List Token) (Option Tree) → EStateM.Result Fault (List Token) Tree
  | .ok (some x) rest => .ok x rest
  | .ok none rest => failAt file .expectedTerm rest
  | .error f rest => .error f rest

variable {file}

theorem mapRead_mapRead {α β γ : Type} (g : β → γ) (f : α → β)
    (outcome : EStateM.Result Fault (List Token) α) :
    mapRead g (mapRead f outcome) = mapRead (g ∘ f) outcome := by
  cases outcome <;> rfl

theorem required_mapRead_some (outcome : EStateM.Result Fault (List Token) Tree) :
    required file (mapRead some outcome) = outcome := by
  cases outcome <;> rfl

/-- After a term and an operator the rule wants an expression, and joins it to the term. -/
theorem exprRule_operator {t o : Token} {x : Tree} {s : Sign} (ht : t.term? = some x)
    (hs : o.sign? = some s) (q : List Token) :
    exprRule file (t :: o :: q) =
      mapRead some (mapRead (s.join x) (required file (exprRule file q))) := by
  rw [exprRule]
  simp only [ht, hs]
  cases exprRule file q with
  | error f rest => rfl
  | ok read rest =>
    cases read with
    | some y => rfl
    | none => cases rest <;> rfl

/-- Where a term stands the rule reads an expression or fails. -/
theorem exprRule_of_term {t : Token} {x : Tree} (ht : t.term? = some x) (q : List Token) :
    exprRule file (t :: q) = mapRead some (required file (exprRule file (t :: q))) := by
  cases q with
  | nil => simp only [exprRule, ht, required, mapRead]
  | cons o q =>
    cases hs : o.sign? with
    | none => simp only [exprRule, ht, hs, required, mapRead]
    | some s => rw [exprRule_operator ht hs, required_mapRead_some]

/-- After a first term the pass reads what the rule reads from that term on, and joins it to what
    waits. -/
theorem chain_eq_exprRule {first : Token} {last : Tree} (hfirst : first.term? = some last)
    (pending : List (Tree × Sign)) (q : List Token) :
    chain file pending last q =
      mapRead (Tree.joinLeft pending) (required file (exprRule file (first :: q))) := by
  fun_induction chain file pending last q generalizing first with
  | case1 => simp only [exprRule, hfirst, required, mapRead]
  | case2 pending last t q hs => simp only [exprRule, hfirst, hs, required, mapRead]
  | case3 pending last t sign hs => simp only [exprRule, hfirst, hs, required, mapRead]
  | case4 pending last t sign hs u q hu =>
    simp only [exprRule, hfirst, hs, hu, required, failAt, mapRead]
  | case5 pending last t sign hs u q next hu ih =>
    rw [ih hu, exprRule_operator hfirst hs, required_mapRead_some, mapRead_mapRead]
    rfl

/-- After a first term the pass lists the operands and the operators of what the rule reads from
    that term on. -/
theorem collect_eq_exprRule {first : Token} {last : Tree} (hfirst : first.term? = some last)
    {lefts operands : List Tree} (hoperands : operands = lefts ++ [last]) (operators : List Sign)
    (q : List Token) :
    collect file operands operators q =
      mapRead (fun x => (lefts ++ x.terms, operators ++ x.signs))
        (required file (exprRule file (first :: q))) := by
  have hleaf := Tree.isOperation_of_isTerm (isTerm_of_term? hfirst)
  fun_induction collect file operands operators q generalizing first last lefts with
  | case1 => simp only [exprRule, hfirst, required, mapRead]
  | case2 operands operators t q hs =>
    simp only [exprRule, hfirst, hs, required, mapRead, Tree.terms_of_not_operation hleaf,
      Tree.signs_of_not_operation hleaf, List.append_nil, hoperands]
  | case3 operands operators t sign hs => simp only [exprRule, hfirst, hs, required, mapRead]
  | case4 operands operators t sign hs u q hu =>
    simp only [exprRule, hfirst, hs, hu, required, failAt, mapRead]
  | case5 operands operators t sign hs u q next hu ih =>
    have hnext := Tree.isOperation_of_isTerm (isTerm_of_term? hu)
    rw [ih hu rfl hnext, exprRule_operator hfirst hs, required_mapRead_some, mapRead_mapRead]
    congr 1
    funext x
    simp only [hoperands, List.append_assoc]
    rfl

theorem bind_of_ok {α β : Type} {x : Reader α} {g : α → Reader β} {a : α} {q r : List Token}
    (h : x q = .ok a r) : (x >>= g) q = g a r := by
  change EStateM.bind x g q = g a r
  simp only [EStateM.bind, h]

theorem bind_pure_eq_mapRead {α β : Type} (x : Reader α) (f : α → β) (q : List Token) :
    (x >>= fun a => pure (f a)) q = mapRead f (x q) := by
  change EStateM.bind x (fun a => pure (f a)) q = mapRead f (x q)
  unfold EStateM.bind
  cases x q <;> rfl

/-- A reader that looks at one token reads by the rule if it does so where a term stands. -/
theorem eq_exprRule (read : Reader (Option Tree)) (hnil : read [] = .error (endOfInput file) [])
    (hnone : ∀ t q, t.term? = none → read (t :: q) = .ok none (t :: q))
    (hterm : ∀ t x q, t.term? = some x →
      read (t :: q) = mapRead some (required file (exprRule file (t :: q)))) (q : List Token) :
    read q = exprRule file q := by
  cases q with
  | nil => rw [hnil, exprRule]
  | cons t q =>
    cases ht : t.term? with
    | none => simp only [hnone t q ht, exprRule, ht]
    | some x => rw [hterm t x q ht, ← exprRule_of_term ht]

theorem tryExpr_of_term {t : Token} {x : Tree} (ht : t.term? = some x) (q : List Token) :
    tryExpr file (t :: q) = mapRead some (chain file [] x q) := by
  rw [tryExpr, bind_of_ok (term_eq_some_iff.2 ⟨t, rfl, ht⟩)]
  exact bind_pure_eq_mapRead (chain file [] x) some q

theorem collectThenFold_of_term {t : Token} {x : Tree} (ht : t.term? = some x) (q : List Token) :
    collectThenFold file (t :: q) =
      mapRead (fun lists => Tree.fold? lists.1 lists.2) (collect file [x] [] q) := by
  rw [collectThenFold, bind_of_ok (term_eq_some_iff.2 ⟨t, rfl, ht⟩)]
  exact bind_pure_eq_mapRead (collect file [x] []) (fun lists => Tree.fold? lists.1 lists.2) q

theorem collectThenFold_of_no_term {t : Token} (ht : t.term? = none) (q : List Token) :
    collectThenFold file (t :: q) = .ok none (t :: q) := by
  rw [collectThenFold, bind_of_ok (term_eq_none_iff.2 ⟨rfl, t, q, rfl, ht⟩)]
  rfl

end Reader

/-- Reading an expression in one pass is reading it by the rule, on every queue: nothing or the same
    tree with the same lines, or the same fault, and the same queue is left. So is listing all
    operands and all operators first and joining them from their ends. -/
theorem tryExpr_eq_exprRule (file : Option String) (queue : List Token) :
    Reader.tryExpr file queue = Reader.exprRule file queue ∧
      Reader.collectThenFold file queue = Reader.exprRule file queue := by
  constructor
  · refine Reader.eq_exprRule (Reader.tryExpr file) rfl ?_ ?_ queue
    · intro t q ht
      exact Reader.tryExpr_eq_none_iff.2 ⟨rfl, t, q, rfl, ht⟩
    · intro t x q ht
      rw [Reader.tryExpr_of_term ht, Reader.chain_eq_exprRule ht, Reader.mapRead_mapRead]
      rfl
  · refine Reader.eq_exprRule (Reader.collectThenFold file) rfl ?_ ?_ queue
    · intro t q ht
      exact Reader.collectThenFold_of_no_term ht q
    · intro t x q ht
      rw [Reader.collectThenFold_of_term ht, Reader.collect_eq_exprRule ht (List.nil_append _).symm,
        Reader.mapRead_mapRead]
      -- the two lists are those of the tree that the rule reads, so joining them gives it back
      congr 1
      funext y
      exact Tree.fold?_terms_signs y

end LetScript
