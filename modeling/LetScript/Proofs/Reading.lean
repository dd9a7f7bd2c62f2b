import LetScript.Proofs.Grammar
import LetScript.Reader.Statement

/-
  What the readers accept. For each reader one lemma says when it succeeds, from `eat_eq_ok_iff` up
  to `program_eq_ok_iff`: exactly where a derivation stands at the front of the queue, with the tree
  of that derivation, and with the tokens after it left in the queue.

  Main statement: `program_reads_grammar`.
-/

namespace LetScript

namespace Reader

variable {file : Option String}

theorem eat_eq_ok_iff {kind : Kind} {q r : List Token} {t : Token} :
    eat file kind q = .ok t r ↔ q = t :: r ∧ t.kind = kind := by
  cases q with
  | nil => simp [eat]
  | cons u q =>
    rw [eat]
    by_cases h : u.kind = kind
    · simp only [h, if_true, EStateM.Result.ok.injEq, List.cons.injEq]
      constructor
      · rintro ⟨rfl, rfl⟩; exact ⟨⟨rfl, rfl⟩, h⟩
      · rintro ⟨⟨rfl, rfl⟩, -⟩; exact ⟨rfl, rfl⟩
    · simp only [h, if_false, List.cons.injEq]
      constructor
      · rintro ⟨⟩
      · rintro ⟨⟨rfl, rfl⟩, hk⟩; exact absurd hk h

theorem eatName_eq_ok_iff {q r : List Token} {n : String × Line} :
    eatName file q = .ok n r ↔ ∃ t, q = t :: r ∧ t.lexeme = .identifier n.1 ∧ t.line = n.2 := by
  cases q with
  | nil => simp [eatName]
  | cons u q =>
    rcases u with ⟨l, line⟩
    rcases n with ⟨name, nameLine⟩
    cases l with
    | identifier text => simp [eatName, and_assoc, and_comm, and_left_comm]
    | _ => simp [eatName]

theorem term_eq_some_iff {q r : List Token} {x : Tree} :
    term file q = .ok (some x) r ↔ ∃ t, q = t :: r ∧ t.term? = some x := by
  cases q with
  | nil => simp [term]
  | cons u q =>
    rw [term]
    cases hu : u.term? with
    | none => simp [hu]
    | some y =>
      constructor
      · intro h
        cases h
        exact ⟨u, rfl, hu⟩
      · rintro ⟨t, ht, hx⟩
        cases ht
        rw [hu] at hx
        cases hx
        rfl

theorem term_eq_none_iff {q r : List Token} :
    term file q = .ok none r ↔ r = q ∧ ∃ t q', q = t :: q' ∧ t.term? = none := by
  cases q with
  | nil => simp [term]
  | cons u q =>
    rw [term]
    cases hu : u.term? with
    | none => simp [hu, eq_comm]
    | some y => simp [hu]

/-- Where the words of a chain end: at a token that is no operator. -/
def Stops (q : List Token) : Prop := ∃ t r, q = t :: r ∧ t.sign? = none

/-- Reading on after a term takes the rest of an expression, and joins its tree to what waits. -/
theorem exprTree_of_chain {pending : List (Tree × Sign)} {last x : Tree} {first : Token}
    {q rest : List Token} (hfirst : first.term? = some last)
    (h : chain file pending last q = .ok x rest) :
    ∃ e y, q = e ++ rest ∧ ExprTree (first :: e) y ∧ x = Tree.joinLeft pending y ∧
      Stops rest := by
  fun_induction chain file pending last q generalizing first with
  | case1 => cases h
  | case2 pending last t q hs =>
    cases h
    exact ⟨[], last, rfl, .term hfirst, rfl, t, q, rfl, hs⟩
  | case3 => cases h
  | case4 => cases h
  | case5 pending last t sign hs u q next hn ih =>
    obtain ⟨e, y, rfl, hy, rfl, hstops⟩ := ih hn h
    exact ⟨t :: u :: e, sign.join last y, rfl, .more hfirst hs hy, rfl, hstops⟩

theorem chain_of_exprTree {ts e rest : List Token} {y last : Tree} {first : Token}
    (h : ExprTree ts y) (hts : ts = first :: e) (hfirst : first.term? = some last)
    (hstops : Stops rest) (pending : List (Tree × Sign)) :
    chain file pending last (e ++ rest) = .ok (Tree.joinLeft pending y) rest := by
  induction h generalizing first e last pending with
  | term ht =>
    cases hts
    obtain rfl := Option.some.inj (ht.symm.trans hfirst)
    obtain ⟨t, r, rfl, hs⟩ := hstops
    rw [List.nil_append, chain, hs]
  | more ht hs hy ih =>
    cases hts
    obtain rfl := Option.some.inj (ht.symm.trans hfirst)
    -- the next expression starts with a term, which the chain takes with the operator
    obtain ⟨next, e, x, rfl, hnext⟩ := hy.first
    rw [List.cons_append, List.cons_append, chain, hs]
    simp only [hnext]
    rw [ih rfl hnext]
    rfl

/-- An expression is read exactly where one stands before a token that is no operator. -/
theorem tryExpr_eq_some_iff {q rest : List Token} {x : Tree} :
    tryExpr file q = .ok (some x) rest ↔ ∃ e, q = e ++ rest ∧ ExprTree e x ∧ Stops rest := by
  constructor
  · intro h
    obtain ⟨first, r, hterm, hread⟩ := bind_eq_ok.1 h
    cases first with
    | none => cases hread
    | some y =>
      obtain ⟨t, rfl, ht⟩ := term_eq_some_iff.1 hterm
      obtain ⟨z, s, hchain, hz⟩ := bind_eq_ok.1 hread
      cases hz
      obtain ⟨e, y', rfl, hy, rfl, hstops⟩ := exprTree_of_chain ht hchain
      exact ⟨t :: e, rfl, hy, hstops⟩
  · rintro ⟨e, rfl, hx, hstops⟩
    obtain ⟨first, e, y, rfl, hfirst⟩ := hx.first
    refine bind_eq_ok.2 ⟨some y, e ++ rest, ?_, ?_⟩
    · exact term_eq_some_iff.2 ⟨first, rfl, hfirst⟩
    · exact bind_eq_ok.2 ⟨x, rest, chain_of_exprTree hx rfl hfirst hstops [], rfl⟩

/-- Nothing is read exactly where no term stands at the front. -/
theorem tryExpr_eq_none_iff {q rest : List Token} :
    tryExpr file q = .ok none rest ↔ rest = q ∧ ∃ t r, q = t :: r ∧ t.term? = none := by
  constructor
  · intro h
    obtain ⟨first, r, hterm, hread⟩ := bind_eq_ok.1 h
    cases first with
    | none =>
      cases hread
      exact term_eq_none_iff.1 hterm
    | some y =>
      obtain ⟨z, s, -, hz⟩ := bind_eq_ok.1 hread
      cases hz
  · intro h
    exact bind_eq_ok.2 ⟨none, rest, term_eq_none_iff.2 h, rfl⟩

theorem expr_eq_ok_iff {q rest : List Token} {x : Tree} :
    expr file q = .ok x rest ↔ ∃ e, q = e ++ rest ∧ ExprTree e x ∧ Stops rest := by
  rw [← tryExpr_eq_some_iff]
  constructor
  · intro h
    obtain ⟨read, r, htry, hread⟩ := bind_eq_ok.1 h
    cases read with
    | none => cases r <;> cases hread
    | some y =>
      cases hread
      exact htry
  · intro h
    exact bind_eq_ok.2 ⟨some x, rest, h, rfl⟩

/-- A token of a kind that is no operator's ends a chain, and one that is no term's starts none. -/
theorem stops_cons {t : Token} {r : List Token} (h : t.kind.isOperator = false) :
    Stops (t :: r) := by
  rw [← sign?_isSome, Option.isSome_eq_false_iff, Option.isNone_iff_eq_none] at h
  exact ⟨t, r, rfl, h⟩

theorem term?_eq_none {t : Token} (h : t.kind.isTerm = false) : t.term? = none := by
  rw [← term?_isSome, Option.isSome_eq_false_iff, Option.isNone_iff_eq_none] at h
  exact h

/-- What follows a keyword is an optional expression and a semicolon. -/
theorem argument_eq_ok_iff {q rest : List Token} {x : Tree} :
    argument file q = .ok x rest ↔
      ∃ e semi, q = e ++ semi :: rest ∧ ArgumentTree e x ∧ semi.kind = .mark .semicolon := by
  constructor
  · intro h
    obtain ⟨read, r, htry, hread⟩ := bind_eq_ok.1 h
    obtain ⟨semi, r', heat, hx⟩ := bind_eq_ok.1 hread
    cases hx
    obtain ⟨rfl, hsemi⟩ := eat_eq_ok_iff.1 heat
    cases read with
    | none =>
      obtain ⟨rfl, -⟩ := tryExpr_eq_none_iff.1 htry
      exact ⟨[], semi, rfl, .bare, hsemi⟩
    | some y =>
      obtain ⟨e, rfl, hy, -⟩ := tryExpr_eq_some_iff.1 htry
      exact ⟨e, semi, rfl, .value hy, hsemi⟩
  · rintro ⟨e, semi, rfl, harg, hsemi⟩
    have heat : eat file (.mark .semicolon) (semi :: rest) = .ok semi rest :=
      eat_eq_ok_iff.2 ⟨rfl, hsemi⟩
    cases harg with
    | bare =>
      have htry : tryExpr file (semi :: rest) = .ok none (semi :: rest) :=
        tryExpr_eq_none_iff.2 ⟨rfl, semi, rest, rfl, term?_eq_none (by rw [hsemi]; rfl)⟩
      exact bind_eq_ok.2 ⟨none, _, htry, bind_eq_ok.2 ⟨semi, rest, heat, rfl⟩⟩
    | value hx =>
      have htry : tryExpr file (e ++ semi :: rest) = .ok (some x) (semi :: rest) :=
        tryExpr_eq_some_iff.2 ⟨e, rfl, hx, stops_cons (by rw [hsemi]; rfl)⟩
      exact bind_eq_ok.2 ⟨some x, _, htry, bind_eq_ok.2 ⟨semi, rest, heat, rfl⟩⟩

theorem letStatement_eq_ok_iff {q rest : List Token} {x : Tree} :
    letStatement file q = .ok x rest ↔
      ∃ s, q = s ++ rest ∧ StatementTree s x ∧ ∃ name nameLine value line,
        x = .binding name nameLine value line := by
  constructor
  · intro h
    obtain ⟨start, q₁, r₁, h₁⟩ := bind_eq_ok.1 h
    obtain ⟨name, q₂, r₂, h₂⟩ := bind_eq_ok.1 h₁
    obtain ⟨equal, q₃, r₃, h₃⟩ := bind_eq_ok.1 h₂
    obtain ⟨value, q₄, r₄, h₄⟩ := bind_eq_ok.1 h₃
    obtain ⟨semi, q₅, r₅, h₅⟩ := bind_eq_ok.1 h₄
    cases h₅
    obtain ⟨rfl, hstart⟩ := eat_eq_ok_iff.1 r₁
    obtain ⟨nameToken, rfl, hname, hline⟩ := eatName_eq_ok_iff.1 r₂
    obtain ⟨rfl, hequal⟩ := eat_eq_ok_iff.1 r₃
    obtain ⟨e, rfl, hvalue, -⟩ := expr_eq_ok_iff.1 r₄
    obtain ⟨rfl, hsemi⟩ := eat_eq_ok_iff.1 r₅
    rw [← hline]
    exact ⟨start :: nameToken :: equal :: (e ++ [semi]), by simp,
      .letting hstart hname hequal hvalue hsemi, _, _, _, _, rfl⟩
  · rintro ⟨s, rfl, htree, name, nameLine, value, line, rfl⟩
    cases htree with
    | @letting start nameToken equal semi _ e _ hstart hname hequal hvalue hsemi =>
      have hshift : start :: nameToken :: equal :: (e ++ [semi]) ++ rest =
          start :: nameToken :: equal :: (e ++ semi :: rest) := by simp
      rw [hshift]
      refine bind_eq_ok.2 ⟨start, _, eat_eq_ok_iff.2 ⟨rfl, hstart⟩, ?_⟩
      refine bind_eq_ok.2 ⟨(name, nameToken.line), _,
        eatName_eq_ok_iff.2 ⟨nameToken, rfl, hname, rfl⟩, ?_⟩
      refine bind_eq_ok.2 ⟨equal, _, eat_eq_ok_iff.2 ⟨rfl, hequal⟩, ?_⟩
      refine bind_eq_ok.2 ⟨value, _,
        expr_eq_ok_iff.2 ⟨e, rfl, hvalue, stops_cons (by rw [hsemi]; rfl)⟩, ?_⟩
      exact bind_eq_ok.2 ⟨semi, _, eat_eq_ok_iff.2 ⟨rfl, hsemi⟩, rfl⟩

/-- A keyword with what may follow it: the common part of `print` and `return`. -/
theorem keyword_eq_ok_iff {m : Mark} {node : Tree → Line → Tree} {q rest : List Token} {x : Tree} :
    (eat file (.mark m) >>= fun start => argument file >>= fun value =>
        pure (node value start.line) : Reader Tree) q = .ok x rest ↔
      ∃ start e semi value, q = start :: (e ++ [semi]) ++ rest ∧ start.kind = .mark m ∧
        ArgumentTree e value ∧ semi.kind = .mark .semicolon ∧ x = node value start.line := by
  constructor
  · intro h
    obtain ⟨start, q₁, r₁, h₁⟩ := bind_eq_ok.1 h
    obtain ⟨value, q₂, r₂, h₂⟩ := bind_eq_ok.1 h₁
    cases h₂
    obtain ⟨rfl, hstart⟩ := eat_eq_ok_iff.1 r₁
    obtain ⟨e, semi, rfl, hvalue, hsemi⟩ := argument_eq_ok_iff.1 r₂
    exact ⟨start, e, semi, value, by simp, hstart, hvalue, hsemi, rfl⟩
  · rintro ⟨start, e, semi, value, rfl, hstart, hvalue, hsemi, rfl⟩
    have hshift : start :: (e ++ [semi]) ++ rest = start :: (e ++ semi :: rest) := by simp
    rw [hshift]
    refine bind_eq_ok.2 ⟨start, _, eat_eq_ok_iff.2 ⟨rfl, hstart⟩, ?_⟩
    exact bind_eq_ok.2 ⟨value, rest, argument_eq_ok_iff.2 ⟨e, semi, rfl, hvalue, hsemi⟩, rfl⟩

theorem printStatement_eq_ok_iff {q rest : List Token} {x : Tree} :
    printStatement file q = .ok x rest ↔
      ∃ s, q = s ++ rest ∧ StatementTree s x ∧ ∃ value line, x = .printing value line := by
  refine keyword_eq_ok_iff.trans ⟨?_, ?_⟩
  · rintro ⟨start, e, semi, value, rfl, hstart, hvalue, hsemi, rfl⟩
    exact ⟨_, rfl, .printing hstart hvalue hsemi, _, _, rfl⟩
  · rintro ⟨s, rfl, htree, value, line, rfl⟩
    cases htree with
    | printing hstart hvalue hsemi => exact ⟨_, _, _, _, rfl, hstart, hvalue, hsemi, rfl⟩

theorem returnStatement_eq_ok_iff {q rest : List Token} {x : Tree} :
    returnStatement file q = .ok x rest ↔
      ∃ s, q = s ++ rest ∧ StatementTree s x ∧ ∃ value line, x = .returning value line := by
  refine keyword_eq_ok_iff.trans ⟨?_, ?_⟩
  · rintro ⟨start, e, semi, value, rfl, hstart, hvalue, hsemi, rfl⟩
    exact ⟨_, rfl, .returning hstart hvalue hsemi, _, _, rfl⟩
  · rintro ⟨s, rfl, htree, value, line, rfl⟩
    cases htree with
    | returning hstart hvalue hsemi => exact ⟨_, _, _, _, rfl, hstart, hvalue, hsemi, rfl⟩

/-- A statement is read exactly where a sentence stands, and its tree is the sentence's. -/
theorem statement_eq_ok_iff {q rest : List Token} {x : Tree} :
    statement file q = .ok x rest ↔ ∃ s, q = s ++ rest ∧ StatementTree s x := by
  constructor
  · intro h
    cases q with
    | nil => cases h
    | cons t q =>
      rw [statement] at h
      split at h
      · obtain ⟨s, hq, hs, -⟩ := returnStatement_eq_ok_iff.1 h
        exact ⟨s, hq, hs⟩
      · obtain ⟨s, hq, hs, -⟩ := letStatement_eq_ok_iff.1 h
        exact ⟨s, hq, hs⟩
      · obtain ⟨s, hq, hs, -⟩ := printStatement_eq_ok_iff.1 h
        exact ⟨s, hq, hs⟩
      · cases h
  · rintro ⟨s, rfl, hs⟩
    have htree := hs
    cases hs with
    | letting hstart _ _ _ _ =>
      rw [List.cons_append, statement, hstart]
      exact letStatement_eq_ok_iff.2 ⟨_, rfl, htree, _, _, _, _, rfl⟩
    | printing hstart _ _ =>
      rw [List.cons_append, statement, hstart]
      exact printStatement_eq_ok_iff.2 ⟨_, rfl, htree, _, _, rfl⟩
    | returning hstart _ _ =>
      rw [List.cons_append, statement, hstart]
      exact returnStatement_eq_ok_iff.2 ⟨_, rfl, htree, _, _, rfl⟩

/-- Statements are read up to the first end of input that no sentence covers. -/
theorem statements_eq_ok_iff {q left : List Token} {p : List Tree} :
    statements file q = .ok p left ↔
      ∃ ss stop rest, q = ss.flatten ++ stop :: rest ∧ left = stop :: rest ∧ stop.kind = .eof ∧
        List.Forall₂ StatementTree ss p := by
  constructor
  · intro h
    fun_induction statements file q generalizing p with
    | case1 => cases h
    | case2 t q hstop =>
      cases h
      exact ⟨[], t, q, rfl, rfl, hstop, .nil⟩
    | case3 => cases h
    | case4 t q _ s rest hs ss left' hss ih =>
      cases h
      obtain ⟨s', hq, hs'⟩ := statement_eq_ok_iff.1 hs
      obtain ⟨ss', stop, rest', rfl, rfl, hstop, hall⟩ := ih hss
      exact ⟨s' :: ss', stop, rest', by rw [hq, List.flatten_cons, List.append_assoc], rfl, hstop,
        .cons hs' hall⟩
    | case5 => cases h
  · rintro ⟨ss, stop, rest, rfl, rfl, hstop, hall⟩
    induction hall with
    | nil => rw [List.flatten_nil, List.nil_append, statements_cons, if_pos hstop]
    | @cons s x ss p hs _ ih =>
      have hread : statement file (s ++ (ss.flatten ++ stop :: rest)) =
          .ok x (ss.flatten ++ stop :: rest) := statement_eq_ok_iff.2 ⟨s, rfl, hs⟩
      rw [List.flatten_cons, List.append_assoc]
      cases hcons : s ++ (ss.flatten ++ stop :: rest) with
      | nil =>
        rw [hcons] at hread
        cases hread
      | cons t q =>
        have ht : t.kind ≠ .eof := by
          intro ht
          exact sentence_append_ne_eof hs.kinds ht hcons
        rw [hcons] at hread
        rw [statements_cons, if_neg ht, hread]
        simp only [ih]

/-- A program is read exactly from sentences and an end of input, and what follows is left. -/
theorem program_eq_ok_iff {q rest : List Token} {p : List Tree} :
    program file q = .ok p rest ↔
      ∃ ss stop, q = ss.flatten ++ stop :: rest ∧ stop.kind = .eof ∧
        List.Forall₂ StatementTree ss p := by
  constructor
  · intro h
    obtain ⟨p', r, hss, h₁⟩ := bind_eq_ok.1 h
    obtain ⟨stop, r', hstop, h₂⟩ := bind_eq_ok.1 h₁
    cases h₂
    obtain ⟨rfl, -⟩ := eat_eq_ok_iff.1 hstop
    obtain ⟨ss, stop', rest', hq, hr, hkind, hall⟩ := statements_eq_ok_iff.1 hss
    cases hr
    exact ⟨ss, stop, hq, hkind, hall⟩
  · rintro ⟨ss, stop, hq, hkind, hall⟩
    refine bind_eq_ok.2 ⟨p, stop :: rest, ?_, ?_⟩
    · exact statements_eq_ok_iff.2 ⟨ss, stop, rest, hq, rfl, hkind, hall⟩
    · exact bind_eq_ok.2 ⟨stop, rest, eat_eq_ok_iff.2 ⟨rfl, hkind⟩, rfl⟩

end Reader

/-- Reading a program succeeds exactly on sentences that an end of input follows. It leaves what
    comes after the end of input, and it gives the one program that groups to the right and whose
    words, from left to right, are those of the sentences. The sentences, the end of input and the
    rest are determined by the tokens. -/
theorem program_reads_grammar (file : Option String) (tokens : List Token) :
    ((∃ p rest, Reader.program file tokens = .ok p rest) ↔
      ∃ ss stop rest, Splits tokens ss stop rest) ∧
    (∀ p rest, Reader.program file tokens = .ok p rest ↔
      ∃ ss stop, Splits tokens ss stop rest ∧ Tree.isRightGrouped p = true ∧
        (Tree.program p).inorder = ss.flatten.filterMap Token.entry?) ∧
    ∀ ss stop rest ss' stop' rest', Splits tokens ss stop rest → Splits tokens ss' stop' rest' →
      ss = ss' ∧ stop = stop' ∧ rest = rest' := by
  refine ⟨⟨?_, ?_⟩, fun p rest => ⟨?_, ?_⟩, fun ss stop rest ss' stop' rest' => splits_unique⟩
  · rintro ⟨p, rest, h⟩
    obtain ⟨ss, stop, hq, hstop, hall⟩ := Reader.program_eq_ok_iff.1 h
    exact ⟨ss, stop, rest, hq, sentences_of_trees hall, hstop⟩
  · rintro ⟨ss, stop, rest, h⟩
    obtain ⟨p, hall⟩ := trees_of_sentences h.sentence
    exact ⟨p, rest, Reader.program_eq_ok_iff.2 ⟨ss, stop, h.tokens_eq, h.stop_kind, hall⟩⟩
  · intro h
    obtain ⟨ss, stop, hq, hstop, hall⟩ := Reader.program_eq_ok_iff.1 h
    refine ⟨ss, stop, ⟨hq, sentences_of_trees hall, hstop⟩, ?_, inorderAll_of_trees hall⟩
    exact Tree.isRightGrouped_iff.2 (rightStatements_of_trees hall)
  · rintro ⟨ss, stop, h, hright, hwords⟩
    obtain ⟨p', hall⟩ := trees_of_sentences h.sentence
    -- the program is the one of the derivation, because its words are
    obtain rfl : p = p' :=
      Tree.program_eq_of_inorder (Tree.isRightGrouped_iff.1 hright) (rightStatements_of_trees hall)
        (hwords.trans (inorderAll_of_trees hall).symm)
    exact Reader.program_eq_ok_iff.2 ⟨ss, stop, h.tokens_eq, h.stop_kind, hall⟩

theorem program_reads_print_sentence :
    (∃ ss stop rest, Splits [⟨.ofMark .printWord, some 1⟩, ⟨.integer 1, some 1⟩,
      ⟨.ofMark .plus, some 2⟩, ⟨.string "a", none⟩, ⟨.ofMark .semicolon, some 2⟩, ⟨.eof, some 3⟩,
      ⟨.ofMark .rparen, some 3⟩] ss stop rest) ∧
    ∃ p rest, Reader.program none [⟨.ofMark .printWord, some 1⟩, ⟨.integer 1, some 1⟩,
      ⟨.ofMark .plus, some 2⟩, ⟨.string "a", none⟩, ⟨.ofMark .semicolon, some 2⟩, ⟨.eof, some 3⟩,
      ⟨.ofMark .rparen, some 3⟩] = .ok p rest := by
  have h : Splits [⟨.ofMark .printWord, some 1⟩, ⟨.integer 1, some 1⟩, ⟨.ofMark .plus, some 2⟩,
      ⟨.string "a", none⟩, ⟨.ofMark .semicolon, some 2⟩, ⟨.eof, some 3⟩, ⟨.ofMark .rparen, some 3⟩]
      [[⟨.ofMark .printWord, some 1⟩, ⟨.integer 1, some 1⟩, ⟨.ofMark .plus, some 2⟩,
        ⟨.string "a", none⟩, ⟨.ofMark .semicolon, some 2⟩]] ⟨.eof, some 3⟩
      [⟨.ofMark .rparen, some 3⟩] := by
    refine ⟨rfl, ?_, rfl⟩
    intro s hs
    cases List.mem_singleton.1 hs
    exact .printing (.value (.more rfl rfl (.term rfl)))
  exact ⟨⟨_, _, _, h⟩, (program_reads_grammar none _).1.2 ⟨_, _, _, h⟩⟩

end LetScript
