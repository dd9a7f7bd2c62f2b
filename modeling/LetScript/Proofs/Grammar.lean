import LetScript.Proofs.Shape
import LetScript.Reader.Expr
import Mathlib.Data.List.Forall2

/-
  The grammar of programs, on kinds of tokens: `expr ::= term [operator expr]`, and a sentence is one
  of `let identifier = expr ;`, `print [expr] ;`, `return [expr] ;`. `Splits` cuts a token list into
  sentences, the end-of-input token after them and the tokens left over; there is at most one such
  cut (`splits_unique`), because a sentence has its only semicolon at its end.

  `ExprTree`, `ArgumentTree` and `StatementTree` are derivations with their trees. Every sentence
  has one, its tree groups to the right, and the words of the tree are the tokens of the sentence
  without equality signs and semicolons.
-/

namespace LetScript

/-! ## Sentences -/

/-- `expr ::= term [operator expr]`. -/
inductive IsExpr : List Kind → Prop
  | term {k : Kind} : k.isTerm = true → IsExpr [k]
  | more {k o : Kind} {ks : List Kind} : k.isTerm = true → o.isOperator = true → IsExpr ks →
    IsExpr (k :: o :: ks)

/-- `[expr]`. -/
inductive IsArgument : List Kind → Prop
  | bare : IsArgument []
  | value {ks : List Kind} : IsExpr ks → IsArgument ks

/-- The three forms of a sentence, each up to its semicolon. -/
inductive IsSentence : List Kind → Prop
  | letting {ks : List Kind} : IsExpr ks →
    IsSentence (.mark .letWord :: .identifier :: .mark .equal :: (ks ++ [.mark .semicolon]))
  | printing {ks : List Kind} : IsArgument ks →
    IsSentence (.mark .printWord :: (ks ++ [.mark .semicolon]))
  | returning {ks : List Kind} : IsArgument ks →
    IsSentence (.mark .returnWord :: (ks ++ [.mark .semicolon]))

/-- Tokens cut into sentences, the end-of-input token after them, and what is left over. -/
structure Splits (tokens : List Token) (sentences : List (List Token)) (stop : Token)
    (rest : List Token) : Prop where
  tokens_eq : tokens = sentences.flatten ++ stop :: rest
  sentence : ∀ s ∈ sentences, IsSentence (s.map Token.kind)
  stop_kind : stop.kind = .eof

/-! ## A token list is cut in one way -/

/-- Two cuts of a list at its first element of a class are the same cut. -/
theorem append_cons_unique {α : Type} {p : α → Prop} {as bs cs ds : List α} {x y : α}
    (has : ∀ a ∈ as, ¬p a) (hbs : ∀ b ∈ bs, ¬p b) (hx : p x) (hy : p y)
    (h : as ++ x :: cs = bs ++ y :: ds) : as = bs ∧ x = y ∧ cs = ds := by
  induction as generalizing bs with
  | nil =>
    cases bs with
    | nil => exact ⟨rfl, List.cons.inj h⟩
    | cons b bs =>
      rw [(List.cons.inj h).1] at hx
      exact absurd hx (hbs b List.mem_cons_self)
  | cons a as ih =>
    cases bs with
    | nil =>
      rw [← (List.cons.inj h).1] at hy
      exact absurd hy (has a List.mem_cons_self)
    | cons b bs =>
      obtain ⟨rfl, htail⟩ := List.cons.inj h
      obtain ⟨rfl, hrest⟩ := ih (fun c hc => has c (List.mem_cons_of_mem a hc))
        (fun c hc => hbs c (List.mem_cons_of_mem a hc)) htail
      exact ⟨rfl, hrest⟩

/-- An expression has neither a semicolon nor an end of input in it. -/
theorem IsExpr.not_mem {ks : List Kind} (h : IsExpr ks) :
    Kind.mark .semicolon ∉ ks ∧ Kind.eof ∉ ks := by
  induction h with
  | term hk => constructor <;> (rintro (_ | ⟨_, ⟨⟩⟩); cases hk)
  | more hk ho _ ih =>
    constructor
    · rintro (_ | ⟨_, _ | ⟨_, hmem⟩⟩)
      · cases hk
      · cases ho
      · exact ih.1 hmem
    · rintro (_ | ⟨_, _ | ⟨_, hmem⟩⟩)
      · cases hk
      · cases ho
      · exact ih.2 hmem

theorem IsArgument.not_mem {ks : List Kind} (h : IsArgument ks) :
    Kind.mark .semicolon ∉ ks ∧ Kind.eof ∉ ks := by
  cases h with
  | bare => exact ⟨List.not_mem_nil, List.not_mem_nil⟩
  | value h => exact h.not_mem

/-- A sentence has its only semicolon at its end, and no end of input. -/
theorem IsSentence.body {ks : List Kind} (h : IsSentence ks) :
    ∃ body, ks = body ++ [.mark .semicolon] ∧ Kind.mark .semicolon ∉ body ∧ Kind.eof ∉ body := by
  cases h with
  | @letting ks h =>
    refine ⟨.mark .letWord :: .identifier :: .mark .equal :: ks, rfl, ?_, ?_⟩
    · simpa using h.not_mem.1
    · simpa using h.not_mem.2
  | @printing ks h =>
    refine ⟨.mark .printWord :: ks, rfl, ?_, ?_⟩
    · simpa using h.not_mem.1
    · simpa using h.not_mem.2
  | @returning ks h =>
    refine ⟨.mark .returnWord :: ks, rfl, ?_, ?_⟩
    · simpa using h.not_mem.1
    · simpa using h.not_mem.2

/-- Tokens whose images end in `k` are tokens and a last one with image `k`. -/
theorem exists_last {α : Type} {f : Token → α} {s : List Token} {ks : List α} {k : α}
    (h : s.map f = ks ++ [k]) : ∃ front last, s = front ++ [last] ∧ front.map f = ks ∧ f last = k := by
  obtain ⟨front, tail, rfl, hfront, htail⟩ := List.map_eq_append_iff.1 h
  obtain ⟨last, rfl, hlast⟩ := List.map_eq_singleton_iff.1 htail
  exact ⟨front, last, rfl, hfront, hlast⟩

/-- The tokens of a sentence up to its semicolon, and that semicolon. -/
theorem sentence_tokens {s : List Token} (h : IsSentence (s.map Token.kind)) :
    ∃ front last, s = front ++ [last] ∧ last.kind = .mark .semicolon ∧
      (∀ t ∈ front, ¬t.kind = .mark .semicolon) ∧ ∀ t ∈ front, ¬t.kind = .eof := by
  obtain ⟨body, hbody, hsemi, heof⟩ := h.body
  obtain ⟨front, last, rfl, rfl, hlast⟩ := exists_last hbody
  refine ⟨front, last, rfl, hlast, ?_, ?_⟩
  · intro t ht hk
    exact hsemi (List.mem_map.2 ⟨t, ht, hk⟩)
  · intro t ht hk
    exact heof (List.mem_map.2 ⟨t, ht, hk⟩)

/-- No sentence goes on where another one ends. -/
theorem sentence_append_unique {s s' r r' : List Token} (hs : IsSentence (s.map Token.kind))
    (hs' : IsSentence (s'.map Token.kind)) (h : s ++ r = s' ++ r') : s = s' ∧ r = r' := by
  obtain ⟨front, last, rfl, hlast, hfront, -⟩ := sentence_tokens hs
  obtain ⟨front', last', rfl, hlast', hfront', -⟩ := sentence_tokens hs'
  rw [List.append_assoc, List.append_assoc] at h
  obtain ⟨rfl, rfl, hr⟩ :=
    append_cons_unique (p := fun t : Token => t.kind = .mark .semicolon) hfront hfront' hlast
      hlast' h
  exact ⟨rfl, hr⟩

/-- A sentence does not start with the end of the input. -/
theorem sentence_append_ne_eof {s r q : List Token} {stop : Token}
    (hs : IsSentence (s.map Token.kind)) (hstop : stop.kind = .eof) : s ++ r ≠ stop :: q := by
  intro h
  obtain ⟨front, last, rfl, hlast, -, hfront⟩ := sentence_tokens hs
  cases front with
  | nil =>
    rw [(List.cons.inj h).1, hstop] at hlast
    cases hlast
  | cons t front =>
    refine hfront t List.mem_cons_self ?_
    rw [(List.cons.inj h).1, hstop]

theorem splits_unique {tokens : List Token} {ss ss' : List (List Token)} {stop stop' : Token}
    {rest rest' : List Token} (h : Splits tokens ss stop rest) (h' : Splits tokens ss' stop' rest') :
    ss = ss' ∧ stop = stop' ∧ rest = rest' := by
  induction ss generalizing tokens ss' with
  | nil =>
    cases ss' with
    | nil => exact ⟨rfl, List.cons.inj (h.tokens_eq.symm.trans h'.tokens_eq)⟩
    | cons s' ss' =>
      have heq := h'.tokens_eq.symm.trans h.tokens_eq
      rw [List.flatten_cons, List.append_assoc] at heq
      exact absurd heq (sentence_append_ne_eof (h'.sentence s' List.mem_cons_self) h.stop_kind)
  | cons s ss ih =>
    have heq := h.tokens_eq.symm.trans h'.tokens_eq
    rw [List.flatten_cons, List.append_assoc] at heq
    cases ss' with
    | nil =>
      exact absurd heq (sentence_append_ne_eof (h.sentence s List.mem_cons_self) h'.stop_kind)
    | cons s' ss' =>
      rw [List.flatten_cons, List.append_assoc] at heq
      obtain ⟨rfl, hrest⟩ := sentence_append_unique (h.sentence s List.mem_cons_self)
        (h'.sentence s' List.mem_cons_self) heq
      obtain ⟨rfl, hends⟩ := ih
        ⟨rfl, fun x hx => h.sentence x (List.mem_cons_of_mem s hx), h.stop_kind⟩
        ⟨hrest, fun x hx => h'.sentence x (List.mem_cons_of_mem s hx), h'.stop_kind⟩
      exact ⟨rfl, hends⟩

/-! ## Tokens as terms and operators -/

/-- A token is a term when its kind is a term's. The term is then known from its one word. -/
theorem term?_isSome (t : Token) : t.term?.isSome = t.kind.isTerm := by
  rcases t with ⟨l, line⟩
  cases l <;> rfl

theorem isTerm_of_term? {t : Token} {x : Tree} (h : t.term? = some x) : x.isTerm = true := by
  rcases t with ⟨l, line⟩
  cases l <;> first | (cases h; rfl) | cases h

theorem inorder_of_term? {t : Token} {x : Tree} (h : t.term? = some x) :
    x.inorder = [t].filterMap Token.entry? := by
  rcases t with ⟨l, line⟩
  cases l <;> first | (cases h; rfl) | cases h

/-- A token is an operator when its kind is an operator's. -/
theorem sign?_isSome (t : Token) : t.sign?.isSome = t.kind.isOperator := by
  rcases t with ⟨l, line⟩
  cases l with
  | mark m text => cases m <;> rfl
  | _ => rfl

theorem family?_of_sign? {t : Token} {s : Sign} (h : t.sign? = some s) :
    s.op.family? = some s.family := by
  rcases t with ⟨l, line⟩
  cases l with
  | mark m text => cases m <;> first | (cases h; rfl) | cases h
  | _ => cases h

/-- The words of a joined node are those of its operands with the operator's between them. -/
theorem inorder_join {t : Token} {s : Sign} (h : t.sign? = some s) (x y : Tree) :
    (s.join x y).inorder = x.inorder ++ [t].filterMap Token.entry? ++ y.inorder := by
  rcases t with ⟨l, line⟩
  cases l with
  | mark m text => cases m <;> first | (cases h; rfl) | cases h
  | _ => cases h

/-! ## Derivations with their trees -/

/-- The tree of an expression. -/
inductive ExprTree : List Token → Tree → Prop
  | term {t : Token} {x : Tree} : t.term? = some x → ExprTree [t] x
  | more {t o : Token} {e : List Token} {x y : Tree} {s : Sign} : t.term? = some x →
    o.sign? = some s → ExprTree e y → ExprTree (t :: o :: e) (s.join x y)

/-- The tree of an optional expression. -/
inductive ArgumentTree : List Token → Tree → Prop
  | bare : ArgumentTree [] .absent
  | value {e : List Token} {x : Tree} : ExprTree e x → ArgumentTree e x

/-- The tree of a sentence. -/
inductive StatementTree : List Token → Tree → Prop
  | letting {start nameToken equal semi : Token} {name : String} {e : List Token} {x : Tree} :
    start.kind = .mark .letWord → nameToken.lexeme = .identifier name →
      equal.kind = .mark .equal → ExprTree e x → semi.kind = .mark .semicolon →
      StatementTree (start :: nameToken :: equal :: (e ++ [semi]))
        (.binding name nameToken.line x start.line)
  | printing {start semi : Token} {e : List Token} {x : Tree} : start.kind = .mark .printWord →
    ArgumentTree e x → semi.kind = .mark .semicolon →
      StatementTree (start :: (e ++ [semi])) (.printing x start.line)
  | returning {start semi : Token} {e : List Token} {x : Tree} : start.kind = .mark .returnWord →
    ArgumentTree e x → semi.kind = .mark .semicolon →
      StatementTree (start :: (e ++ [semi])) (.returning x start.line)

/-- An expression starts with a term. -/
theorem ExprTree.first {e : List Token} {x : Tree} (h : ExprTree e x) :
    ∃ t e' y, e = t :: e' ∧ t.term? = some y := by
  cases h with
  | term ht => exact ⟨_, _, _, rfl, ht⟩
  | more ht _ _ => exact ⟨_, _, _, rfl, ht⟩

theorem ExprTree.kinds {e : List Token} {x : Tree} (h : ExprTree e x) :
    IsExpr (e.map Token.kind) := by
  induction h with
  | term ht => exact .term (by rw [← term?_isSome, ht]; rfl)
  | more ht hs _ ih =>
    exact .more (by rw [← term?_isSome, ht]; rfl) (by rw [← sign?_isSome, hs]; rfl) ih

theorem exprTree_of_kinds {e : List Token} {ks : List Kind} (h : IsExpr ks)
    (he : e.map Token.kind = ks) : ∃ x, ExprTree e x := by
  induction h generalizing e with
  | term hk =>
    obtain ⟨t, rfl, rfl⟩ := List.map_eq_singleton_iff.1 he
    rw [← term?_isSome] at hk
    obtain ⟨x, hx⟩ := Option.isSome_iff_exists.1 hk
    exact ⟨x, .term hx⟩
  | more hk ho _ ih =>
    obtain ⟨t, ys, rfl, rfl, hys⟩ := List.map_eq_cons_iff.1 he
    obtain ⟨o, e, rfl, rfl, htail⟩ := List.map_eq_cons_iff.1 hys
    rw [← term?_isSome] at hk
    rw [← sign?_isSome] at ho
    obtain ⟨x, hx⟩ := Option.isSome_iff_exists.1 hk
    obtain ⟨s, hs⟩ := Option.isSome_iff_exists.1 ho
    obtain ⟨y, hy⟩ := ih htail
    exact ⟨s.join x y, .more hx hs hy⟩

theorem ExprTree.right {e : List Token} {x : Tree} (h : ExprTree e x) : x.RightExpr := by
  induction h with
  | term ht => exact .term (isTerm_of_term? ht)
  | more ht hs _ ih => exact .node (family?_of_sign? hs) (isTerm_of_term? ht) ih

theorem ExprTree.inorder {e : List Token} {x : Tree} (h : ExprTree e x) :
    x.inorder = e.filterMap Token.entry? := by
  induction h with
  | term ht => exact inorder_of_term? ht
  | @more t o e x y s ht hs _ ih =>
    have hcons : t :: o :: e = [t] ++ [o] ++ e := rfl
    rw [inorder_join hs, inorder_of_term? ht, ih, hcons, List.filterMap_append,
      List.filterMap_append]

theorem ArgumentTree.kinds {e : List Token} {x : Tree} (h : ArgumentTree e x) :
    IsArgument (e.map Token.kind) := by
  cases h with
  | bare => exact .bare
  | value h => exact .value h.kinds

theorem argumentTree_of_kinds {e : List Token} (h : IsArgument (e.map Token.kind)) :
    ∃ x, ArgumentTree e x := by
  generalize hks : e.map Token.kind = ks at h
  cases h with
  | bare =>
    obtain rfl := List.map_eq_nil_iff.1 hks
    exact ⟨.absent, .bare⟩
  | value h =>
    obtain ⟨x, hx⟩ := exprTree_of_kinds h hks
    exact ⟨x, .value hx⟩

theorem ArgumentTree.right {e : List Token} {x : Tree} (h : ArgumentTree e x) :
    x.RightArgument := by
  cases h with
  | bare => exact .absent
  | value h => exact .value h.right

theorem ArgumentTree.inorder {e : List Token} {x : Tree} (h : ArgumentTree e x) :
    x.inorder = e.filterMap Token.entry? := by
  cases h with
  | bare => rfl
  | value h => exact h.inorder

theorem kind_eq_identifier_iff {t : Token} :
    t.kind = .identifier ↔ ∃ name, t.lexeme = .identifier name := by
  rcases t with ⟨l, line⟩
  cases l <;> simp [Token.kind, Lexeme.kind]

theorem StatementTree.kinds {s : List Token} {x : Tree} (h : StatementTree s x) :
    IsSentence (s.map Token.kind) := by
  cases h with
  | letting hstart hname hequal hx hsemi =>
    simp only [List.map_cons, List.map_append, List.map_nil, hstart, hequal, hsemi,
      kind_eq_identifier_iff.2 ⟨_, hname⟩]
    exact .letting hx.kinds
  | printing hstart hx hsemi =>
    simp only [List.map_cons, List.map_append, List.map_nil, hstart, hsemi]
    exact .printing hx.kinds
  | returning hstart hx hsemi =>
    simp only [List.map_cons, List.map_append, List.map_nil, hstart, hsemi]
    exact .returning hx.kinds

theorem statementTree_of_kinds {s : List Token} (h : IsSentence (s.map Token.kind)) :
    ∃ x, StatementTree s x := by
  generalize hks : s.map Token.kind = ks at h
  cases h with
  | letting h =>
    obtain ⟨start, s, rfl, hstart, hks⟩ := List.map_eq_cons_iff.1 hks
    obtain ⟨nameToken, s, rfl, hname, hks⟩ := List.map_eq_cons_iff.1 hks
    obtain ⟨equal, s, rfl, hequal, hks⟩ := List.map_eq_cons_iff.1 hks
    obtain ⟨e, semi, rfl, he, hsemi⟩ := exists_last hks
    obtain ⟨name, hname⟩ := kind_eq_identifier_iff.1 hname
    obtain ⟨x, hx⟩ := exprTree_of_kinds h he
    exact ⟨_, .letting hstart hname hequal hx hsemi⟩
  | printing h =>
    obtain ⟨start, s, rfl, hstart, hks⟩ := List.map_eq_cons_iff.1 hks
    obtain ⟨e, semi, rfl, rfl, hsemi⟩ := exists_last hks
    obtain ⟨x, hx⟩ := argumentTree_of_kinds h
    exact ⟨_, .printing hstart hx hsemi⟩
  | returning h =>
    obtain ⟨start, s, rfl, hstart, hks⟩ := List.map_eq_cons_iff.1 hks
    obtain ⟨e, semi, rfl, rfl, hsemi⟩ := exists_last hks
    obtain ⟨x, hx⟩ := argumentTree_of_kinds h
    exact ⟨_, .returning hstart hx hsemi⟩

theorem StatementTree.right {s : List Token} {x : Tree} (h : StatementTree s x) :
    x.RightStatement := by
  cases h with
  | letting _ _ _ hx _ => exact .binding hx.right
  | printing _ hx _ => exact .printing hx.right
  | returning _ hx _ => exact .returning hx.right

/-- The word of a mark, if the mark is one. -/
theorem entry?_of_kind {t : Token} {m : Mark} (h : t.kind = .mark m) :
    t.entry? = Token.entry? ⟨Lexeme.ofMark m, t.line⟩ := by
  rcases t with ⟨l, line⟩
  cases l <;> cases h
  cases m <;> rfl

theorem StatementTree.inorder {s : List Token} {x : Tree} (h : StatementTree s x) :
    x.inorder = s.filterMap Token.entry? := by
  cases h with
  | letting hstart hname hequal hx hsemi =>
    rw [Tree.inorder, hx.inorder, List.filterMap_cons, entry?_of_kind hstart, List.filterMap_cons,
      List.filterMap_cons, entry?_of_kind hequal, List.filterMap_append, List.filterMap_cons,
      entry?_of_kind hsemi]
    simp [Token.entry?, hname, Lexeme.ofMark, Lexeme.kind, Lexeme.payload]
  | printing hstart hx hsemi =>
    rw [Tree.inorder, hx.inorder, List.filterMap_cons, entry?_of_kind hstart,
      List.filterMap_append, List.filterMap_cons, entry?_of_kind hsemi]
    simp [Token.entry?, Lexeme.ofMark]
  | returning hstart hx hsemi =>
    rw [Tree.inorder, hx.inorder, List.filterMap_cons, entry?_of_kind hstart,
      List.filterMap_append, List.filterMap_cons, entry?_of_kind hsemi]
    simp [Token.entry?, Lexeme.ofMark]

/-! ## Programs -/

theorem sentences_of_trees {ss : List (List Token)} {p : List Tree}
    (h : List.Forall₂ StatementTree ss p) : ∀ s ∈ ss, IsSentence (s.map Token.kind) := by
  induction h with
  | nil => simp
  | cons hs _ ih =>
    intro s hmem
    rcases List.mem_cons.1 hmem with rfl | hmem
    · exact hs.kinds
    · exact ih s hmem

theorem trees_of_sentences {ss : List (List Token)} (h : ∀ s ∈ ss, IsSentence (s.map Token.kind)) :
    ∃ p, List.Forall₂ StatementTree ss p := by
  induction ss with
  | nil => exact ⟨[], .nil⟩
  | cons s ss ih =>
    obtain ⟨x, hx⟩ := statementTree_of_kinds (h s List.mem_cons_self)
    obtain ⟨p, hp⟩ := ih fun s' hs' => h s' (List.mem_cons_of_mem s hs')
    exact ⟨x :: p, .cons hx hp⟩

theorem rightStatements_of_trees {ss : List (List Token)} {p : List Tree}
    (h : List.Forall₂ StatementTree ss p) : ∀ x ∈ p, x.RightStatement := by
  induction h with
  | nil => simp
  | cons hs _ ih =>
    intro x hmem
    rcases List.mem_cons.1 hmem with rfl | hmem
    · exact hs.right
    · exact ih x hmem

theorem inorderAll_of_trees {ss : List (List Token)} {p : List Tree}
    (h : List.Forall₂ StatementTree ss p) :
    Tree.inorderAll p = ss.flatten.filterMap Token.entry? := by
  induction h with
  | nil => rfl
  | cons hs _ ih =>
    rw [Tree.inorderAll, hs.inorder, ih, List.flatten_cons, List.filterMap_append]

end LetScript
