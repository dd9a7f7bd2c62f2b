import LetScript.Proofs.Lookahead
import LetScript.Proofs.Reading
import Mathlib

/-
  A fault of reading is found at the earliest token that allows it.

  What a failing reader took before it failed is the start of something that it accepts: of an
  expression, of what may follow a keyword, of a sentence (`begins_of_chain` up to
  `begins_of_statement`), so the tokens taken go on to a program that is read (`exists_completion`).
  The token at which it failed is not, whatever comes after it, because the reader sees no further
  than that token (`local_program`).

  Main statement: `program_fault_earliest`.
-/

namespace LetScript

/-- Tokens that go on to tokens of a class, told by their kinds. -/
def Begins (p : List Kind → Prop) (taken : List Token) : Prop :=
  ∃ more : List Kind, p (taken.map Token.kind ++ more)

/-- What may follow a keyword, with its semicolon. -/
def IsClosedArgument (ks : List Kind) : Prop := ∃ body, IsArgument body ∧ ks = body ++ [.mark .semicolon]

theorem kind_isTerm {t : Token} {x : Tree} (h : t.term? = some x) : t.kind.isTerm = true := by
  rw [← term?_isSome, h]
  rfl

theorem kind_isOperator {t : Token} {s : Sign} (h : t.sign? = some s) :
    t.kind.isOperator = true := by
  rw [← sign?_isSome, h]
  rfl

/-- A literal is an expression. -/
theorem isExpr_integer : IsExpr [.integer] := .term rfl

/-- The start of a `let`, as far as the start of its expression. -/
theorem begins_letting {start nameToken equal : Token} {taken : List Token} {more : List Kind}
    (hstart : start.kind = .mark .letWord) (hname : nameToken.kind = .identifier)
    (hequal : equal.kind = .mark .equal) (hexpr : IsExpr (taken.map Token.kind ++ more)) :
    Begins IsSentence (start :: nameToken :: equal :: taken) := by
  refine ⟨more ++ [.mark .semicolon], ?_⟩
  have hshift : (start :: nameToken :: equal :: taken).map Token.kind ++ (more ++ [.mark .semicolon]) =
      .mark .letWord :: .identifier :: .mark .equal ::
        ((taken.map Token.kind ++ more) ++ [.mark .semicolon]) := by
    simp [hstart, hname, hequal]
  rw [hshift]
  exact .letting hexpr

namespace Reader

variable {file : Option String}

theorem eat_eq_error {kind : Kind} {q r : List Token} {f : Fault} (h : eat file kind q = .error f r) :
    r = q := by
  cases q with
  | nil => cases h; rfl
  | cons t q =>
    unfold eat at h
    dsimp only at h
    split at h
    · cases h
    · cases h; rfl

theorem eatName_eq_error {q r : List Token} {f : Fault} (h : eatName file q = .error f r) :
    r = q := by
  cases q with
  | nil => cases h; rfl
  | cons t q =>
    unfold eatName at h
    dsimp only at h
    split at h
    · cases h
    · cases h; rfl

/-- A chain that fails was broken off after a term, or after an operator that wants one. -/
theorem begins_of_chain {pending : List (Tree × Sign)} {last : Tree} {first : Token}
    {q rest : List Token} {f : Fault} (hfirst : first.term? = some last)
    (h : chain file pending last q = .error f rest) :
    ∃ taken, q = taken ++ rest ∧ Begins IsExpr (first :: taken) := by
  fun_induction chain file pending last q generalizing first with
  | case1 =>
    cases h
    exact ⟨[], rfl, [], .term (kind_isTerm hfirst)⟩
  | case2 => cases h
  | case3 pending last t sign hs =>
    cases h
    exact ⟨[t], rfl, [.integer],
      .more (kind_isTerm hfirst) (kind_isOperator hs) isExpr_integer⟩
  | case4 pending last t sign hs u q hn =>
    cases h
    exact ⟨[t], rfl, [.integer],
      .more (kind_isTerm hfirst) (kind_isOperator hs) isExpr_integer⟩
  | case5 pending last t sign hs u q next hn ih =>
    obtain ⟨taken, rfl, more, hexpr⟩ := ih hn h
    exact ⟨t :: u :: taken, rfl, more, .more (kind_isTerm hfirst) (kind_isOperator hs) hexpr⟩

theorem begins_of_tryExpr {q rest : List Token} {f : Fault} (h : tryExpr file q = .error f rest) :
    ∃ taken, q = taken ++ rest ∧ Begins IsExpr taken := by
  rcases bind_eq_error.1 h with hterm | ⟨first, s, hterm, hread⟩
  · cases q with
    | nil => cases hterm; exact ⟨[], rfl, [.integer], isExpr_integer⟩
    | cons t q =>
      unfold term at hterm
      dsimp only at hterm
      split at hterm <;> cases hterm
  · cases first with
    | none => cases hread
    | some x =>
      obtain ⟨t, rfl, ht⟩ := term_eq_some_iff.1 hterm
      rcases bind_eq_error.1 hread with hchain | ⟨e, r, -, hpure⟩
      · obtain ⟨taken, rfl, hbegins⟩ := begins_of_chain ht hchain
        exact ⟨t :: taken, rfl, hbegins⟩
      · cases hpure

theorem begins_of_expr {q rest : List Token} {f : Fault} (h : expr file q = .error f rest) :
    ∃ taken, q = taken ++ rest ∧ Begins IsExpr taken := by
  rcases bind_eq_error.1 h with htry | ⟨read, s, htry, hread⟩
  · exact begins_of_tryExpr htry
  · cases read with
    | none =>
      -- no term is at the front, and nothing was taken
      obtain ⟨rfl, t, r, rfl, -⟩ := tryExpr_eq_none_iff.1 htry
      cases hread
      exact ⟨[], rfl, [.integer], isExpr_integer⟩
    | some e => cases hread

theorem begins_of_argument {q rest : List Token} {f : Fault} (h : argument file q = .error f rest) :
    ∃ taken, q = taken ++ rest ∧ Begins IsClosedArgument taken := by
  rcases bind_eq_error.1 h with htry | ⟨read, s, htry, hread⟩
  · obtain ⟨taken, rfl, more, hexpr⟩ := begins_of_tryExpr htry
    exact ⟨taken, rfl, more ++ [.mark .semicolon], _, .value hexpr, (List.append_assoc _ _ _).symm⟩
  · rcases bind_eq_error.1 hread with heat | ⟨_, r, -, hpure⟩
    · obtain rfl := eat_eq_error heat
      cases read with
      | none =>
        obtain ⟨rfl, -⟩ := tryExpr_eq_none_iff.1 htry
        exact ⟨[], rfl, [.mark .semicolon], [], .bare, rfl⟩
      | some e =>
        obtain ⟨taken, rfl, hexpr, -⟩ := tryExpr_eq_some_iff.1 htry
        exact ⟨taken, rfl, [.mark .semicolon], _, .value hexpr.kinds, rfl⟩
    · cases hpure

theorem begins_of_letStatement {q rest : List Token} {f : Fault}
    (h : letStatement file q = .error f rest) :
    ∃ taken, q = taken ++ rest ∧ Begins IsSentence taken := by
  rcases bind_eq_error.1 h with r₁ | ⟨start, q₁, r₁, h₁⟩
  · obtain rfl := eat_eq_error r₁
    exact ⟨[], rfl, _, .letting isExpr_integer⟩
  obtain ⟨rfl, hstart⟩ := eat_eq_ok_iff.1 r₁
  rcases bind_eq_error.1 h₁ with r₂ | ⟨name, q₂, r₂, h₂⟩
  · obtain rfl := eatName_eq_error r₂
    refine ⟨[start], rfl, [.identifier, .mark .equal, .integer, .mark .semicolon], ?_⟩
    rw [List.map_singleton, hstart]
    exact .letting isExpr_integer
  obtain ⟨nameToken, rfl, hname, -⟩ := eatName_eq_ok_iff.1 r₂
  have hkind : nameToken.kind = .identifier := kind_eq_identifier_iff.2 ⟨name.1, hname⟩
  rcases bind_eq_error.1 h₂ with r₃ | ⟨equal, q₃, r₃, h₃⟩
  · obtain rfl := eat_eq_error r₃
    refine ⟨[start, nameToken], rfl, [.mark .equal, .integer, .mark .semicolon], ?_⟩
    rw [List.map_cons, List.map_singleton, hstart, hkind]
    exact .letting isExpr_integer
  obtain ⟨rfl, hequal⟩ := eat_eq_ok_iff.1 r₃
  rcases bind_eq_error.1 h₃ with r₄ | ⟨value, q₄, r₄, h₄⟩
  · obtain ⟨taken, rfl, more, hexpr⟩ := begins_of_expr r₄
    exact ⟨start :: nameToken :: equal :: taken, rfl, begins_letting hstart hkind hequal hexpr⟩
  obtain ⟨taken, rfl, hexpr, -⟩ := expr_eq_ok_iff.1 r₄
  rcases bind_eq_error.1 h₄ with r₅ | ⟨semi, q₅, -, h₅⟩
  · obtain rfl := eat_eq_error r₅
    have hkinds : IsExpr (taken.map Token.kind ++ []) := by rw [List.append_nil]; exact hexpr.kinds
    exact ⟨start :: nameToken :: equal :: taken, rfl, begins_letting hstart hkind hequal hkinds⟩
  · cases h₅

/-- A keyword with what may follow it: the common part of `print` and `return`. -/
theorem begins_of_keyword {m : Mark} {node : Tree → Line → Tree} {q rest : List Token} {f : Fault}
    (hm : ∀ {ks}, IsArgument ks → IsSentence (.mark m :: (ks ++ [.mark .semicolon])))
    (h : (eat file (.mark m) >>= fun start => argument file >>= fun value =>
        pure (node value start.line) : Reader Tree) q = .error f rest) :
    ∃ taken, q = taken ++ rest ∧ Begins IsSentence taken := by
  rcases bind_eq_error.1 h with r₁ | ⟨start, q₁, r₁, h₁⟩
  · obtain rfl := eat_eq_error r₁
    exact ⟨[], rfl, _, hm .bare⟩
  obtain ⟨rfl, hstart⟩ := eat_eq_ok_iff.1 r₁
  rcases bind_eq_error.1 h₁ with r₂ | ⟨value, q₂, -, h₂⟩
  · obtain ⟨taken, rfl, more, body, hbody, hkinds⟩ := begins_of_argument r₂
    refine ⟨start :: taken, rfl, more, ?_⟩
    rw [List.map_cons, List.cons_append, hstart, hkinds]
    exact hm hbody
  · cases h₂

theorem begins_of_statementFor {kind : Kind} {q rest : List Token} {f : Fault}
    (h : statementFor file kind q = .error f rest) :
    ∃ taken, q = taken ++ rest ∧ Begins IsSentence taken := by
  unfold statementFor at h
  split at h
  · exact begins_of_keyword .returning h
  · exact begins_of_letStatement h
  · exact begins_of_keyword .printing h
  · refine ⟨[], ?_, _, .printing .bare⟩
    cases q <;> cases h <;> rfl

/-- What is taken of a statement that fails starts a sentence. -/
theorem begins_of_statement {q rest : List Token} {f : Fault} (h : statement file q = .error f rest) :
    ∃ taken, q = taken ++ rest ∧ Begins IsSentence taken := by
  rw [statement_eq_bind] at h
  rcases bind_eq_error.1 h with hpeek | ⟨t, s, hpeek, hread⟩
  · refine ⟨[], ?_, _, .printing .bare⟩
    cases q <;> cases hpeek
    rfl
  · obtain rfl : s = q := by cases q <;> cases hpeek; rfl
    exact begins_of_statementFor hread

/-- Statements that fail were read up to one that was broken off. -/
theorem begins_of_statements {q rest : List Token} {f : Fault}
    (h : statements file q = .error f rest) :
    ∃ (ss : List (List Token)) (taken : List Token), q = ss.flatten ++ (taken ++ rest) ∧
      (∀ s ∈ ss, IsSentence (s.map Token.kind)) ∧ Begins IsSentence taken := by
  fun_induction statements file q with
  | case1 =>
    cases h
    exact ⟨[], [], rfl, by simp, _, .printing .bare⟩
  | case2 => cases h
  | case3 t q _ f' rest' hs =>
    cases h
    obtain ⟨taken, hq, hbegins⟩ := begins_of_statement hs
    exact ⟨[], taken, hq, by simp, hbegins⟩
  | case4 => cases h
  | case5 t q _ x rest' hx f' left hss ih =>
    cases h
    obtain ⟨s, hq, hs⟩ := statement_eq_ok_iff.1 hx
    obtain ⟨ss, taken, rfl, hss, hbegins⟩ := ih hss
    refine ⟨s :: ss, taken, ?_, List.forall_mem_cons.2 ⟨hs.kinds, hss⟩, hbegins⟩
    rw [hq, List.flatten_cons, List.append_assoc]

/-- A program fails only where a statement does: the end of input that stops the statements is
    there to be taken. -/
theorem statements_error_of_program {q rest : List Token} {f : Fault}
    (h : program file q = .error f rest) : statements file q = .error f rest := by
  rcases bind_eq_error.1 h with hss | ⟨ss, s, hss, hread⟩
  · exact hss
  · obtain ⟨_, stop, r, -, rfl, hstop, -⟩ := statements_eq_ok_iff.1 hss
    have heat : eat file .eof (stop :: r) = .ok stop r := eat_eq_ok_iff.2 ⟨rfl, hstop⟩
    rcases bind_eq_error.1 hread with herror | ⟨_, _, -, hpure⟩
    · rw [heat] at herror; cases herror
    · cases hpure

end Reader

/-- There are tokens of every kind. -/
theorem exists_kind (k : Kind) : ∃ t : Token, t.kind = k := by
  cases k with
  | eof => exact ⟨⟨.eof, none⟩, rfl⟩
  | integer => exact ⟨⟨.integer 0, none⟩, rfl⟩
  | string => exact ⟨⟨.string "", none⟩, rfl⟩
  | boolean => exact ⟨⟨.boolean true, none⟩, rfl⟩
  | identifier => exact ⟨⟨.identifier "", none⟩, rfl⟩
  | mark m => exact ⟨⟨.ofMark m, none⟩, rfl⟩

theorem exists_kinds (ks : List Kind) : ∃ ts : List Token, ts.map Token.kind = ks := by
  induction ks with
  | nil => exact ⟨[], rfl⟩
  | cons k ks ih =>
    obtain ⟨t, ht⟩ := exists_kind k
    obtain ⟨ts, hts⟩ := ih
    exact ⟨t :: ts, by rw [List.map_cons, ht, hts]⟩

/-- Sentences and the start of another one go on to a program that is read. -/
theorem exists_completion (file : Option String) {ss : List (List Token)} {taken : List Token}
    (hss : ∀ s ∈ ss, IsSentence (s.map Token.kind)) (htaken : Begins IsSentence taken) :
    ∃ more p, Reader.program file (ss.flatten ++ taken ++ more) = .ok p [] := by
  obtain ⟨ks, hks⟩ := htaken
  obtain ⟨ts, rfl⟩ := exists_kinds ks
  rw [← List.map_append] at hks
  have hall : ∀ s ∈ ss ++ [taken ++ ts], IsSentence (s.map Token.kind) :=
    List.forall_mem_append.2 ⟨hss, List.forall_mem_singleton.2 hks⟩
  obtain ⟨p, hp⟩ := trees_of_sentences hall
  refine ⟨ts ++ [⟨.eof, none⟩], p, Reader.program_eq_ok_iff.2 ⟨_, ⟨.eof, none⟩, ?_, rfl, hp⟩⟩
  simp

theorem title_of_parsing {c : Cause} (h : c.stage? = some .parsing) : c.title = "ParseError" := by
  cases c with
  | stated stage message => cases h; rfl
  | _ => first | rfl | cases h

/-- What the fault is where reading a program fails: an error of parsing that has the line of the
    token at the front, or is the end of the input and has no line; or the fault of a token that
    cannot be described. -/
theorem program_fault {file : Option String} {rest : List Token} {f : Fault}
    (h : Reader.PointsAt file f rest) :
    (f.cause.title = "ParseError" ∧ f.file = file ∧ (∀ t rest', rest = t :: rest' → f.line = t.line) ∧
      (rest = [] → f.cause.text = "Unexpected end of input" ∧ f.line = none)) ∨
    Reader.Undescribed f rest := by
  cases rest with
  | nil =>
    obtain rfl : f = Reader.endOfInput file := h
    exact .inl ⟨rfl, rfl, nofun, fun _ => ⟨rfl, rfl⟩⟩
  | cons t rest =>
    obtain ⟨hfound, hline, hfile⟩ | hlong := h.at_token
    · refine .inl ⟨title_of_parsing (stage?_of_found? hfound), hfile, ?_, nofun⟩
      rintro _ _ ⟨⟩
      exact hline
    · exact .inr hlong

/-- Where reading a program fails, the tokens taken go on to a program that is read. With the token
    at which it fails they do not, and the fault is an error of parsing with that token's line, unless
    the token is an integer that is too long to be described; where no token is left, the fault is the
    end of the input and has no line. -/
theorem program_fault_earliest (file : Option String) {tokens rest : List Token} {f : Fault}
    (h : Reader.program file tokens = .error f rest) :
    ((f.cause.title = "ParseError" ∧ f.file = file ∧
        (∀ t rest', rest = t :: rest' → f.line = t.line) ∧
        (rest = [] → f.cause.text = "Unexpected end of input" ∧ f.line = none)) ∨
      Reader.Undescribed f rest) ∧
    ∃ taken, tokens = taken ++ rest ∧
      (∃ more p left, Reader.program file (taken ++ more) = .ok p left) ∧
      ∀ t rest', rest = t :: rest' →
        ∀ more p left, Reader.program file (taken ++ t :: more) ≠ .ok p left := by
  obtain ⟨taken, htokens, hpoints, hswap⟩ := (Reader.local_program tokens).error h
  obtain ⟨ss, broken, hsplit, hss, hbegins⟩ :=
    Reader.begins_of_statements (Reader.statements_error_of_program h)
  -- both descriptions of the failure speak of the same tokens taken
  obtain rfl : taken = ss.flatten ++ broken := by
    rw [htokens, ← List.append_assoc] at hsplit
    exact List.append_cancel_right hsplit
  obtain ⟨more, p, hp⟩ := exists_completion file hss hbegins
  refine ⟨program_fault hpoints, _, htokens, ⟨more, p, [], hp⟩, ?_⟩
  rintro t rest' rfl more p left hread
  rw [hswap (t :: more) rfl] at hread
  cases hread

/-- A `let` without its equality sign: the tokens before the number go on to a program, and with
    the number they do not. -/
theorem program_fault_earliest_let :
    Reader.program none [⟨.ofMark .letWord, some 1⟩, ⟨.identifier "x", some 1⟩, ⟨.integer 5, some 2⟩,
      ⟨.ofMark .semicolon, some 2⟩, ⟨.eof, some 3⟩] =
        .error ⟨.expectedKind (.mark .equal) (.integer 5), some 2, none⟩
          [⟨.integer 5, some 2⟩, ⟨.ofMark .semicolon, some 2⟩, ⟨.eof, some 3⟩] ∧
    (∃ more p left, Reader.program none ([⟨.ofMark .letWord, some 1⟩, ⟨.identifier "x", some 1⟩] ++
      more) = .ok p left) ∧
    ∀ more p left, Reader.program none ([⟨.ofMark .letWord, some 1⟩, ⟨.identifier "x", some 1⟩] ++
      ⟨.integer 5, some 2⟩ :: more) ≠ .ok p left := by
  have hfail : Reader.program none ([⟨.ofMark .letWord, some 1⟩, ⟨.identifier "x", some 1⟩] ++
      [⟨.integer 5, some 2⟩, ⟨.ofMark .semicolon, some 2⟩, ⟨.eof, some 3⟩]) =
        .error ⟨.expectedKind (.mark .equal) (.integer 5), some 2, none⟩
          [⟨.integer 5, some 2⟩, ⟨.ofMark .semicolon, some 2⟩, ⟨.eof, some 3⟩] := by
    cbv
  obtain ⟨-, taken, htaken, hmore, hnext⟩ := program_fault_earliest none hfail
  obtain rfl := List.append_cancel_right htaken
  exact ⟨hfail, hmore, hnext _ _ rfl⟩

end LetScript
