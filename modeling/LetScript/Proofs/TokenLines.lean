import LetScript.Proofs.LazyReading

/-
  The lines of tokens.

  The tokens that a cursor gives are those of the scan, in order (`next_advance`), and the scan of a
  text is that of its front (`exists_scan`). So the token with number `k` is the lexeme that starts at the
  offset `start k`, and its line counts the line feeds before this offset. From one lexeme to the
  next the count goes up by the line feeds of the lexeme, which only a string has, and of the blanks
  after it.

  Main statement: `token_line_at_start`.
-/

namespace LetScript

/-- The line of an offset in a text: one more than the number of line feeds before it. -/
def lineAt (cs : List Char) (offset : Nat) : Nat := 1 + Text.newlines (cs.take offset)

/-! ## Tokens one by one -/

/-- A cursor after so many tokens were asked for. -/
def Cursor.advance : Nat → Cursor → Cursor
  | 0, c => c
  | k + 1, c => advance k c.next.2

theorem Scan.tokens_next (s : Scan) : s.next.2.tokens = s.tokens.tail := by
  rcases s with ⟨tokens, fault⟩
  cases tokens <;> cases fault <;> rfl

theorem Scan.next_eq_token_iff {s : Scan} {t : Token} :
    s.next.1 = .token t ↔ s.tokens[0]? = some t := by
  rcases s with ⟨tokens, fault⟩
  cases tokens <;> cases fault <;> simp [Scan.next]

/-- The tokens that a cursor gives one by one are the tokens of the scan. -/
theorem Cursor.next_advance {c : Cursor} {k : Nat} {t : Token} :
    (c.advance k).next.1 = .token t ↔ c.unread.tokens[k]? = some t := by
  induction k generalizing c with
  | zero => rw [← Scan.next_eq_token_iff, next_unread, advance]
  | succ k ih =>
    have hrest : c.next.2.unread.tokens = c.unread.tokens.tail := by
      rw [← Scan.tokens_next, next_unread]
    rw [advance, ih, hrest, List.getElem?_tail]

theorem getElem?_concat_eq_some_iff {ts : List Token} {t u : Token} {k : Nat} :
    (ts ++ [u])[k]? = some t ↔ ts[k]? = some t ∨ k = ts.length ∧ t = u := by
  rcases Nat.lt_trichotomy k ts.length with hlt | rfl | hgt
  · have hne : k ≠ ts.length := by omega
    simp [List.getElem?_append_left hlt, hne]
  · simp [eq_comm]
  · have hne : k ≠ ts.length := by omega
    have hpos : k - ts.length ≠ 0 := by omega
    simp [List.getElem?_append_right (Nat.le_of_lt hgt), List.getElem?_eq_none (Nat.le_of_lt hgt), hne,
      hpos]

/-! ## Where lexemes start -/

namespace Spacing

variable {s : Spacing} {i : Placed} {k : Nat} {rest cs : List Char}

/-- The offset at which the lexeme with the given number starts. -/
def start (s : Spacing) (k : Nat) : Nat := (s.front k).source.length

theorem length_tokens (s : Spacing) (line : Nat) : (s.tokens line).length = s.items.length :=
  List.length_mapIdx

theorem front_succ (h : s.items[k]? = some i) :
    (s.front (k + 1)).source = (s.front k).source ++ (i.text ++ i.gap) := by
  simp only [front, source, List.take_add_one, h, Option.toList_some, List.flatMap_append,
    List.flatMap_singleton, List.append_assoc]

/-- What stands before the start of a lexeme. -/
theorem take_start (hsource : s.source ++ rest = cs) (k : Nat) :
    cs.take (s.start k) = (s.front k).source := by
  obtain ⟨after, hafter⟩ := s.prefix_front k
  rw [← hsource, ← hafter, List.append_assoc, start, List.take_left]

/-- What stands at the start of a lexeme. -/
theorem text_prefix_drop_start (hsource : s.source ++ rest = cs) (h : s.items[k]? = some i) :
    i.text <+: cs.drop (s.start k) := by
  obtain ⟨after, hafter⟩ := s.prefix_front (k + 1)
  refine ⟨i.gap ++ (after ++ rest), ?_⟩
  rw [← hsource, ← hafter, front_succ h, start]
  simp only [List.append_assoc, List.drop_left]

/-- From one lexeme to the next the lines of the lexeme and of the blanks after it are counted. -/
theorem lineAt_start_succ (hsource : s.source ++ rest = cs) (h : s.items[k]? = some i) :
    lineAt cs (s.start (k + 1)) =
      lineAt cs (s.start k) + (Text.newlines i.text + Text.newlines i.gap) := by
  rw [lineAt, lineAt, take_start hsource, take_start hsource, front_succ h, Text.newlines_append,
    Text.newlines_append, Nat.add_assoc]

end Spacing

/-- Only a string has line feeds. -/
theorem Spells.newlines_eq_zero {text : List Char} {cls : LexClass} {l : Lexeme}
    (h : Spells text cls l) (hcls : cls ≠ .string) : Text.newlines text = 0 := by
  have hdigit : ('\n' : Char).isDigit = false := by decide
  have halphanum : ('\n' : Char).isAlphanum = false := by decide
  have halpha : ('\n' : Char).isAlpha = false := by decide
  rw [Text.newlines, List.count_eq_zero]
  intro hmem
  cases h with
  | number _ hall _ _ => simp [hall _ hmem] at hdigit
  | reserved hfirst hall _ | name hfirst hall _ =>
    rcases List.mem_cons.1 hmem with rfl | hmem
    · simp [hfirst] at halpha
    · simp [hall _ hmem] at halphanum
  | string _ _ => exact hcls rfl
  | symbol hm =>
    obtain ⟨c, hc, -, -, -, -, hblank⟩ := symbol_char hm
    rw [hc, List.mem_singleton] at hmem
    subst hmem
    cases hblank

/-! ## The line of every token -/

/-- A text is read as lexemes at known offsets, up to its end or up to a rest that is refused. The
    cursor of the text gives these lexemes in order, each with the line of the offset at which it
    starts, and then, if the whole text was read, the end of input with the last line of the text.
    The line of the next lexeme counts the line feeds of a string and of the blanks behind it. -/
theorem token_line_at_start (file : Option String) (source : String) :
    ∃ (s : Spacing) (rest : List Char), s.Valid ∧ s.Meets rest ∧ s.source ++ rest = source.toList ∧
      (∀ k i, s.items[k]? = some i → i.text <+: source.toList.drop (s.start k) ∧
        lineAt source.toList (s.start (k + 1)) =
          lineAt source.toList (s.start k) + (i.text.count '\n' + i.gap.count '\n') ∧
        (i.cls ≠ .string → i.text.count '\n' = 0)) ∧
      ∀ k t, ((Cursor.ofText file source).advance k).next.1 = .token t ↔
        (∃ i, s.items[k]? = some i ∧ t = ⟨i.lexeme, some (lineAt source.toList (s.start k))⟩) ∨
          k = s.items.length ∧ rest = [] ∧
            t = ⟨.eof, some ((1 + source.toList.count '\n' : Nat) : Int)⟩ := by
  obtain ⟨s, rest, hs, hmeets, hsource, hscan⟩ := Spacing.exists_scan file 1 source.toList
  refine ⟨s, rest, hs, hmeets, hsource, ?_, ?_⟩
  · intro k i hi
    have hspells := hs.spells i (List.mem_of_getElem? hi)
    exact ⟨Spacing.text_prefix_drop_start hsource hi, Spacing.lineAt_start_succ hsource hi,
      hspells.newlines_eq_zero⟩
  · intro k t
    have htoken : (∃ i, s.items[k]? = some i ∧
        t = ⟨i.lexeme, some (lineAt source.toList (s.start k))⟩) ↔ (s.tokens 1)[k]? = some t := by
      rw [Spacing.tokens, List.getElem?_mapIdx, Option.map_eq_some_iff, lineAt,
        Spacing.take_start hsource]
      simp only [eq_comm]
    rw [htoken, Cursor.next_advance, Cursor.unread_ofText, Scan.ofText]
    rcases hscan with ⟨rfl, hscan⟩ | ⟨p, ps, cause, hpieces, -, hscan⟩
    · rw [hscan, getElem?_concat_eq_some_iff, s.length_tokens]
      simp only [true_and, Text.newlines]
    · have hrest : rest ≠ [] := by
        rintro rfl
        rw [pieces] at hpieces
        cases hpieces
      rw [hscan]
      simp only [hrest, false_and, and_false, or_false]

theorem token_line_after_string :
    ∃ s : Spacing, lineAt "'a\nb' x".toList (s.start 1) = 2 ∧
      ((Cursor.ofText none "'a\nb' x").advance 1).next.1 =
        .token ⟨.identifier "x", some (lineAt "'a\nb' x".toList (s.start 1))⟩ := by
  have htoken : ((Cursor.ofText none "'a\nb' x").advance 1).next.1 =
      .token ⟨.identifier "x", some 2⟩ := by cbv
  obtain ⟨s, rest, -, -, -, -, htokens⟩ := token_line_at_start none "'a\nb' x"
  rcases (htokens 1 _).1 htoken with ⟨i, -, ht⟩ | ⟨-, -, ht⟩
  · have hline : (2 : Int) = lineAt "'a\nb' x".toList (s.start 1) :=
      Option.some.inj (congrArg Token.line ht)
    refine ⟨s, by omega, ?_⟩
    rw [htoken, ← hline]
  · cases ht

end LetScript
