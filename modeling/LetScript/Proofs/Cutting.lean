import LetScript.Piece

/-
  How source text is cut, said without the order in which classes are tried.

  A piece is formed as its class asks (`Piece.Formed`) and it is the longest of its class where it
  stands (`Piece.Ends`). These two facts and the text determine the cut: `cut_eq_iff`. The classes
  of characters that start a piece exclude one another, so the order in which `cut` tries them does
  not matter. `solid` are the pieces of a text without the runs of blanks.
-/

namespace LetScript

/-! ## Classes of characters exclude one another -/

theorem isDigit_iff {c : Char} : c.isDigit = true ↔ 48 ≤ c.toNat ∧ c.toNat ≤ 57 := by
  simp only [Char.isDigit, Char.toNat, Bool.and_eq_true, decide_eq_true_eq]
  exact Iff.rfl

theorem isAlpha_iff {c : Char} : c.isAlpha = true ↔
    (65 ≤ c.toNat ∧ c.toNat ≤ 90) ∨ 97 ≤ c.toNat ∧ c.toNat ≤ 122 := by
  show (decide (65 ≤ c.val ∧ c.val ≤ 90) ||
    (decide (97 ≤ c.val) && decide (c.val ≤ 122))) = true ↔ _
  simp only [Bool.or_eq_true, Bool.and_eq_true, decide_eq_true_eq]
  exact Iff.rfl

/-- The blank characters lie below the letters and digits, or well above them. -/
theorem toNat_of_isBlank {c : Char} (h : Text.isBlank c = true) :
    c.toNat ≤ 32 ∨ 133 ≤ c.toNat := by
  rcases Nat.lt_or_ge 32 c.toNat with hlow | hlow
  · rcases Nat.lt_or_ge c.toNat 133 with hhigh | hhigh
    · -- past the second range and before the third
      have h9 : ¬c.toNat < 9 := by omega
      have h13 : ¬c.toNat ≤ 13 := by omega
      have h28 : ¬c.toNat < 28 := by omega
      have h32 : ¬c.toNat ≤ 32 := by omega
      simp [Text.isBlank, Text.blankRanges, Text.Ranges.contains, h9, h13, h28, h32, hhigh] at h
    · exact .inr hhigh
  · exact .inl hlow

/-- A character and its place in the order of code points. -/
theorem toNat_of_isQuote {c : Char} (h : Piece.isQuote c = true) : c.toNat = 34 ∨ c.toNat = 39 := by
  simp only [Piece.isQuote, Bool.or_eq_true, decide_eq_true_eq] at h
  rcases h with rfl | rfl
  · exact .inl rfl
  · exact .inr rfl

theorem mem_symbols_of_ofChar? {c : Char} {m : Mark} (h : Mark.ofChar? c = some m) :
    m ∈ Mark.symbols := by
  unfold Mark.ofChar? at h
  split at h <;> first | (cases h; decide) | cases h

/-- The character of a symbol is no digit, no letter, no quote and no blank. -/
theorem symbol_char {m : Mark} (h : m ∈ Mark.symbols) :
    ∃ c, m.text.toList = [c] ∧ Mark.ofChar? c = some m ∧ c.isDigit = false ∧ c.isAlpha = false ∧
      Piece.isQuote c = false ∧ Text.isBlank c = false := by
  simp only [Mark.symbols, List.mem_cons, List.not_mem_nil, or_false] at h
  rcases h with rfl | rfl | rfl | rfl | rfl | rfl | rfl | rfl <;>
    exact ⟨_, rfl, rfl, rfl, rfl, rfl, rfl⟩

theorem isDigit_eq_false {c : Char} (h : c.toNat < 48 ∨ 57 < c.toNat) : c.isDigit = false := by
  rw [Bool.eq_false_iff]
  intro hd
  have := isDigit_iff.1 hd
  omega

theorem isAlpha_eq_false {c : Char} (h : c.toNat < 65 ∨ 122 < c.toNat) : c.isAlpha = false := by
  rw [Bool.eq_false_iff]
  intro ha
  have := isAlpha_iff.1 ha
  omega

theorem not_isDigit_of_isAlpha {c : Char} (h : c.isAlpha = true) : c.isDigit = false := by
  have hn := isAlpha_iff.1 h
  exact isDigit_eq_false (by omega)

theorem isAlphanum_eq_false {c : Char} (ha : c.isAlpha = false) (hd : c.isDigit = false) :
    c.isAlphanum = false := by
  rw [Char.isAlphanum, ha, hd]
  rfl

theorem quote_class {c : Char} (h : Piece.isQuote c = true) :
    c.isDigit = false ∧ c.isAlpha = false := by
  have hn := toNat_of_isQuote h
  exact ⟨isDigit_eq_false (by omega), isAlpha_eq_false (by omega)⟩

theorem blank_class {c : Char} (h : Text.isBlank c = true) :
    c.isDigit = false ∧ c.isAlpha = false ∧ Piece.isQuote c = false := by
  have hn := toNat_of_isBlank h
  refine ⟨isDigit_eq_false (by omega), isAlpha_eq_false (by omega), ?_⟩
  rw [Bool.eq_false_iff]
  intro hq
  have := toNat_of_isQuote hq
  omega

/-! ## Runs -/

/-- Whether a text does not start with a character of a class. -/
def Blocks (p : Char → Bool) (rest : List Char) : Prop := ∀ c ∈ rest.head?, p c = false

/-- A run of a class with a text after it that does not go on with the class. -/
theorem takeWhile_run {p : Char → Bool} {run rest : List Char} (hrun : ∀ c ∈ run, p c = true)
    (hrest : Blocks p rest) : (run ++ rest).takeWhile p = run := by
  rw [List.takeWhile_append_of_pos hrun]
  cases rest with
  | nil => simp
  | cons c rest => simp [hrest c rfl]

theorem dropWhile_run {p : Char → Bool} {run rest : List Char} (hrun : ∀ c ∈ run, p c = true)
    (hrest : Blocks p rest) : (run ++ rest).dropWhile p = rest := by
  rw [List.dropWhile_append_of_pos hrun]
  cases rest with
  | nil => rfl
  | cons c rest => simp [hrest c rfl]

theorem blocks_dropWhile (p : Char → Bool) (cs : List Char) : Blocks p (cs.dropWhile p) := by
  intro c hc
  have h := List.head?_dropWhile_not p cs
  rw [Option.mem_def.1 hc] at h
  exact h

theorem mem_takeWhile {p : Char → Bool} {cs : List Char} {c : Char} (h : c ∈ cs.takeWhile p) :
    p c = true :=
  List.all_eq_true.1 (List.all_takeWhile (p := p) (l := cs)) c h

/-! ## Pieces as their classes ask, and as long as they can be -/

namespace Piece

/-- What the class of a piece asks of its characters. -/
def Formed : Piece → Prop
  | .blanks run => run ≠ [] ∧ ∀ c ∈ run, Text.isBlank c = true
  | .digits run => run ≠ [] ∧ ∀ c ∈ run, c.isDigit = true
  | .word run => ∃ c cs, run = c :: cs ∧ c.isAlpha = true ∧ ∀ d ∈ cs, d.isAlphanum = true
  | .quoted quote body | .unclosed quote body => isQuote quote = true ∧ quote ∉ body
  | .symbol m => m ∈ Mark.symbols
  | .stray c => c.isDigit = false ∧ c.isAlpha = false ∧ isQuote c = false ∧
      Text.isBlank c = false ∧ Mark.ofChar? c = none

/-- What the class of a piece asks of the text after it: the piece does not go on there. -/
def Ends : Piece → List Char → Prop
  | .blanks _, rest => Blocks Text.isBlank rest
  | .digits _, rest => Blocks Char.isDigit rest
  | .word _, rest => Blocks Char.isAlphanum rest
  | .unclosed _ _, rest => rest = []
  | .quoted _ _, _ | .symbol _, _ | .stray _, _ => True

theorem cutString_spec {quote : Char} (hq : isQuote quote = true) (cs : List Char) :
    (cutString quote cs).1.Formed ∧ (cutString quote cs).1.Ends (cutString quote cs).2 := by
  unfold cutString
  split
  next hnil =>
    refine ⟨⟨hq, ?_⟩, rfl⟩
    intro hmem
    have hall := List.takeWhile_append_dropWhile (p := (· ≠ quote)) (l := cs)
    rw [hnil, List.append_nil] at hall
    rw [← hall] at hmem
    simpa using mem_takeWhile hmem
  next d rest hd =>
    refine ⟨⟨hq, ?_⟩, trivial⟩
    intro hmem
    simpa using mem_takeWhile hmem

/-- A cut gives a piece as its class asks, and as long as it can be. -/
theorem cut_spec (c : Char) (cs : List Char) :
    (cut c cs).1.Formed ∧ (cut c cs).1.Ends (cut c cs).2 := by
  unfold cut
  by_cases hdigit : c.isDigit = true
  · rw [if_pos hdigit]
    refine ⟨⟨List.cons_ne_nil _ _, ?_⟩, blocks_dropWhile _ cs⟩
    intro d hd
    rcases List.mem_cons.1 hd with rfl | hd
    · exact hdigit
    · exact mem_takeWhile hd
  rw [if_neg hdigit]
  by_cases halpha : c.isAlpha = true
  · rw [if_pos halpha]
    exact ⟨⟨c, _, rfl, halpha, fun d hd => mem_takeWhile hd⟩, blocks_dropWhile _ cs⟩
  rw [if_neg halpha]
  by_cases hquote : isQuote c = true
  · rw [if_pos hquote]
    exact cutString_spec hquote cs
  rw [if_neg hquote]
  by_cases hblank : Text.isBlank c = true
  · rw [if_pos hblank]
    refine ⟨⟨List.cons_ne_nil _ _, ?_⟩, blocks_dropWhile _ cs⟩
    intro d hd
    rcases List.mem_cons.1 hd with rfl | hd
    · exact hblank
    · exact mem_takeWhile hd
  rw [if_neg hblank]
  split
  next m hm => exact ⟨mem_symbols_of_ofChar? hm, trivial⟩
  next hm =>
    exact ⟨⟨Bool.eq_false_iff.2 hdigit, Bool.eq_false_iff.2 halpha, Bool.eq_false_iff.2 hquote,
      Bool.eq_false_iff.2 hblank, hm⟩, trivial⟩

theorem cut_digits {c : Char} {run rest : List Char} (hf : (Piece.digits (c :: run)).Formed)
    (he : (Piece.digits (c :: run)).Ends rest) :
    cut c (run ++ rest) = (.digits (c :: run), rest) := by
  have hrun : ∀ x ∈ run, x.isDigit = true := fun x hx => hf.2 x (List.mem_cons_of_mem c hx)
  rw [cut, if_pos (hf.2 c List.mem_cons_self), takeWhile_run hrun he, dropWhile_run hrun he]

theorem cut_word {c : Char} {run rest : List Char} (halpha : c.isAlpha = true)
    (hrun : ∀ d ∈ run, d.isAlphanum = true) (he : (Piece.word (c :: run)).Ends rest) :
    cut c (run ++ rest) = (.word (c :: run), rest) := by
  rw [cut, if_neg (by rw [not_isDigit_of_isAlpha halpha]; exact Bool.false_ne_true), if_pos halpha,
    takeWhile_run hrun he, dropWhile_run hrun he]

theorem cut_blanks {c : Char} {run rest : List Char} (hf : (Piece.blanks (c :: run)).Formed)
    (he : (Piece.blanks (c :: run)).Ends rest) :
    cut c (run ++ rest) = (.blanks (c :: run), rest) := by
  have hc := hf.2 c List.mem_cons_self
  have hrun : ∀ x ∈ run, Text.isBlank x = true := fun x hx => hf.2 x (List.mem_cons_of_mem c hx)
  obtain ⟨hdigit, halpha, hquote⟩ := blank_class hc
  simp only [cut, hdigit, halpha, hquote, hc, Bool.false_eq_true, if_false, if_true]
  rw [takeWhile_run hrun he, dropWhile_run hrun he]

/-- An opening quote is no digit and no letter, so a string is cut there. -/
theorem cut_quote {c : Char} (hq : isQuote c = true) (cs : List Char) :
    cut c cs = cutString c cs := by
  obtain ⟨hdigit, halpha⟩ := quote_class hq
  simp only [cut, hdigit, halpha, hq, Bool.false_eq_true, if_false, if_true]

theorem ne_of_not_mem {quote : Char} {body : List Char} (h : quote ∉ body) :
    ∀ x ∈ body, decide (x ≠ quote) = true := by
  intro x hx
  rw [decide_eq_true_eq]
  rintro rfl
  exact h hx

theorem cut_quoted {quote : Char} {body rest : List Char}
    (hf : (Piece.quoted quote body).Formed) :
    cut quote (body ++ quote :: rest) = (.quoted quote body, rest) := by
  obtain ⟨hq, hbody⟩ := hf
  have hrun := ne_of_not_mem hbody
  have hblocks : Blocks (fun x => decide (x ≠ quote)) (quote :: rest) := by
    intro x hx
    cases hx
    simp
  rw [cut_quote hq, cutString, dropWhile_run hrun hblocks, takeWhile_run hrun hblocks]

theorem cut_unclosed {quote : Char} {body : List Char} (hf : (Piece.unclosed quote body).Formed) :
    cut quote body = (.unclosed quote body, []) := by
  obtain ⟨hq, hbody⟩ := hf
  have hrun := ne_of_not_mem hbody
  have hdrop : (body ++ []).dropWhile (fun x => decide (x ≠ quote)) = [] :=
    dropWhile_run hrun fun x hx => by cases hx
  rw [List.append_nil] at hdrop
  rw [cut_quote hq, cutString, hdrop]

theorem cut_symbol {c : Char} {m : Mark} (hf : (Piece.symbol m).Formed) (hc : m.text.toList = [c])
    (rest : List Char) : cut c rest = (.symbol m, rest) := by
  obtain ⟨d, hd, hm, hdigit, halpha, hquote, hblank⟩ := symbol_char hf
  obtain rfl : d = c := by
    rw [hd] at hc
    exact (List.cons.inj hc).1
  simp only [cut, hdigit, halpha, hquote, hblank, hm, Bool.false_eq_true, if_false]

theorem cut_stray {c : Char} (hf : (Piece.stray c).Formed) (rest : List Char) :
    cut c rest = (.stray c, rest) := by
  obtain ⟨hdigit, halpha, hquote, hblank, hm⟩ := hf
  simp only [cut, hdigit, halpha, hquote, hblank, hm, Bool.false_eq_true, if_false]

/-- The text, the class of a piece and its being as long as it can be determine the cut. -/
theorem cut_eq_iff {c : Char} {cs rest : List Char} {p : Piece} :
    cut c cs = (p, rest) ↔ p.text ++ rest = c :: cs ∧ p.Formed ∧ p.Ends rest := by
  constructor
  · intro h
    have htext := cut_text c cs
    have hspec := cut_spec c cs
    rw [h] at htext hspec
    exact ⟨htext, hspec⟩
  · rintro ⟨h, hf, he⟩
    cases p with
    | blanks run =>
      cases run with
      | nil => exact absurd rfl hf.1
      | cons d run =>
        rw [text, List.cons_append] at h
        obtain ⟨rfl, rfl⟩ := List.cons.inj h
        exact cut_blanks hf he
    | digits run =>
      cases run with
      | nil => exact absurd rfl hf.1
      | cons d run =>
        rw [text, List.cons_append] at h
        obtain ⟨rfl, rfl⟩ := List.cons.inj h
        exact cut_digits hf he
    | word run =>
      obtain ⟨d, run, rfl, halpha, hrun⟩ := hf
      rw [text, List.cons_append] at h
      obtain ⟨rfl, rfl⟩ := List.cons.inj h
      exact cut_word halpha hrun he
    | quoted quote body =>
      rw [text, List.cons_append, List.append_assoc] at h
      obtain ⟨rfl, rfl⟩ := List.cons.inj h
      exact cut_quoted hf
    | unclosed quote body =>
      obtain rfl : rest = [] := he
      rw [text, List.append_nil] at h
      obtain ⟨rfl, rfl⟩ := List.cons.inj h
      exact cut_unclosed hf
    | symbol m =>
      obtain ⟨d, hd, -⟩ := symbol_char hf
      rw [text, hd, List.singleton_append] at h
      obtain ⟨rfl, rfl⟩ := List.cons.inj h
      exact cut_symbol hf hd rest
    | stray d =>
      rw [text, List.singleton_append] at h
      obtain ⟨rfl, rfl⟩ := List.cons.inj h
      exact cut_stray hf rest

theorem Formed.text_ne_nil {p : Piece} (h : p.Formed) : p.text ≠ [] := by
  cases p with
  | blanks run => exact h.1
  | digits run => exact h.1
  | word run =>
    obtain ⟨c, cs, rfl, -⟩ := h
    exact List.cons_ne_nil c cs
  | symbol m =>
    obtain ⟨c, hc, -⟩ := symbol_char h
    rw [text, hc]
    exact List.cons_ne_nil c []
  | _ => exact List.cons_ne_nil _ _

end Piece

/-- A piece that cannot be longer is the first piece of its text. -/
theorem pieces_append {p : Piece} {rest : List Char} (hf : p.Formed) (he : p.Ends rest) :
    pieces (p.text ++ rest) = p :: pieces rest := by
  cases hcons : p.text ++ rest with
  | nil => exact absurd (List.append_eq_nil_iff.1 hcons).1 hf.text_ne_nil
  | cons c cs => rw [pieces, Piece.cut_eq_iff.2 ⟨hcons, hf, he⟩]

/-! ## Pieces without blanks -/

/-- Whether a piece is a run of blanks. -/
def Piece.isBlanks : Piece → Bool
  | .blanks _ => true
  | _ => false

/-- The pieces of a text, blanks left out. -/
def solid (cs : List Char) : List Piece := (pieces cs).filter fun p => !p.isBlanks

theorem solid_nil : solid [] = [] := by
  rw [solid, pieces]
  rfl

theorem solid_append {p : Piece} {rest : List Char} (hf : p.Formed) (he : p.Ends rest) :
    solid (p.text ++ rest) = [p].filter (fun p => !p.isBlanks) ++ solid rest := by
  rw [solid, pieces_append hf he, ← List.singleton_append, List.filter_append, solid]

theorem solid_run {run rest : List Char} (hrun : ∀ c ∈ run, Text.isBlank c = true)
    (hrest : Blocks Text.isBlank rest) : solid (run ++ rest) = solid rest := by
  cases run with
  | nil => rfl
  | cons c run =>
    have hf : (Piece.blanks (c :: run)).Formed := ⟨List.cons_ne_nil c run, hrun⟩
    exact solid_append hf hrest

/-- Blanks at the front leave no trace, also where more blanks follow. -/
theorem solid_blanks {run : List Char} (hrun : ∀ c ∈ run, Text.isBlank c = true)
    (rest : List Char) : solid (run ++ rest) = solid rest := by
  have hblocks := blocks_dropWhile Text.isBlank rest
  have hmore : ∀ c ∈ rest.takeWhile Text.isBlank, Text.isBlank c = true := fun _ hc =>
    mem_takeWhile hc
  have hall : ∀ c ∈ run ++ rest.takeWhile Text.isBlank, Text.isBlank c = true := by
    intro c hc
    rcases List.mem_append.1 hc with hc | hc
    · exact hrun c hc
    · exact hmore c hc
  rw [← List.takeWhile_append_dropWhile (p := Text.isBlank) (l := rest), ← List.append_assoc,
    solid_run hall hblocks, solid_run hmore hblocks]

end LetScript
