import LetScript.Proofs.Fronts
import LetScript.Proofs.Grammar
import Mathlib

/-
  Where the scan of a text fails, and why.

  `Refused` lists the ways to start in which a text is refused: with a character of no class, with a
  quote that is not closed, with a digit run that is too long or too large. They are the pieces that
  are read as faults (`Refused.piece`, `refused_of_reading`). `Apart` says that a text is accepted and
  that its last lexeme does not go on in the text after it; its pieces are then pieces of the whole
  (`pieces_apart`). A text that is not accepted is an accepted front and a refused rest that are
  apart (`exists_scan`), and there is one place only where it can be divided so
  (`refused_at_unique`).

  Main statement: `tokenize_fails_at_refused`.
-/

namespace LetScript

/-! ## Refused texts -/

/-- The texts that are refused for how they start, each with the title and the wording of its
    fault. -/
inductive Refused : List Char → String → String → Prop
  | stray {c : Char} {rest : List Char} : Text.isBlank c = false → c.isAlphanum = false →
    c ≠ Text.doubleQuote → c ≠ Text.singleQuote → (∀ m ∈ Mark.symbols, m.text.toList ≠ [c]) →
      Refused (c :: rest) "LexError" ("Unexpected character " ++ Text.quoted (String.singleton c))
  | unclosed {quote : Char} {body : List Char} :
    quote = Text.doubleQuote ∨ quote = Text.singleQuote → quote ∉ body →
      Refused (quote :: body) "LexError"
        ("Unterminated string literal " ++ String.singleton quote ++ excerpt (String.ofList body))
  | tooLong {run rest : List Char} : (∀ c ∈ run, c.isDigit = true) → Blocks Char.isDigit rest →
    maxDigits < run.length →
      Refused (run ++ rest) "ValueError"
        ("Exceeds the limit (4300 digits) for integer string conversion: value has " ++
          toString run.length ++ " digits; use sys.set_int_max_str_digits() to increase the limit")
  | tooLarge {run rest : List Char} : (∀ c ∈ run, c.isDigit = true) → Blocks Char.isDigit rest →
    run.length ≤ maxDigits → intMax < Piece.number run →
      Refused (run ++ rest) "LexError" ("Integer literal " ++ String.ofList run ++ " out of range")

theorem ofChar?_eq_none_iff {c : Char} :
    Mark.ofChar? c = none ↔ ∀ m ∈ Mark.symbols, m.text.toList ≠ [c] := by
  constructor
  · intro hnone m hm hc
    obtain ⟨d, hd, hmark, -⟩ := symbol_char hm
    rw [hd] at hc
    obtain rfl := (List.cons.inj hc).1
    rw [hnone] at hmark
    cases hmark
  · intro h
    cases hmark : Mark.ofChar? c with
    | none => rfl
    | some m => exact absurd (Mark.text_of_ofChar? hmark) (h m (mem_symbols_of_ofChar? hmark))

theorem stray_formed_iff {c : Char} :
    (Piece.stray c).Formed ↔ Text.isBlank c = false ∧ c.isAlphanum = false ∧
      c ≠ Text.doubleQuote ∧ c ≠ Text.singleQuote ∧ ∀ m ∈ Mark.symbols, m.text.toList ≠ [c] := by
  simp only [Piece.Formed, ofChar?_eq_none_iff, Char.isAlphanum, Bool.or_eq_false_iff,
    Piece.isQuote, decide_eq_false_iff_not]
  tauto

theorem text_tooManyDigits (n : Nat) :
    (Cause.tooManyDigits n).text =
      "Exceeds the limit (4300 digits) for integer string conversion: value has " ++ toString n ++
        " digits; use sys.set_int_max_str_digits() to increase the limit" := by
  have hlimit : "Exceeds the limit (" ++ toString maxDigits ++
      " digits) for integer string conversion: value has " =
        "Exceeds the limit (4300 digits) for integer string conversion: value has " := rfl
  rw [← hlimit]
  rfl

/-- A piece that is read as a fault stands in front of a refused text. -/
theorem refused_of_reading {p : Piece} {rest : List Char} {cause : Cause} (hf : p.Formed)
    (he : p.Ends rest) (h : p.reading = .refuse cause) :
    Refused (p.text ++ rest) cause.title cause.text := by
  cases p with
  | blanks run => cases h
  | word run => cases h
  | quoted quote body => cases h
  | symbol m => cases h
  | digits run =>
    rw [Piece.reading] at h
    split at h
    next hlong =>
      cases h
      rw [text_tooManyDigits]
      exact .tooLong hf.2 he hlong
    next hshort =>
      split at h
      next hlarge =>
        cases h
        exact .tooLarge hf.2 he (Nat.not_lt.1 hshort) hlarge
      · cases h
  | unclosed quote body =>
    cases h
    obtain rfl : rest = [] := he
    rw [List.append_nil]
    exact .unclosed (isQuote_iff.1 hf.1) hf.2
  | stray c =>
    cases h
    obtain ⟨hblank, halphanum, hdouble, hsingle, hsymbols⟩ := stray_formed_iff.1 hf
    exact .stray hblank halphanum hdouble hsingle hsymbols

theorem refused_of_pieces {cs : List Char} {p : Piece} {ps : List Piece} {cause : Cause}
    (hpieces : pieces cs = p :: ps) (h : p.reading = .refuse cause) :
    Refused cs cause.title cause.text := by
  cases cs with
  | nil =>
    rw [pieces] at hpieces
    cases hpieces
  | cons c cs =>
    rw [pieces] at hpieces
    obtain ⟨rfl, -⟩ := List.cons.inj hpieces
    obtain ⟨hf, he⟩ := Piece.cut_spec c cs
    have hrefused := refused_of_reading hf he h
    rwa [Piece.cut_text] at hrefused

/-- A refused text starts with a piece that is read as the fault. -/
theorem Refused.piece {cs : List Char} {title text : String} (h : Refused cs title text) :
    ∃ (p : Piece) (rest : List Char) (cause : Cause), cs = p.text ++ rest ∧ p.Formed ∧ p.Ends rest ∧
      p.reading = .refuse cause ∧ cause.title = title ∧ cause.text = text := by
  cases h with
  | @stray c rest hblank halphanum hdouble hsingle hsymbols =>
    exact ⟨.stray c, rest, _, rfl,
      stray_formed_iff.2 ⟨hblank, halphanum, hdouble, hsingle, hsymbols⟩, trivial, rfl, rfl, rfl⟩
  | @unclosed quote body hquote hbody =>
    exact ⟨.unclosed quote body, [], _, (List.append_nil _).symm, ⟨isQuote_iff.2 hquote, hbody⟩, rfl,
      rfl, rfl, rfl⟩
  | @tooLong run rest hrun hrest hlong =>
    have hne : run ≠ [] := by
      rintro rfl
      cases hlong
    have hreading : (Piece.digits run).reading = .refuse (.tooManyDigits run.length) := by
      rw [Piece.reading, if_pos hlong]
    exact ⟨.digits run, rest, _, rfl, ⟨hne, hrun⟩, hrest, hreading, rfl, text_tooManyDigits _⟩
  | @tooLarge run rest hrun hrest hshort hlarge =>
    have hne : run ≠ [] := by
      rintro rfl
      cases hlarge
    have hreading : (Piece.digits run).reading = .refuse (.integerTooLarge (String.ofList run)) := by
      rw [Piece.reading, if_neg (Nat.not_lt.2 hshort), if_pos hlarge]
    exact ⟨.digits run, rest, _, rfl, ⟨hne, hrun⟩, hrest, hreading, rfl, rfl⟩

theorem blocks_blank_digits {run : List Char} (hne : run ≠ []) (hrun : ∀ c ∈ run, c.isDigit = true)
    (rest : List Char) : Blocks Text.isBlank (run ++ rest) := by
  cases run with
  | nil => exact absurd rfl hne
  | cons c run =>
    intro d hd
    obtain rfl := Option.some.inj hd
    exact isBlank_eq_false (.inl (hrun _ List.mem_cons_self))

/-- A refused text does not start with a blank. -/
theorem Refused.blocks {cs : List Char} {title text : String} (h : Refused cs title text) :
    Blocks Text.isBlank cs := by
  obtain ⟨p, rest, cause, rfl, hf, -, hreading, -⟩ := h.piece
  cases p with
  | digits run => exact blocks_blank_digits hf.1 hf.2 rest
  | unclosed quote body =>
    intro d hd
    obtain rfl := Option.some.inj hd
    exact isBlank_eq_false (.inr (.inr hf.1))
  | stray c =>
    intro d hd
    obtain rfl := Option.some.inj hd
    exact hf.2.2.2.1
  | blanks | word | quoted | symbol => cases hreading

/-! ## An accepted text and the text after it -/

/-- Whether a text is accepted and its last lexeme does not go on in the text after it. -/
def Apart (u v : List Char) : Prop := ∃ s : Spacing, s.Valid ∧ s.source = u ∧ s.Meets v

theorem pieces_lead {lead rest : List Char} (hlead : ∀ c ∈ lead, Text.isBlank c = true)
    (hrest : Blocks Text.isBlank rest) : pieces (lead ++ rest) = pieces lead ++ pieces rest := by
  cases lead with
  | nil => rw [pieces]; rfl
  | cons c lead =>
    have hf : (Piece.blanks (c :: lead)).Formed := ⟨List.cons_ne_nil c lead, hlead⟩
    have hnil : (Piece.blanks (c :: lead)).Ends [] := fun d hd => by cases hd
    have hone : pieces (c :: lead ++ []) = .blanks (c :: lead) :: pieces [] := pieces_append hf hnil
    have hboth : pieces (c :: lead ++ rest) = .blanks (c :: lead) :: pieces rest :=
      pieces_append hf hrest
    rw [List.append_nil, pieces.eq_1] at hone
    rw [hboth, hone]
    rfl

theorem Spacing.pieces_front {lead rest : List Char} {items : List Placed} (h : Valid ⟨lead, items⟩)
    (hmeets : Meets ⟨lead, items⟩ rest) (hrest : Blocks Text.isBlank rest) :
    pieces (source ⟨lead, items⟩ ++ rest) = pieces (source ⟨lead, items⟩) ++ pieces rest := by
  induction items generalizing lead with
  | nil =>
    have hsource : source ⟨lead, []⟩ = lead := List.append_nil lead
    rw [hsource]
    exact pieces_lead h.lead hrest
  | cons i items ih =>
    have hspells := h.spells i List.mem_cons_self
    obtain ⟨p, htext, hf, hcls, -⟩ := hspells.piece
    have hends : p.Ends (source ⟨i.gap, items⟩ ++ rest) :=
      (ends_iff_of_class? hcls _).2 (h.ends_append hmeets)
    have halone : p.Ends (source ⟨i.gap, items⟩) := (ends_iff_of_class? hcls _).2 h.ends
    rw [source_cons, List.append_assoc, List.append_assoc, pieces_lead h.lead (hspells.blocks _),
      pieces_lead h.lead (hspells.blocks _), ← htext, pieces_append hf hends,
      pieces_append hf halone, ih h.tail hmeets.tail, List.append_assoc]
    rfl

/-- A refused text that is apart from an accepted one is cut as it is cut alone. -/
theorem pieces_apart {u v : List Char} {title text : String} (h : Apart u v)
    (hrefused : Refused v title text) : pieces (u ++ v) = pieces u ++ pieces v := by
  obtain ⟨s, hs, rfl, hmeets⟩ := h
  exact Spacing.pieces_front hs hmeets hrefused.blocks

/-- Whether a piece is read as a fault. -/
def Piece.IsRefused (p : Piece) : Prop := ∃ cause, p.reading = .refuse cause

theorem not_isRefused_of_readAll {ps : List Piece} {ls : List Lexeme} (h : readAll ps = some ls) :
    ∀ p ∈ ps, ¬p.IsRefused := by
  induction ps generalizing ls with
  | nil => intro p hp; cases hp
  | cons q ps ih =>
    rintro p hp ⟨cause, hcause⟩
    rw [readAll] at h
    rcases List.mem_cons.1 hp with rfl | hp
    · rw [hcause] at h
      cases h
    · cases hreading : q.reading with
      | skip =>
        rw [hreading] at h
        exact ih h p hp ⟨cause, hcause⟩
      | refuse cause =>
        rw [hreading] at h
        cases h
      | lexeme l =>
        rw [hreading] at h
        obtain ⟨ls', hls', -⟩ := Option.map_eq_some_iff.1 h
        exact ih hls' p hp ⟨cause, hcause⟩

theorem Refused.pieces_eq {cs : List Char} {title text : String} (h : Refused cs title text) :
    ∃ p ps, pieces cs = p :: ps ∧ p.IsRefused := by
  obtain ⟨p, rest, cause, rfl, hf, he, hreading, -⟩ := h.piece
  exact ⟨p, pieces rest, pieces_append hf he, cause, hreading⟩

/-- A text is an accepted part and a refused part in one way at most. -/
theorem refused_at_unique {u v u' v' : List Char} {title text title' text' : String}
    (h : Apart u v) (hrefused : Refused v title text) (h' : Apart u' v')
    (hrefused' : Refused v' title' text') (heq : u ++ v = u' ++ v') : u = u' := by
  have hpieces := congrArg pieces heq
  rw [pieces_apart h hrefused, pieces_apart h' hrefused'] at hpieces
  obtain ⟨s, hs, rfl, -⟩ := h
  obtain ⟨s', hs', rfl, -⟩ := h'
  obtain ⟨p, ps, hp, hfirst⟩ := hrefused.pieces_eq
  obtain ⟨p', ps', hp', hfirst'⟩ := hrefused'.pieces_eq
  rw [hp, hp'] at hpieces
  have hfront := not_isRefused_of_readAll (Spacing.readAll_source hs)
  have hfront' := not_isRefused_of_readAll (Spacing.readAll_source hs')
  obtain ⟨hsame, -⟩ := append_cons_unique hfront hfront' hfirst hfirst' hpieces
  rw [← flatMap_text_pieces s.source, hsame, flatMap_text_pieces]

/-! ## Faults of the scan -/

/-- Whether a fault is reported under a title with a wording and, if it is one of the language's, at
    a place. -/
structure Fault.Tells (f : Fault) (title text : String) (line : Line) (file : Option String) :
    Prop where
  title_eq : f.cause.title = title
  message_eq : f.message = text ++ location f.line f.file
  place_eq : title = "LexError" → f.line = line ∧ f.file = file

theorem stage?_of_title {cause : Cause} (h : cause.title = "LexError") : cause.stage?.isSome = true := by
  revert h
  cases cause <;> simp [Cause.title, Cause.stage?]

theorem tells_placed (file : Option String) (line : Line) (cause : Cause) :
    (Fault.placed file line cause).Tells cause.title cause.text line file := by
  have hcause := Fault.cause_placed file line cause
  refine ⟨congrArg Cause.title hcause, ?_, ?_⟩
  · rw [Fault.message, hcause]
  · intro htitle
    rw [Fault.placed, if_pos (stage?_of_title htitle)]
    exact ⟨rfl, rfl⟩

namespace Spacing

variable {s : Spacing} (file : Option String)

theorem tokenize_source (hs : s.Valid) :
    tokenize file (String.ofList s.source) =
      .ok (s.tokens 1 ++ [⟨.eof, some (1 + Text.newlines s.source : Nat)⟩]) := by
  have hscan := ofPieces_front file hs (meets_nil s) 1
  rw [List.append_nil, pieces.eq_1] at hscan
  rw [tokenize, Scan.ofText, String.toList_ofList, hscan]
  rfl

/-- The scan of a valid spacing and a refused text after it. -/
theorem ofText_refused {rest : List Char} {title text : String} (hs : s.Valid) (hmeets : s.Meets rest)
    (hrefused : Refused rest title text) :
    ∃ f, Scan.ofText file (String.ofList (s.source ++ rest)) = ⟨s.tokens 1, some f⟩ ∧
      f.Tells title text (some (1 + Text.newlines s.source : Nat)) file := by
  obtain ⟨p, after, cause, rfl, hf, he, hreading, rfl, rfl⟩ := hrefused.piece
  refine ⟨_, ?_, tells_placed file _ cause⟩
  rw [Scan.ofText, String.toList_ofList, ofPieces_front file hs hmeets, pieces_append hf he,
    Scan.ofPieces_refuse hreading, Scan.after, List.append_nil]

end Spacing

/-- A text that is not accepted is accepted up to one place, which is between two of its pieces, and
    refused for what stands there. The fault says so, on the line where the front ends, and the
    tokens before it are those of the front. In turn, an accepted text and a refused text that are
    apart are refused together. -/
theorem tokenize_fails_at_refused (file : Option String) (source : String) :
    (∀ f, tokenize file source = .error f →
      ∃ (p : Nat) (ts : List Token) (line : Line) (title text : String),
        tokenize file (String.ofList (source.toList.take p)) = .ok (ts ++ [⟨.eof, line⟩]) ∧
        (Scan.ofText file source).tokens = ts ∧
        pieces source.toList = pieces (source.toList.take p) ++ pieces (source.toList.drop p) ∧
        Apart (source.toList.take p) (source.toList.drop p) ∧
        Refused (source.toList.drop p) title text ∧ f.Tells title text line file ∧
        ∀ u v title' text', source.toList = u ++ v → Apart u v → Refused v title' text' →
          u = source.toList.take p) ∧
    ∀ (u v : String) (ts : List Token) (line : Line) (title text : String), source = u ++ v →
      tokenize file u = .ok (ts ++ [⟨.eof, line⟩]) → Apart u.toList v.toList →
      Refused v.toList title text →
      ∃ f, tokenize file source = .error f ∧ (Scan.ofText file source).tokens = ts ∧
        f.Tells title text line file := by
  constructor
  · intro f hf
    obtain ⟨s, rest, hs, hmeets, hsource, ⟨rfl, hscan⟩ | ⟨p, ps, cause, hpieces, hrefuse, hscan⟩⟩ :=
      Spacing.exists_scan file 1 source.toList
    · rw [tokenize, Scan.ofText, hscan] at hf
      cases hf
    · rw [tokenize, Scan.ofText, hscan] at hf
      cases hf
      have hrefused := refused_of_pieces hpieces hrefuse
      have hapart : Apart s.source rest := ⟨s, hs, rfl, hmeets⟩
      rw [Scan.ofText, hscan]
      refine ⟨s.source.length, s.tokens 1, some (1 + Text.newlines s.source : Nat), cause.title,
        cause.text, ?_, rfl, ?_⟩
      · rw [← hsource, List.take_left]
        exact Spacing.tokenize_source file hs
      · rw [← hsource, List.take_left, List.drop_left]
        exact ⟨pieces_apart hapart hrefused, hapart, hrefused, tells_placed file _ cause,
          fun u v _ _ heq h h' => refused_at_unique h h' hapart hrefused heq.symm⟩
  · rintro u v ts line title text rfl hts ⟨s, hs, hsource, hmeets⟩ hrefused
    obtain ⟨f, hscan, htells⟩ := Spacing.ofText_refused file hs hmeets hrefused
    have hfront := Spacing.tokenize_source file hs
    rw [hsource, String.ofList_toList, hts] at hfront
    rw [hsource] at htells
    obtain ⟨rfl, heof⟩ := List.append_inj' (Except.ok.inj hfront) rfl
    obtain rfl : line = _ := congrArg Token.line (List.cons.inj heof).1
    rw [hsource, ← String.toList_append, String.ofList_toList] at hscan
    refine ⟨f, ?_, by rw [hscan], htells⟩
    rw [tokenize, hscan]
    rfl

theorem tokenize_fails_at_open_quote :
    Apart "x\n".toList "'a".toList ∧
      Refused "'a".toList "LexError" ("Unterminated string literal " ++ "'" ++ excerpt "a") ∧
      ∃ f, tokenize none "x\n'a" = .error f ∧ f.cause.title = "LexError" ∧ f.line = some 2 := by
  have hs : Spacing.Valid ⟨[], [⟨['x'], .word, .identifier "x", ['\n']⟩]⟩ := by
    refine ⟨by simp, ?_, ?_, .singleton _⟩
    · intro i hi
      obtain rfl := List.mem_singleton.1 hi
      exact .name rfl (List.all_eq_true.1 rfl) (by decide)
    · intro i hi
      obtain rfl := List.mem_singleton.1 hi
      exact List.all_eq_true.1 rfl
  have hmeets : Spacing.Meets ⟨[], [⟨['x'], .word, .identifier "x", ['\n']⟩]⟩ "'a".toList := by
    intro i hi hgap
    obtain rfl := Option.some.inj hi
    cases hgap
  have hapart : Apart "x\n".toList "'a".toList := ⟨_, hs, rfl, hmeets⟩
  have hrefused : Refused "'a".toList "LexError"
      ("Unterminated string literal " ++ "'" ++ excerpt "a") :=
    .unclosed (.inr rfl) (by decide)
  have htokens : tokenize none "x\n" = .ok ([⟨.identifier "x", some 1⟩] ++ [⟨.eof, some 2⟩]) := by
    cbv
  obtain ⟨f, hf, -, htells⟩ := (tokenize_fails_at_refused none "x\n'a").2 "x\n" "'a" _ _ _ _ rfl
    htokens hapart hrefused
  exact ⟨hapart, hrefused, f, hf, htells.title_eq, (htells.place_eq rfl).1⟩

end LetScript
