import LetScript.Proofs.Lexing

/-
  The scan of a text, front part by front part.

  A valid spacing in front of a text that it meets is scanned first. Its lexemes are the first tokens,
  each on the line of the place where it starts, and the scan goes on with the rest on the line where
  the rest starts: `ofPieces_front`. Every text has such a front, up to its end or up to the first
  piece that is refused, so this is all that a scan does: `exists_scan`.
-/

namespace LetScript

/-! ## Steps of a scan -/

namespace Scan

variable {file : Option String}

/-- A scan with tokens before it. -/
def after (front : List Token) (s : Scan) : Scan := ⟨front ++ s.tokens, s.fault⟩

theorem ofPieces_run (file : Option String) {run rest : List Char}
    (hrun : ∀ c ∈ run, Text.isBlank c = true) (hrest : Blocks Text.isBlank rest) (line : Nat) :
    ofPieces file line (pieces (run ++ rest)) =
      ofPieces file (line + Text.newlines run) (pieces rest) := by
  cases run with
  | nil => rfl
  | cons c run =>
    have hf : (Piece.blanks (c :: run)).Formed := ⟨List.cons_ne_nil c run, hrun⟩
    have hpieces : pieces (c :: run ++ rest) = .blanks (c :: run) :: pieces rest :=
      pieces_append hf hrest
    rw [hpieces]
    rfl

/-- Blanks at the front of a text move its lines, also where more blanks follow. -/
theorem ofPieces_blanks (file : Option String) {run : List Char}
    (hrun : ∀ c ∈ run, Text.isBlank c = true) (rest : List Char) (line : Nat) :
    ofPieces file line (pieces (run ++ rest)) =
      ofPieces file (line + Text.newlines run) (pieces rest) := by
  have hblocks := blocks_dropWhile Text.isBlank rest
  have hmore : ∀ c ∈ rest.takeWhile Text.isBlank, Text.isBlank c = true := fun _ hc =>
    mem_takeWhile hc
  have hall : ∀ c ∈ run ++ rest.takeWhile Text.isBlank, Text.isBlank c = true := by
    intro c hc
    rcases List.mem_append.1 hc with hc | hc
    · exact hrun c hc
    · exact hmore c hc
  have hsplit := List.takeWhile_append_dropWhile (p := Text.isBlank) (l := rest)
  have hone := ofPieces_run file hall hblocks line
  have htwo := ofPieces_run file hmore hblocks (line + Text.newlines run)
  rw [List.append_assoc, hsplit, Text.newlines_append, ← Nat.add_assoc] at hone
  rw [hsplit] at htwo
  rw [hone, htwo]

theorem ofPieces_skip {p : Piece} (h : p.reading = .skip) (line : Nat) (ps : List Piece) :
    ofPieces file line (p :: ps) = ofPieces file (line + Text.newlines p.text) ps := by
  rw [ofPieces, h]

theorem ofPieces_lexeme {p : Piece} {l : Lexeme} (h : p.reading = .lexeme l) (line : Nat)
    (ps : List Piece) :
    ofPieces file line (p :: ps) =
      (ofPieces file (line + Text.newlines p.text) ps).after [⟨l, some line⟩] := by
  rw [ofPieces, h]
  rfl

theorem ofPieces_refuse {p : Piece} {cause : Cause} (h : p.reading = .refuse cause) (line : Nat)
    (ps : List Piece) :
    ofPieces file line (p :: ps) = ⟨[], some (Fault.placed file (some line) cause)⟩ := by
  rw [ofPieces, h]

theorem result_eq_ok_iff {s : Scan} {ts : List Token} :
    s.result = .ok ts ↔ s.fault = none ∧ s.tokens = ts := by
  unfold result
  cases s.fault <;> simp

theorem result_eq_error_iff {s : Scan} {f : Fault} : s.result = .error f ↔ s.fault = some f := by
  unfold result
  cases s.fault <;> simp

end Scan

/-! ## The tokens of a spacing -/

namespace Spacing

/-- A spacing before its lexeme with the given number. -/
def front (s : Spacing) (k : Nat) : Spacing := ⟨s.lead, s.items.take k⟩

/-- The lexemes of a spacing as tokens, if its text starts on the given line. The line of a token
    counts the line feeds in front of the lexeme. -/
def tokens (s : Spacing) (line : Nat) : List Token :=
  s.items.mapIdx fun k i => ⟨i.lexeme, some (line + Text.newlines (s.front k).source : Nat)⟩

theorem tokens_cons (lead : List Char) (i : Placed) (items : List Placed) (line : Nat) :
    tokens ⟨lead, i :: items⟩ line =
      ⟨i.lexeme, some (line + Text.newlines lead : Nat)⟩ ::
        tokens ⟨i.gap, items⟩ (line + Text.newlines lead + Text.newlines i.text) := by
  have hfirst : (front ⟨lead, i :: items⟩ 0).source = lead := List.append_nil lead
  have hlater : ∀ k, (front ⟨lead, i :: items⟩ (k + 1)).source =
      lead ++ (i.text ++ (front ⟨i.gap, items⟩ k).source) := fun k =>
    source_cons lead i (items.take k)
  simp only [tokens, List.mapIdx_cons, hfirst, hlater, Text.newlines_append, Nat.add_assoc]

theorem prefix_front (s : Spacing) (k : Nat) : (s.front k).source <+: s.source := by
  refine ⟨(s.items.drop k).flatMap fun i => i.text ++ i.gap, ?_⟩
  rw [front, source, source, List.append_assoc, ← List.flatMap_append, List.take_append_drop]

/-- The front of a text is scanned first, and then the rest. -/
theorem ofPieces_front (file : Option String) {lead rest : List Char} {items : List Placed}
    (h : Valid ⟨lead, items⟩) (hmeets : Meets ⟨lead, items⟩ rest) (line : Nat) :
    Scan.ofPieces file line (pieces (source ⟨lead, items⟩ ++ rest)) =
      (Scan.ofPieces file (line + Text.newlines (source ⟨lead, items⟩)) (pieces rest)).after
        (tokens ⟨lead, items⟩ line) := by
  induction items generalizing lead line with
  | nil =>
    have hsource : source ⟨lead, []⟩ = lead := List.append_nil lead
    rw [hsource]
    exact Scan.ofPieces_blanks file h.lead rest line
  | cons i items ih =>
    obtain ⟨p, htext, hf, hcls, hread⟩ := (h.spells i List.mem_cons_self).piece
    have hends : p.Ends (source ⟨i.gap, items⟩ ++ rest) :=
      (ends_iff_of_class? hcls _).2 (h.ends_append hmeets)
    rw [source_cons, List.append_assoc, List.append_assoc, Scan.ofPieces_blanks file h.lead, ← htext,
      pieces_append hf hends, Scan.ofPieces_lexeme hread, ih h.tail hmeets.tail, tokens_cons, htext,
      Text.newlines_append, Text.newlines_append, ← Nat.add_assoc, ← Nat.add_assoc]
    rfl

/-- What the scan of a text is: the tokens of its front, and then the end of input or the fault of
    the piece behind. -/
theorem exists_scan (file : Option String) (line : Nat) (cs : List Char) :
    ∃ (s : Spacing) (rest : List Char), s.Valid ∧ s.Meets rest ∧ s.source ++ rest = cs ∧
      (rest = [] ∧ Scan.ofPieces file line (pieces cs) =
          ⟨s.tokens line ++ [⟨.eof, some (line + Text.newlines cs : Nat)⟩], none⟩ ∨
        ∃ p ps cause, pieces rest = p :: ps ∧ p.reading = .refuse cause ∧
          Scan.ofPieces file line (pieces cs) =
            ⟨s.tokens line,
              some (Fault.placed file (some (line + Text.newlines s.source : Nat)) cause)⟩) := by
  obtain ⟨s, rest, hs, hmeets, rfl, hrest⟩ := exists_front cs
  refine ⟨s, rest, hs, hmeets, rfl, ?_⟩
  rw [ofPieces_front file hs hmeets]
  rcases hrest with rfl | ⟨p, ps, cause, hpieces, hrefuse⟩
  · rw [List.append_nil, pieces]
    exact .inl ⟨rfl, rfl⟩
  · rw [hpieces, Scan.ofPieces_refuse hrefuse, Scan.after, List.append_nil]
    exact .inr ⟨p, ps, cause, rfl, hrefuse, rfl⟩

end Spacing

/-- The scan of a text that is accepted ends in one end of input. -/
theorem exists_eof_of_tokenize {file : Option String} {source : String} {ts : List Token}
    (h : tokenize file source = .ok ts) : ∃ front line, ts = front ++ [⟨.eof, line⟩] := by
  obtain ⟨s, rest, -, -, -, ⟨rfl, hscan⟩ | ⟨p, ps, cause, -, -, hscan⟩⟩ :=
    Spacing.exists_scan file 1 source.toList
  · rw [tokenize, Scan.ofText, hscan] at h
    cases h
    exact ⟨_, _, rfl⟩
  · rw [tokenize, Scan.ofText, hscan] at h
    cases h

end LetScript
