import LetScript.Proofs.Fronts
import LetScript.Proofs.RoundTrip

/-
  Lines of a source text, in its tokens and in its trees.

  A token starts after some front part of the source text, and its line is one more than the number
  of line feeds in that part (`line_of_tokenize`). The words of a program are tokens of its source
  text, so each has a line of the text (`line_of_parse`). The name of the file is in faults only:
  what is read from a text does not depend on it (`tokenize_file`, `parse_file`).
-/

namespace LetScript

/-! ## The name of the file -/

namespace Scan

theorem tokens_ofPieces (file file' : Option String) (line : Nat) (ps : List Piece) :
    (ofPieces file line ps).tokens = (ofPieces file' line ps).tokens ∧
      ((ofPieces file line ps).fault = none ↔ (ofPieces file' line ps).fault = none) := by
  induction ps generalizing line with
  | nil => exact ⟨rfl, Iff.rfl⟩
  | cons p ps ih =>
    obtain ⟨htokens, hfault⟩ := ih (line + Text.newlines p.text)
    simp only [ofPieces]
    cases p.reading with
    | skip => exact ⟨htokens, hfault⟩
    | refuse cause => exact ⟨rfl, by simp⟩
    | lexeme l => exact ⟨congrArg (List.cons _) htokens, hfault⟩

end Scan

/-- What tokens a text has does not depend on the name of its file. -/
theorem tokenize_file {file : Option String} {source : String} {ts : List Token}
    (h : tokenize file source = .ok ts) (file' : Option String) : tokenize file' source = .ok ts := by
  obtain ⟨hfault, htokens⟩ := Scan.result_eq_ok_iff.1 h
  obtain ⟨hsame, hnone⟩ := Scan.tokens_ofPieces file file' 1 (pieces source.toList)
  exact Scan.result_eq_ok_iff.2 ⟨hnone.1 hfault, hsame.symm.trans htokens⟩

/-- Nor does what statements it has. -/
theorem parse_file {file : Option String} {source : String} {p : List Tree}
    (h : parse file source = .ok p) (file' : Option String) : parse file' source = .ok p := by
  obtain ⟨ts, rest, hts, hp⟩ := parse_eq_ok_iff.1 h
  have hp' : Reader.program file' ts = .ok p rest :=
    Reader.program_eq_ok_iff.2 (Reader.program_eq_ok_iff.1 hp)
  exact parse_eq_ok_iff.2 ⟨ts, rest, tokenize_file hts file', hp'⟩

/-! ## The line of a token -/

/-- A token's line is one more than the number of line feeds in front of some place in the text. -/
theorem line_of_tokenize {file : Option String} {source : String} {ts : List Token}
    (h : tokenize file source = .ok ts) {t : Token} (ht : t ∈ ts) :
    ∃ before after, source.toList = before ++ after ∧
      t.line = some ((1 + Text.newlines before : Nat) : Int) := by
  obtain ⟨hfault, rfl⟩ := Scan.result_eq_ok_iff.1 h
  obtain ⟨s, rest, -, -, hsource, ⟨rfl, hscan⟩ | ⟨p, ps, cause, -, -, hscan⟩⟩ :=
    Spacing.exists_scan file 1 source.toList
  · rw [Scan.ofText, hscan] at ht
    rcases List.mem_append.1 ht with ht | ht
    · obtain ⟨k, -, rfl⟩ := List.mem_mapIdx.1 ht
      obtain ⟨after, hafter⟩ := s.prefix_front k
      exact ⟨_, after, by rw [hafter, ← hsource, List.append_nil], rfl⟩
    · obtain rfl := List.mem_singleton.1 ht
      exact ⟨source.toList, [], (List.append_nil _).symm, rfl⟩
  · rw [Scan.ofText, hscan] at hfault
    cases hfault

/-! ## The line of a word -/

/-- Whether a line is one of a source text. -/
def IsLineOf (source : String) (line : Line) : Prop :=
  ∃ n : Int, line = some n ∧ 1 ≤ n ∧ n ≤ 1 + Text.newlines source.toList

theorem isLineOf_of_tokenize {file : Option String} {source : String} {ts : List Token}
    (h : tokenize file source = .ok ts) {t : Token} (ht : t ∈ ts) : IsLineOf source t.line := by
  obtain ⟨before, after, htext, hline⟩ := line_of_tokenize h ht
  have hcount := Text.newlines_append before after
  rw [← htext] at hcount
  exact ⟨_, hline, by omega, by omega⟩

theorem line_of_entry {t : Token} {e : Entry} (h : t.entry? = some e) : e.line = t.line := by
  rcases t with ⟨l, line⟩
  cases l with
  | mark m text => cases m <;> cases h <;> rfl
  | _ => cases h <;> rfl

/-- Every word of a program that was read has a line of the source text. -/
theorem line_of_parse {file : Option String} {source : String} {p : List Tree}
    (h : parse file source = .ok p) {e : Entry} (he : e ∈ Tree.inorderAll p) :
    IsLineOf source e.line := by
  obtain ⟨ts, rest, hts, hp⟩ := parse_eq_ok_iff.1 h
  obtain ⟨ss, stop, rfl, -, htrees⟩ := Reader.program_eq_ok_iff.1 hp
  rw [inorderAll_of_trees htrees] at he
  obtain ⟨t, ht, hentry⟩ := List.mem_filterMap.1 he
  rw [line_of_entry hentry]
  exact isLineOf_of_tokenize hts (List.mem_append_left _ ht)

/-- What was read is statements. -/
theorem isStatement_of_parse {file : Option String} {source : String} {p : List Tree}
    (h : parse file source = .ok p) {s : Tree} (hs : s ∈ p) : s.isStatement = true := by
  have hright := (isReadable_iff.1 (isReadable_of_parse h)).1 s hs
  exact (Tree.rightStatement_iff.1 hright).1

end LetScript
