import LetScript.Proofs.CommandLine
import LetScript.Proofs.LexicalFaults
import LetScript.Proofs.Lookahead
import LetScript.Proofs.ScriptFaults
import Mathlib

/-
  The limit on the length of digit runs, and the errors that it brings in.

  A scan reads pieces up to the first that is refused (`read_or_refused`), and the tokens of the
  pieces that it reads stand in front of what it makes of the rest (`ofPieces_append`). A piece is
  refused with an error of scanning, unless it is a digit run of more than `maxDigits` digits
  (`title_of_reading`): such a run is refused whatever number it is, with an error that is none of
  the language's. All errors of the later stages are the language's own, so a script that is scanned
  ends with a status (`exit_of_tokenize`).

  Main statement: `only_lexical_errors_iff`. A run of zeros is the number 0 and may be too long:
  `zeros_escape`.
-/

namespace LetScript

/-- Whether the scan of a text comes to a digit run: all pieces before the run are read. -/
def Reaches (source : String) (run : List Char) : Prop :=
  ∃ front ls back, pieces source.toList = front ++ Piece.digits run :: back ∧ readAll front = some ls

/-- Whether each digit run that the scan of a text comes to is short enough to be a number. -/
def DigitsBounded (source : String) : Prop :=
  ∀ run, Reaches source run → run.length ≤ maxDigits

/-! ## Digit runs and other pieces -/

variable {run : List Char} {p : Piece} {cause : Cause}

theorem reading_of_long (h : maxDigits < run.length) :
    (Piece.digits run).reading = .refuse (.tooManyDigits run.length) := by
  rw [Piece.reading, if_pos h]

theorem reading_of_large (hlen : run.length ≤ maxDigits) (h : intMax < Piece.number run) :
    (Piece.digits run).reading = .refuse (.integerTooLarge (String.ofList run)) := by
  rw [Piece.reading, if_neg (Nat.not_lt.2 hlen), if_pos h]

theorem reading_of_small (hlen : run.length ≤ maxDigits) (h : Piece.number run ≤ intMax) :
    (Piece.digits run).reading = .lexeme (.integer (Piece.number run)) := by
  rw [Piece.reading, if_neg (Nat.not_lt.2 hlen), if_neg (Int.not_lt.2 h)]

/-- A piece is refused with an error of scanning, or for being a digit run that is too long. -/
theorem title_of_reading (h : p.reading = .refuse cause) :
    cause.title = "LexError" ∨ ∃ run, p = .digits run ∧ maxDigits < run.length := by
  cases p with
  | digits run =>
    by_cases hlong : maxDigits < run.length
    · exact .inr ⟨run, rfl, hlong⟩
    · rw [Piece.reading, if_neg hlong] at h
      split at h
      · cases h
        exact .inl rfl
      · cases h
  | unclosed | stray =>
    cases h
    exact .inl rfl
  | blanks | word | quoted | symbol => cases h

/-! ## What a scan comes to -/

/-- Pieces are all read, or they are read up to one that is refused. -/
theorem read_or_refused (ps : List Piece) :
    (∃ ls, readAll ps = some ls) ∨
      ∃ front ls p back cause, ps = front ++ p :: back ∧ readAll front = some ls ∧
        p.reading = .refuse cause := by
  induction ps with
  | nil => exact .inl ⟨[], rfl⟩
  | cons q ps ih =>
    cases hq : q.reading with
    | refuse cause => exact .inr ⟨[], [], q, ps, cause, rfl, rfl, hq⟩
    | skip =>
      have hcons : ∀ qs, readAll (q :: qs) = readAll qs := fun qs => by rw [readAll, hq]
      rcases ih with ⟨ls, hls⟩ | ⟨front, ls, p, back, cause, rfl, hls, hp⟩
      · exact .inl ⟨ls, by rw [hcons, hls]⟩
      · exact .inr ⟨q :: front, ls, p, back, cause, rfl, by rw [hcons, hls], hp⟩
    | lexeme l =>
      have hcons : ∀ qs, readAll (q :: qs) = (readAll qs).map (l :: ·) := fun qs => by
        rw [readAll, hq]
      rcases ih with ⟨ls, hls⟩ | ⟨front, ls, p, back, cause, rfl, hls, hp⟩
      · exact .inl ⟨l :: ls, by rw [hcons, hls, Option.map_some]⟩
      · exact .inr ⟨q :: front, l :: ls, p, back, cause, rfl, by rw [hcons, hls, Option.map_some],
          hp⟩

/-- Pieces that are read are scanned first, and then those behind them. -/
theorem ofPieces_append (file : Option String) {front : List Piece} {ls : List Lexeme}
    (h : readAll front = some ls) (line : Nat) (back : List Piece) :
    ∃ ts line', ts.map Token.lexeme = ls ∧
      Scan.ofPieces file line (front ++ back) = (Scan.ofPieces file line' back).after ts := by
  induction front generalizing ls line with
  | nil =>
    cases h
    exact ⟨[], line, rfl, rfl⟩
  | cons p front ih =>
    rw [readAll] at h
    cases hp : p.reading with
    | refuse cause =>
      rw [hp] at h
      cases h
    | skip =>
      rw [hp] at h
      obtain ⟨ts, line', hts, hscan⟩ := ih h (line + Text.newlines p.text)
      exact ⟨ts, line', hts, by rw [List.cons_append, Scan.ofPieces_skip hp, hscan]⟩
    | lexeme l =>
      rw [hp] at h
      obtain ⟨ls', hls', rfl⟩ := Option.map_eq_some_iff.1 h
      obtain ⟨ts, line', rfl, hscan⟩ := ih hls' (line + Text.newlines p.text)
      refine ⟨⟨l, some line⟩ :: ts, line', rfl, ?_⟩
      rw [List.cons_append, Scan.ofPieces_lexeme hp, hscan]
      rfl

variable {source : String} {front back : List Piece} {ls : List Lexeme}

/-- A text is refused for the first piece that is. -/
theorem tokenize_of_refused (file : Option String)
    (hpieces : pieces source.toList = front ++ p :: back) (hfront : readAll front = some ls)
    (hp : p.reading = .refuse cause) :
    ∃ f, tokenize file source = .error f ∧ f.cause = cause := by
  obtain ⟨ts, line, -, hscan⟩ := ofPieces_append file hfront 1 (p :: back)
  rw [tokenize, Scan.ofText, hpieces, hscan, Scan.ofPieces_refuse hp]
  exact ⟨_, rfl, Fault.cause_placed _ _ _⟩

/-- A piece that is read as a lexeme has its token behind those of the pieces before it. -/
theorem lexemes_of_read {l : Lexeme} (file : Option String)
    (hpieces : pieces source.toList = front ++ p :: back) (hfront : readAll front = some ls)
    (hp : p.reading = .lexeme l) :
    ls ++ [l] <+: (Scan.ofText file source).tokens.map Token.lexeme := by
  obtain ⟨ts, line, hts, hscan⟩ := ofPieces_append file hfront 1 (p :: back)
  rw [Scan.ofText, hpieces, hscan, Scan.ofPieces_lexeme hp, Scan.after, Scan.after,
    List.map_append, List.map_append, hts, ← List.append_assoc]
  exact List.prefix_append _ _

theorem tokenize_of_readAll (file : Option String) (h : readAll (pieces source.toList) = some ls) :
    ∃ ts, tokenize file source = .ok ts := by
  obtain ⟨ts, line, -, hscan⟩ := ofPieces_append file h 1 []
  rw [List.append_nil] at hscan
  rw [tokenize, Scan.ofText, hscan]
  exact ⟨_, rfl⟩

/-! ## The two outcomes -/

/-- A text with bounded digit runs is accepted or refused with an error of scanning, and any other
    text is refused for a digit run that is too long. -/
theorem tokenize_outcome (file : Option String) (source : String) :
    (DigitsBounded source ∧ ((∃ ts, tokenize file source = .ok ts) ∨
      ∃ f, tokenize file source = .error f ∧ f.cause.title = "LexError")) ∨
    (¬DigitsBounded source ∧
      ∃ f, tokenize file source = .error f ∧ f.cause.title = "ValueError") := by
  rcases read_or_refused (pieces source.toList) with
    ⟨ls, hread⟩ | ⟨front, ls, p, back, cause, hpieces, hfront, hp⟩
  · refine .inl ⟨?_, .inl (tokenize_of_readAll file hread)⟩
    rintro run ⟨front, ls', back, hpieces, -⟩
    by_contra hlong
    have hmem : Piece.digits run ∈ pieces source.toList := by simp [hpieces]
    exact not_isRefused_of_readAll hread _ hmem ⟨_, reading_of_long (Nat.not_le.1 hlong)⟩
  · obtain ⟨f, hf, hcause⟩ := tokenize_of_refused file hpieces hfront hp
    rcases title_of_reading hp with htitle | ⟨run, rfl, hlong⟩
    · refine .inl ⟨?_, .inr ⟨f, hf, by rw [hcause, htitle]⟩⟩
      rintro run ⟨front', ls', back', hpieces', hfront'⟩
      by_contra hlong
      -- a run that is too long would be the first refused piece, and its error is another
      have hrun := reading_of_long (Nat.not_le.1 hlong)
      obtain ⟨-, rfl, -⟩ := append_cons_unique (not_isRefused_of_readAll hfront)
        (not_isRefused_of_readAll hfront') ⟨_, hp⟩ ⟨_, hrun⟩ (hpieces.symm.trans hpieces')
      rw [hrun] at hp
      cases hp
      simp [Cause.title] at htitle
    · rw [reading_of_long hlong] at hp
      cases hp
      refine .inr ⟨fun hbounded => ?_, f, hf, by rw [hcause]; rfl⟩
      exact Nat.not_lt.2 (hbounded run ⟨front, ls, back, hpieces, hfront⟩) hlong

namespace Command

/-- How a script that is read as text ends: by the result of running the text. -/
theorem exit_of_text {read : FileReader} {path : String} (htext : read.text path = .ok source)
    (debug : Bool) :
    (runScript read debug path).exit =
      match (runSource (some path) source).result with
      | .ok _ => .status 0
      | .error f => if f.cause.stage?.isSome then .status 1 else .escaped (.script f) := by
  rw [runScript_of_text htext debug]
  unfold ofFileRun Run.toFileRun
  cases hresult : (runSource (some path) source).result with
  | ok v =>
    obtain ⟨text, hdisplay⟩ := (inRange_of_runSource hresult).exists_display
    dsimp only
    rw [hdisplay]
    rfl
  | error f =>
    dsimp only
    rw [failed, isReported_script]
    exact apply_ite Report.exit _ _ _

/-- The stages after the scan fail with errors of the language only. -/
theorem stage?_of_runSource {file : Option String} {ts : List Token} {f : Fault}
    (hts : tokenize file source = .ok ts) (h : (runSource file source).result = .error f) :
    f.cause.stage?.isSome = true := by
  unfold runSource executeSource at h
  split at h
  next f' hparse =>
    cases h
    simp only [parse, hts] at hparse
    split at hparse
    · cases hparse
    next hread =>
      cases hparse
      obtain ⟨taken, -, hstage, -⟩ := parsing_of_tokenize hts hread
      rw [hstage]
      rfl
  next statements hparse =>
    have hstatements : ∀ t ∈ statements, t.isStatement = true := fun _ => isStatement_of_parse hparse
    obtain hstage | rfl := stage?_of_result hstatements h
    · exact Option.isSome_iff_ne_none.2 hstage
    · have hbounded := allBounded_of_parse hparse
      exact absurd h (not_unwritable_of_result hbounded Env.isInRange_nil hstatements)

/-- A script that is scanned ends with a status. -/
theorem exit_of_tokenize {read : FileReader} {path : String} {ts : List Token}
    (htext : read.text path = .ok source) (hts : tokenize (some path) source = .ok ts)
    (debug : Bool) :
    (runScript read debug path).exit = .status 0 ∨ (runScript read debug path).exit = .status 1 := by
  rw [exit_of_text htext debug]
  cases hresult : (runSource (some path) source).result with
  | ok v => exact .inl rfl
  | error f => exact .inr (if_pos (stage?_of_runSource hts hresult))

theorem exit_of_tokenize_error {read : FileReader} {path : String} {f : Fault}
    (htext : read.text path = .ok source) (hf : tokenize (some path) source = .error f)
    (debug : Bool) :
    (runScript read debug path).exit =
      if f.cause.stage?.isSome then .status 1 else .escaped (.script f) := by
  have hresult : (runSource (some path) source).result = .error f := by
    rw [runSource, executeSource, parse_of_tokenize_error hf]
    rfl
  rw [exit_of_text htext debug, hresult]

/-- A script whose digit runs are bounded ends with a status, and from any other script the error
    escapes. -/
theorem exit_outcome {read : FileReader} {path : String} (htext : read.text path = .ok source)
    (debug : Bool) :
    (DigitsBounded source ∧ ((runScript read debug path).exit = .status 0 ∨
      (runScript read debug path).exit = .status 1)) ∨
    (¬DigitsBounded source ∧ ∃ f, (runScript read debug path).exit = .escaped (.script f) ∧
      f.cause.title = "ValueError") := by
  rcases tokenize_outcome (some path) source with
    ⟨hbounded, ⟨ts, hts⟩ | ⟨f, hf, htitle⟩⟩ | ⟨hlong, f, hf, htitle⟩
  · exact .inl ⟨hbounded, exit_of_tokenize htext hts debug⟩
  · have hexit := exit_of_tokenize_error htext hf debug
    rw [if_pos (stage?_of_title htitle)] at hexit
    exact .inl ⟨hbounded, .inr hexit⟩
  · have hnone : ¬f.cause.stage?.isSome = true := by
      rw [stage?_isSome_iff, htitle]
      decide
    have hexit := exit_of_tokenize_error htext hf debug
    rw [if_neg hnone] at hexit
    exact .inr ⟨hlong, f, hexit, htitle⟩

end Command

theorem iffs_of_cases {a b c : Prop} (h : a ∧ b ∨ ¬a ∧ c) (hbc : b → ¬c) :
    (a ↔ b) ∧ (¬a ↔ c) := by
  tauto

/-- A digit run that the scan of a text comes to is read as its number, is refused as too large if
    the number is, and is refused as too long, whatever number it is, if it has more than
    `maxDigits` digits. The scan accepts the text or refuses it with an error of scanning exactly if
    no run is too long. If one is, the error is none of the language's, and it escapes from the run
    of a file with this text; such a run ends with one of the two statuses otherwise. -/
theorem only_lexical_errors_iff (file : Option String) (source : String) :
    (∀ (front back : List Piece) (run : List Char) (ls : List Lexeme),
      pieces source.toList = front ++ Piece.digits run :: back → readAll front = some ls →
      (run.length ≤ maxDigits → Piece.number run ≤ intMax →
        ls ++ [Lexeme.integer (Piece.number run)] <+:
          (Scan.ofText file source).tokens.map Token.lexeme) ∧
      (run.length ≤ maxDigits → intMax < Piece.number run →
        ∃ f, tokenize file source = .error f ∧
          f.cause = .integerTooLarge (String.ofList run)) ∧
      (maxDigits < run.length →
        ∃ f, tokenize file source = .error f ∧ f.cause = .tooManyDigits run.length)) ∧
    (DigitsBounded source ↔ (∃ ts, tokenize file source = .ok ts) ∨
      ∃ f, tokenize file source = .error f ∧ f.cause.title = "LexError") ∧
    (¬DigitsBounded source ↔
      ∃ f, tokenize file source = .error f ∧ f.cause.title = "ValueError") ∧
    ∀ (read : FileReader) (debug : Bool) (path : String), read.text path = .ok source →
      (DigitsBounded source ↔ (Command.runScript read debug path).exit = .status 0 ∨
        (Command.runScript read debug path).exit = .status 1) ∧
      (¬DigitsBounded source ↔ ∃ f, (Command.runScript read debug path).exit =
        .escaped (.script f) ∧ f.cause.title = "ValueError") := by
  refine ⟨?_, ?_⟩
  · intro front back run ls hpieces hfront
    refine ⟨fun hlen hsmall => ?_, fun hlen hlarge => ?_, fun hlong => ?_⟩
    · exact lexemes_of_read file hpieces hfront (reading_of_small hlen hsmall)
    · exact tokenize_of_refused file hpieces hfront (reading_of_large hlen hlarge)
    · exact tokenize_of_refused file hpieces hfront (reading_of_long hlong)
  rw [← and_assoc]
  refine ⟨iffs_of_cases (tokenize_outcome file source) ?_, fun read debug path htext =>
    iffs_of_cases (Command.exit_outcome htext debug) ?_⟩
  · rintro (⟨ts, hts⟩ | ⟨f, hf, htitle⟩) ⟨f', hf', htitle'⟩
    · rw [hts] at hf'
      cases hf'
    · rw [hf] at hf'
      cases hf'
      rw [htitle] at htitle'
      exact absurd htitle' (by decide)
  · rintro (hexit | hexit) ⟨f, hescaped, -⟩ <;> rw [hexit] at hescaped <;> cases hescaped

/-- The first number is read and the second is refused as too large, so the run of a file with this
    text ends with a status. -/
theorem only_lexical_errors_at_large :
    let front : List Piece := [.digits "7".toList, .blanks " ".toList]
    let read : FileReader := fun _ => .ok "7 2147483648".toUTF8.toList
    pieces "7 2147483648".toList = front ++ [Piece.digits "2147483648".toList] ∧
      readAll front = some [.integer 7] ∧
      (∃ f, tokenize none "7 2147483648" = .error f ∧
        f.cause = .integerTooLarge "2147483648") ∧
      [Lexeme.integer 7] <+: (Scan.ofText none "7 2147483648").tokens.map Token.lexeme ∧
      ((Command.runScript read true "a.let").exit = .status 0 ∨
        (Command.runScript read true "a.let").exit = .status 1) := by
  intro front read
  have hpieces : pieces "7 2147483648".toList = front ++ [Piece.digits "2147483648".toList] := by cbv
  have hfront : readAll front = some [.integer 7] := by cbv
  have htext : read.text "a.let" = .ok "7 2147483648" := by cbv
  obtain ⟨hruns, hlexical, -, hexit⟩ := only_lexical_errors_iff none "7 2147483648"
  obtain ⟨f, hf, hcause⟩ := (hruns _ _ _ _ hpieces hfront).2.1 (by decide) (by decide)
  rw [String.ofList_toList] at hcause
  have hbounded := hlexical.2 (.inr ⟨f, hf, by rw [hcause]; rfl⟩)
  refine ⟨hpieces, hfront, ⟨f, hf, hcause⟩, ?_, (hexit read true "a.let" htext).1.1 hbounded⟩
  exact (hruns [] _ _ [] hpieces rfl).1 (by decide) (by decide)

/-! ## A run of zeros -/

theorem number_zeros (n : Nat) : Piece.number (List.replicate n '0') = 0 := by
  have hzero : Nat.ofDigitChars 10 (List.replicate n '0') 0 = 0 := by
    induction n with
    | zero => rfl
    | succ n ih =>
      rw [List.replicate_succ, Nat.ofDigitChars_cons]
      exact ih
  rw [Piece.number, hzero]
  rfl

theorem pieces_digits (hne : run ≠ []) (hrun : ∀ c ∈ run, c.isDigit = true) :
    pieces run = [.digits run] := by
  have hformed : (Piece.digits run).Formed := ⟨hne, hrun⟩
  have hends : (Piece.digits run).Ends [] := fun d hd => by cases hd
  have hpieces : pieces (run ++ []) = .digits run :: pieces [] := pieces_append hformed hends
  rwa [List.append_nil, pieces.eq_1] at hpieces

/-- A text that is one digit run of too many digits is not bounded, whatever its number is. -/
theorem not_digitsBounded (hrun : ∀ c ∈ run, c.isDigit = true) (hlong : maxDigits < run.length) :
    ¬DigitsBounded (String.ofList run) := by
  intro hbounded
  have hne : run ≠ [] := List.ne_nil_of_length_pos (Nat.zero_lt_of_lt hlong)
  have hreaches : Reaches (String.ofList run) run := by
    refine ⟨[], [], [], ?_, rfl⟩
    rw [String.toList_ofList, pieces_digits hne hrun]
    rfl
  exact Nat.not_lt.2 (hbounded run hreaches) hlong

theorem not_digitsBounded_zeros {n : Nat} (h : maxDigits < n) :
    ¬DigitsBounded (String.ofList (List.replicate n '0')) := by
  refine not_digitsBounded (fun c hc => ?_) ?_
  · rw [List.eq_of_mem_replicate hc]
    rfl
  · rw [List.length_replicate]
    exact h

theorem decodeFrom_zeros (n pos : Nat) (done : List Char) :
    Text.Utf8.decodeFrom pos none done (List.replicate n 48) =
      .ok (done.reverse ++ List.replicate n '0') := by
  induction n generalizing pos done with
  | zero => rw [List.replicate_zero, List.replicate_zero, List.append_nil]; rfl
  | succ n ih =>
    have hstep : Text.Utf8.decodeFrom pos none done (48 :: List.replicate n 48) =
        Text.Utf8.decodeFrom (pos + 1) none ('0' :: done) (List.replicate n 48) := rfl
    rw [List.replicate_succ, hstep, ih, List.reverse_cons, List.append_assoc, List.replicate_succ]
    rfl

theorem unifyLineEnds_zeros (n : Nat) :
    Text.unifyLineEnds (List.replicate n '0') = List.replicate n '0' := by
  induction n with
  | zero => rfl
  | succ n ih =>
    rw [List.replicate_succ]
    exact congrArg ('0' :: ·) ih

/-- A file of zeros, by its bytes, is the text of these zeros. -/
theorem text_zeros (n : Nat) (path : String) :
    FileReader.text (fun _ => .ok (List.replicate n 48)) path =
      .ok (String.ofList (List.replicate n '0')) := by
  have hdecode := decodeFrom_zeros n 0 []
  rw [List.reverse_nil, List.nil_append] at hdecode
  simp only [FileReader.text, Text.Utf8.decode, hdecode]
  rw [unifyLineEnds_zeros]

/-- A literal for 0 with more than `maxDigits` zeros is refused, with an error that is none of the
    language's and escapes from the run of a file with this text. -/
theorem zeros_escape :
    let zeros := List.replicate (maxDigits + 1) '0'
    let read : FileReader := fun _ => .ok (List.replicate (maxDigits + 1) 48)
    Piece.number zeros = 0 ∧
      (∃ f, tokenize none (String.ofList zeros) = .error f ∧ f.cause.title = "ValueError") ∧
      read.text "a.let" = .ok (String.ofList zeros) ∧
      ∃ f, (Command.runScript read false "a.let").exit = .escaped (.script f) ∧
        f.cause.title = "ValueError" := by
  intro zeros read
  have hlong := not_digitsBounded_zeros (Nat.lt_succ_self maxDigits)
  have htext : read.text "a.let" = .ok (String.ofList zeros) := text_zeros (maxDigits + 1) "a.let"
  refine ⟨number_zeros (maxDigits + 1), ?_, htext, ?_⟩
  · exact ((tokenize_outcome none (String.ofList zeros)).resolve_left fun h => hlong h.1).2
  · exact ((Command.exit_outcome htext false).resolve_left fun h => hlong h.1).2

end LetScript
