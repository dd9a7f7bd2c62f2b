import LetScript.Proofs.Histories
import LetScript.Proofs.Renaming
import LetScript.Proofs.ScriptFaults

/-
  One text after another.

  A text that is scanned to its end is scanned in the same way when a line feed and more text follow
  it: no lexeme goes on with a line feed, and blanks leave nothing behind but their lines. So the
  tokens of the joined text are those of the first text without its end of input, and then those of
  the second, moved down (`ofPieces_join`, `tokenize_join`). The first text ends where a statement
  ends, so its statements come first and those of the second follow, moved down (`parse_join`). They
  run one after another, and where lines are does not change a run but for the line of its fault.

  Main statement: `joined_text_runs_in_sequence`.
-/

namespace LetScript

open LetScript.Tree

variable {file : Option String}

/-! ## Scans of joined texts -/

namespace Scan

/-- A text that is scanned to its end and a text on the lines after it, scanned as one: the end of
    input of the first gives way to the tokens of the second. -/
theorem ofPieces_join {cs : List Char} (line : Nat)
    (h : (ofPieces file line (pieces cs)).fault = none) (ds : List Char) :
    ∃ front, (ofPieces file line (pieces cs)).tokens =
        front ++ [⟨.eof, some (line + Text.newlines cs : Nat)⟩] ∧
      ofPieces file line (pieces (cs ++ '\n' :: ds)) =
        (ofPieces file (line + Text.newlines cs + 1) (pieces ds)).after front := by
  obtain ⟨s, rest, hs, -, rfl, ⟨rfl, hscan⟩ | ⟨p, ps, cause, -, -, hscan⟩⟩ :=
    Spacing.exists_scan file line cs
  · have hblank : Text.isBlank '\n' = true := by decide
    have hmeets : s.Meets ('\n' :: ds) := fun i _ _ => ends_blank hblank i.cls ds
    refine ⟨s.tokens line, by rw [hscan], ?_⟩
    rw [List.append_nil, Spacing.ofPieces_front file hs hmeets, ← List.singleton_append,
      ofPieces_blanks file (List.forall_mem_singleton.2 hblank) ds]
    rfl
  · rw [hscan] at h
    cases h

theorem token_shift (l : Lexeme) (line n : Nat) :
    Token.relabel (.shift n) ⟨l, some line⟩ = ⟨l, some (n + line : Nat)⟩ := by
  have hline : (line : Int) + n = (n + line : Nat) := by omega
  unfold Token.relabel Relabeling.shift
  dsimp only
  rw [Lexeme.rename_id, Option.map_some, hline]

/-- A text further down has the same tokens further down. -/
theorem ofPieces_shift (file : Option String) (line n : Nat) (ps : List Piece) :
    (ofPieces file (n + line) ps).tokens =
        (ofPieces file line ps).tokens.map (Token.relabel (.shift n)) ∧
      ((ofPieces file (n + line) ps).fault = none ↔ (ofPieces file line ps).fault = none) := by
  induction ps generalizing line with
  | nil => exact ⟨congrArg (fun t => [t]) (token_shift .eof line n).symm, Iff.rfl⟩
  | cons p ps ih =>
    have htail := ih (line + Text.newlines p.text)
    rw [← Nat.add_assoc] at htail
    cases hreading : p.reading with
    | skip =>
      rw [ofPieces_skip hreading, ofPieces_skip hreading]
      exact htail
    | refuse cause =>
      simp only [ofPieces, hreading]
      simp
    | lexeme l =>
      obtain ⟨htokens, hfault⟩ := htail
      rw [ofPieces_lexeme hreading, ofPieces_lexeme hreading]
      refine ⟨?_, hfault⟩
      unfold after
      dsimp only
      rw [htokens, List.map_append, List.map_cons, List.map_nil, token_shift]

end Scan

/-! ## Joined texts -/

/-- The number of lines by which a text that follows another is moved down. -/
def linesBefore (a : String) : Nat := 1 + Text.newlines a.toList

theorem toList_join (a b : String) : (a ++ "\n" ++ b).toList = a.toList ++ '\n' :: b.toList := by
  simp

theorem tokenize_join {a b : String} {ts us : List Token} (ha : tokenize file a = .ok ts)
    (hb : tokenize file b = .ok us) :
    ∃ front stop, ts = front ++ [stop] ∧
      tokenize file (a ++ "\n" ++ b) =
        .ok (front ++ us.map (Token.relabel (.shift (linesBefore a)))) := by
  obtain ⟨hfault, rfl⟩ := Scan.result_eq_ok_iff.1 ha
  obtain ⟨hfault', rfl⟩ := Scan.result_eq_ok_iff.1 hb
  obtain ⟨front, htokens, hjoined⟩ := Scan.ofPieces_join 1 hfault b.toList
  obtain ⟨hmoved, hnone⟩ := Scan.ofPieces_shift file 1 (linesBefore a) (pieces b.toList)
  refine ⟨front, _, htokens, Scan.result_eq_ok_iff.2 ?_⟩
  have hwhole : Scan.ofText file (a ++ "\n" ++ b) =
      (Scan.ofPieces file (linesBefore a + 1) (pieces b.toList)).after front := by
    unfold Scan.ofText
    rw [toList_join]
    exact hjoined
  rw [hwhole]
  exact ⟨hnone.2 hfault', congrArg (front ++ ·) hmoved⟩

theorem not_isSpelled_eof : ¬ Lexeme.IsSpelled .eof := by
  rintro ⟨text, cls, h⟩
  have hwords : ∀ w ∈ Lexeme.words, w.2 ≠ .eof := by decide
  cases h with
  | reserved _ _ hmem => exact hwords _ hmem rfl

/-- Reading a program from a text takes all its tokens. -/
theorem rest_of_program {source : String} {ts rest : List Token} {p : List Tree}
    (hts : tokenize file source = .ok ts) (hp : Reader.program file ts = .ok p rest) : rest = [] := by
  obtain ⟨ss, stop, rfl, hstop, -⟩ := Reader.program_eq_ok_iff.1 hp
  rw [← List.singleton_append, ← List.append_assoc] at hts
  by_contra hrest
  have hspelled := isSpelled_of_mem_front hts hrest (t := stop) (by simp)
  have heof : stop.lexeme = .eof := by
    unfold Token.kind at hstop
    cases hl : stop.lexeme with
    | eof => rfl
    | _ => rw [hl] at hstop; cases hstop
  rw [heof] at hspelled
  exact not_isSpelled_eof hspelled

/-- Statements before an end of input, and then a program. -/
theorem Reader.program_append {front us rest : List Token} {stop : Token} {p q : List Tree}
    (hp : program file (front ++ [stop]) = .ok p []) (hq : program file us = .ok q rest) :
    program file (front ++ us) = .ok (p ++ q) rest := by
  obtain ⟨ss, stop', hfront, -, hss⟩ := program_eq_ok_iff.1 hp
  obtain ⟨ss', last, rfl, hlast, hss'⟩ := program_eq_ok_iff.1 hq
  obtain ⟨rfl, -⟩ := List.append_inj' hfront rfl
  refine program_eq_ok_iff.2 ⟨ss ++ ss', last, ?_, hlast, List.rel_append hss hss'⟩
  rw [List.flatten_append, List.append_assoc]

/-- Two texts with a line feed between them are read as the statements of the first and then those
    of the second, moved down. -/
theorem parse_join {a b : String} {p q : List Tree} (ha : parse file a = .ok p)
    (hb : parse file b = .ok q) :
    parse file (a ++ "\n" ++ b) = .ok (p ++ q.map (relabel (.shift (linesBefore a)))) := by
  obtain ⟨ts, rest, hts, hp⟩ := parse_eq_ok_iff.1 ha
  obtain ⟨us, rest', hus, hq⟩ := parse_eq_ok_iff.1 hb
  obtain rfl := rest_of_program hts hp
  obtain ⟨front, stop, rfl, hjoined⟩ := tokenize_join hts hus
  have hmoved := Reader.program_relabel (.shift (linesBefore a)) file us
  rw [hq] at hmoved
  exact parse_eq_ok_iff.2 ⟨_, _, hjoined, Reader.program_append hp hmoved⟩

/-! ## Runs -/

/-- Statements that are run through, and then others that are further down. -/
theorem execute_append_shift {env : Env} {p : List Tree}
    (h : (execute file env p).ending = .through) (q : List Tree) (n : Int) :
    let first := execute file env p
    let second := execute file first.env q
    execute file env (p ++ q.map (relabel (.shift n))) =
      ⟨second.env, first.lines ++ second.lines, second.ending.relabel (.shift n)⟩ := by
  intro first second
  have hmoved : execute file first.env (q.map (relabel (.shift n))) =
      ⟨second.env, second.lines, second.ending.relabel (.shift n)⟩ :=
    execute_relabel_places (m := .shift n) rfl file first.env q
  rw [execute_append_of_through env p _ h]
  dsimp only
  rw [hmoved]

namespace Session

/-- An answer with the line of its fault moved down. -/
def Answer.down (n : Nat) : Answer → Answer
  | .failed f => .failed { f with line := f.line.map (· + (n : Int)) }
  | answer => answer

/-- A run that ends like another, but for the place of its fault, has its answer, moved down. -/
theorem answer_of_shift {r r' : LetScript.Run} {n : Nat}
    (h : r'.ending = r.ending.relabel (.shift n))
    (hr : ∀ {f}, r.result = .error f → f.cause.isTreeless = true) :
    Answer.ofExcept r'.result = (Answer.ofExcept r.result).down n := by
  rw [Run.result_of_relabel h]
  cases hresult : r.result with
  | ok v => rfl
  | error f =>
    have hcause : f.cause.relabel (.shift n) = f.cause :=
      Cause.relabel_of_isTreeless rfl (hr hresult)
    change Answer.failed (f.relabel (.shift n)) = _
    rw [Fault.relabel, hcause]
    rfl

theorem serve_run_eq {source : String} {p : List Tree} (h : parse file source = .ok p) (s : Session) :
    s.serve (.run source) = s.respond (LetScript.execute s.file s.env p)
      (Answer.ofExcept (LetScript.execute s.file s.env p).result) := by
  rw [serve_run_of_parse s h]
  rfl

theorem answer_execute_eq_done_iff {source : String} {p : List Tree} (h : parse file source = .ok p)
    (s : Session) :
    (s.serve (.execute source)).answer = .done ↔
      (LetScript.execute s.file s.env p).ending = .through := by
  have hsource := executeSource_of_parse (parse_file h s.file) s.env
  simp only [serve, hsource]
  exact ofEnding_eq_done_iff

end Session

/-- Two texts that are read are also read with a line feed between them, as the statements of the
    first and then those of the second, moved down. In every session, where the first text is done
    without a `return` or a fault, running the joined text is running the first and then the second:
    it leaves the same bindings, writes what both write, and has the second one's result, or its
    fault, moved down. Where the first text is not done, the joined text does what it does. -/
theorem joined_text_runs_in_sequence (file : Option String) (a b : String) (p q : List Tree)
    (ha : parse file a = .ok p) (hb : parse file b = .ok q) :
    parse file (a ++ "\n" ++ b) = .ok (p ++ q.map (relabel (.shift (linesBefore a)))) ∧
    ∀ s : Session,
      ((s.serve (.execute a)).answer = .done →
        let first := s.serve (.run a)
        let second := first.session.serve (.run b)
        s.serve (.run (a ++ "\n" ++ b)) =
          ⟨second.answer.down (linesBefore a), first.lines ++ second.lines, second.session⟩) ∧
      ((s.serve (.execute a)).answer ≠ .done →
        s.serve (.run (a ++ "\n" ++ b)) = s.serve (.run a)) := by
  have hjoined := parse_join ha hb
  refine ⟨hjoined, fun s => ⟨?_, ?_⟩⟩
  · intro hdone first second
    have hthrough := (Session.answer_execute_eq_done_iff ha s).1 hdone
    have hfirst := Session.serve_run_eq ha s
    have hsession : first.session = ⟨s.file, (execute s.file s.env p).env⟩ :=
      congrArg Session.Response.session hfirst
    have hsecond : second = _ := Session.serve_run_eq hb first.session
    rw [hsession] at hsecond
    have hlines : first.lines = (execute s.file s.env p).lines :=
      congrArg Session.Response.lines hfirst
    have hrun := execute_append_shift hthrough q (linesBefore a)
    have hanswer := Session.answer_of_shift (congrArg Run.ending hrun)
      (isTreeless_of_result fun _ => isStatement_of_parse hb)
    rw [Session.serve_run_eq hjoined, hanswer, hrun, hlines, hsecond]
    rfl
  · intro hended
    rw [Ne, Session.answer_execute_eq_done_iff ha s] at hended
    rw [Session.serve_run_eq hjoined, Session.serve_run_eq ha,
      execute_append_of_ended s.env p _ hended]

/-- A text with a line feed in a string, and then one that fails on its second line: the joined text
    fails on line 4, after it has written. -/
theorem joined_text_runs_in_sequence_string :
    ∃ a b p q, a = "let s = 'x\ny';" ∧ b = "print s + 1;\nprint z;" ∧ parse none a = .ok p ∧
      parse none b = .ok q ∧
      parse none (a ++ "\n" ++ b) = .ok (p ++ q.map (relabel (.shift 2))) ∧
      ((Session.new (some "a.let")).serve (.execute a)).answer = .done ∧
      (Session.new (some "a.let")).serve (.run (a ++ "\n" ++ b)) =
        ⟨.failed ⟨.notDefined "z", some 4, some "a.let"⟩, ["x\ny1"],
          ⟨some "a.let", [("s", .string "x\ny")]⟩⟩ := by
  have ha : parse none "let s = 'x\ny';" =
      .ok [.binding "s" (some 1) (.string "x\ny" (some 1)) (some 1)] := by cbv
  have hb : parse none "print s + 1;\nprint z;" = .ok [.printing (.operation .arithmetic
      (.identifier "s" (some 1)) .add (.integer 1 (some 1)) (some 1)) (some 1),
      .printing (.identifier "z" (some 2)) (some 2)] := by cbv
  have hdone : ((Session.new (some "a.let")).serve (.execute "let s = 'x\ny';")).answer = .done := by
    cbv
  obtain ⟨hjoined, hrun⟩ := joined_text_runs_in_sequence none _ _ _ _ ha hb
  have hsequence := (hrun (Session.new (some "a.let"))).1 hdone
  exact ⟨_, _, _, _, rfl, rfl, ha, hb, hjoined, hdone, hsequence.trans (by cbv)⟩

end LetScript
