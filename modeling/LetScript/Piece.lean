import LetScript.Fault
import LetScript.Text.Blank

/-
  Source text cut into pieces. Each piece is the longest one of its class that starts where the
  one before it ends: a run of blanks, of digits, a word, a string with its quotes, a symbol. What
  starts none of them is a stray character, and a quote that is never closed takes all the text
  after it. No character is lost: the texts of the pieces, one after another, are the source text.

  Main statements: `cut_text` (a piece and what follows it are the text that was cut) and
  `flatMap_text_pieces` (the pieces make up the source text).
-/

namespace LetScript

/-- A piece of source text. -/
inductive Piece
  | blanks (run : List Char)
  | digits (run : List Char)
  | word (run : List Char)
  | quoted (quote : Char) (body : List Char)
  | unclosed (quote : Char) (body : List Char)
  | symbol (mark : Mark)
  | stray (c : Char)
  deriving DecidableEq

namespace Piece

/-- The source text of a piece. -/
def text : Piece → List Char
  | .blanks run | .digits run | .word run => run
  | .quoted quote body => quote :: (body ++ [quote])
  | .unclosed quote body => quote :: body
  | .symbol m => m.text.toList
  | .stray c => [c]

/-- Whether a character opens a string. -/
def isQuote (c : Char) : Bool := c = Text.doubleQuote || c = Text.singleQuote

/-- The string that an opening quote starts, and what follows it. -/
def cutString (quote : Char) (cs : List Char) : Piece × List Char :=
  match cs.dropWhile (· ≠ quote) with
  | [] => (.unclosed quote cs, [])
  | _ :: rest => (.quoted quote (cs.takeWhile (· ≠ quote)), rest)

/-- The piece at the front of the text `c :: cs`, and what follows it. -/
def cut (c : Char) (cs : List Char) : Piece × List Char :=
  if c.isDigit then (.digits (c :: cs.takeWhile Char.isDigit), cs.dropWhile Char.isDigit)
  else if c.isAlpha then (.word (c :: cs.takeWhile Char.isAlphanum), cs.dropWhile Char.isAlphanum)
  else if isQuote c then cutString c cs
  else if Text.isBlank c then (.blanks (c :: cs.takeWhile Text.isBlank), cs.dropWhile Text.isBlank)
  else
    match Mark.ofChar? c with
    | some m => (.symbol m, cs)
    | none => (.stray c, cs)

theorem cutString_text (quote : Char) (cs : List Char) :
    (cutString quote cs).1.text ++ (cutString quote cs).2 = quote :: cs := by
  unfold cutString
  have h := List.takeWhile_append_dropWhile (p := (· ≠ quote)) (l := cs)
  split
  · simp [text]
  next d rest hd =>
    have hq : d = quote := by
      have := List.head?_dropWhile_not (· ≠ quote) cs
      rw [hd] at this
      simpa using this
    rw [hd] at h
    simp only [text, List.cons_append, List.append_assoc, List.nil_append]
    rw [← hq] at h ⊢
    rw [h]

/-- Nothing is lost by a cut. -/
theorem cut_text (c : Char) (cs : List Char) : (cut c cs).1.text ++ (cut c cs).2 = c :: cs := by
  unfold cut
  split
  · simp [text, List.takeWhile_append_dropWhile]
  split
  · simp [text, List.takeWhile_append_dropWhile]
  split
  · exact cutString_text c cs
  split
  · simp [text, List.takeWhile_append_dropWhile]
  split
  next m hm => simp [text, Mark.text_of_ofChar? hm]
  · simp [text]

theorem cutString_fst_text_ne_nil (quote : Char) (cs : List Char) :
    (cutString quote cs).1.text ≠ [] := by
  unfold cutString
  split <;> simp [text]

/-- Every piece has at least one character. -/
theorem cut_fst_text_ne_nil (c : Char) (cs : List Char) : (cut c cs).1.text ≠ [] := by
  unfold cut
  split
  · simp [text]
  split
  · simp [text]
  split
  · exact cutString_fst_text_ne_nil c cs
  split
  · simp [text]
  split
  next m hm => simp [text, Mark.text_of_ofChar? hm]
  · simp [text]

/-- What follows a piece is shorter than the text that was cut. -/
theorem length_cut_snd_lt (c : Char) (cs : List Char) : (cut c cs).2.length < (c :: cs).length := by
  have h := congrArg List.length (cut_text c cs)
  have hpos := List.length_pos_iff.2 (cut_fst_text_ne_nil c cs)
  rw [List.length_append] at h
  omega

end Piece

/-- The pieces of a source text, in order. -/
def pieces : List Char → List Piece
  | [] => []
  | c :: cs => (Piece.cut c cs).1 :: pieces (Piece.cut c cs).2
termination_by cs => cs.length
decreasing_by exact Piece.length_cut_snd_lt c cs

/-- The pieces make up the source text. -/
theorem flatMap_text_pieces (cs : List Char) : (pieces cs).flatMap Piece.text = cs := by
  fun_induction pieces cs with
  | case1 => rfl
  | case2 c cs ih => rw [List.flatMap_cons, ih, Piece.cut_text]

end LetScript
