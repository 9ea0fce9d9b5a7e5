import WebTrim.Text.Letter
import WebTrim.Text.Scan

/-!
# Words

A text as an alternation of words and the blanks between them.

* `wordPieces` — maximal blank and nonblank runs, the latter noted `true`.
* `mapWords` — the text with a function applied to its words and the blanks kept.
-/

set_option autoImplicit false

namespace WebTrim.Text

/-- One maximal run of blanks or of other characters. -/
def wordStep (_ : Unit) (c : Char) (rest : Text) : Step Unit Bool :=
  if isBlank c then ⟨(rest.takeWhile isBlank).length, false, ()⟩
  else ⟨(rest.takeWhile fun d => !isBlank d).length, true, ()⟩

/-- Maximal blank and nonblank runs; the note says whether a run is a word. -/
def wordPieces (t : Text) : List (Piece Bool) :=
  scan wordStep () t

/-- The words of a text. -/
def words (t : Text) : List Text :=
  ((wordPieces t).filter Piece.note).map Piece.text

/-- The text with `f` applied to its words. -/
def mapWords (f : Text → Text) (t : Text) : Text :=
  (wordPieces t).flatMap fun p => if p.note then f p.text else p.text

end WebTrim.Text
