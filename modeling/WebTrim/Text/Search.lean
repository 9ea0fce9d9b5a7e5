import WebTrim.Text.Letter
import WebTrim.Text.Scan

/-!
# Searching a text

* `search` — does a test hold at some place, given the character before it and the text from it on?
* `lines` — the lines of a text.
-/

set_option autoImplicit false

namespace WebTrim.Text

/-- Does the test hold at some place of the text? It sees the character before the place and the
text from the place on. -/
def search (test : Option Char → Text → Bool) (before : Option Char) : Text → Bool
  | [] => test before []
  | c :: rest => test before (c :: rest) || search test (some c) rest

/-- Can a word begin here, given the character before? -/
def atWordStart (before : Option Char) : Bool :=
  !(before.any isWordChar)

/-- Does a word end right before this text? -/
def atWordEnd (t : Text) : Bool :=
  !(t.head?.any isWordChar)

/-- The text after a given word, which must be followed by a word end. -/
def dropWholeWord? (word t : Text) : Option Text :=
  match word.isPrefixOf? t with
  | some rest => if atWordEnd rest then some rest else none
  | none => none

/-- The text after at least one blank and all that follow it. -/
def dropBlanks? (t : Text) : Option Text :=
  if t.head?.any isBlank then some (t.dropWhile isBlank) else none

/-- The parts of a text between newlines; at least one. -/
def lines (t : Text) : List Text :=
  fields '\n' t

end WebTrim.Text
