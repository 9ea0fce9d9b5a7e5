import WebTrim.Markup.Facts
import WebTrim.Stylesheet.Minify

/-!
# Tools of a pass

Some parts of a pass can be exchanged: how character references are decoded and which texts cannot
be, how the facts of a document are read, and how a stylesheet is minified. What a pass guarantees
holds for any of them.
-/

set_option autoImplicit false

namespace WebTrim

/-- The exchangeable parts of a pass. -/
structure Toolkit where
  decode : Text → Text
  /-- Why a text cannot be decoded, if it cannot. -/
  refusal? : Text → Option Crash
  readFacts : Text → Except Crash Markup.Facts
  minify : Text → Except Stop Text

/-- The tools of this library. -/
def Toolkit.standard : Toolkit where
  decode := Markup.decodeReferences
  refusal? := Markup.overlongReference?
  readFacts := Markup.factsOf Markup.decodeOrRefuse
  minify := fun css => .ok (Stylesheet.minify css)

end WebTrim
