import WebTrim.Markup.Block

/-!
# Rewriting a document

Markup is left to one function, the bodies of script and style elements to two others. The start
tags of these elements count as markup.
-/

set_option autoImplicit false

namespace WebTrim.Markup

variable {ε : Type}

/-- A block with its markup passed through `markup` and its body, if it is an element, through
`script` or `style`. -/
def mapBlock (markup script style : Text → Except ε Text) : Block → Except ε Text
  | .markup text => markup text
  | .raw e => do
    let body ← if e.name = "script".toList then script e.body else style e.body
    let opening ← markup e.opening
    return opening ++ body ++ e.closing

/-- A document with its markup and the bodies of its elements passed through the functions given
for them. -/
def mapDocument (markup script style : Text → Except ε Text) (document : Text) : Except ε Text :=
  ((blocks document).mapM (mapBlock markup script style)).map List.flatten

end WebTrim.Markup
