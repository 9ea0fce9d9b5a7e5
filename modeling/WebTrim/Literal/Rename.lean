import WebTrim.Literal.ClassList
import WebTrim.Literal.IdReference
import WebTrim.Markup.Encoded
import WebTrim.Stylesheet.CustomProperty

/-!
# Renaming in literals of a script

A literal may name custom properties, hold markup, be a class list, or refer to ids. If it changes
as a class list it is not read as an id reference.
-/

set_option autoImplicit false

namespace WebTrim.Literal

/-- The literal with the short names of everything it refers to. -/
def rename (decode : Text → Text) (renames : Renames) (literal : Text) : Text :=
  let withProperties := Stylesheet.renameProperties renames.properties literal
  let withMarkup :=
    if Markup.hasTag withProperties then Markup.renameTags decode renames withProperties
    else withProperties
  let withClasses := renameClassLiteral renames.classes withMarkup
  if withClasses = withMarkup then renameIds renames.ids withMarkup else withClasses

/-- The parts of a literal that are decoded when it is renamed. -/
def namesToDecode (renames : Renames) (literal : Text) : List Text :=
  Markup.namesToDecode renames (Stylesheet.renameProperties renames.properties literal)

end WebTrim.Literal
