import WebTrim.Stylesheet.AttributeSelector
import WebTrim.Stylesheet.CustomProperty
import WebTrim.Stylesheet.Selector
import WebTrim.Stylesheet.UrlFragment

/-!
# Renaming a stylesheet

Classes, ids and custom properties are renamed in the code of a stylesheet; attribute selectors and
references to ids anywhere in it.
-/

set_option autoImplicit false

namespace WebTrim.Stylesheet

/-- The renaming of one code token. -/
def renameCode (classes ids properties : RenameMap) (code : Text) : Text :=
  renameProperties properties (renameMarked '#' ids (renameMarked '.' classes code))

/-- A stylesheet with classes, ids and custom properties renamed. -/
def rename (classes ids properties : RenameMap) (css : Text) : Text :=
  UrlFragment.renameAll ids
    (AttributeSelector.renameAll classes ids (mapCode (renameCode classes ids properties) css))

end WebTrim.Stylesheet
