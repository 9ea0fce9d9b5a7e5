import WebTrim.Corpus.Harvest
import WebTrim.Settings.Basic

/-!
# Short names for a corpus

Each category gets its short names on its own. A custom property keeps its two dashes; scope ids are
lower case letters and digits, since documents compare them without regard to case.
-/

set_option autoImplicit false

namespace WebTrim

/-- The short names of a category, or none if it is switched off. -/
def Inventory.renames (on : Bool) (alphabet : Alphabet) (lead : Text) (names : Inventory) :
    RenameMap :=
  if on then Naming.allocate alphabet lead (names.records.map Record.candidate) names.reserved
  else {}

/-- The short names of a corpus. -/
def Harvest.renames (harvest : Harvest) (settings : Settings) : Renames where
  properties := harvest.properties.renames settings.renameProperties .latin "--".toList
  classes := harvest.classes.renames settings.renameClasses .latin []
  ids := harvest.ids.renames settings.renameIds .latin []
  scopes := harvest.scopeIds.renames settings.renameScopeIds .lowerDigits []
  scopeLead := settings.scopeLead

end WebTrim
