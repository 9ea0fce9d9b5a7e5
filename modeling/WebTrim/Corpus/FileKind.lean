import WebTrim.Text.Case

/-!
# Kinds of files

What a file holds is told from the end of its path, in any case.
-/

set_option autoImplicit false

namespace WebTrim

open Text

/-- The kinds of files whose names can be shortened. -/
inductive FileKind where
  | stylesheet
  | script
  | document
  deriving DecidableEq, Repr

namespace FileKind

/-- The path endings of a kind. -/
def endings : FileKind → List Text
  | stylesheet => [".css".toList]
  | script => [".js".toList, ".mjs".toList, ".cjs".toList]
  | document => [".html".toList, ".htm".toList]

/-- The kind of the file at a path, if it is one of the three. -/
def ofPath? (path : Text) : Option FileKind :=
  [stylesheet, script, document].find? fun kind =>
    kind.endings.any fun ending => ending.isSuffixOf (lower path)

end FileKind

end WebTrim
