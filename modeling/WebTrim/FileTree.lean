import WebTrim.Text.Case

/-!
# Trees of files

A tree of files is a value: its directories and the contents of its files, by path.

* `Path.extension` — the ending of a file name from its last dot on.
* `FileTree.put`, `FileTree.erase` — no path ever occurs twice.
* `FileTree.find` — the files with given extensions, in path order.
-/

set_option autoImplicit false

namespace WebTrim

open Text

/-- A path in a tree: the names on the way from the root. -/
abbrev Path := List Text

namespace Path

/-- The path with a slash between names. -/
def text (path : Path) : Text :=
  join ['/'] path

/-- Path order: the names are compared one by one. -/
def le : Path → Path → Bool
  | [], _ => true
  | _ :: _, [] => false
  | a :: p, b :: q => if a = b then le p q else Text.le a b

/-- The ending of the last name from its last dot on. A name has no ending if its only dot comes
first, or if its last dot comes last. -/
def extension (path : Path) : Text :=
  let (ending, before) := splitWhile (· ≠ '.') (path.getLastD []).reverse
  if 1 < before.length ∧ ending ≠ [] then '.' :: ending.reverse else []

/-- The paths of the directories on the way to a path. -/
def parents (path : Path) : List Path :=
  (List.range path.length).map path.take

end Path

/-- What a file holds. -/
inductive Content where
  | text (t : Text)
  /-- Bytes that are no UTF-8 text. -/
  | bytes (b : List UInt8)
  /-- A file that is there but cannot be opened. -/
  | locked
  /-- A text in a file that can be opened but not written. -/
  | readOnly (t : Text)
  deriving DecidableEq, Repr

/-- A tree of files. Its root is always a directory. -/
structure FileTree where
  directories : List Path := []
  files : List (Path × Content) := []
  distinct : (files.map Prod.fst).Nodup := by simp

namespace FileTree

/-- What the file at a path holds, if there is one. -/
def content? (tree : FileTree) (path : Path) : Option Content :=
  tree.files.lookup path

/-- Whether the file at a path can be read but not written. -/
def isReadOnly (tree : FileTree) (path : Path) : Bool :=
  match tree.content? path with
  | some (.readOnly _) => true
  | _ => false

/-- Whether there is a directory at a path. -/
def isDirectory (tree : FileTree) (path : Path) : Bool :=
  path.isEmpty || tree.directories.contains path

/-- The files with a new content at a path that is among them. -/
def replaceIn (path : Path) (content : Content) (files : List (Path × Content)) :
    List (Path × Content) :=
  files.map fun f => if f.1 = path then (f.1, content) else f

theorem paths_replaceIn (path : Path) (content : Content) (files : List (Path × Content)) :
    (replaceIn path content files).map Prod.fst = files.map Prod.fst := by
  unfold replaceIn
  rw [List.map_map]
  apply List.map_congr_left
  intro f _
  simp only [Function.comp_apply]
  split <;> rfl

/-- The tree with a content at a path; directories on the way are made. -/
def put (tree : FileTree) (path : Path) (content : Content) : FileTree :=
  let directories := (tree.directories ++ path.parents.filter (· ≠ [])).eraseDups
  if h : path ∈ tree.files.map Prod.fst then
    { directories
      files := replaceIn path content tree.files
      distinct := by rw [paths_replaceIn]; exact tree.distinct }
  else
    { directories
      files := tree.files ++ [(path, content)]
      distinct := by
        rw [List.map_append, List.nodup_append]
        refine ⟨tree.distinct, by simp, ?_⟩
        intro a ha b hb hab
        simp only [List.map_cons, List.map_nil, List.mem_singleton] at hb
        rw [hab, hb] at ha
        exact h ha }

/-- The tree without the file at a path. -/
def erase (tree : FileTree) (path : Path) : FileTree where
  directories := tree.directories
  files := tree.files.filter (·.1 ≠ path)
  distinct := tree.distinct.sublist (List.filter_sublist.map Prod.fst)

/-- The tree with several contents put one after another. -/
def putAll (tree : FileTree) (files : List (Path × Content)) : FileTree :=
  files.foldl (fun tree (path, content) => tree.put path content) tree

/-- The tree of the given files. -/
def ofFiles (files : List (Path × Content)) : FileTree :=
  putAll {} files

/-- The tree that a directory holds. -/
def below (tree : FileTree) (root : Path) : FileTree :=
  let made : FileTree := { directories := tree.directories.filterMap root.isPrefixOf? }
  made.putAll (tree.files.filterMap fun (path, content) =>
    (root.isPrefixOf? path).map fun rest => (rest, content))

/-- Whether a file is looked for. -/
def isWanted (extensions : List Text) (path : Path) : Bool :=
  (extensions.map lower).contains (lower path.extension)

/-- The files with one of the extensions, in path order. -/
def find (tree : FileTree) (extensions : List Text) : List (Path × Content) :=
  (tree.files.filter fun (path, _) => isWanted extensions path).mergeSort
    fun a b => Path.le a.1 b.1

end FileTree

end WebTrim
