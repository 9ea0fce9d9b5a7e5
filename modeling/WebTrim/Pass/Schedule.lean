import WebTrim.FileTree

/-!
# Schedules

The files of a phase are worked on side by side, so they can be done in any order. A schedule tells
the order in which the tasks of each phase are done.
-/

set_option autoImplicit false

namespace WebTrim.Pass

/-- The order in which the tasks of each phase are done. -/
structure Schedule where
  reads : List (Path × Content) → List (Path × Content)
  scans : List (Path × Text) → List (Path × Text)
  optimizations : List (Path × Text) → List (Path × Text)
  reads_perm : ∀ tasks, (reads tasks).Perm tasks
  scans_perm : ∀ tasks, (scans tasks).Perm tasks
  optimizations_perm : ∀ tasks, (optimizations tasks).Perm tasks

/-- Every task is done in its turn. -/
def Schedule.inOrder : Schedule where
  reads := id
  scans := id
  optimizations := id
  reads_perm := fun _ => .refl _
  scans_perm := fun _ => .refl _
  optimizations_perm := fun _ => .refl _

end WebTrim.Pass
