import WebTrim.Text.Basic

/-!
# Scanning a text into pieces

A scanner walks a text from left to right. At each place it sees its state, the next character and
the text after it, and decides how many characters to take along with that one, what to say about
them, and the state to go on with.

* `scan` — the pieces of a text, each nonempty; `scan_text`: they concatenate to the text.
* `Matcher.findAll`, `Matcher.replaceAll` — what was found, and the text with the finds replaced.
* `Matcher` — scanners whose state is the character before the current place.
-/

set_option autoImplicit false

namespace WebTrim

/-- A part of a scanned text and what the scanner says about it. -/
structure Piece (β : Type) where
  text : Text
  note : β
  deriving DecidableEq, Repr

/-- A scanner's decision at one place: `extra` characters are taken after the current one. -/
structure Step (σ β : Type) where
  extra : Nat
  note : β
  next : σ

namespace Text

variable {σ β α : Type}

/-- The pieces of a text. -/
def scan (step : σ → Char → Text → Step σ β) (state : σ) : Text → List (Piece β)
  | [] => []
  | c :: rest =>
    let s := step state c rest
    ⟨c :: rest.take s.extra, s.note⟩ :: scan step s.next (rest.drop s.extra)
termination_by t => t.length
decreasing_by
  simp only [List.length_drop, List.length_cons]
  omega

theorem scan_cons (step : σ → Char → Text → Step σ β) (state : σ) (c : Char) (rest : Text) :
    scan step state (c :: rest) =
      ⟨c :: rest.take (step state c rest).extra, (step state c rest).note⟩ ::
        scan step (step state c rest).next (rest.drop (step state c rest).extra) := by
  rw [scan]

@[simp] theorem scan_nil (step : σ → Char → Text → Step σ β) (state : σ) :
    scan step state [] = [] := by
  rw [scan]

/-- Nothing is lost: the pieces concatenate to the text. -/
theorem scan_text (step : σ → Char → Text → Step σ β) (state : σ) (t : Text) :
    (scan step state t).flatMap Piece.text = t := by
  fun_induction scan step state t with
  | case1 => rfl
  | case2 state c rest s ih => simp [ih]

/-- No piece is empty. -/
theorem scan_ne_nil (step : σ → Char → Text → Step σ β) (state : σ) (t : Text) :
    ∀ p ∈ scan step state t, p.text ≠ [] := by
  fun_induction scan step state t with
  | case1 => simp
  | case2 state c rest s ih => simpa using ih

/-- A matcher looks at the character before a place, the character there and the text after it. It
tells how many characters to take after the current one and what was found, if anything. -/
abbrev Matcher (α : Type) := Option Char → Char → Text → Nat × Option α

/-- A matcher as a scanner whose state is the last character taken. -/
def Matcher.step (m : Matcher α) (before : Option Char) (c : Char) (rest : Text) :
    Step (Option Char) (Option α) :=
  let (extra, found) := m before c rest
  ⟨extra, found, some ((rest.take extra).getLastD c)⟩

/-- The pieces of a text under a matcher. -/
def Matcher.pieces (m : Matcher α) (t : Text) : List (Piece (Option α)) :=
  scan m.step none t

theorem Matcher.pieces_text (m : Matcher α) (t : Text) :
    (m.pieces t).flatMap Piece.text = t :=
  scan_text _ _ _

/-- Everything a matcher finds, from left to right. -/
def Matcher.findAll (m : Matcher α) (t : Text) : List α :=
  (m.pieces t).filterMap Piece.note

/-- The text with every find replaced where `f` gives a replacement. -/
def Matcher.replaceAll (m : Matcher α) (f : α → Option Text) (t : Text) : Text :=
  (m.pieces t).flatMap fun p => ((p.note.bind f).getD p.text)

/-- A matcher that looks for one pattern: it finds what `pattern` finds and otherwise takes a single
character. The pattern gives the number of characters after the first and the find. -/
def Matcher.ofPattern (pattern : Option Char → Char → Text → Option (Nat × α)) : Matcher α :=
  fun before c rest =>
    match pattern before c rest with
    | some (extra, found) => (extra, some found)
    | none => (0, none)

end Text

end WebTrim
