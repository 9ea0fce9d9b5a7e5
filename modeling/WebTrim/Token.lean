import WebTrim.Text.Scan

/-!
# Tokens

A token is a kind and the text it covers. A token list stands for the concatenation of its texts, so
a renamer replaces the texts it cares about and joins the rest. A scanner also records where each
token begins.

* `Token.join` — the text of a token list.
* `Token.mergeRuns` — neighbouring tokens of one kind become one; `join_mergeRuns`: same text.
* `Token.starts` — where tokens begin that stand one after another.
* `Placed.scan` — the tokens of a text, each with the place where the scanner found it.
* `Placed.mergeRuns` — runs are merged, and a run begins where its first token does.
-/

set_option autoImplicit false

namespace WebTrim

/-- A kind and the text it covers. -/
structure Token (κ : Type) where
  kind : κ
  text : Text
  deriving DecidableEq, Repr

namespace Token

variable {κ : Type}

/-- The text of a token list. -/
def join (tokens : List (Token κ)) : Text :=
  tokens.flatMap Token.text

@[simp] theorem join_nil : join ([] : List (Token κ)) = [] := rfl

@[simp] theorem join_cons (token : Token κ) (tokens : List (Token κ)) :
    join (token :: tokens) = token.text ++ join tokens := by
  simp [join]

@[simp] theorem join_append (tokens more : List (Token κ)) :
    join (tokens ++ more) = join tokens ++ join more := by
  simp [join]

/-- A scanned piece as a token, its note being the kind. -/
def ofPiece (p : Piece κ) : Token κ :=
  ⟨p.note, p.text⟩

theorem join_map_ofPiece (pieces : List (Piece κ)) :
    join (pieces.map ofPiece) = pieces.flatMap Piece.text := by
  induction pieces with
  | nil => rfl
  | cons p pieces ih => simp [ih, ofPiece]

variable [DecidableEq κ]

/-- Joins neighbouring tokens of the kind `k`. -/
def mergeRuns (k : κ) : List (Token κ) → List (Token κ)
  | [] => []
  | t :: rest =>
    match mergeRuns k rest with
    | [] => [t]
    | u :: merged =>
      if t.kind = k ∧ u.kind = k then ⟨k, t.text ++ u.text⟩ :: merged else t :: u :: merged

theorem join_mergeRuns (k : κ) (tokens : List (Token κ)) :
    join (mergeRuns k tokens) = join tokens := by
  induction tokens with
  | nil => rfl
  | cons t rest ih =>
    unfold mergeRuns
    split
    · next h => simp [← ih, h]
    · next u merged h =>
      split
      · simp [← ih, h]
      · simp [← ih, h]

omit [DecidableEq κ] in
/-- Where each token begins when the list begins at `start`. -/
def starts (start : Nat) : List (Token κ) → List Nat
  | [] => []
  | t :: rest => start :: starts (start + t.text.length) rest

end Token

/-- A token and the place where it begins. -/
structure Placed (κ : Type) extends Token κ where
  start : Nat
  deriving DecidableEq, Repr

namespace Placed

variable {σ κ : Type}

/-- A scanner with a cursor: it notes where the cursor stands, and moves it past what is taken. -/
def track (step : σ → Char → Text → Step σ κ) (state : σ × Nat) (c : Char) (rest : Text) :
    Step (σ × Nat) (κ × Nat) :=
  let s := step state.1 c rest
  ⟨s.extra, (s.note, state.2), (s.next, state.2 + (s.extra + 1))⟩

/-- A scanned piece as a token, its note being the kind and the place. -/
def ofPiece (p : Piece (κ × Nat)) : Placed κ :=
  ⟨⟨p.note.1, p.text⟩, p.note.2⟩

/-- The tokens of a text that begins at `start`. -/
def scan (step : σ → Char → Text → Step σ κ) (state : σ) (start : Nat) (t : Text) :
    List (Placed κ) :=
  (Text.scan (track step) (state, start) t).map ofPiece

/-- The cursor does not change what is read. -/
theorem map_toToken_scan (step : σ → Char → Text → Step σ κ) (state : σ) (start : Nat) (t : Text) :
    (scan step state start t).map toToken = (Text.scan step state t).map Token.ofPiece := by
  fun_induction Text.scan step state t generalizing start with
  | case1 => simp [scan]
  | case2 state c rest s ih =>
    rw [scan, Text.scan_cons, List.map_cons, List.map_cons, List.map_cons, ← ih (start + (s.extra + 1))]
    rfl

variable [DecidableEq κ]

/-- Joins neighbouring tokens of the kind `k`. -/
def mergeRuns (k : κ) : List (Placed κ) → List (Placed κ)
  | [] => []
  | t :: rest =>
    match mergeRuns k rest with
    | [] => [t]
    | u :: merged =>
      if t.kind = k ∧ u.kind = k then { t with text := t.text ++ u.text } :: merged
      else t :: u :: merged

/-- Runs are merged in the same way with places and without. -/
theorem map_toToken_mergeRuns (k : κ) (tokens : List (Placed κ)) :
    (mergeRuns k tokens).map toToken = Token.mergeRuns k (tokens.map toToken) := by
  induction tokens with
  | nil => rfl
  | cons t rest ih =>
    rw [mergeRuns, List.map_cons, Token.mergeRuns, ← ih]
    cases mergeRuns k rest with
    | nil => rfl
    | cons u merged =>
      simp only [List.map_cons]
      split
      · rename_i hrun
        rw [List.map_cons, ← hrun.1]
      · rfl

end Placed

end WebTrim
