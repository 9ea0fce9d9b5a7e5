import WebTrim.Failure

/-!
# The size gate

A step on a text is kept only if its result is strictly smaller in UTF-8 bytes.

* `Gate.smaller` — one of two texts: the candidate exactly when it is strictly smaller.
* `Gate.run` — a step behind the gate: a fault counts as "no change", a crash is passed on.
* `Gate.run_eq_or_lt` — what passes the gate is the text itself or strictly smaller.
-/

set_option autoImplicit false

namespace WebTrim.Gate

open Text

/-- The candidate if it is strictly smaller than the current text, else the current text. -/
def smaller (current candidate : Text) : Text :=
  if byteLength candidate < byteLength current then candidate else current

theorem smaller_eq_or_lt (current candidate : Text) :
    smaller current candidate = current ∨
      byteLength (smaller current candidate) < byteLength current := by
  unfold smaller
  split
  · exact .inr (by assumption)
  · exact .inl rfl

/-- One step behind the gate. -/
def run (step : Text → Except Stop Text) (current : Text) : Except Crash Text :=
  match step current with
  | .ok candidate => .ok (smaller current candidate)
  | .error (.fault _) => .ok current
  | .error (.crash c) => .error c

theorem run_eq_or_lt {step : Text → Except Stop Text} {current result : Text}
    (h : run step current = .ok result) :
    result = current ∨ byteLength result < byteLength current := by
  unfold run at h
  split at h
  · next candidate _ =>
    cases h
    exact smaller_eq_or_lt current candidate
  · cases h
    exact .inl rfl
  · cases h

/-- A step that always has a result, behind the gate. -/
def pass (step : Text → Text) (current : Text) : Text :=
  smaller current (step current)

end WebTrim.Gate
