import WebTrim.Optimize
import WebTrim.Proofs.Failure
import WebTrim.Proofs.Text.Size

/-!
# Optimizing never makes a text larger

Every step on a text stands behind the size gate, also the steps inside a step. Whatever the steps
do, each function gives its text back or a strictly smaller one.

* `Gate.pass_shrinks`, `attempt_shrinks` — one step behind the gate.
* `stylesheet_shrinks`, `script_shrinks`, `document_shrinks` — the steps for one kind of text.
* `file_shrinks` — **an optimized file is the same or strictly smaller**.
-/

set_option autoImplicit false

namespace WebTrim

open Text

theorem Gate.pass_shrinks (step : Text → Text) (t : Text) : ShrinksTo t (Gate.pass step t) :=
  Gate.smaller_eq_or_lt t (step t)

namespace Optimize

variable {tools : Toolkit} {renames : Renames} {settings : Settings} {t path result : Text}

theorem attempt_shrinks {step : Text → Except Crash Text} (h : attempt step t = .ok result) :
    ShrinksTo t result :=
  Gate.run_eq_or_lt h

theorem stylesheet_shrinks (h : stylesheet tools renames settings t = .ok result) :
    ShrinksTo t result := by
  obtain ⟨renamed, hrenamed⟩ : ∃ renamed, renamed =
    Gate.pass (Stylesheet.rename renames.classes renames.ids renames.properties) t := ⟨_, rfl⟩
  have hsteps : stylesheet tools renames settings t =
      (if settings.foldCalc then attempt Calc.foldStylesheet renamed else pure renamed) >>=
        fun folded =>
          (if settings.foldColors then attempt Color.foldStylesheet folded else pure folded) >>=
            fun colored =>
              if settings.minifyStylesheets then Gate.run tools.minify colored
              else pure colored := by
    rw [hrenamed]
    unfold stylesheet
    cases settings.foldCalc <;> cases settings.foldColors <;> rfl
  rw [hsteps] at h
  obtain ⟨folded, hfolded, hrest⟩ := exists_of_bind_eq_ok h
  obtain ⟨colored, hcolored, hminified⟩ := exists_of_bind_eq_ok hrest
  have hrename : ShrinksTo t renamed := hrenamed ▸ Gate.pass_shrinks _ t
  have hfold : ShrinksTo renamed folded := by
    split at hfolded
    · exact attempt_shrinks hfolded
    · cases hfolded
      exact .refl renamed
  have hcolor : ShrinksTo folded colored := by
    split at hcolored
    · exact attempt_shrinks hcolored
    · cases hcolored
      exact .refl folded
  have hminify : ShrinksTo colored result := by
    split at hminified
    · exact Gate.run_eq_or_lt hminified
    · cases hminified
      exact .refl result
  exact ((hrename.trans hfold).trans hcolor).trans hminify

theorem script_shrinks (h : script tools renames settings t = .ok result) :
    ShrinksTo t result := by
  have hsteps : script tools renames settings t =
      (if renames.isEmpty then pure t else attempt (literals tools renames) t) >>= fun renamed =>
        pure (if settings.minifyShaders then Gate.pass Shader.minifyScript renamed else renamed) := by
    unfold script
    cases renames.isEmpty <;> rfl
  rw [hsteps] at h
  obtain ⟨renamed, hrenamed, hresult⟩ := exists_of_bind_eq_ok h
  have hrename : ShrinksTo t renamed := by
    split at hrenamed
    · cases hrenamed
      exact .refl t
    · exact attempt_shrinks hrenamed
  cases hresult
  split
  · exact hrename.trans (Gate.pass_shrinks _ renamed)
  · exact hrename

theorem document_shrinks (h : document tools renames settings t = .ok result) :
    ShrinksTo t result :=
  attempt_shrinks h

theorem file_eq_bind :
    file tools renames settings path t =
      (match FileKind.ofPath? path with
        | some .stylesheet => stylesheet tools renames settings t
        | some .script => script tools renames settings t
        | some .document => document tools renames settings t
        | none => pure t) >>= fun optimized =>
        pure (if renames.scopes.isEmpty then optimized
          else Gate.pass (ScopeId.rename renames.scopeLead renames.scopes) optimized) := by
  unfold file
  cases FileKind.ofPath? path with
  | none => rfl
  | some kind => cases kind <;> rfl

/-- An optimized file is the file itself or strictly smaller. -/
theorem file_shrinks (h : file tools renames settings path t = .ok result) :
    ShrinksTo t result := by
  rw [file_eq_bind] at h
  obtain ⟨optimized, hoptimized, hresult⟩ := exists_of_bind_eq_ok h
  have hkind : ShrinksTo t optimized := by
    split at hoptimized
    · exact stylesheet_shrinks hoptimized
    · exact script_shrinks hoptimized
    · exact document_shrinks hoptimized
    · cases hoptimized
      exact .refl t
  cases hresult
  split
  · exact hkind
  · exact hkind.trans (Gate.pass_shrinks _ optimized)

end Optimize

end WebTrim
