import WebTrim.Proofs.Script.Template
import WebTrim.Proofs.Shader.Characters

/-!
# The script around a shader

Shaders stand in template literals, so a minified shader must not end its template early. No step
writes a backslash or a backtick. A step may bring a `$` next to a `{`, which opens a hole.

* `safeBody_minifyBody` — a body is kept, or it is safe once minified, unless it then opens a hole.
* `minifyScript_framed_iff` — **the script around its shaders stays exactly if the slashes stay
  open**, for scripts in which no changed shader opens a hole.
-/

set_option autoImplicit false

namespace WebTrim.Shader

open Text Script

theorem minifyBody_eq_or (body : Text) :
    minifyBody body = body ∨ minify? body = some (minifyBody body) := by
  unfold minifyBody
  split
  · rename_i short hshort
    split
    · exact .inr hshort
    · exact .inl rfl
  · exact .inl rfl

theorem backslash_not_mem_of_minify? {body short : Text} (h : minify? body = some short) :
    '\\' ∉ body := by
  intro hmem
  unfold minify? at h
  rw [if_pos (by simp [hmem])] at h
  cases h

/-- Minifying brings no character into a body but letters, zeros, number signs and blanks. -/
theorem not_mem_minifyBody {d : Char} (hletter : isAsciiLetter d = false)
    (hwritten : d ∉ ['0', '#', ' ', '\n']) {body : Text} (h : d ∉ body) : d ∉ minifyBody body := by
  simp only [List.mem_cons, List.not_mem_nil, or_false, not_or] at hwritten
  have hadmits : Admits (· ≠ d) := {
    letter := by
      rintro c hc rfl
      rw [hletter] at hc
      cases hc
    zero := Ne.symm hwritten.1
    sign := Ne.symm hwritten.2.1
    space := Ne.symm hwritten.2.2.1
    newline := Ne.symm hwritten.2.2.2 }
  intro hmem
  refine keeps_minifyBody hadmits body (fun c hc => ?_) d hmem rfl
  rintro rfl
  exact h hc

/-- **A template body that is changed is safe unless it opens a hole.** -/
theorem safeBody_minifyBody {script body : Text} (htemplate : template body <:+: Script.tokens script)
    (hhole : minifyBody body ≠ body → occursIn ['$', '{'] (minifyBody body) = false) :
    minifyBody body = body ∨ SafeBody '`' (minifyBody body) := by
  by_cases hchanged : minifyBody body = body
  · exact .inl hchanged
  have hminified := (minifyBody_eq_or body).resolve_left hchanged
  have hslash := backslash_not_mem_of_minify? hminified
  have hsegment : (⟨.segment, body⟩ : Token Script.Kind) ∈ atoms false [] [] script := by
    have hmem : (⟨.segment, body⟩ : Token Script.Kind) ∈ Script.tokens script :=
      htemplate.subset (by simp [template])
    rwa [Script.tokens_eq, Token.mem_mergeRuns (by simp)] at hmem
  have htick : '`' ∉ body := backtick_not_mem_of_mem_atoms _ _ _ _ _ hsegment rfl hslash
  refine .inr (safeBody_of_not_occursIn (fun c hc => ⟨?_, ?_⟩) (hhole hchanged))
  · rintro rfl
    exact not_mem_minifyBody (by decide) (by decide) hslash hc
  · rintro rfl
    exact not_mem_minifyBody (by decide) (by decide) htick hc

theorem minifyScript_eq (script : Text) :
    minifyScript script = Token.join (mapTemplates minifyBody false (Script.tokens script)) := by
  unfold minifyScript
  rw [← mapIdx_plainTemplates]

/-- **Minifying shaders changes nothing around them exactly if the slashes stay open.** Let no shader
of a script open a hole where it is changed. Then the minified script has tokens of the same kinds in the
same order, and with the same texts except that templates without a hole may be minified, exactly if
no slash that was passed over as a division, because no regular expression was closed on its line,
begins one now. -/
theorem minifyScript_framed_iff (script : Text)
    (hholes : ∀ k ∈ plainTemplates (Script.tokens script), ∀ t ∈ (Script.tokens script)[k]?,
      minifyBody t.text ≠ t.text → occursIn ['$', '{'] (minifyBody t.text) = false) :
    Framed (fun body short => minify? body = some short) (Script.tokens script)
        (Script.tokens (minifyScript script)) ↔
      SlashesOpen [] (atoms false [] [] script)
        (mapTemplates minifyBody false (atoms false [] [] script)) := by
  rw [minifyScript_eq]
  refine framed_mapTemplates_iff minifyBody_eq_or script fun body htemplate => ?_
  obtain ⟨k, hk, hbody⟩ := exists_mem_plainTemplates htemplate
  exact safeBody_minifyBody htemplate (hholes k hk _ hbody)

/-- A shader behind a slash that stays open, beside a template with an escaped hole, which is kept. -/
theorem minifyScript_framed_behind_slash :
    let script := "x=(/ `void main() \x7b \x7d`+`\\$\x7ba\x7d`;".toList
    minifyScript script = "x=(/ `void main()\x7b\x7d`+`\\$\x7ba\x7d`;".toList ∧
      Framed (fun body short => minify? body = some short) (Script.tokens script)
        (Script.tokens (minifyScript script)) :=
  ⟨by decide +kernel, (minifyScript_framed_iff _ (by decide +kernel)).mpr (by decide +kernel)⟩

/-- Kinds change where a newline behind a slash goes, so that a slash of the shader closes a regular
expression, and where the space between a `$` and a `{` goes, so that a hole opens. -/
theorem kinds_changed_by_spacing :
    (Script.tokens (minifyScript "x=\x7b\x7d/`void main()\x7b\na=b/c;\x7d`.length".toList)).map
        Token.kind ≠
      (Script.tokens "x=\x7b\x7d/`void main()\x7b\na=b/c;\x7d`.length".toList).map Token.kind ∧
    (Script.tokens (minifyScript "x=`void main()\x7b\x7d$ \x7b`;".toList)).map Token.kind ≠
      (Script.tokens "x=`void main()\x7b\x7d$ \x7b`;".toList).map Token.kind := by
  decide +kernel

end WebTrim.Shader
