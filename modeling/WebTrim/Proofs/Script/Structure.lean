import WebTrim.Proofs.Script.Replacement

/-!
# Changing literals and the structure of a script

A function is applied to the body of each literal of a script, and each body stays or becomes a safe
one. The new script has the same tokens, up to those bodies, exactly if no slash that was passed over
for want of a close on its line is closed by a new body.

* `SlashesStayOpen` — the condition on slashes.
* `preserved` — the tokens of the new script are the mapped ones, or a slash begins a longer run of
  code than before.
* `mapLiterals_structure_iff` — **the structure stays exactly if the slashes stay open**.
-/

set_option autoImplicit false

namespace WebTrim.Script

open Text

/-! ## Mapped tokens -/

/-- The character that delimits a literal. -/
def delimiter (t : Token Kind) : Char :=
  match t.kind with
  | .string => t.text.headD '"'
  | _ => '`'

/-- `f` leaves the body of the token as it is or makes it a safe one. -/
def SafelyMapped (f : Text → Text) (t : Token Kind) : Prop :=
  ∀ body, literalBody? t = some body → f body = body ∨ SafeBody (delimiter t) (f body)

instance (f : Text → Text) (t : Token Kind) : Decidable (SafelyMapped f t) :=
  inferInstanceAs (Decidable (∀ body ∈ literalBody? t, _))

/-- The text of the tokens with `f` applied to each body. -/
def mappedText (f : Text → Text) (ts : List (Token Kind)) : Text :=
  Token.join (ts.map (mapToken f))

section Mapped

variable (f : Text → Text)

theorem mapToken_kind (t : Token Kind) : (mapToken f t).kind = t.kind := by
  unfold mapToken
  split <;> simp_all

theorem mapToken_of_ne {t : Token Kind} (hstring : t.kind ≠ .string) (hsegment : t.kind ≠ .segment) :
    mapToken f t = t := by
  unfold mapToken
  split <;> simp_all

theorem mapToken_segment (text : Text) : mapToken f ⟨.segment, text⟩ = ⟨.segment, f text⟩ := rfl

theorem mapToken_string {quote : Char} {text body closing : Text}
    (h : Quoted.ofText text = ⟨[quote], body, closing⟩) :
    mapToken f ⟨.string, text⟩ = ⟨.string, quote :: (f body ++ closing)⟩ := by
  simp [mapToken, h, Quoted.text]

theorem mergeRuns_map_mapToken (ts : List (Token Kind)) :
    Token.mergeRuns .code (ts.map (mapToken f)) = (Token.mergeRuns .code ts).map (mapToken f) :=
  Token.mergeRuns_map (mapToken_kind f)
    (fun t ht => mapToken_of_ne f (by simp [ht]) (by simp [ht])) ts

theorem mapLiterals_eq (script : Text) :
    mapLiterals f script = mappedText f (atoms false [] [] script) := by
  rw [mapLiterals, tokens_eq, ← mergeRuns_map_mapToken, Token.join_mergeRuns, mappedText]

end Mapped

/-! ## Slashes -/

/-- Of each slash at which a regular expression may begin, but none is closed on its line, the same
is true when `f` has been applied to the literals after it. -/
def SlashesStayOpen (f : Text → Text) (behind : Text) : List (Token Kind) → Prop
  | [] => True
  | t :: ts =>
    (t = ⟨.code, ['/']⟩ → regexAllowed behind = true →
      regexLength? false (mappedText f ts) = none) ∧
    SlashesStayOpen f (t.text.reverse ++ behind) ts

instance decidableSlashesStayOpen (f : Text → Text) :
    (behind : Text) → (ts : List (Token Kind)) → Decidable (SlashesStayOpen f behind ts)
  | _, [] => .isTrue trivial
  | behind, t :: ts =>
    have := decidableSlashesStayOpen f (t.text.reverse ++ behind) ts
    inferInstanceAs (Decidable (_ ∧ _))

theorem slashesStayOpen_iff (f : Text → Text) (behind : Text) (ts : List (Token Kind)) :
    SlashesStayOpen f behind ts ↔ SlashesOpen behind ts (ts.map (mapToken f)) := by
  induction ts generalizing behind with
  | nil => rfl
  | cons t ts ih => rw [SlashesStayOpen, List.map_cons, SlashesOpen, ih, mappedText]

/-! ## The structure of the new script -/

section Structure

variable (f : Text → Text)

theorem skeleton_mapToken (t : Token Kind) : skeleton (mapToken f t) = skeleton t := by
  obtain ⟨kind, text⟩ := t
  cases kind <;> rfl

theorem map_skeleton_map_mapToken (ts : List (Token Kind)) :
    (ts.map (mapToken f)).map skeleton = ts.map skeleton := by
  rw [List.map_map]
  exact List.map_congr_left fun t _ => skeleton_mapToken f t

/-- A string token begins with its quote. -/
theorem quote_of_mem_atoms (inTemplate : Bool) (holes : List Nat) (behind t : Text) :
    ∀ a ∈ atoms inTemplate holes behind t, a.kind = .string →
      ∃ quote rest, IsQuote quote ∧ a.text = quote :: rest := by
  refine forall_mem_atoms (fun _ => nofun) (fun _ _ => nofun) (fun _ => nofun) ?_ _ _ _ _
  intro behind rest c kind n hread hkind
  subst hkind
  cases hread with
  | string rest hquote => exact ⟨c, _, hquote, rfl⟩

variable {f}

/-- The body of a mapped literal is the mapped body. -/
theorem literalBody?_mapToken {t : Token Kind}
    (hstring : t.kind = .string → ∃ quote rest, IsQuote quote ∧ t.text = quote :: rest)
    (hsafe : SafelyMapped f t) : literalBody? (mapToken f t) = (literalBody? t).map f := by
  obtain ⟨kind, text⟩ := t
  cases kind with
  | code | comment | segment | operator => rfl
  | string =>
    obtain ⟨quote, rest, hquote, htext⟩ := hstring rfl
    simp only at htext
    subst htext
    have hslash := hquote.ne_backslash
    rcases Quoted.ofText_cases quote rest with ⟨body, rfl, hquoted⟩ | hquoted
    · rw [mapToken_string f hquoted]
      simp only [literalBody?, hquoted, Option.map_some, Option.some.injEq]
      rcases hsafe body (by simp [literalBody?, hquoted]) with hsame | hnew
      · rw [hsame, hquoted]
      · rw [Quoted.ofText_closed hslash hnew]
    · rw [mapToken_string f hquoted, List.append_nil]
      simp only [literalBody?, hquoted, Option.map_some, Option.some.injEq]
      rcases hsafe rest (by simp [literalBody?, hquoted]) with hsame | hnew
      · rw [hsame, hquoted]
      · rw [Quoted.ofText_open hslash hnew]

/-- A literal whose body `f` keeps or makes safe is rewritten. -/
theorem SafelyMapped.rewrites {t : Token Kind}
    (hstring : t.kind = .string → ∃ quote rest, IsQuote quote ∧ t.text = quote :: rest)
    (hsafe : SafelyMapped f t) : Rewrites t (mapToken f t) := by
  obtain ⟨kind, text⟩ := t
  cases kind with
  | code | comment | operator => exact .same _
  | segment =>
    rw [mapToken_segment]
    rcases hsafe text rfl with hsame | hnew
    · rw [hsame]
      exact .same _
    · exact .segment text hnew
  | string =>
    obtain ⟨quote, rest, hquote, htext⟩ := hstring rfl
    simp only at htext
    subst htext
    obtain ⟨body, closing, hrest, hquoted⟩ : ∃ body closing,
        rest = body ++ closing ∧ Quoted.ofText (quote :: rest) = ⟨[quote], body, closing⟩ := by
      rcases Quoted.ofText_cases quote rest with ⟨body, hrest, hquoted⟩ | hquoted
      · exact ⟨body, [quote], hrest, hquoted⟩
      · exact ⟨rest, [], (List.append_nil rest).symm, hquoted⟩
    rw [mapToken_string f hquoted]
    rcases hsafe body (by simp [literalBody?, hquoted]) with hsame | hnew
    · rw [hsame, ← hrest]
      exact .same _
    · exact .string hquote hquoted hnew

variable (f) in
/-- **Every text is preserved**: it is a case of replacing literals. -/
theorem preserved (inTemplate : Bool) (holes : List Nat) (t behind behind' : Text)
    (hbehind : inTemplate = false → SameBehind behind behind')
    (hsafe : ∀ a ∈ atoms inTemplate holes behind t, SafelyMapped f a) :
    SlashesStayOpen f behind (atoms inTemplate holes behind t) ∧
        atoms inTemplate holes behind' (mappedText f (atoms inTemplate holes behind t)) =
          (atoms inTemplate holes behind t).map (mapToken f) ∨
      ¬SlashesStayOpen f behind (atoms inTemplate holes behind t) ∧
        Diverges (atoms inTemplate holes behind t)
          (atoms inTemplate holes behind' (mappedText f (atoms inTemplate holes behind t))) := by
  rw [slashesStayOpen_iff]
  refine preserved_of_rewrites inTemplate holes t behind behind' _ hbehind ?_
  rw [List.forall₂_map_right_iff, List.forall₂_same]
  intro a ha
  exact (hsafe a ha).rewrites (quote_of_mem_atoms inTemplate holes behind t a ha)

/-- **The structure of a script stays exactly if its slashes stay open.** Let `f` keep each body of
a literal or make it safe for its delimiter. Then the script with `f` applied to its literals has
tokens of the same kinds in the same order, with the same text outside literals, and its literals
are those of the script under `f`, exactly if no slash that was passed over as a division, because
no regular expression was closed on its line, begins one now. -/
theorem mapLiterals_structure_iff (f : Text → Text) (script : Text)
    (hsafe : ∀ t ∈ tokens script, SafelyMapped f t) :
    ((tokens (mapLiterals f script)).map skeleton = (tokens script).map skeleton ∧
        literals (mapLiterals f script) = (literals script).map f) ↔
      SlashesStayOpen f [] (atoms false [] [] script) := by
  have hatoms : ∀ a ∈ atoms false [] [] script, SafelyMapped f a := by
    intro a ha body hbody
    have hcode : a.kind ≠ .code := by
      intro hcode
      simp [literalBody?, hcode] at hbody
    rw [← Token.mem_mergeRuns hcode, ← tokens_eq] at ha
    exact hsafe a ha body hbody
  have houtcome := preserved f false [] script [] [] (fun _ _ => rfl) hatoms
  rw [← mapLiterals_eq] at houtcome
  rcases houtcome with ⟨hopen, hnew⟩ | ⟨hclosed, hdiverges⟩
  · refine iff_of_true ⟨?_, ?_⟩ hopen
    · rw [tokens_eq, hnew, mergeRuns_map_mapToken, map_skeleton_map_mapToken, tokens_eq]
    · rw [literals, tokens_eq, hnew, mergeRuns_map_mapToken, List.filterMap_map, literals,
        List.map_filterMap, ← tokens_eq]
      apply List.filterMap_congr
      intro t ht
      refine literalBody?_mapToken (fun hkind => ?_) (hsafe t ht)
      rw [tokens_eq, Token.mem_mergeRuns (by simp [hkind])] at ht
      exact quote_of_mem_atoms false [] [] script t ht hkind
  · refine iff_of_false (fun h => hdiverges.skeleton_ne ?_) hclosed
    rw [← tokens_eq, ← tokens_eq]
    exact h.1

/-- A new body may close a slash: the quote that opened the string then belongs to a regular
expression. -/
theorem structure_lost_at_slash :
    (∀ t ∈ tokens "x=(/ \"b\"".toList, SafelyMapped (fun _ => "/i".toList) t) ∧
      (tokens (mapLiterals (fun _ => "/i".toList) "x=(/ \"b\"".toList)).map skeleton ≠
        (tokens "x=(/ \"b\"".toList).map skeleton := by
  decide +kernel

/-- Bodies written twice, in strings, in a template and in its hole, behind a slash that stays
open. -/
theorem mapLiterals_structure_doubled :
    (∀ t ∈ tokens "x=(/ \"b\\\"\"+`u$$\x7b'd'\x7dw`+'".toList, SafelyMapped (fun b => b ++ b) t) ∧
      literals (mapLiterals (fun b => b ++ b) "x=(/ \"b\\\"\"+`u$$\x7b'd'\x7dw`+'".toList) =
        ["b\\\"b\\\"".toList, "u$u$".toList, "dd".toList, "ww".toList, []] := by
  have hsafe : ∀ t ∈ tokens "x=(/ \"b\\\"\"+`u$$\x7b'd'\x7dw`+'".toList,
      SafelyMapped (fun b => b ++ b) t := by decide +kernel
  refine ⟨hsafe, ?_⟩
  rw [((mapLiterals_structure_iff _ _ hsafe).mpr (by decide +kernel)).2]
  decide +kernel

end Structure

end WebTrim.Script
