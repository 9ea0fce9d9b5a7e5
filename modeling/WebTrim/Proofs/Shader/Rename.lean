import Mathlib.Data.List.Infix
import WebTrim.Proofs.Naming.Greedy
import WebTrim.Proofs.Shader.Characters
import WebTrim.Proofs.Shader.Declaration
import WebTrim.Proofs.Shader.Token

/-!
# Renaming the locals of a shader

* `mem_localNames` — the local names: declared outside of the interface, and not exempt.
* `rename_ne_iff` — **a name is renamed exactly if it is a local name and a smaller word is free**.
* `renameLocals_capture_free` — **renaming the locals captures no name**, and the new text is cut into
  the renamed tokens.
* `rename_undefined_ne_iff` — **what it takes to rename a name that is no function of the shader**: a
  variable of that name, wherever it is declared. Names have no scope here, so a call of a built-in
  function is renamed with a variable (`shadowed_call_renamed`).
-/

set_option autoImplicit false

namespace WebTrim.Shader

open Text

variable {source x short : Text} {ts : List (Token Kind)}

/-! ## Identifiers -/

theorem mem_identifiers : x ∈ identifiers ts ↔ ∃ t ∈ ts, t.kind = .identifier ∧ t.text = x := by
  simp [identifiers, and_assoc]

theorem utf8Size_of_isIdentChar {c : Char} (h : isIdentChar c = true) : c.utf8Size = 1 := by
  have hrange : c.toNat ≤ 127 := by
    rw [isIdentChar, isAsciiAlnum, Bool.or_eq_true, Bool.or_eq_true] at h
    rcases h with (h | h) | h
    · have := Stylesheet.toNat_of_isAsciiLetter h
      omega
    · have := Stylesheet.toNat_of_isAsciiDigit h
      omega
    · rw [eq_of_beq h]
      decide
  exact Char.utf8Size_eq_one_iff.mpr (UInt32.le_iff_toNat_le.mpr hrange)

/-- Identifiers are written in characters of one byte. -/
theorem IsIdentifier.byteLength_eq (h : IsIdentifier x) : byteLength x = x.length := by
  obtain ⟨c, body, rfl, hstart, hbody⟩ := h
  refine Naming.byteLength_of_single fun d hd => utf8Size_of_isIdentChar ?_
  rcases List.mem_cons.mp hd with rfl | hd
  · exact isIdentChar_of_isIdentStart hstart
  · exact hbody d hd

theorem isIdentifier_of_mem_identifiers (h : x ∈ identifiers (tokens source)) : IsIdentifier x := by
  obtain ⟨t, ht, hkind, rfl⟩ := mem_identifiers.mp h
  exact isIdentifier_of_mem_tokens ht hkind

/-! ## Local names -/

/-- The names that the declarations of a shader give. -/
def declaredIn (source : Text) : Declared :=
  declarations (structNames source) (tokens source)

/-- **The local names are the candidates that are not exempt.** -/
theorem mem_localNames :
    x ∈ localNames source ↔
      x ∈ (declaredIn source).candidates ∧ x ∉ (declaredIn source).pinned ∧
        x ∉ macroNames source ∧ x ∉ structNames source := by
  rw [localNames, mem_sorted_distinct, List.mem_filter]
  simp [declaredIn]

/-- A local name is one of the identifiers. -/
theorem mem_identifiers_of_mem_localNames (h : x ∈ localNames source) :
    x ∈ identifiers (tokens source) := by
  obtain ⟨front, t, rest, hsplit, -, -, -, hx⟩ := mem_candidates_iff.mp (mem_localNames.mp h).1
  have hmem : ∀ u ∈ rest, u ∈ tokens source := fun u hu => by
    have : u ∈ significant (tokens source) := by
      rw [hsplit]
      exact List.mem_append_right _ (List.mem_cons_of_mem _ hu)
    exact (List.mem_filter.mp this).1
  obtain ⟨u, hu, hfound⟩ := exists_of_mem_declaredNames hx
  exact mem_identifiers.mpr ⟨u, hmem u hu, hfound⟩

/-! ## Short names -/

/-- What a short name must not be. -/
def avoided (source : Text) : List Text :=
  identifiers (tokens source) ++ keywords ++ builtinTypes ++ macroNames source ++ structNames source

theorem mem_avoided_of_mem_identifiers (h : x ∈ identifiers (tokens source)) :
    x ∈ avoided source := by
  simp [avoided, h]

/-- What is known of the local names. -/
def localRecords (source : Text) : List Naming.Candidate :=
  (localNames source).map fun name =>
    { name, usage := ((identifiers (tokens source)).count name : Nat) }

theorem localRenames_eq (source : Text) :
    localRenames source = Naming.allocate .latin [] (localRecords source) (avoided source) := rfl

theorem mem_ranked_localRecords : x ∈ Naming.ranked (localRecords source) ↔ x ∈ localNames source := by
  simp [Naming.mem_ranked, localRecords]

/-- A short name is given to a local name only, and avoids what it must. -/
theorem mem_localNames_of_find? (h : (localRenames source).find? x = some short) :
    x ∈ localNames source ∧ short ∉ avoided source := by
  obtain ⟨run, hentries, hrun⟩ :=
    Naming.allocate_sound .latin [] (localRecords source) (avoided source)
  have hentry : (x, short) ∈ run.entries := by
    rw [← hentries, ← localRenames_eq]
    exact RenameMap.mem_entries_of_find? h
  constructor
  · rw [← mem_ranked_localRecords]
    exact hrun.names_sublist.subset (List.mem_map_of_mem hentry)
  · exact fun havoided => hrun.fresh _ hentry (List.mem_append_left _ havoided)

/-- The short name of a name that is renamed. -/
theorem find?_of_rename_ne (h : (localRenames source).rename x ≠ x) :
    (localRenames source).find? x = some ((localRenames source).rename x) := by
  cases hfind : (localRenames source).find? x with
  | none => exact absurd (RenameMap.rename_of_find?_none hfind) h
  | some short => rw [RenameMap.rename_of_find? hfind]

/-- A name that keeps its spelling has no short name, since that would be smaller. -/
theorem find?_of_rename_eq (h : (localRenames source).rename x = x) :
    (localRenames source).find? x = none := by
  by_contra hsome
  obtain ⟨short, hfind⟩ := Option.ne_none_iff_exists'.mp hsome
  have hsmaller := (localRenames_shortNames source).smaller hfind
  rw [RenameMap.rename_of_find? hfind] at h
  rw [h] at hsmaller
  exact Nat.lt_irrefl _ hsmaller

theorem rename_of_not_mem_localNames (h : x ∉ localNames source) :
    (localRenames source).rename x = x := by
  by_contra hne
  exact h (mem_localNames_of_find? (find?_of_rename_ne hne)).1

/-- A word that `name` could be renamed to: smaller, not to be avoided, and the short name of no other
name. -/
structure IsFree (source name word : Text) : Prop where
  ne_nil : word ≠ []
  letters : ∀ c ∈ word, isAsciiLetter c = true
  smaller : byteLength word < byteLength name
  fresh : word ∉ avoided source
  unused : ∀ other, other ≠ name → (localRenames source).find? other ≠ some word

theorem utf8Size_of_mem_latin : ∀ c ∈ Alphabet.latin.letters, c.utf8Size = 1 := by
  have hall : Alphabet.latin.letters.all (fun c => c.utf8Size == 1) = true := by decide
  exact fun c hc => eq_of_beq (List.all_eq_true.mp hall c hc)

theorem mem_latin_of_isAsciiLetter {c : Char} (h : isAsciiLetter c = true) :
    c ∈ Alphabet.latin.letters := by
  have hall : ∀ n < 128,
      isAsciiLetter (Char.ofNat n) = true → Char.ofNat n ∈ Alphabet.latin.letters := by
    decide +kernel
  have hrange := Stylesheet.toNat_of_isAsciiLetter h
  have hmem := hall c.toNat (by omega)
  rw [Char.ofNat_toNat] at hmem
  exact hmem h

/-- **A name is renamed exactly if it is a local name and some smaller word is free.** -/
theorem rename_ne_iff :
    (localRenames source).rename x ≠ x ↔ x ∈ localNames source ∧ ∃ word, IsFree source x word := by
  have hshort := localRenames_shortNames source
  constructor
  · intro hne
    have hfind := find?_of_rename_ne hne
    obtain ⟨hlocal, hfresh⟩ := mem_localNames_of_find? hfind
    obtain ⟨word, hword, hne_nil, hletters⟩ := hshort.spelled hfind
    rw [List.nil_append] at hword
    refine ⟨hlocal, _, hword ▸ hne_nil, hword ▸ hletters, hshort.smaller hfind, hfresh, ?_⟩
    exact fun other hother hsame => hother (hshort.injective hsame hfind)
  · rintro ⟨hlocal, word, hfree⟩ heq
    obtain ⟨i, hi⟩ := Alphabet.latin.exists_shortName hfree.ne_nil fun c hc =>
      mem_latin_of_isAsciiLetter (hfree.letters c hc)
    have hword : Naming.candidate .latin [] i = word := hi
    -- a word that the allocation passed over was reserved, is a local name or was given out before
    rcases Naming.taken_of_find?_none utf8Size_of_mem_latin (mem_ranked_localRecords.mpr hlocal)
        (find?_of_rename_eq heq) (hword ▸ hfree.smaller) with hreserved | ⟨r, hr, hname⟩ | ⟨other, houtranks, hfind⟩
    · exact hfree.fresh (hword ▸ hreserved)
    · obtain ⟨name, hlocal', rfl⟩ := List.mem_map.mp hr
      apply hfree.fresh
      rw [← hword, ← hname]
      exact mem_avoided_of_mem_identifiers (mem_identifiers_of_mem_localNames hlocal')
    · refine hfree.unused other ?_ (hword ▸ hfind)
      rintro rfl
      exact houtranks.asymm houtranks

/-- Identifiers are renamed to identifiers. -/
theorem isIdentifier_rename (h : IsIdentifier x) : IsIdentifier ((localRenames source).rename x) := by
  cases hfind : (localRenames source).find? x with
  | none => rwa [RenameMap.rename_of_find?_none hfind]
  | some short =>
    obtain ⟨word, rfl, hne, hletters⟩ := (localRenames_shortNames source).spelled hfind
    obtain ⟨c, body, rfl⟩ := List.exists_cons_of_ne_nil hne
    have hchar : ∀ d ∈ c :: body, isIdentStart d = true := fun d hd => by
      rw [isIdentStart, hletters d hd, Bool.true_or]
    rw [RenameMap.rename_of_find? hfind]
    exact ⟨c, body, rfl, hchar c List.mem_cons_self, fun d hd =>
      isIdentChar_of_isIdentStart (hchar d (List.mem_cons_of_mem _ hd))⟩

theorem injOn_rename_identifiers (source : Text) :
    Set.InjOn (localRenames source).rename {x | x ∈ identifiers (tokens source)} := by
  obtain ⟨run, hentries, hrun⟩ :=
    Naming.allocate_sound .latin [] (localRecords source) (avoided source)
  rw [← localRenames_eq] at hentries
  refine RenameMap.injOn_rename (hentries ▸ hrun.shorts_nodup) fun e he hused => ?_
  exact hrun.fresh e (hentries ▸ he)
    (List.mem_append_left _ (mem_avoided_of_mem_identifiers hused))

theorem renameLocals_eq_join (source : Text) :
    renameLocals source =
      Token.join ((tokens source).map (renameToken (localRenames source).rename)) := by
  rw [renameLocals, Token.join, List.flatMap_map]
  rfl

/-! ## No name is captured -/

/-- A candidate can be renamed. -/
theorem isRenamable_of_mem_candidates (h : x ∈ (declaredIn source).candidates) :
    isRenamable (builtinTypes ++ structNames source) x = true := by
  obtain ⟨_, _, _, _, _, _, hrenamable, _⟩ := mem_candidates_iff.mp h
  exact hrenamable

theorem isRenamable_iff {types : List Text} :
    isRenamable types x = true ↔ ¬"gl_".toList <+: x ∧ x ∉ keywords ∧ x ∉ types := by
  simp only [isRenamable, Bool.and_eq_true, Bool.not_eq_true', ← Bool.not_eq_true,
    List.isPrefixOf_iff_prefix, List.contains_iff_mem, and_assoc]

/-- A name behind a point is pinned. -/
theorem mem_pinned_of_point
    (h : [operator '.', identifier x] <:+: significant (tokens source)) :
    x ∈ (declaredIn source).pinned := by
  obtain ⟨front, rest, hsplit⟩ := h
  refine mem_pinned_iff.mpr ⟨front, operator '.', identifier x :: rest, ?_, .inl ⟨rfl, rfl⟩⟩
  rw [← hsplit, List.append_assoc]
  rfl

/-- **Renaming the locals captures no name.** It renames identifiers only, keeps different ones
different and every name that is not the shader's own; a new name is shorter and means nothing else in
the shader. If no identifier stands directly behind a number, the new text is cut into the renamed
tokens. -/
theorem renameLocals_capture_free (source : Text) :
    ∃ r : Text → Text,
      renameLocals source = Token.join ((tokens source).map (renameToken r)) ∧
      Set.InjOn r {x | x ∈ identifiers (tokens source)} ∧
      (∀ x, x ∈ keywords ∨ x ∈ builtinTypes ∨ "gl_".toList <+: x ∨ x ∈ macroNames source ∨
          x ∈ structNames source ∨
          [operator '.', identifier x] <:+: significant (tokens source) ∨
          x ∉ (declarations (structNames source) (tokens source)).candidates → r x = x) ∧
      (∀ x, r x ≠ x →
        (r x).length < x.length ∧ byteLength (r x) < byteLength x ∧ r x ∉ keywords ∧
          r x ∉ builtinTypes ∧ r x ∉ macroNames source ∧ r x ∉ structNames source ∧
          r x ∉ identifiers (tokens source)) ∧
      (Apart (tokens source) → tokens (renameLocals source) = (tokens source).map (renameToken r)) := by
  refine ⟨(localRenames source).rename, renameLocals_eq_join source,
    injOn_rename_identifiers source, fun x hx => rename_of_not_mem_localNames fun hlocal => ?_,
    fun x hx => ?_, fun hapart => ?_⟩
  · obtain ⟨hcandidate, hpinned, hmacro, hstruct⟩ := mem_localNames.mp hlocal
    obtain ⟨hbuiltin, hkeyword, htype⟩ :=
      isRenamable_iff.mp (isRenamable_of_mem_candidates hcandidate)
    rcases hx with h | h | h | h | h | h | h
    · exact hkeyword h
    · exact htype (List.mem_append_left _ h)
    · exact hbuiltin h
    · exact hmacro h
    · exact hstruct h
    · exact hpinned (mem_pinned_of_point h)
    · exact h hcandidate
  · have hfind := find?_of_rename_ne hx
    obtain ⟨hlocal, hfresh⟩ := mem_localNames_of_find? hfind
    have hident := isIdentifier_of_mem_identifiers (mem_identifiers_of_mem_localNames hlocal)
    have hsmaller := (localRenames_shortNames source).smaller hfind
    have hlength := hsmaller
    rw [hident.byteLength_eq, (isIdentifier_rename hident).byteLength_eq] at hlength
    simp only [avoided, List.mem_append, not_or] at hfresh
    obtain ⟨⟨⟨⟨hused, hkeyword⟩, htype⟩, hmacro⟩, hstruct⟩ := hfresh
    exact ⟨hlength, hsmaller, hkeyword, htype, hmacro, hstruct, hused⟩
  · have htext : renameLocals source = renamed (localRenames source).rename source :=
      (renamed_eq_flatMap _ source).symm
    rw [htext]
    exact tokens_renamed (fun x hx => isIdentifier_rename hx) hapart

/-! ## Called names -/

/-- The name stands here, before an opening bracket. -/
def startsCall (name : Text) : List (Token Kind) → Bool
  | t :: bracket :: _ => t.kind == .identifier && t.text == name && bracket.text == ['(']
  | _ => false

/-- The name stands before an opening bracket somewhere. -/
def calls (name : Text) (ts : List (Token Kind)) : Bool :=
  ts.tails.any (startsCall name)

/-- The name stands between a type and an opening bracket somewhere. -/
def defines (types : List Text) (name : Text) (ts : List (Token Kind)) : Bool :=
  ts.tails.any fun tail => tail.head?.any (types.contains ·.text) && startsCall name tail.tail

/-- A declaration of the shader, outside of its interface, declares a variable of that name. -/
def DeclaresVariable (source name : Text) : Prop :=
  ∃ front t rest, significant (tokens source) = front ++ t :: rest ∧
    opensDeclaration (builtinTypes ++ structNames source) (DeclarationState.after {} front)
      (lastText [] front) t = true ∧
    (DeclarationState.after {} front).inInterface = false ∧
    name ∈ declaredNames rest ∧ startsCall name rest = false

theorem defines_of_split {types : List Text} {t : Token Kind} {front rest : List (Token Kind)}
    (hsplit : ts = front ++ t :: rest) (ht : t.text ∈ types) (hcall : startsCall x rest = true) :
    defines types x ts = true := by
  rw [defines, List.any_eq_true]
  refine ⟨t :: rest, (List.mem_tails _ _).mpr ⟨front, hsplit.symm⟩, ?_⟩
  simp [ht, hcall]

/-- A name that is no function of the shader is a candidate if it is declared as a variable. -/
theorem mem_candidates_iff_declaresVariable
    (hundefined :
      defines (builtinTypes ++ structNames source) x (significant (tokens source)) = false) :
    x ∈ (declaredIn source).candidates ↔
      DeclaresVariable source x ∧ isRenamable (builtinTypes ++ structNames source) x = true := by
  rw [declaredIn, declarations, mem_candidates_iff]
  constructor
  · rintro ⟨front, t, rest, hsplit, hopens, hinterface, hrenamable, hx⟩
    refine ⟨⟨front, t, rest, hsplit, hopens, hinterface, hx, ?_⟩, hrenamable⟩
    by_contra hcall
    have htype := (opensDeclaration_iff.mp hopens).2.2.2.1
    rw [defines_of_split hsplit htype (Bool.not_eq_false _ ▸ hcall)] at hundefined
    cases hundefined
  · rintro ⟨⟨front, t, rest, hsplit, hopens, hinterface, hx, -⟩, hrenamable⟩
    exact ⟨front, t, rest, hsplit, hopens, hinterface, hrenamable, hx⟩

/-- **A name that is no function of the shader is renamed exactly if the shader declares a local
variable of that name**, the name is not exempt, and a smaller word is free. Then every occurrence of
it is renamed, also one that calls a function. -/
theorem rename_undefined_ne_iff (source name : Text)
    (hundefined :
      defines (builtinTypes ++ structNames source) name (significant (tokens source)) = false) :
    renameLocals source =
        Token.join ((tokens source).map (renameToken (localRenames source).rename)) ∧
      ((localRenames source).rename name ≠ name ↔
        DeclaresVariable source name ∧
          isRenamable (builtinTypes ++ structNames source) name = true ∧
          name ∉ (declarations (structNames source) (tokens source)).pinned ∧
          name ∉ macroNames source ∧ ∃ word, IsFree source name word) := by
  refine ⟨renameLocals_eq_join source, ?_⟩
  rw [rename_ne_iff, mem_localNames, mem_candidates_iff_declaresVariable hundefined]
  constructor
  · rintro ⟨⟨⟨hvariable, hrenamable⟩, hpinned, hmacro, -⟩, hfree⟩
    exact ⟨hvariable, hrenamable, hpinned, hmacro, hfree⟩
  · rintro ⟨hvariable, hrenamable, hpinned, hmacro, hfree⟩
    have hstruct := (isRenamable_iff.mp hrenamable).2.2
    exact ⟨⟨⟨hvariable, hrenamable⟩, hpinned, hmacro,
      fun h => hstruct (List.mem_append_right _ h)⟩, hfree⟩

/-- A shader that calls `length` and gives that name to a variable. -/
def shadowedCall : Text :=
  "void main()\x7bfloat length=length(gl_FragCoord.xy);gl_FragColor=vec4(length);\x7d".toList

theorem rename_undefined_ne_iff_length :
    defines (builtinTypes ++ structNames shadowedCall) "length".toList
        (significant (tokens shadowedCall)) = false ∧
      ((localRenames shadowedCall).rename "length".toList ≠ "length".toList ↔
        DeclaresVariable shadowedCall "length".toList ∧
          isRenamable (builtinTypes ++ structNames shadowedCall) "length".toList = true ∧
          "length".toList ∉
            (declarations (structNames shadowedCall) (tokens shadowedCall)).pinned ∧
          "length".toList ∉ macroNames shadowedCall ∧
          ∃ word, IsFree shadowedCall "length".toList word) :=
  have hundefined : defines (builtinTypes ++ structNames shadowedCall) "length".toList
      (significant (tokens shadowedCall)) = false := by decide +kernel
  ⟨hundefined, (rename_undefined_ne_iff shadowedCall "length".toList hundefined).2⟩

/-- The call of a function that the shader does not define is renamed with the variable. -/
theorem shadowed_call_renamed :
    calls "length".toList (significant (tokens shadowedCall)) = true ∧
      defines (builtinTypes ++ structNames shadowedCall) "length".toList
        (significant (tokens shadowedCall)) = false ∧
      (localRenames shadowedCall).rename "length".toList ≠ "length".toList ∧
      renameLocals shadowedCall =
        "void main()\x7bfloat a=a(gl_FragCoord.xy);gl_FragColor=vec4(a);\x7d".toList := by
  decide +kernel

end WebTrim.Shader
