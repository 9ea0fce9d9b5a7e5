import Mathlib.Data.List.Basic
import WebTrim.Shader.Declaration

/-!
# What the declaration scanner finds

The scanner is a machine with a little state that looks ahead at each token. The state does not depend
on what it found, so a run is split in two: the state after the tokens read so far, and what one token
declares in a state.

* `DeclarationState.afterToken`, `DeclarationState.after` — the state after one token and after a
  list of tokens.
* `declaredAt` — the names that the scanner finds at one token; `declarationsFrom_cons`: **a run finds
  what each token declares**.
* `mem_candidates_iff`, `mem_pinned_iff` — a name is found if it is found at some token.
* `DeclarationState.Nested.after` — an open interface block never lies deeper than the braces that are
  open.
-/

set_option autoImplicit false

namespace WebTrim.Shader

variable {types : List Text} {s : DeclarationState} {before x : Text} {t : Token Kind}
  {front rest ts : List (Token Kind)}

/-! ## The names after a type -/

theorem skipBrackets_suffix (depth : Nat) (ts : List (Token Kind)) :
    skipBrackets depth ts <:+ ts := by
  induction ts generalizing depth with
  | nil => exact List.suffix_refl _
  | cons t rest ih =>
    have hrest : ∀ depth, skipBrackets depth rest <:+ t :: rest := fun depth =>
      (ih depth).trans (List.suffix_cons t rest)
    unfold skipBrackets
    split_ifs
    · exact hrest _
    · cases depth with
      | zero => exact List.suffix_cons t rest
      | succ depth => exact hrest _
    · exact hrest _

theorem skipInitializer_suffix (depth : Nat) (ts : List (Token Kind)) :
    skipInitializer depth ts <:+ ts := by
  induction ts generalizing depth with
  | nil => exact List.suffix_refl _
  | cons t rest ih =>
    have hrest : ∀ depth, skipInitializer depth rest <:+ t :: rest := fun depth =>
      (ih depth).trans (List.suffix_cons t rest)
    unfold skipInitializer
    split_ifs
    · exact hrest _
    · cases depth with
      | zero => exact List.suffix_refl _
      | succ depth => exact hrest _
    · exact List.suffix_refl _
    · exact hrest _

theorem skipDeclarator_suffix (ts : List (Token Kind)) : skipDeclarator ts <:+ ts := by
  have hsize : skipArraySize ts <:+ ts := by
    unfold skipArraySize
    split_ifs
    · exact (skipBrackets_suffix 0 _).trans (List.drop_suffix 1 ts)
    · exact List.suffix_refl _
  unfold skipDeclarator
  split_ifs
  · exact ((skipInitializer_suffix 0 _).trans (List.drop_suffix 1 _)).trans hsize
  · exact hsize

/-- A declared name is the text of an identifier. -/
theorem exists_of_mem_declaredNames (h : x ∈ declaredNames ts) :
    ∃ t ∈ ts, t.kind = .identifier ∧ t.text = x := by
  fun_induction declaredNames ts with
  | case1 => cases h
  | case2 t rest hkind u more hskip ih =>
    rcases List.mem_cons.mp h with rfl | h
    · exact ⟨t, List.mem_cons_self, hkind, rfl⟩
    split_ifs at h
    · obtain ⟨v, hv, hfound⟩ := ih h
      have hmore : v ∈ skipDeclarator rest := hskip ▸ List.mem_cons_of_mem _ hv
      exact ⟨v, List.mem_cons_of_mem _ ((skipDeclarator_suffix rest).subset hmore), hfound⟩
    · cases h
  | case3 t rest hkind hskip =>
    obtain rfl := List.mem_singleton.mp h
    exact ⟨t, List.mem_cons_self, hkind, rfl⟩
  | case4 t rest hkind => cases h

/-- A name is declared, and after it another list of names if a comma follows. -/
theorem declaredNames_of_skip {u : Token Kind} {more : List (Token Kind)}
    (hkind : t.kind = .identifier) (hskip : skipDeclarator rest = u :: more) :
    declaredNames (t :: rest) = t.text :: if u.text = [','] then declaredNames more else [] := by
  rw [declaredNames, if_pos hkind]
  split
  · rename_i heq
    rw [hskip] at heq
    obtain ⟨rfl, rfl⟩ := List.cons.inj heq
    rfl
  · rename_i heq
    rw [hskip] at heq
    cases heq

/-- A function's name is read like the name of a variable: the bracket behind it ends the list. -/
theorem namesAfterType_eq (ts : List (Token Kind)) : namesAfterType ts = declaredNames ts := by
  unfold namesAfterType
  split
  · rename_i name bracket rest
    split_ifs with hcall
    · have hskip : skipDeclarator (bracket :: rest) = bracket :: rest := by
        simp [skipDeclarator, skipArraySize, startsWith, hcall.2]
      rw [declaredNames_of_skip hcall.1 hskip, hcall.2, if_neg (by decide)]
    · rfl
  · rfl

/-! ## One token -/

/-- The operator of one character. -/
def operator (c : Char) : Token Kind := ⟨.operator, [c]⟩

/-- The identifier with this text. -/
def identifier (name : Text) : Token Kind := ⟨.identifier, name⟩

theorem eq_operator_iff {c : Char} : t = operator c ↔ t.kind = .operator ∧ t.text = [c] := by
  cases t
  exact Token.mk.injEq .. ▸ Iff.rfl

theorem eq_identifier_iff : t = identifier x ↔ t.kind = .identifier ∧ t.text = x := by
  cases t
  exact Token.mk.injEq .. ▸ Iff.rfl

theorem identifier_ne_operator (name : Text) (c : Char) : identifier name ≠ operator c :=
  fun h => nomatch congrArg Token.kind h

/-- The words that the scanner never reads as a type. -/
def markers : List Text :=
  "precision".toList :: "struct".toList :: (precisionQualifiers ++ storageQualifiers)

/-- The state after a token. -/
def DeclarationState.afterToken (s : DeclarationState) (t : Token Kind) : DeclarationState :=
  match t.kind with
  | .operator => s.afterOperator t.text
  | .identifier =>
    if t.text = "precision".toList then { s with precision := true }
    else if s.precision ∨ precisionQualifiers.contains t.text then s
    else if t.text = "struct".toList then { s with pendingStruct := true }
    else if storageQualifiers.contains t.text then { s with storage := true, pendingBlock := true }
    else s
  | _ => s

/-- Does what is declared now belong to the shader's interface? -/
def DeclarationState.inInterface (s : DeclarationState) : Bool :=
  s.storage || s.interfaceDepth.isSome

/-- Is the token a type that a declaration begins with? -/
def opensDeclaration (types : List Text) (s : DeclarationState) (before : Text) (t : Token Kind) :
    Bool :=
  t.kind == .identifier && !s.precision && !markers.contains t.text && types.contains t.text &&
    before != ['.']

/-- The names found at one token. -/
def declaredAt (types : List Text) (s : DeclarationState) (before : Text) (t : Token Kind)
    (rest : List (Token Kind)) : Declared :=
  if t.kind = .operator then pinnedAfter t.text rest
  else if opensDeclaration types s before t then
    Declared.ofNames types s.inInterface (declaredNames rest)
  else {}

theorem opensDeclaration_iff :
    opensDeclaration types s before t = true ↔
      t.kind = .identifier ∧ s.precision = false ∧ t.text ∉ markers ∧ t.text ∈ types ∧
        before ≠ ['.'] := by
  simp only [opensDeclaration, Bool.and_eq_true, beq_iff_eq, Bool.not_eq_true',
    bne_iff_ne, ne_eq, List.contains_eq_mem, decide_eq_false_iff_not,
    decide_eq_true_eq, and_assoc]

@[simp] theorem Declared.empty_append (d : Declared) : Declared.append {} d = d := rfl

/-- **A run finds what each token declares in the state before it.** -/
theorem declarationsFrom_cons (types : List Text) (s : DeclarationState) (before : Text)
    (t : Token Kind) (rest : List (Token Kind)) :
    declarationsFrom types s before (t :: rest) =
      (declaredAt types s before t rest).append
        (declarationsFrom types (s.afterToken t) t.text rest) := by
  have hmarkers : markers.contains t.text = true ↔
      t.text = "precision".toList ∨ t.text = "struct".toList ∨
        precisionQualifiers.contains t.text = true ∨ storageQualifiers.contains t.text = true := by
    simp only [markers, List.contains_iff_mem, List.mem_cons, List.mem_append]
  rw [declarationsFrom, declaredAt, opensDeclaration, DeclarationState.afterToken]
  cases hkind : t.kind with
  | operator => rfl
  | identifier =>
    simp only
    split_ifs <;> simp_all [DeclarationState.inInterface, namesAfterType_eq]
  | number => rfl
  | whitespace => rfl
  | comment => rfl

@[simp] theorem candidates_pinnedAfter (text : Text) (rest : List (Token Kind)) :
    (pinnedAfter text rest).candidates = [] := by
  cases rest with
  | nil => rfl
  | cons t rest =>
    rw [pinnedAfter]
    split_ifs <;> rfl

theorem mem_pinned_pinnedAfter {text : Text} :
    x ∈ (pinnedAfter text rest).pinned ↔
      text = ['.'] ∧ rest.head? = some (identifier x) := by
  cases rest with
  | nil => simp [pinnedAfter]
  | cons t rest =>
    rw [List.head?_cons, Option.some.injEq, eq_identifier_iff, pinnedAfter]
    split_ifs with h
    · simp [h, eq_comm]
    · simp only [List.not_mem_nil, false_iff]
      exact fun h' => h ⟨h'.1, h'.2.1⟩

theorem mem_candidates_declaredAt :
    x ∈ (declaredAt types s before t rest).candidates ↔
      opensDeclaration types s before t = true ∧ s.inInterface = false ∧
        isRenamable types x = true ∧ x ∈ declaredNames rest := by
  rw [declaredAt]
  split_ifs with hoperator hopens
  · simp [opensDeclaration_iff, hoperator]
  · cases hinterface : s.inInterface <;> simp [Declared.ofNames, hopens, and_comm]
  · simp [hopens]

theorem mem_pinned_declaredAt :
    x ∈ (declaredAt types s before t rest).pinned ↔
      t = operator '.' ∧ rest.head? = some (identifier x) ∨
        opensDeclaration types s before t = true ∧ s.inInterface = true ∧
          isRenamable types x = true ∧ x ∈ declaredNames rest := by
  rw [declaredAt]
  split_ifs with hoperator hopens
  · simp [opensDeclaration_iff, eq_operator_iff, hoperator, mem_pinned_pinnedAfter]
  · cases hinterface : s.inInterface <;>
      simp [Declared.ofNames, eq_operator_iff, hopens, hoperator, and_comm]
  · simp [eq_operator_iff, hopens, hoperator]

/-! ## A run -/

/-- The state after a list of tokens. -/
def DeclarationState.after (s : DeclarationState) (ts : List (Token Kind)) : DeclarationState :=
  ts.foldl DeclarationState.afterToken s

/-- The text of the last token, or `before` if there is none. -/
def lastText (before : Text) (ts : List (Token Kind)) : Text :=
  (ts.getLast?.map Token.text).getD before

@[simp] theorem DeclarationState.after_nil (s : DeclarationState) : s.after [] = s := rfl

@[simp] theorem DeclarationState.after_cons (s : DeclarationState) (t : Token Kind)
    (ts : List (Token Kind)) : s.after (t :: ts) = (s.afterToken t).after ts := rfl

theorem DeclarationState.after_append (s : DeclarationState) (front rest : List (Token Kind)) :
    s.after (front ++ rest) = (s.after front).after rest := List.foldl_append

@[simp] theorem lastText_cons (before : Text) (t : Token Kind) (ts : List (Token Kind)) :
    lastText before (t :: ts) = lastText t.text ts := by
  cases ts with
  | nil => rfl
  | cons u ts => simp [lastText, List.getLast?_eq_some_getLast]

/-- A name of either list is found at some token. -/
theorem mem_declarationsFrom (names : Declared → List Text) (hempty : names {} = [])
    (happend : ∀ a b : Declared, names (a.append b) = names a ++ names b) :
    x ∈ names (declarationsFrom types s before ts) ↔
      ∃ front t rest, ts = front ++ t :: rest ∧
        x ∈ names (declaredAt types (s.after front) (lastText before front) t rest) := by
  induction ts generalizing s before with
  | nil => simp [declarationsFrom, hempty]
  | cons u ts ih =>
    rw [declarationsFrom_cons, happend, List.mem_append, ih]
    constructor
    · rintro (hx | ⟨front, t, rest, rfl, hx⟩)
      · exact ⟨[], u, ts, rfl, hx⟩
      · exact ⟨u :: front, t, rest, rfl, by simpa using hx⟩
    · rintro ⟨front, t, rest, hsplit, hx⟩
      cases front with
      | nil =>
        obtain ⟨rfl, rfl⟩ := List.cons.inj hsplit
        exact .inl hx
      | cons v front =>
        obtain ⟨rfl, rfl⟩ := List.cons.inj hsplit
        exact .inr ⟨front, t, rest, rfl, by simpa using hx⟩

/-- **A name is a candidate if some token declares it outside of the interface.** -/
theorem mem_candidates_iff :
    x ∈ (declarationsFrom types s before ts).candidates ↔
      ∃ front t rest, ts = front ++ t :: rest ∧
        opensDeclaration types (s.after front) (lastText before front) t = true ∧
        (s.after front).inInterface = false ∧ isRenamable types x = true ∧
        x ∈ declaredNames rest := by
  simp only [mem_declarationsFrom Declared.candidates rfl fun _ _ => rfl,
    mem_candidates_declaredAt]

/-- **A name is pinned if it stands behind a point or some token declares it in the interface.** -/
theorem mem_pinned_iff :
    x ∈ (declarationsFrom types s before ts).pinned ↔
      ∃ front t rest, ts = front ++ t :: rest ∧
        (t = operator '.' ∧ rest.head? = some (identifier x) ∨
          opensDeclaration types (s.after front) (lastText before front) t = true ∧
          (s.after front).inInterface = true ∧ isRenamable types x = true ∧
          x ∈ declaredNames rest) := by
  simp only [mem_declarationsFrom Declared.pinned rfl fun _ _ => rfl, mem_pinned_declaredAt]

/-! ## Open braces -/

theorem DeclarationState.afterToken_open (s : DeclarationState) :
    s.afterToken (operator '{') =
      { s with
        depth := s.depth + 1
        interfaceDepth :=
          if (s.pendingBlock || s.pendingStruct) && s.interfaceDepth.isNone then some (s.depth + 1)
          else s.interfaceDepth
        pendingBlock := false
        pendingStruct := false } := rfl

theorem DeclarationState.afterToken_close (s : DeclarationState) :
    s.afterToken (operator '}') =
      { s with
        depth := s.depth - 1
        interfaceDepth := if s.interfaceDepth = some s.depth then none else s.interfaceDepth } := rfl

/-- Only braces open and close blocks. -/
theorem DeclarationState.afterToken_of_not_brace (s : DeclarationState)
    (hopen : t ≠ operator '{') (hclose : t ≠ operator '}') :
    (s.afterToken t).depth = s.depth ∧ (s.afterToken t).interfaceDepth = s.interfaceDepth := by
  obtain ⟨kind, text⟩ := t
  cases kind with
  | operator =>
    have hopen' : text ≠ ['{'] := fun h => hopen (by rw [h, operator])
    have hclose' : text ≠ ['}'] := fun h => hclose (by rw [h, operator])
    simp only [afterToken, afterOperator, hopen', hclose', if_false]
    split_ifs <;> exact ⟨rfl, rfl⟩
  | identifier =>
    simp only [afterToken]
    split_ifs <;> exact ⟨rfl, rfl⟩
  | number => exact ⟨rfl, rfl⟩
  | whitespace => exact ⟨rfl, rfl⟩
  | comment => exact ⟨rfl, rfl⟩

/-- An open interface block lies no deeper than the braces that are open. -/
def DeclarationState.Nested (s : DeclarationState) : Prop :=
  ∀ d ∈ s.interfaceDepth, d ≤ s.depth

theorem DeclarationState.nested_start : ({} : DeclarationState).Nested := by
  intro d hd
  cases hd

theorem DeclarationState.Nested.afterToken (h : s.Nested) (t : Token Kind) :
    (s.afterToken t).Nested := by
  intro d hd
  by_cases hopen : t = operator '{'
  · rw [hopen, afterToken_open] at hd ⊢
    dsimp only at hd ⊢
    split_ifs at hd with hopens
    · exact Nat.le_of_eq (Option.some.inj hd).symm
    · exact Nat.le_succ_of_le (h d hd)
  by_cases hclose : t = operator '}'
  · rw [hclose, afterToken_close] at hd ⊢
    dsimp only at hd ⊢
    split_ifs at hd with hends
    · cases hd
    · have hle := h d hd
      have hne : d ≠ s.depth := fun heq => hends (heq ▸ hd)
      omega
  · obtain ⟨hdepth, hinterface⟩ := s.afterToken_of_not_brace hopen hclose
    rw [hinterface] at hd
    rw [hdepth]
    exact h d hd

/-- **An open interface block never lies deeper than the braces that are open.** -/
theorem DeclarationState.Nested.after (h : s.Nested) (ts : List (Token Kind)) :
    (s.after ts).Nested := by
  induction ts generalizing s with
  | nil => exact h
  | cons t ts ih => exact ih (h.afterToken t)

end WebTrim.Shader
