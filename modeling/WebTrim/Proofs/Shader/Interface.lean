import WebTrim.Proofs.Shader.Rename

/-!
# The interface of a shader keeps its names

A declaration of the interface is a storage qualifier with variables, or with a block of variables. The
scanner finds the names of such a declaration wherever it stands behind a semicolon, whatever the tokens
before it left in the scanner's state, and pins them.

* `Balanced` — tokens whose brackets match; `Balanced.skipInitializer_append`,
  `Balanced.skipBrackets_append` and `Balanced.neutral`: the scanner passes over them.
* `Declarator`, `Variables`, `InterfaceDeclaration` — the declarations, as syntax.
* `declaredNames_declarators` — the names of a list of declarators are found.
* `AtMember` — where a block's members are read; `AtMember.member` is one member, `AtMember.members`
  all of them.
* `InterfaceDeclaration.mem_pinned` — the names of the interface are pinned.
* `interface_kept` — **hence they are never renamed**.
-/

set_option autoImplicit false

namespace WebTrim.Shader

open Text

variable {s : DeclarationState} {ts rest : List (Token Kind)}

/-! ## Brackets -/

/-- The kinds of brackets. -/
inductive Bracket where
  | round
  | square
  | curly
  deriving DecidableEq

def Bracket.opening : Bracket → Char
  | .round => '('
  | .square => '['
  | .curly => '{'

def Bracket.closing : Bracket → Char
  | .round => ')'
  | .square => ']'
  | .curly => '}'

/-- Tokens in which each bracket is closed by one of its kind. With `separators`, commas and semicolons
may also stand outside of all brackets. -/
inductive Balanced : Bool → List (Token Kind) → Prop where
  | nil {separators : Bool} : Balanced separators []
  | plain {separators : Bool} {t : Token Kind} {ts : List (Token Kind)}
      (hbracket : ∀ b : Bracket, t.text ≠ [b.opening] ∧ t.text ≠ [b.closing])
      (hseparator : separators = true ∨ t.text ≠ [','] ∧ t.text ≠ [';'])
      (hrest : Balanced separators ts) : Balanced separators (t :: ts)
  | group {separators : Bool} {inner ts : List (Token Kind)} (b : Bracket)
      (hinner : Balanced true inner) (hrest : Balanced separators ts) :
      Balanced separators (operator b.opening :: (inner ++ operator b.closing :: ts))

/-! ### What is skipped -/

theorem skipInitializer_opening (depth : Nat) (b : Bracket) (rest : List (Token Kind)) :
    skipInitializer depth (operator b.opening :: rest) = skipInitializer (depth + 1) rest := by
  cases b <;> rfl

theorem skipInitializer_closing (depth : Nat) (b : Bracket) (rest : List (Token Kind)) :
    skipInitializer (depth + 1) (operator b.closing :: rest) = skipInitializer depth rest := by
  cases b <;> rfl

theorem skipInitializer_plain {depth : Nat} {t : Token Kind}
    (hbracket : ∀ b : Bracket, t.text ≠ [b.opening] ∧ t.text ≠ [b.closing])
    (hseparator : 0 < depth ∨ t.text ≠ [','] ∧ t.text ≠ [';']) :
    skipInitializer depth (t :: rest) = skipInitializer depth rest := by
  have hopening : ¬(t.text = ['('] ∨ t.text = ['['] ∨ t.text = ['{']) := by
    rintro (h | h | h)
    · exact (hbracket .round).1 h
    · exact (hbracket .square).1 h
    · exact (hbracket .curly).1 h
  have hclosing : ¬(t.text = [')'] ∨ t.text = [']'] ∨ t.text = ['}']) := by
    rintro (h | h | h)
    · exact (hbracket .round).2 h
    · exact (hbracket .square).2 h
    · exact (hbracket .curly).2 h
  have hend : ¬(depth = 0 ∧ (t.text = [','] ∨ t.text = [';'])) := by
    rintro ⟨rfl, hsep⟩
    rcases hseparator with h | ⟨hcomma, hsemicolon⟩
    · exact Nat.lt_irrefl 0 h
    · exact hsep.elim hcomma hsemicolon
  rw [skipInitializer.eq_def]
  simp only [hopening, hclosing, hend, if_false]

theorem skipBrackets_other {depth : Nat} {t : Token Kind} (hopening : t.text ≠ ['['])
    (hclosing : t.text ≠ [']']) : skipBrackets depth (t :: rest) = skipBrackets depth rest := by
  rw [skipBrackets.eq_def]
  simp only [hopening, hclosing, if_false]

namespace Balanced

variable {separators : Bool}

/-- The skipping of an initializer passes over balanced tokens. -/
theorem skipInitializer_append (h : Balanced separators ts) {depth : Nat}
    (hdepth : separators = true → 0 < depth) :
    skipInitializer depth (ts ++ rest) = skipInitializer depth rest := by
  induction h generalizing depth rest with
  | nil => rfl
  | plain hbracket hseparator _ ih =>
    rw [List.cons_append, skipInitializer_plain hbracket (hseparator.imp_left hdepth), ih hdepth]
  | group b _ _ ihinner ih =>
    rw [List.cons_append, List.append_assoc, List.cons_append, skipInitializer_opening,
      ihinner fun _ => Nat.succ_pos _, skipInitializer_closing, ih hdepth]

/-- The skipping of an array size passes over balanced tokens. -/
theorem skipBrackets_append (h : Balanced separators ts) {depth : Nat} :
    skipBrackets depth (ts ++ rest) = skipBrackets depth rest := by
  induction h generalizing depth rest with
  | nil => rfl
  | plain hbracket _ _ ih =>
    rw [List.cons_append, skipBrackets_other (hbracket .square).1 (hbracket .square).2, ih]
  | group b _ _ ihinner ih =>
    rw [List.cons_append, List.append_assoc, List.cons_append]
    cases b with
    | round =>
      rw [skipBrackets_other (by decide) (by decide), ihinner,
        skipBrackets_other (by decide) (by decide), ih]
    | square =>
      calc skipBrackets depth (operator '[' :: _)
          = skipBrackets (depth + 1) _ := rfl
        _ = skipBrackets (depth + 1) (operator ']' :: _) := ihinner
        _ = skipBrackets depth _ := rfl
        _ = skipBrackets depth rest := ih
    | curly =>
      rw [skipBrackets_other (by decide) (by decide), ihinner,
        skipBrackets_other (by decide) (by decide), ih]

end Balanced

/-! ### Blocks -/

/-- The tokens leave an open interface block open, and as many braces as there were. -/
def Neutral (ts : List (Token Kind)) : Prop :=
  ∀ (s : DeclarationState) (d : Nat), s.interfaceDepth = some d → d ≤ s.depth →
    (s.after ts).interfaceDepth = some d ∧ (s.after ts).depth = s.depth

namespace Neutral

theorem nil : Neutral [] := fun _ _ hopen _ => ⟨hopen, rfl⟩

theorem append (h : Neutral ts) (hrest : Neutral rest) : Neutral (ts ++ rest) := by
  intro s d hopen hle
  obtain ⟨hopen', hdepth⟩ := h s d hopen hle
  obtain ⟨hopen'', hdepth'⟩ := hrest (s.after ts) d hopen' (hdepth ▸ hle)
  rw [DeclarationState.after_append]
  exact ⟨hopen'', hdepth'.trans hdepth⟩

theorem cons {t : Token Kind} (hopening : t ≠ operator '{') (hclosing : t ≠ operator '}')
    (h : Neutral ts) : Neutral (t :: ts) := by
  intro s d hopen hle
  obtain ⟨hdepth, hinterface⟩ := s.afterToken_of_not_brace hopening hclosing
  obtain ⟨hopen', hdepth'⟩ := h (s.afterToken t) d (hinterface.trans hopen) (hdepth ▸ hle)
  exact ⟨hopen', hdepth'.trans hdepth⟩

theorem identifier (name : Text) (h : Neutral ts) : Neutral (Shader.identifier name :: ts) :=
  .cons (identifier_ne_operator name '{') (identifier_ne_operator name '}') h

/-- A block within an open block is neutral if what it holds is. -/
theorem braces (h : Neutral ts) : Neutral (operator '{' :: (ts ++ [operator '}'])) := by
  intro s d hopen hle
  have hopens : (s.afterToken (operator '{')).interfaceDepth = some d := by
    rw [DeclarationState.afterToken_open, hopen]
    simp
  obtain ⟨hopen', hdepth⟩ := h (s.afterToken (operator '{')) d hopens (Nat.le_succ_of_le hle)
  have hdeeper : ((s.afterToken (operator '{')).after ts).depth = s.depth + 1 := hdepth
  rw [DeclarationState.after_cons, DeclarationState.after_append, DeclarationState.after_cons,
    DeclarationState.after_nil, DeclarationState.afterToken_close]
  have hne : ¬d = s.depth + 1 := by omega
  simp [hopen', hdeeper, hne]

end Neutral

theorem Balanced.neutral {separators : Bool} (h : Balanced separators ts) : Neutral ts := by
  induction h with
  | nil => exact .nil
  | plain hbracket _ _ ih =>
    refine .cons ?_ ?_ ih
    · rintro rfl
      exact (hbracket .curly).1 rfl
    · rintro rfl
      exact (hbracket .curly).2 rfl
  | group b _ _ ihinner ih =>
    cases b with
    | round => exact .cons (by decide) (by decide) (ihinner.append (.cons (by decide) (by decide) ih))
    | square => exact .cons (by decide) (by decide) (ihinner.append (.cons (by decide) (by decide) ih))
    | curly =>
      have hblock := ihinner.braces.append ih
      rwa [List.cons_append, List.append_assoc] at hblock

/-! ## Declarations as syntax -/

/-- A name with an optional array size and an optional initializer. -/
structure Declarator where
  name : Text
  size : Option (List (Token Kind))
  value : Option (List (Token Kind))
  size_balanced : ∀ ts ∈ size, Balanced true ts
  value_balanced : ∀ ts ∈ value, Balanced false ts

namespace Declarator

/-- The tokens of an initializer. -/
def valueTokens (d : Declarator) : List (Token Kind) :=
  match d.value with
  | some ts => operator '=' :: ts
  | none => []

/-- The tokens of an array size. -/
def sizeTokens (d : Declarator) : List (Token Kind) :=
  match d.size with
  | some ts => operator '[' :: (ts ++ [operator ']'])
  | none => []

def tokens (d : Declarator) : List (Token Kind) :=
  identifier d.name :: (d.sizeTokens ++ d.valueTokens)

end Declarator

/-- Variables of one type, with an optional precision. The type is none of the words that the scanner
reads in another way. -/
structure Variables (types : List Text) where
  precision : Option Text
  type : Text
  first : Declarator
  others : List Declarator
  precision_mem : ∀ word ∈ precision, word ∈ precisionQualifiers
  type_mem : type ∈ types
  type_plain : type ∉ markers

namespace Variables

variable {types : List Text}

/-- The tokens of the declarators, separated by commas. -/
def declaratorTokens (v : Variables types) : List (Token Kind) :=
  v.first.tokens ++ v.others.flatMap fun d => operator ',' :: d.tokens

def tokens (v : Variables types) : List (Token Kind) :=
  v.precision.toList.map identifier ++
    identifier v.type :: (v.declaratorTokens ++ [operator ';'])

def names (v : Variables types) : List Text :=
  (v.first :: v.others).map Declarator.name

end Variables

/-- A declaration of the interface: a storage qualifier with variables or with a named block. -/
inductive InterfaceDeclaration (types : List Text) where
  | statement (qualifier : Text) (hqualifier : qualifier ∈ storageQualifiers) (v : Variables types)
  | block (qualifier : Text) (hqualifier : qualifier ∈ storageQualifiers) (name : Text)
      (hname : name ∉ keywords) (members : List (Variables types))

namespace InterfaceDeclaration

variable {types : List Text}

def tokens : InterfaceDeclaration types → List (Token Kind)
  | .statement qualifier _ v => identifier qualifier :: v.tokens
  | .block qualifier _ name _ members =>
    identifier qualifier :: identifier name :: operator '{' ::
      (members.flatMap Variables.tokens ++ [operator '}'])

def names : InterfaceDeclaration types → List Text
  | .statement _ _ v => v.names
  | .block _ _ _ _ members => members.flatMap Variables.names

end InterfaceDeclaration

/-! ## The declared names -/

section Names

variable {u : Token Kind}

theorem skipArraySize_sizeTokens (d : Declarator) {more : List (Token Kind)}
    (hmore : startsWith ['['] more = false) : skipArraySize (d.sizeTokens ++ more) = more := by
  unfold Declarator.sizeTokens
  split
  · rename_i ts hsize
    calc skipArraySize (operator '[' :: (ts ++ [operator ']']) ++ more)
        = skipBrackets 0 (ts ++ [operator ']'] ++ more) := rfl
      _ = skipBrackets 0 (operator ']' :: more) := by
        rw [List.append_assoc, (d.size_balanced ts hsize).skipBrackets_append]
        rfl
      _ = more := rfl
  · rw [List.nil_append, skipArraySize, if_neg (by simp [hmore])]

/-- After an array size and an initializer, the scanner stands at the separator. -/
theorem skipDeclarator_append (d : Declarator) (hu : u = operator ',' ∨ u = operator ';')
    (rest : List (Token Kind)) :
    skipDeclarator (d.sizeTokens ++ d.valueTokens ++ u :: rest) = u :: rest := by
  have hnext : startsWith ['['] (u :: rest) = false ∧ startsWith ['='] (u :: rest) = false ∧
      skipInitializer 0 (u :: rest) = u :: rest := by
    rcases hu with rfl | rfl <;> exact ⟨rfl, rfl, rfl⟩
  obtain ⟨hsize, hvalue, hstop⟩ := hnext
  rw [List.append_assoc, skipDeclarator]
  cases hinit : d.value with
  | none =>
    have htokens : d.valueTokens = [] := by rw [Declarator.valueTokens, hinit]
    rw [htokens, List.nil_append, skipArraySize_sizeTokens d hsize, if_neg (by simp [hvalue])]
  | some ts =>
    have htokens : d.valueTokens = operator '=' :: ts := by rw [Declarator.valueTokens, hinit]
    have hequals : startsWith ['='] (operator '=' :: (ts ++ u :: rest)) = true := rfl
    rw [htokens, List.cons_append, skipArraySize_sizeTokens d rfl, if_pos hequals]
    exact ((d.value_balanced ts hinit).skipInitializer_append (by simp)).trans hstop

/-- **The names of a list of declarators are found.** -/
theorem declaredNames_declarators (first : Declarator) (others : List Declarator)
    (rest : List (Token Kind)) :
    declaredNames (first.tokens ++ (others.flatMap fun d => operator ',' :: d.tokens) ++
        operator ';' :: rest) =
      (first :: others).map Declarator.name := by
  induction others generalizing first with
  | nil =>
    rw [List.flatMap_nil, List.append_nil, Declarator.tokens, List.cons_append,
      declaredNames_of_skip rfl (skipDeclarator_append first (.inr rfl) rest)]
    rfl
  | cons d others ih =>
    set more := d.tokens ++ (others.flatMap fun d => operator ',' :: d.tokens) ++
      operator ';' :: rest with hmore
    have htext : first.tokens ++ ((d :: others).flatMap fun d => operator ',' :: d.tokens) ++
        operator ';' :: rest =
        identifier first.name :: (first.sizeTokens ++ first.valueTokens ++ operator ',' :: more) := by
      simp [Declarator.tokens, hmore]
    rw [htext, declaredNames_of_skip rfl (skipDeclarator_append first (.inl rfl) more), List.map_cons,
      ← ih d]
    rfl

end Names

/-! ## The scanner before a declaration -/

section Scanner

variable {types : List Text} {front back : List (Token Kind)} {name word : Text}

/-- All that an identifier can do to the state. -/
theorem DeclarationState.afterToken_identifier (s : DeclarationState) (word : Text) :
    s.afterToken (identifier word) =
      if word = "precision".toList then { s with precision := true }
      else if s.precision ∨ word ∈ precisionQualifiers then s
      else if word = "struct".toList then { s with pendingStruct := true }
      else if word ∈ storageQualifiers then { s with storage := true, pendingBlock := true }
      else s := by
  simp only [DeclarationState.afterToken, identifier, List.contains_iff_mem]

theorem DeclarationState.afterToken_precisionQualifier (s : DeclarationState)
    (h : word ∈ precisionQualifiers) : s.afterToken (identifier word) = s := by
  have hword : word ≠ "precision".toList := by
    rintro rfl
    exact absurd h (by decide)
  rw [afterToken_identifier, if_neg hword, if_pos (.inr h)]

theorem DeclarationState.afterToken_storageQualifier (h : word ∈ storageQualifiers)
    (hprecision : s.precision = false) :
    s.afterToken (identifier word) = { s with storage := true, pendingBlock := true } := by
  have hword : word ≠ "precision".toList ∧ word ∉ precisionQualifiers ∧ word ≠ "struct".toList := by
    have hall : ∀ word ∈ storageQualifiers,
        word ≠ "precision".toList ∧ word ∉ precisionQualifiers ∧ word ≠ "struct".toList := by decide
    exact hall word h
  obtain ⟨hstatement, hqualifier, hstruct⟩ := hword
  rw [afterToken_identifier, if_neg hstatement, if_neg (by simp [hprecision, hqualifier]),
    if_neg hstruct, if_pos h]

/-- A name that is no keyword leaves the state as it is. -/
theorem DeclarationState.afterToken_name (s : DeclarationState) (h : name ∉ keywords) :
    s.afterToken (identifier name) = s := by
  have hword : name ∉ markers := by
    have hall : ∀ word ∈ markers, word ∈ keywords := by decide
    exact fun hmarker => h (hall name hmarker)
  simp only [markers, List.mem_cons, List.mem_append, not_or] at hword
  obtain ⟨hstatement, hstruct, hqualifier, hstorage⟩ := hword
  rw [afterToken_identifier, if_neg hstatement, if_neg hstruct, if_neg hstorage, ite_self]

@[simp] theorem lastText_append (before : Text) (front : List (Token Kind)) (t : Token Kind) :
    lastText before (front ++ [t]) = t.text := by
  simp [lastText]

/-- **Behind a qualifier or a member, the names of variables of the interface are pinned.** -/
theorem mem_pinned_of_variables (front back : List (Token Kind)) (v : Variables types)
    (hprecision : (DeclarationState.after {} front).precision = false)
    (hinterface : (DeclarationState.after {} front).inInterface = true)
    (hlast : lastText [] front ≠ ['.']) (hname : name ∈ v.names)
    (hrenamable : isRenamable types name = true) :
    name ∈ (declarationsFrom types {} [] (front ++ v.tokens ++ back)).pinned := by
  -- a precision changes neither the state nor that no point stands before the type
  have hunchanged : ∀ s : DeclarationState, s.after (v.precision.toList.map identifier) = s := by
    intro s
    cases hword : v.precision with
    | none => rfl
    | some word => exact s.afterToken_precisionQualifier (v.precision_mem word hword)
  have hlast' : lastText [] (front ++ v.precision.toList.map identifier) ≠ ['.'] := by
    cases hword : v.precision with
    | none => simpa using hlast
    | some word =>
      have hall : ∀ word ∈ precisionQualifiers, word ≠ ['.'] := by decide
      simpa [identifier] using hall word (v.precision_mem word hword)
  refine mem_pinned_iff.mpr ⟨front ++ v.precision.toList.map identifier, identifier v.type,
    v.declaratorTokens ++ operator ';' :: back, ?_, .inr ⟨?_, ?_, hrenamable, ?_⟩⟩
  · simp [Variables.tokens]
  · rw [DeclarationState.after_append, hunchanged]
    exact opensDeclaration_iff.mpr ⟨rfl, hprecision, v.type_plain, v.type_mem, hlast'⟩
  · rw [DeclarationState.after_append, hunchanged]
    exact hinterface
  · rw [Variables.declaratorTokens, declaredNames_declarators]
    exact hname

/-! ## The members of a block -/

/-- The scanner stands in an interface block, before a member or at its end. -/
structure AtMember (front : List (Token Kind)) : Prop where
  plain : (DeclarationState.after {} front).precision = false
  inside : ∃ d, (DeclarationState.after {} front).interfaceDepth = some d ∧
    d ≤ (DeclarationState.after {} front).depth
  last : lastText [] front ≠ ['.']

theorem AtMember.inInterface (h : AtMember front) :
    (DeclarationState.after {} front).inInterface = true := by
  obtain ⟨d, hopen, -⟩ := h.inside
  simp [DeclarationState.inInterface, hopen]

theorem Declarator.neutral (d : Declarator) : Neutral d.tokens := by
  have hsize : Neutral d.sizeTokens := by
    unfold Declarator.sizeTokens
    split
    · rename_i ts hsize
      exact .cons (by decide) (by decide)
        ((d.size_balanced ts hsize).neutral.append (.cons (by decide) (by decide) .nil))
    · exact .nil
  have hvalue : Neutral d.valueTokens := by
    unfold Declarator.valueTokens
    split
    · rename_i ts hvalue
      exact .cons (by decide) (by decide) (d.value_balanced ts hvalue).neutral
    · exact .nil
  exact .identifier d.name (hsize.append hvalue)

/-- What stands before the semicolon of a declaration of variables. -/
theorem Variables.neutral (v : Variables types) :
    Neutral (v.precision.toList.map identifier ++ identifier v.type :: v.declaratorTokens) := by
  have hothers : ∀ others : List Declarator,
      Neutral (others.flatMap fun d => operator ',' :: d.tokens) := by
    intro others
    induction others with
    | nil => exact .nil
    | cons d others ih =>
      rw [List.flatMap_cons]
      exact .append (.cons (by decide) (by decide) d.neutral) ih
  have hprecision : Neutral (v.precision.toList.map identifier) := by
    cases v.precision with
    | none => exact .nil
    | some word => exact .identifier word .nil
  exact hprecision.append (.identifier v.type (v.first.neutral.append (hothers v.others)))

/-- **One member.** It leaves the block open, and its semicolon ends what it began. -/
theorem AtMember.member (h : AtMember front) (v : Variables types) :
    AtMember (front ++ v.tokens) := by
  set body := v.precision.toList.map identifier ++ identifier v.type :: v.declaratorTokens with hbody
  have htokens : front ++ v.tokens = front ++ body ++ [operator ';'] := by
    simp [Variables.tokens, hbody]
  obtain ⟨d, hopen, hle⟩ := h.inside
  obtain ⟨hopen', hdepth⟩ := v.neutral _ d hopen hle
  rw [← hbody, ← DeclarationState.after_append] at hopen' hdepth
  have hafter : DeclarationState.after {} (front ++ v.tokens) =
      (DeclarationState.after {} (front ++ body)).afterToken (operator ';') := by
    rw [htokens, DeclarationState.after_append _ _ [operator ';']]
    rfl
  refine ⟨?_, ⟨d, ?_, ?_⟩, ?_⟩
  · rw [hafter]
    rfl
  · rw [hafter]
    exact hopen'
  · rw [hafter]
    exact hle.trans hdepth.ge
  · rw [htokens, lastText_append]
    decide

/-- **All members.** -/
theorem AtMember.members (h : AtMember front) (members : List (Variables types)) :
    AtMember (front ++ members.flatMap Variables.tokens) := by
  induction members generalizing front with
  | nil => simpa using h
  | cons v members ih =>
    rw [List.flatMap_cons, ← List.append_assoc]
    exact ih (h.member v)

/-! ## The interface -/

/-- The tokens are none, or end a declaration. -/
def EndsDeclaration (front : List (Token Kind)) : Prop :=
  front = [] ∨ front.getLast? = some (operator ';')

/-- Behind a semicolon no precision statement is open. -/
theorem EndsDeclaration.precision_eq (h : EndsDeclaration front) :
    (DeclarationState.after {} front).precision = false := by
  rcases h with rfl | h
  · rfl
  · obtain ⟨init, rfl⟩ := List.getLast?_eq_some_iff.mp h
    rw [DeclarationState.after_append]
    rfl

theorem EndsDeclaration.after_qualifier (h : EndsDeclaration front) {qualifier : Text}
    (hqualifier : qualifier ∈ storageQualifiers) :
    DeclarationState.after {} (front ++ [identifier qualifier]) =
      { DeclarationState.after {} front with storage := true, pendingBlock := true } := by
  rw [DeclarationState.after_append]
  exact DeclarationState.afterToken_storageQualifier hqualifier h.precision_eq

/-- A qualifier, a name and a brace open an interface block, or one was open already. -/
theorem EndsDeclaration.atMember (h : EndsDeclaration front) {qualifier : Text}
    (hqualifier : qualifier ∈ storageQualifiers) (hname : name ∉ keywords) :
    AtMember (front ++ [identifier qualifier] ++ [identifier name] ++ [operator '{']) := by
  set s := DeclarationState.after {} front with hs
  have hnested : s.Nested := DeclarationState.nested_start.after front
  have hafter : DeclarationState.after {}
      (front ++ [identifier qualifier] ++ [identifier name] ++ [operator '{']) =
      ({ s with storage := true, pendingBlock := true } : DeclarationState).afterToken
        (operator '{') := by
    rw [DeclarationState.after_append, DeclarationState.after_append, h.after_qualifier hqualifier]
    exact congrArg (DeclarationState.afterToken · (operator '{'))
      (DeclarationState.afterToken_name _ hname)
  refine ⟨?_, ?_, ?_⟩
  · rw [hafter]
    exact h.precision_eq
  · rw [hafter, DeclarationState.afterToken_open]
    cases hopen : s.interfaceDepth with
    | none => exact ⟨s.depth + 1, by simp, Nat.le_refl _⟩
    | some d => exact ⟨d, by simp, Nat.le_succ_of_le (hnested d hopen)⟩
  · rw [lastText_append]
    decide

/-- **The names of an interface declaration are pinned.** -/
theorem InterfaceDeclaration.mem_pinned (d : InterfaceDeclaration types)
    (hfront : EndsDeclaration front) (hname : name ∈ d.names)
    (hrenamable : isRenamable types name = true) :
    name ∈ (declarationsFrom types {} [] (front ++ d.tokens ++ back)).pinned := by
  cases d with
  | statement qualifier hqualifier v =>
    have hafter := hfront.after_qualifier hqualifier
    have hlast : qualifier ≠ ['.'] := by
      have hall : ∀ word ∈ storageQualifiers, word ≠ ['.'] := by decide
      exact hall qualifier hqualifier
    have hpinned := mem_pinned_of_variables (front ++ [identifier qualifier]) back v
      (by rw [hafter]; exact hfront.precision_eq) (by rw [hafter]; rfl)
      (by rw [lastText_append]; exact hlast) hname hrenamable
    simpa [InterfaceDeclaration.tokens] using hpinned
  | block qualifier hqualifier blockName hblock members =>
    obtain ⟨v, hv, hmember⟩ := List.mem_flatMap.mp hname
    obtain ⟨earlier, later, rfl⟩ := List.append_of_mem hv
    have hat := (hfront.atMember hqualifier hblock).members earlier
    have hpinned := mem_pinned_of_variables _ (later.flatMap Variables.tokens ++ [operator '}'] ++ back)
      v hat.plain hat.inInterface hat.last hmember hrenamable
    simpa [InterfaceDeclaration.tokens] using hpinned

end Scanner

/-- **The names of the interface are never renamed**, whatever the rest of the shader declares under
the same name. -/
theorem interface_kept (source : Text) (front back : List (Token Kind))
    (d : InterfaceDeclaration (builtinTypes ++ structNames source))
    (hsource : significant (tokens source) = front ++ d.tokens ++ back)
    (hfront : EndsDeclaration front) :
    renameLocals source =
        Token.join ((tokens source).map (renameToken (localRenames source).rename)) ∧
      ∀ name ∈ d.names, (localRenames source).rename name = name := by
  refine ⟨renameLocals_eq_join source, fun name hname => ?_⟩
  apply rename_of_not_mem_localNames
  intro hlocal
  obtain ⟨hcandidate, hpinned, -, -⟩ := mem_localNames.mp hlocal
  apply hpinned
  rw [declaredIn, declarations, hsource]
  exact d.mem_pinned hfront hname (isRenamable_of_mem_candidates hcandidate)

/-- A shader with a block, whose names `main` uses for variables too. -/
def litShader : Text :=
  "precision lowp float;uniform Light\x7bhighp vec4 color[2],glow=vec4(1.);\x7d;".toList ++
    "void main()\x7bvec4 color=glow;vec4 glow=color;gl_FragColor=glow;\x7d".toList

/-- The block of `litShader`. -/
def lightBlock : InterfaceDeclaration (builtinTypes ++ structNames litShader) :=
  .block "uniform".toList (by decide) "Light".toList (by decide)
    [{ precision := some "highp".toList
       type := "vec4".toList
       first :=
        { name := "color".toList
          size := some [⟨.number, ['2']⟩]
          value := none
          size_balanced := by
            rintro ts ⟨⟩
            exact .plain (by rintro (_ | _ | _) <;> decide) (.inl rfl) .nil
          value_balanced := by simp }
       others :=
        [{ name := "glow".toList
           size := none
           value := some [identifier "vec4".toList, operator '(', ⟨.number, ['1', '.']⟩, operator ')']
           size_balanced := by simp
           value_balanced := by
             rintro ts ⟨⟩
             refine .plain (by rintro (_ | _ | _) <;> decide) (.inr (by decide)) ?_
             exact .group .round (.plain (by rintro (_ | _ | _) <;> decide) (.inl rfl) .nil) .nil }]
       precision_mem := by
         rintro word ⟨⟩
         decide
       type_mem := List.mem_append_left _ (by decide)
       type_plain := by decide }]

theorem interface_kept_light :
    significant (tokens litShader) =
        (significant (tokens litShader)).take 4 ++ lightBlock.tokens ++
          (significant (tokens litShader)).drop 22 ∧
      EndsDeclaration ((significant (tokens litShader)).take 4) ∧
      ∀ name ∈ ["color".toList, "glow".toList], (localRenames litShader).rename name = name :=
  have hsource : significant (tokens litShader) =
      (significant (tokens litShader)).take 4 ++ lightBlock.tokens ++
        (significant (tokens litShader)).drop 22 := by decide +kernel
  have hfront : EndsDeclaration ((significant (tokens litShader)).take 4) := .inr (by decide +kernel)
  ⟨hsource, hfront, (interface_kept litShader _ _ lightBlock hsource hfront).2⟩

/-- A shader whose structure has the name of a storage qualifier. -/
def bufferShader : Text :=
  "struct buffer\x7bvec3 color;\x7d;uniform buffer lamp;".toList ++
    "void main()\x7bfloat lamp=1.;gl_FragColor=vec4(lamp);\x7d".toList

/-- A type that the scanner reads as a qualifier declares nothing, so the name is not pinned. -/
theorem marker_type_renamed :
    ∃ front back, significant (tokens bufferShader) =
        front ++ [identifier "uniform".toList, identifier "buffer".toList,
          identifier "lamp".toList, operator ';'] ++ back ∧
      front.getLast? = some (operator ';') ∧ "uniform".toList ∈ storageQualifiers ∧
      "buffer".toList ∈ structNames bufferShader ∧ "lamp".toList ∉ keywords ∧
      (∀ t ∈ tokens bufferShader, t.kind ≠ .comment) ∧
      (localRenames bufferShader).rename "lamp".toList ≠ "lamp".toList := by
  refine ⟨(significant (tokens bufferShader)).take 8, (significant (tokens bufferShader)).drop 12, ?_⟩
  decide +kernel

end WebTrim.Shader
