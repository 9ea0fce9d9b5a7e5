import WebTrim.Proofs.Shader.Line

/-!
# The outline of a shader

A preprocessor sees a shader as directives with code between them. Of a directive it sees the name
and the tokens behind it, the text behind `#include`, and whether a macro takes parameters.

* `Directive.ofLine` — what a preprocessor sees of a line.
* `outline` — the directives of a shader and the tokens of each run of code lines.
* `Plain` — ASCII, without comments, no number next to a point: `Plain.meaning_compactCode`.
* `Directive.ofLine_compactDirective` — **a directive in short form is the same directive**.
* `Outline.ofLines_compactLines` — by induction over the lines, with the code gathered so far.
* `outline_compactSpacing` — **the outline stays as white space is collapsed**.
-/

set_option autoImplicit false

namespace WebTrim.Shader

open Text

/-! ## Directives -/

/-- Is the line a directive? -/
def isDirective (line : Text) : Bool :=
  (trim line).head? == some '#'

/-- The name and the argument of a directive. The name is empty if no identifier follows the sign. -/
def splitDirective (line : Text) : Text × Text :=
  let t := ((trim line).drop 1).dropWhile isBlank
  if t.head?.any isIdentStart then (t.takeWhile isIdentChar, trim (t.dropWhile isIdentChar))
  else ([], trim t)

/-- Does a parenthesis stand directly behind the name that begins the text? -/
def opensParameters (t : Text) : Bool :=
  t.head?.any isIdentStart && (t.dropWhile isIdentChar).head? == some '('

/-- What a preprocessor sees of a directive. -/
structure Directive where
  name : Text
  /-- The tokens behind the name. -/
  tokens : List (Token Kind)
  /-- The text that an `#include` names. -/
  included : Option Text
  /-- Does it define a macro with parameters? -/
  isFunction : Bool
  deriving DecidableEq

namespace Directive

def ofParts (name argument : Text) : Directive where
  name := name
  tokens := meaning argument
  included := if name = "include".toList then some argument else none
  isFunction := name == "define".toList && opensParameters argument

def ofLine (line : Text) : Directive :=
  ofParts (splitDirective line).1 (splitDirective line).2

end Directive

/-- The parameters of a macro end on its line, if it has any. -/
def ParametersClosed (line : Text) : Prop :=
  (splitDirective line).1 = "define".toList → opensParameters (splitDirective line).2 = true →
    ')' ∈ (splitDirective line).2

instance (line : Text) : Decidable (ParametersClosed line) :=
  inferInstanceAs (Decidable (_ → _ → _))

/-! ## Outlines -/

/-- The lines of a shader cut at its directives: the code before the first one, and each directive
with the code behind it. -/
def cutAtDirectives : List Text → Text × List (Text × Text)
  | [] => ([], [])
  | line :: rest =>
    let cut := cutAtDirectives rest
    if isDirective line then ([], (line, cut.1) :: cut.2) else (line ++ '\n' :: cut.1, cut.2)

/-- The tokens before the first directive, and each directive with the tokens behind it. -/
structure Outline where
  code : List (Token Kind)
  blocks : List (Directive × List (Token Kind))
  deriving DecidableEq

namespace Outline

def ofLines (ls : List Text) : Outline where
  code := meaning (cutAtDirectives ls).1
  blocks := (cutAtDirectives ls).2.map fun block => (Directive.ofLine block.1, meaning block.2)

/-- The outline with more tokens at its beginning. -/
def behind (o : Outline) (ts : List (Token Kind)) : Outline :=
  { o with code := ts ++ o.code }

@[simp] theorem behind_nil (o : Outline) : o.behind [] = o := rfl

theorem behind_behind (o : Outline) (ts us : List (Token Kind)) :
    (o.behind us).behind ts = o.behind (ts ++ us) := by
  simp [behind]

theorem ofLines_directive {line : Text} (h : isDirective line = true) (ls : List Text) :
    ofLines (line :: ls) =
      ⟨[], (Directive.ofLine line, (ofLines ls).code) :: (ofLines ls).blocks⟩ := by
  simp [ofLines, cutAtDirectives, h]

theorem ofLines_code {line : Text} (h : isDirective line = false) (hcomments : CommentFree line)
    (ls : List Text) : ofLines (line :: ls) = (ofLines ls).behind (meaning line) := by
  have hstops : Stops ('\n' :: (cutAtDirectives ls).1) := by
    intro c hc
    cases hc
    decide
  have hcode := hcomments.meaning_append hstops (by simp)
  rw [meaning_blank (by decide)] at hcode
  simp [ofLines, cutAtDirectives, h, hcode, behind]

theorem ofLines_nil_cons (ls : List Text) : ofLines ([] :: ls) = ofLines ls := by
  have hnil : CommentFree [] := by
    intro c rest hsuffix
    simp at hsuffix
  rw [ofLines_code (by decide) hnil, meaning_nil, behind_nil]

end Outline

/-- What a preprocessor sees of a shader. -/
def outline (source : Text) : Outline :=
  Outline.ofLines (sourceLines source)

/-! ## Plain texts -/

/-- ASCII, without comments, no number next to a point. -/
structure Plain (t : Text) : Prop where
  ascii : Ascii t
  comments : CommentFree t
  points : PointsApart (meaning t)

namespace Plain

variable {s t : Text}

theorem part (h : Plain t) (hpart : s <:+: t) (htokens : meaning s <:+: meaning t) : Plain s where
  ascii := h.ascii.of_subset hpart.subset
  comments := h.comments.of_part hpart
  points := List.IsChain.infix h.points htokens

theorem visible_compactCode (h : Plain t) : visible (compactCode t) = meaning t :=
  Shader.visible_compactCode h.ascii h.points

theorem commentFree_compactCode (h : Plain t) : CommentFree (compactCode t) := by
  rw [commentFree_iff_visible, h.visible_compactCode]
  intro u hu
  have hkind := (List.mem_filter.mp hu).2
  rintro hcomment
  simp [isSignificant, hcomment] at hkind

theorem meaning_compactCode (h : Plain t) : meaning (compactCode t) = meaning t := by
  rw [h.commentFree_compactCode.meaning_eq, h.visible_compactCode]

/-- Compact code begins as the code, if that does not begin with a blank. -/
theorem head?_compactCode (h : Plain t) (hhead : ∀ c ∈ t.head?, isBlank c = false) :
    (compactCode t).head? = t.head? := by
  cases t with
  | nil => simp
  | cons c rest =>
    exact Shader.head?_compactCode (hhead c rfl) (h.comments c rest (List.suffix_refl _))

theorem trim_compactCode (h : Plain t) (hhead : ∀ c ∈ t.head?, isBlank c = false) :
    trim (compactCode t) = compactCode t := by
  refine trim_eq_self ?_ (getLast?_compactCode h.ascii)
  rw [h.head?_compactCode hhead]
  exact hhead

end Plain

/-! ## Directives taken apart and put together -/

theorem isIdentifier_takeWhile {t : Text} (h : t.head?.any isIdentStart = true) :
    IsIdentifier (t.takeWhile isIdentChar) := by
  cases t with
  | nil => simp at h
  | cons c rest =>
    have hstart : isIdentStart c = true := by simpa using h
    rw [List.takeWhile_cons_of_pos (isIdentChar_of_isIdentStart hstart)]
    exact ⟨c, _, rfl, hstart, fun d hd => List.mem_takeWhile_imp hd⟩

namespace IsIdentifier

variable {name tail : Text}

theorem head? (h : IsIdentifier name) : (name ++ tail).head?.any isIdentStart = true := by
  obtain ⟨c, body, rfl, hstart, -⟩ := h
  simpa using hstart

theorem takeWhile_append (h : IsIdentifier name) (htail : ∀ d ∈ tail.head?, isIdentChar d = false) :
    (name ++ tail).takeWhile isIdentChar = name := by
  obtain ⟨c, body, rfl, hstart, hbody⟩ := h
  refine takeWhile_isIdentChar_append ?_ htail
  rw [List.forall_mem_cons]
  exact ⟨isIdentChar_of_isIdentStart hstart, hbody⟩

theorem dropWhile_append (h : IsIdentifier name) (htail : ∀ d ∈ tail.head?, isIdentChar d = false) :
    (name ++ tail).dropWhile isIdentChar = tail := by
  rw [← drop_length_takeWhile, h.takeWhile_append htail, List.drop_left]

theorem not_blank (h : IsIdentifier name) : ∀ c ∈ name, isBlank c = false := by
  obtain ⟨c, body, rfl, hstart, hbody⟩ := h
  rw [List.forall_mem_cons]
  exact ⟨isBlank_of_isIdentStart hstart, fun d hd => isBlank_of_isIdentChar (hbody d hd)⟩

theorem dropWhile_isBlank (h : IsIdentifier name) : (name ++ tail).dropWhile isBlank = name ++ tail := by
  obtain ⟨c, body, rfl, hstart, -⟩ := h
  rw [List.cons_append, List.dropWhile_cons_of_neg (by simp [isBlank_of_isIdentStart hstart])]

theorem meaning_append (h : IsIdentifier name) (htail : ∀ d ∈ tail.head?, isIdentChar d = false) :
    meaning (name ++ tail) = ⟨.identifier, name⟩ :: meaning tail :=
  (Lexeme.identifier h).meaning_append htail

end IsIdentifier

theorem isBlank_getLast_append {s t : Text} (hs : ∀ c ∈ s.getLast?, isBlank c = false)
    (ht : ∀ c ∈ t.getLast?, isBlank c = false) :
    ∀ c ∈ (s ++ t).getLast?, isBlank c = false := by
  cases t with
  | nil => rwa [List.append_nil]
  | cons d t => rwa [List.getLast?_append_of_ne_nil s (by simp)]

theorem trim_sign {t : Text} (h : ∀ c ∈ t.getLast?, isBlank c = false) :
    trim ('#' :: t) = '#' :: t := by
  have hsign : ∀ c ∈ ['#'].head?, isBlank c = false := by
    intro c hc
    cases hc
    decide
  exact trim_eq_self hsign (isBlank_getLast_append (s := ['#']) hsign h)

theorem splitDirective_sign {t : Text} (h : trim ('#' :: t) = '#' :: t) :
    splitDirective ('#' :: t) =
      if (t.dropWhile isBlank).head?.any isIdentStart then
        ((t.dropWhile isBlank).takeWhile isIdentChar, trim ((t.dropWhile isBlank).dropWhile isIdentChar))
      else ([], trim t) := by
  simp [splitDirective, h]

/-- A name and an argument, written with a space between them. -/
theorem splitDirective_spaced {name argument : Text} (hname : IsIdentifier name)
    (htrim : trim argument = argument) (hne : argument ≠ []) :
    splitDirective ('#' :: (name ++ ' ' :: argument)) = (name, argument) := by
  have hstop : ∀ d ∈ (' ' :: argument).head?, isIdentChar d = false := by
    intro d hd
    cases hd
    decide
  have hlast : ∀ c ∈ (name ++ ' ' :: argument).getLast?, isBlank c = false := by
    intro c hc
    rw [List.getLast?_append_cons, List.getLast?_cons_of_ne_nil hne] at hc
    exact isBlank_getLast_trim c (htrim.symm ▸ hc)
  have hspace : trim (' ' :: argument) = trim argument := by
    rw [← trim_dropWhile, List.dropWhile_cons_of_pos (by decide), trim_dropWhile]
  rw [splitDirective_sign (trim_sign hlast), hname.dropWhile_isBlank, if_pos hname.head?,
    hname.takeWhile_append hstop, hname.dropWhile_append hstop, hspace, htrim]

theorem splitDirective_bare {name : Text} (hname : IsIdentifier name) :
    splitDirective ('#' :: name) = (name, []) := by
  have hlast : ∀ c ∈ name.getLast?, isBlank c = false :=
    fun c hc => hname.not_blank c (List.mem_of_getLast? hc)
  have hnil := List.append_nil name
  rw [splitDirective_sign (trim_sign hlast), ← hnil, hname.dropWhile_isBlank, if_pos hname.head?,
    hname.takeWhile_append (by simp), hname.dropWhile_append (by simp), hnil]
  rfl

/-- Among ASCII characters, those of a word are those of an identifier. -/
theorem splitWhile_isWordChar {t : Text} (h : Ascii t) :
    splitWhile isWordChar t = splitWhile isIdentChar t := by
  have hsame : ∀ c ∈ t, isWordChar c = isIdentChar c := by
    intro c hc
    have hnarrow := h c hc
    simp [isWordChar, isAlnum, isIdentChar, hnarrow, Bool.or_comm]
  clear h
  unfold splitWhile
  induction t with
  | nil => rfl
  | cons c t ih =>
    rw [List.forall_mem_cons] at hsame
    have hrest := ih hsame.2
    rw [Prod.mk.injEq] at hrest
    simp only [List.takeWhile_cons, List.dropWhile_cons, hsame.1, hrest]

theorem readDirective?_sign {t : Text} (hascii : Ascii t) (hone : OneLine t)
    (htrim : trim ('#' :: t) = '#' :: t) :
    readDirective? ('#' :: t) =
      if (t.dropWhile isBlank).head?.any isIdentStart then some (splitDirective ('#' :: t))
      else none := by
  rw [splitDirective_sign htrim]
  have hsub : t.dropWhile isBlank ⊆ t := (List.dropWhile_sublist _).subset
  cases hrest : t.dropWhile isBlank with
  | nil => simp [readDirective?, hrest]
  | cons c rest =>
    rw [hrest] at hsub
    have hlater : rest ⊆ t := fun d hd => hsub (List.mem_cons_of_mem c hd)
    by_cases hstart : isIdentStart c = true
    · have hchar := isIdentChar_of_isIdentStart hstart
      have hnewline :
          '\n' ∉ dropFinalNewline ((rest.dropWhile isIdentChar).dropWhile isBlank) := by
        intro hmem
        have hmem := (List.dropWhile_sublist _).subset (dropFinalNewline_subset _ hmem)
        exact absurd (hone _ (hlater ((List.dropWhile_sublist _).subset hmem))) (by decide)
      simp only [readDirective?, hrest, if_pos hstart,
        splitWhile_isWordChar (hascii.of_subset hlater)]
      simp [splitWhile, hnewline, hstart, hchar]
    · simp [readDirective?, hrest, hstart]

/-- **The tokens of a directive**: the sign, the name and those of the argument. -/
theorem meaning_directive {t : Text} (hascii : Ascii t) (hcomments : CommentFree t)
    (hstart : (t.dropWhile isBlank).head?.any isIdentStart = true) :
    meaning ('#' :: t) = ⟨.operator, ['#']⟩ ::
      ⟨.identifier, (t.dropWhile isBlank).takeWhile isIdentChar⟩ ::
        meaning (trim ((t.dropWhile isBlank).dropWhile isIdentChar)) := by
  have hsign : Lexeme ⟨.operator, ['#']⟩ := .operator (by decide) (by decide) (by decide)
  have hallows : ∀ d ∈ t.head?, Allows ⟨.operator, ['#']⟩ d :=
    fun d _ => ⟨fun h => absurd h (by decide), fun h => absurd h (by decide)⟩
  have hblanks : ∀ c ∈ t.takeWhile isBlank, isBlank c = true := fun c hc => List.mem_takeWhile_imp hc
  have hfront : meaning t = meaning (t.dropWhile isBlank) := by
    conv_lhs => rw [← List.takeWhile_append_dropWhile (p := isBlank) (l := t)]
    exact meaning_blanks hblanks _
  have hsuffix : (t.dropWhile isBlank).dropWhile isIdentChar <:+ t :=
    (List.dropWhile_suffix _).trans (List.dropWhile_suffix _)
  have hname := (isIdentifier_takeWhile hstart).meaning_append
    (not_head_dropWhile (p := isIdentChar) (t := t.dropWhile isBlank))
  rw [List.takeWhile_append_dropWhile] at hname
  rw [meaning_trim (hascii.of_subset hsuffix.subset) (hcomments.of_suffix hsuffix), ← hname, ← hfront]
  exact hsign.meaning_append hallows

/-! ## Macro definitions -/

/-- Code behind a space, or nothing. -/
def spaced (code : Text) : Text :=
  if code.isEmpty then [] else ' ' :: code

theorem spaced_cases (code : Text) : code = [] ∧ spaced code = [] ∨ spaced code = ' ' :: code := by
  cases code with
  | nil => exact .inl ⟨rfl, rfl⟩
  | cons c code => exact .inr rfl

theorem head?_spaced {code : Text} : ∀ c ∈ (spaced code).head?, c = ' ' := by
  rcases spaced_cases code with ⟨-, h⟩ | h <;> simp [h]

theorem stops_spaced (code : Text) : Stops (spaced code) := by
  intro c hc
  rw [head?_spaced c hc]
  decide

theorem meaning_spaced (code : Text) : meaning (spaced code) = meaning code := by
  rcases spaced_cases code with ⟨rfl, h⟩ | h
  · rw [h]
  · rw [h, meaning_blank (by decide)]

theorem getLast?_spaced {code : Text} (h : ∀ c ∈ code.getLast?, isBlank c = false) :
    ∀ c ∈ (spaced code).getLast?, isBlank c = false := by
  intro c hc
  cases code with
  | nil => cases hc
  | cons d code => exact h c (by simpa [spaced] using hc)

/-- The name, the parameters and the body of a macro definition. -/
structure MacroParts (name parameters body : Text) : Prop where
  identifier : IsIdentifier name
  opens : parameters = [] ∧ body.head? ≠ some '(' ∨
    ∃ inside, parameters = '(' :: inside ++ [')']
  stop : ∀ d ∈ (parameters ++ body).head?, isIdentChar d = false

/-- A macro definition is its name, its parameters if it has any, and its body. -/
theorem exists_macroParts {t : Text} (hclosed : opensParameters t = true → ')' ∈ t)
    (hstart : t.head?.any isIdentStart = true) :
    ∃ name parameters body, t = name ++ (parameters ++ body) ∧ MacroParts name parameters body ∧
      compactDefinition t = name ++ (compactCode parameters ++ spaced (compactCode body)) := by
  -- the parameters and the body are the same pair in all three places
  have hparts : ∀ parts : Text × Text, t.dropWhile isIdentChar = parts.1 ++ parts.2 →
      (parts.1 = [] ∧ parts.2.head? ≠ some '(' ∨ ∃ inside, parts.1 = '(' :: inside ++ [')']) →
      ∃ name parameters body, t = name ++ (parameters ++ body) ∧ MacroParts name parameters body ∧
        t.takeWhile isIdentChar ++ compactCode parts.1 ++
            (if (compactCode parts.2).isEmpty then [] else ' ' :: compactCode parts.2) =
          name ++ (compactCode parameters ++ spaced (compactCode body)) := by
    intro parts hbehind hopens
    refine ⟨t.takeWhile isIdentChar, parts.1, parts.2, ?_, ?_, ?_⟩
    · rw [← hbehind, List.takeWhile_append_dropWhile]
    · exact ⟨isIdentifier_takeWhile hstart, hopens, hbehind ▸ not_head_dropWhile⟩
    · rw [List.append_assoc]
      rfl
  unfold compactDefinition
  simp only [splitWhile]
  refine hparts _ ?_ ?_
  · split
    · rename_i rest hrest
      split
      · rename_i inside after hcut
        rw [hrest, (cut?_eq_some hcut).1]
        simp
      · rfl
    · rfl
  · split
    · rename_i rest hrest
      have hmem : ')' ∈ rest := by
        have hmem := hclosed (by simp [opensParameters, hstart, hrest])
        rw [← List.takeWhile_append_dropWhile (p := isIdentChar) (l := t), hrest,
          List.mem_append] at hmem
        rcases hmem with hmem | hmem
        · exact absurd (List.mem_takeWhile_imp hmem) (by decide)
        · simpa using hmem
      split
      · rename_i inside after hcut
        exact .inr ⟨inside, rfl⟩
      · rename_i hcut
        obtain ⟨body, after, hsome, -⟩ := cut?_singleton_of_mem hmem
        cases hcut.symm.trans hsome
    · rename_i hnot
      refine .inl ⟨rfl, fun hhead => ?_⟩
      cases hrest : t.dropWhile isIdentChar with
      | nil => simp [hrest] at hhead
      | cons c rest =>
        rw [hrest] at hhead
        cases hhead
        exact hnot rest hrest

theorem meaning_parenthesis {t : Text} (h : CommentFree t) (w : Text) :
    meaning (t ++ ')' :: w) = meaning t ++ ⟨.operator, [')']⟩ :: meaning w := by
  have hstops : Stops (')' :: w) := by
    intro c hc
    cases hc
    decide
  have hclose : Lexeme ⟨.operator, [')']⟩ := .operator (by decide) (by decide) (by decide)
  have hallows : ∀ d ∈ w.head?, Allows ⟨.operator, [')']⟩ d :=
    fun d _ => ⟨fun h => absurd h (by decide), fun h => absurd h (by decide)⟩
  have hbehind : meaning (')' :: w) = ⟨.operator, [')']⟩ :: meaning w :=
    hclose.meaning_append hallows
  rw [h.meaning_append hstops (by simp), hbehind]

namespace MacroParts

variable {name parameters body : Text}

theorem meaning_eq (h : MacroParts name parameters body)
    (hcomments : CommentFree (name ++ (parameters ++ body))) :
    meaning (name ++ (parameters ++ body)) =
      ⟨.identifier, name⟩ :: (meaning parameters ++ meaning body) := by
  rw [h.identifier.meaning_append h.stop]
  congr 1
  rcases h.opens with ⟨rfl, -⟩ | ⟨inside, rfl⟩
  · simp
  · have hinside : CommentFree ('(' :: inside) :=
      hcomments.of_part ⟨name, ')' :: body, by simp⟩
    have hclosed := meaning_parenthesis hinside []
    rw [List.append_assoc, List.singleton_append, meaning_parenthesis hinside body, hclosed]
    simp

theorem plain (h : MacroParts name parameters body) (hplain : Plain (name ++ (parameters ++ body))) :
    Plain parameters ∧ Plain body := by
  have htokens := h.meaning_eq hplain.comments
  constructor
  · exact hplain.part ⟨name, body, by simp⟩ ⟨[⟨.identifier, name⟩], meaning body, by simp [htokens]⟩
  · exact hplain.part ⟨name ++ parameters, [], by simp⟩
      ⟨⟨.identifier, name⟩ :: meaning parameters, [], by simp [htokens]⟩

/-- The short form goes on behind the name as the definition, or with a space. -/
theorem head?_short (h : MacroParts name parameters body) (hplain : Plain parameters) :
    parameters = [] ∧ (compactCode parameters ++ spaced (compactCode body)).head? ≠ some '(' ∧
        (∀ d ∈ (compactCode parameters ++ spaced (compactCode body)).head?, d = ' ') ∨
      (compactCode parameters ++ spaced (compactCode body)).head? = some '(' := by
  rcases h.opens with ⟨rfl, -⟩ | ⟨inside, rfl⟩
  · rw [compactCode_nil, List.nil_append]
    refine .inl ⟨rfl, fun hc => ?_, head?_spaced⟩
    exact absurd (head?_spaced _ hc) (by decide)
  · right
    have hopen : ∀ c ∈ ('(' :: inside ++ [')']).head?, isBlank c = false := by
      intro c hc
      cases hc
      decide
    rw [List.head?_append, hplain.head?_compactCode hopen]
    rfl

theorem stop_short (h : MacroParts name parameters body) (hplain : Plain parameters) :
    ∀ d ∈ (compactCode parameters ++ spaced (compactCode body)).head?, isIdentChar d = false := by
  intro d hd
  rcases h.head?_short hplain with ⟨-, -, hspace⟩ | hopen
  · rw [hspace d hd]
    decide
  · rw [hopen] at hd
    cases hd
    decide

/-- The short form has the tokens of the definition. -/
theorem meaning_short (h : MacroParts name parameters body)
    (hplain : Plain (name ++ (parameters ++ body))) :
    meaning (name ++ (compactCode parameters ++ spaced (compactCode body))) =
      meaning (name ++ (parameters ++ body)) := by
  obtain ⟨hparameters, hbody⟩ := h.plain hplain
  have hspace : (spaced (compactCode body)).head? ≠ some '/' ∧
      (spaced (compactCode body)).head? ≠ some '*' := by
    constructor <;>
    · intro hc
      exact absurd (head?_spaced _ hc) (by decide)
  rw [h.identifier.meaning_append (h.stop_short hparameters),
    hparameters.commentFree_compactCode.meaning_append (stops_spaced _) hspace, meaning_spaced,
    hparameters.meaning_compactCode, hbody.meaning_compactCode, h.meaning_eq hplain.comments]

/-- A macro keeps its parameters, and gets none. -/
theorem opensParameters_short (h : MacroParts name parameters body) (hplain : Plain parameters) :
    opensParameters (name ++ (compactCode parameters ++ spaced (compactCode body))) =
      opensParameters (name ++ (parameters ++ body)) := by
  rw [opensParameters, opensParameters, h.identifier.head?, h.identifier.head?,
    h.identifier.dropWhile_append h.stop, h.identifier.dropWhile_append (h.stop_short hplain)]
  have hopens := h.opens
  rcases h.head?_short hplain with ⟨rfl, hnot, -⟩ | hopen
  · have hbody : body.head? ≠ some '(' := by simpa using hopens
    simpa [hbody] using hnot
  · rw [hopen]
    rcases hopens with ⟨rfl, -⟩ | ⟨inside, rfl⟩
    · rw [compactCode_nil, List.nil_append] at hopen
      exact absurd (head?_spaced _ hopen) (by decide)
    · rfl

theorem trim_short (h : MacroParts name parameters body) (hparameters : Plain parameters)
    (hbody : Plain body) :
    trim (name ++ (compactCode parameters ++ spaced (compactCode body))) =
      name ++ (compactCode parameters ++ spaced (compactCode body)) := by
  refine trim_eq_self ?_ ?_
  · obtain ⟨d, rest, rfl, hd, -⟩ := h.identifier
    intro c hc
    cases hc
    exact isBlank_of_isIdentStart hd
  · refine isBlank_getLast_append (fun c hc => h.identifier.not_blank c (List.mem_of_getLast? hc)) ?_
    exact isBlank_getLast_append (getLast?_compactCode hparameters.ascii)
      (getLast?_spaced (getLast?_compactCode hbody.ascii))

end MacroParts

/-- **A macro definition in short form defines the same macro.** -/
theorem ofParts_compactDefinition {t : Text} (h : Plain t)
    (hstart : t.head?.any isIdentStart = true) (hclosed : opensParameters t = true → ')' ∈ t) :
    Directive.ofParts "define".toList (compactDefinition t) = Directive.ofParts "define".toList t ∧
      trim (compactDefinition t) = compactDefinition t ∧ compactDefinition t ≠ [] := by
  obtain ⟨name, parameters, body, rfl, hparts, hshort⟩ := exists_macroParts hclosed hstart
  obtain ⟨hparameters, hbody⟩ := hparts.plain h
  rw [hshort]
  refine ⟨?_, hparts.trim_short hparameters hbody, ?_⟩
  · unfold Directive.ofParts
    rw [hparts.meaning_short h, hparts.opensParameters_short hparameters]
    rfl
  · obtain ⟨d, rest, rfl, -⟩ := hparts.identifier
    simp

/-! ## Directives in short form -/

namespace Directive

theorem ofLine_spaced {name argument : Text} (hname : IsIdentifier name)
    (htrim : trim argument = argument) (hne : argument ≠ []) :
    ofLine ('#' :: (name ++ ' ' :: argument)) = ofParts name argument := by
  rw [ofLine, splitDirective_spaced hname htrim hne]

/-- Code in short form behind a name, where the text itself does not count. -/
theorem ofParts_compactCode {name argument : Text} (h : Plain argument)
    (hhead : ∀ c ∈ argument.head?, isBlank c = false) (hinclude : name ≠ "include".toList)
    (hdefine : name = "define".toList → argument.head?.any isIdentStart = false) :
    ofParts name (compactCode argument) = ofParts name argument := by
  have hfunction : (name == "define".toList && opensParameters (compactCode argument)) =
      (name == "define".toList && opensParameters argument) := by
    by_cases hname : name = "define".toList
    · unfold opensParameters
      rw [h.head?_compactCode hhead, hdefine hname, Bool.false_and, Bool.false_and]
    · rw [beq_eq_false_iff_ne.mpr hname, Bool.false_and, Bool.false_and]
  unfold ofParts
  rw [h.meaning_compactCode, if_neg hinclude, if_neg hinclude, hfunction]

theorem include_append (t : Text) :
    "#include ".toList ++ t = '#' :: ("include".toList ++ ' ' :: t) :=
  rfl

theorem define_append (t : Text) :
    "#define ".toList ++ t = '#' :: ("define".toList ++ ' ' :: t) :=
  rfl

/-- The short form of a directive with a name. -/
theorem ofLine_of_readDirective? {line name argument : Text}
    (hread : readDirective? line = some (name, argument)) (hname : IsIdentifier name)
    (hself : trim argument = argument) (h : Plain argument)
    (hclosed : name = "define".toList → opensParameters argument = true → ')' ∈ argument) :
    ofLine (compactDirective line) = ofParts name argument := by
  have hhead : ∀ c ∈ argument.head?, isBlank c = false := hself ▸ isBlank_head_trim
  unfold compactDirective
  rw [hread]
  simp only
  split
  · rename_i hempty
    rw [List.isEmpty_iff.mp hempty, ofLine, splitDirective_bare hname]
  · rename_i hempty
    have hne : argument ≠ [] := fun hnil => hempty (by rw [hnil]; rfl)
    split
    · rename_i hinclude
      subst hinclude
      rw [include_append, ofLine_spaced hname hself hne]
    · rename_i hinclude
      split
      · rename_i hdefine
        obtain ⟨rfl, hstart⟩ := hdefine
        obtain ⟨hsame, hshort, hshortne⟩ := ofParts_compactDefinition h hstart (hclosed rfl)
        rw [define_append, ofLine_spaced hname hshort hshortne, hsame]
      · rename_i hdefine
        have hcode : compactCode argument ≠ [] := by
          intro hnil
          have hsame := h.head?_compactCode hhead
          rw [hnil, eq_comm, List.head?_nil, List.head?_eq_none_iff] at hsame
          exact hne hsame
        rw [← ofParts_compactCode h hhead hinclude fun hname => by simpa [hname] using hdefine]
        exact ofLine_spaced hname (h.trim_compactCode hhead) hcode

/-- **A directive in short form is the same directive.** -/
theorem ofLine_compactDirective {t : Text} (h : Plain ('#' :: t)) (hone : OneLine t)
    (htrim : trim ('#' :: t) = '#' :: t) (hclosed : ParametersClosed ('#' :: t)) :
    ofLine (compactDirective ('#' :: t)) = ofLine ('#' :: t) := by
  have hascii : Ascii t := h.ascii.of_subset (List.subset_cons_self _ _)
  have hcomments : CommentFree t := h.comments.of_suffix (List.suffix_cons _ _)
  have hread := readDirective?_sign hascii hone htrim
  have hsplit := splitDirective_sign htrim
  by_cases hstart : (t.dropWhile isBlank).head?.any isIdentStart = true
  · rw [if_pos hstart] at hread hsplit
    have hpart : trim ((t.dropWhile isBlank).dropWhile isIdentChar) <:+: '#' :: t := by
      refine (trim_part _).trans (List.IsSuffix.isInfix ?_)
      exact ((List.dropWhile_suffix _).trans (List.dropWhile_suffix _)).trans (List.suffix_cons _ _)
    have htokens : meaning (trim ((t.dropWhile isBlank).dropWhile isIdentChar)) <:+:
        meaning ('#' :: t) := by
      rw [meaning_directive hascii hcomments hstart]
      exact ((List.suffix_cons _ _).trans (List.suffix_cons _ _)).isInfix
    rw [ParametersClosed, hsplit] at hclosed
    rw [ofLine_of_readDirective? (hread.trans (congrArg some hsplit)) (isIdentifier_takeWhile hstart)
      (trim_trim _) (h.part hpart htokens) hclosed, ofLine, hsplit]
  · rw [if_neg hstart] at hread hsplit
    have hsign : trim ('#' :: trim t) = '#' :: trim t := trim_sign isBlank_getLast_trim
    have hstart' : ¬((trim t).dropWhile isBlank).head?.any isIdentStart = true := by
      rw [← head?_trim, trim_trim, head?_trim]
      exact hstart
    have hshort : compactDirective ('#' :: t) = '#' :: trim t := by
      unfold compactDirective
      rw [hread]
      rfl
    rw [hshort, ofLine, ofLine, splitDirective_sign hsign, if_neg hstart', hsplit, trim_trim]

/-- The short form of a line that is a directive. -/
theorem ofLine_compactDirective_trim {line : Text} (h : Plain (trim line)) (hone : OneLine line)
    (hdirective : isDirective line = true) (hclosed : ParametersClosed line) :
    ofLine (compactDirective (trim line)) = ofLine line := by
  have hself := trim_trim line
  have hsub := (trim_part line).subset
  have hsame : splitDirective (trim line) = splitDirective line := by
    unfold splitDirective
    rw [hself]
  have hclosed : ParametersClosed (trim line) := by
    unfold ParametersClosed at hclosed ⊢
    rwa [hsame]
  have hread : ofLine (trim line) = ofLine line := by
    unfold ofLine
    rw [hsame]
  rw [← hread]
  unfold isDirective at hdirective
  cases hline : trim line with
  | nil => simp [hline] at hdirective
  | cons c t =>
    rw [hline] at h hdirective hself hsub hclosed
    cases eq_of_beq hdirective
    exact ofLine_compactDirective h (fun d hd => hone d (hsub (List.mem_cons_of_mem _ hd))) hself
      hclosed

end Directive

theorem head?_compactDirective (line : Text) : (compactDirective line).head? = some '#' := by
  unfold compactDirective
  split
  · rfl
  · split
    · rfl
    · split
      · rfl
      · split <;> rfl

theorem isDirective_compactDirective (line : Text) :
    isDirective (compactDirective line) = true := by
  have hhead := head?_compactDirective line
  cases hshort : compactDirective line with
  | nil => simp [hshort] at hhead
  | cons c t =>
    rw [hshort] at hhead
    cases hhead
    rw [isDirective, head?_trim]
    rfl

theorem oneLine_compactDirective {line : Text} (h : OneLine line) : OneLine (compactDirective line) := by
  refine keeps_compactDirective ⟨fun {c} hc => ?_, by decide, by decide⟩ line h
  by_contra hend
  simp only [isLineEnd, Bool.not_eq_false, Bool.or_eq_true, beq_iff_eq] at hend
  rcases hend with rfl | rfl <;> exact absurd hc (by decide)

/-! ## Runs of code -/

/-- ASCII lines without comments, no number next to a point. -/
structure PlainLines (ls : List Text) : Prop where
  ascii : ∀ line ∈ ls, Ascii line
  comments : ∀ line ∈ ls, CommentFree line
  points : PointsApart (ls.flatMap meaning)

namespace PlainLines

variable {ls : List Text}

theorem part (h : PlainLines ls) {ms : List Text} (hpart : ms <:+: ls) : PlainLines ms where
  ascii line hline := h.ascii line (hpart.subset hline)
  comments line hline := h.comments line (hpart.subset hline)
  points := by
    obtain ⟨before, after, rfl⟩ := hpart
    refine List.IsChain.infix h.points ⟨before.flatMap meaning, after.flatMap meaning, ?_⟩
    simp

theorem trim {before after : List Text} {line : Text} (h : PlainLines (before ++ line :: after)) :
    PlainLines (before ++ trim line :: after) := by
  have hsub := (trim_part line).subset
  have hsame : meaning (Text.trim line) = meaning line :=
    meaning_trim (h.ascii line (by simp)) (h.comments line (by simp))
  refine ⟨?_, ?_, ?_⟩
  · have hascii := h.ascii
    rw [List.forall_mem_append, List.forall_mem_cons] at hascii ⊢
    exact ⟨hascii.1, hascii.2.1.of_subset hsub, hascii.2.2⟩
  · have hcomments := h.comments
    rw [List.forall_mem_append, List.forall_mem_cons] at hcomments ⊢
    exact ⟨hcomments.1, hcomments.2.1.of_part (trim_part line), hcomments.2.2⟩
  · have hpoints := h.points
    rw [List.flatMap_append, List.flatMap_cons] at hpoints ⊢
    rwa [hsame]

theorem drop_nil {before after : List Text} (h : PlainLines (before ++ [] :: after)) :
    PlainLines (before ++ after) where
  ascii line hline := h.ascii line (by
    rw [List.mem_append] at hline ⊢
    exact hline.imp_right (List.mem_cons_of_mem _))
  comments line hline := h.comments line (by
    rw [List.mem_append] at hline ⊢
    exact hline.imp_right (List.mem_cons_of_mem _))
  points := by simpa using h.points

theorem plain (h : PlainLines ls) {line : Text} (hline : line ∈ ls) : Plain line := by
  obtain ⟨before, after, rfl⟩ := List.append_of_mem hline
  have hone := h.part ⟨before, after, by rw [List.append_assoc, List.singleton_append]⟩
  exact ⟨h.ascii line hline, h.comments line hline, by simpa using hone.points⟩

/-- Lines joined by newlines have their tokens. -/
theorem join (h : PlainLines ls) :
    CommentFree (join ['\n'] ls) ∧ meaning (Text.join ['\n'] ls) = ls.flatMap meaning := by
  have hcomments := h.comments
  clear h
  fun_induction Text.join ['\n'] ls with
  | case1 =>
    refine ⟨?_, by simp⟩
    intro c rest hsuffix
    simp at hsuffix
  | case2 line =>
    exact ⟨hcomments line List.mem_cons_self, by simp⟩
  | case3 line other rest ih =>
    rw [List.forall_mem_cons] at hcomments
    obtain ⟨hlater, hmeaning⟩ := ih hcomments.2
    have hstops : Stops ('\n' :: Text.join ['\n'] (other :: rest)) := by
      intro c hc
      cases hc
      decide
    have hnewline : CommentFree ('\n' :: Text.join ['\n'] (other :: rest)) := by
      rw [commentFree_iff_visible, visible_blank (by decide), ← commentFree_iff_visible]
      exact hlater
    rw [List.append_assoc, List.singleton_append]
    refine ⟨hcomments.1.append hnewline hstops (by simp), ?_⟩
    rw [hcomments.1.meaning_append hstops (by simp), meaning_blank (by decide), hmeaning]
    simp

theorem plain_join (h : PlainLines ls) : Plain (Text.join ['\n'] ls) := by
  obtain ⟨hcomments, hmeaning⟩ := h.join
  refine ⟨?_, hcomments, hmeaning ▸ h.points⟩
  exact forall_mem_join (by simp) h.ascii

end PlainLines

/-- The line begins with code. -/
def BeginsCode (line : Text) : Prop :=
  ∃ c rest, line = c :: rest ∧ isBlank c = false ∧ c ≠ '#'

/-- Lines of code in short form begin as the first of them. -/
theorem head?_compactCode_join {ls : List Text} (h : PlainLines ls)
    (hcode : ∀ line ∈ ls, BeginsCode line) :
    ∀ c ∈ (compactCode (join ['\n'] ls)).head?, isBlank c = false ∧ c ≠ '#' := by
  cases ls with
  | nil => simp [join]
  | cons line rest =>
    obtain ⟨c, more, rfl, hblank, hsign⟩ := hcode line List.mem_cons_self
    obtain ⟨tail, htail⟩ : ∃ tail, join ['\n'] ((c :: more) :: rest) = c :: tail := by
      cases rest with
      | nil => exact ⟨more, rfl⟩
      | cons other rest => exact ⟨_, rfl⟩
    have hplain := h.plain_join
    rw [htail] at hplain ⊢
    rw [hplain.head?_compactCode (by simpa using hblank)]
    intro d hd
    cases hd
    exact ⟨hblank, hsign⟩

namespace Outline

/-- The code gathered so far, written as one line or none. -/
theorem ofLines_flushCode {pending : List Text} (h : PlainLines pending)
    (hcode : ∀ line ∈ pending, BeginsCode line) (ls : List Text) :
    ofLines (flushCode pending ++ ls) = (ofLines ls).behind (pending.flatMap meaning) := by
  have hplain := h.plain_join
  have hmeaning := hplain.meaning_compactCode
  rw [h.join.2] at hmeaning
  have hhead := head?_compactCode_join h hcode
  unfold flushCode
  cases hshort : compactCode (join ['\n'] pending) with
  | nil =>
    rw [hshort, meaning_nil] at hmeaning
    rw [← hmeaning]
    rfl
  | cons c code =>
    rw [hshort] at hhead
    obtain ⟨hblank, hsign⟩ := hhead c rfl
    have hdirective : isDirective (c :: code) = false := by
      rw [isDirective, head?_trim, List.dropWhile_cons_of_neg (by simp [hblank])]
      simpa using hsign
    have hcomments := hplain.commentFree_compactCode
    rw [hshort] at hcomments hmeaning
    rw [← hmeaning]
    exact ofLines_code hdirective hcomments ls

/-- **The short lines of a shader have its outline**, behind the tokens gathered so far. -/
theorem ofLines_compactLines {pending ls : List Text} (h : PlainLines (pending ++ ls))
    (hcode : ∀ line ∈ pending, BeginsCode line) (hone : ∀ line ∈ ls, OneLine line)
    (hclosed : ∀ line ∈ ls, isDirective line = true → ParametersClosed line) :
    ofLines (compactLines pending ls) = (ofLines ls).behind (pending.flatMap meaning) := by
  induction ls generalizing pending with
  | nil =>
    rw [List.append_nil] at h
    have hflush := ofLines_flushCode h hcode []
    rwa [List.append_nil] at hflush
  | cons line ls ih =>
    rw [List.forall_mem_cons] at hone hclosed
    have hcomments : CommentFree line := h.comments line (by simp)
    have hmeaning : meaning (trim line) = meaning line :=
      meaning_trim (h.ascii line (by simp)) hcomments
    have htrim := h.trim
    unfold compactLines
    simp only
    split
    · -- an empty line adds nothing
      rename_i hempty
      rw [List.isEmpty_iff.mp hempty] at hmeaning htrim
      have hdirective : isDirective line = false := by
        simp [isDirective, List.isEmpty_iff.mp hempty]
      rw [ofLines_code hdirective hcomments, ← hmeaning, meaning_nil, behind_nil]
      exact ih htrim.drop_nil hcode hone.2 hclosed.2
    · rename_i hempty
      split
      · -- a directive ends the run of code before it
        rename_i hsign
        have hdirective : isDirective line = true := by simp [isDirective, hsign]
        have hsame := Directive.ofLine_compactDirective_trim (htrim.plain (by simp)) hone.1 hdirective
          (hclosed.1 hdirective)
        have hlater : ofLines (compactLines [] ls) = (ofLines ls).behind [] :=
          ih (h.part ⟨pending ++ [line], [], by simp⟩) (by simp) hone.2 hclosed.2
        rw [ofLines_flushCode (h.part ⟨[], line :: ls, by simp⟩) hcode,
          ofLines_directive (isDirective_compactDirective _), ofLines_directive hdirective, hsame,
          hlater, behind_nil]
      · rename_i hsign
        have hdirective : isDirective line = false := by simp [isDirective, hsign]
        have hbegins : BeginsCode (trim line) := by
          have hblank := isBlank_head_trim (t := line)
          cases hline : trim line with
          | nil => simp [hline] at hempty
          | cons c rest =>
            rw [hline] at hblank hsign
            exact ⟨c, rest, rfl, hblank c rfl, by simpa using hsign⟩
        have hlonger : ∀ other ∈ pending ++ [trim line], BeginsCode other := by
          rw [List.forall_mem_append, List.forall_mem_singleton]
          exact ⟨hcode, hbegins⟩
        have hrest : PlainLines ((pending ++ [trim line]) ++ ls) := by simpa using htrim
        rw [ih hrest hlonger hone.2 hclosed.2, ofLines_code hdirective hcomments, behind_behind,
          ← hmeaning]
        simp

end Outline

/-! ## The whole shader -/

theorem oneLine_of_mem_flushCode {pending : List Text} (h : ∀ line ∈ pending, Ascii line) :
    ∀ line ∈ flushCode pending, OneLine line ∧ line ≠ [] := by
  have hascii : Ascii (join ['\n'] pending) := forall_mem_join (by simp) h
  unfold flushCode
  simp only
  split
  · simp
  · rename_i hempty
    rw [List.forall_mem_singleton]
    refine ⟨fun c hc => ?_, fun hnil => hempty (by rw [hnil]; rfl)⟩
    rcases mem_compactCode hascii hc with rfl | ⟨hblank, -⟩
    · decide
    · by_contra hend
      simp only [isLineEnd, Bool.not_eq_false, Bool.or_eq_true, beq_iff_eq] at hend
      rcases hend with rfl | rfl <;> exact absurd hblank (by decide)

/-- Every short line is one line. -/
theorem oneLine_of_mem_compactLines {pending ls : List Text} (hpending : ∀ line ∈ pending, Ascii line)
    (hascii : ∀ line ∈ ls, Ascii line) (hone : ∀ line ∈ ls, OneLine line) :
    ∀ line ∈ compactLines pending ls, OneLine line ∧ line ≠ [] := by
  induction ls generalizing pending with
  | nil => exact oneLine_of_mem_flushCode hpending
  | cons line ls ih =>
    rw [List.forall_mem_cons] at hascii hone
    have hsub := (trim_part line).subset
    unfold compactLines
    simp only
    split
    · exact ih hpending hascii.2 hone.2
    · split
      · rw [List.forall_mem_append, List.forall_mem_cons]
        refine ⟨oneLine_of_mem_flushCode hpending, ⟨?_, ?_⟩, ih (by simp) hascii.2 hone.2⟩
        · exact oneLine_compactDirective fun c hc => hone.1 c (hsub hc)
        · intro hnil
          have hhead := head?_compactDirective (trim line)
          simp [hnil] at hhead
      · refine ih ?_ hascii.2 hone.2
        rw [List.forall_mem_append, List.forall_mem_singleton]
        exact ⟨hpending, hascii.1.of_subset hsub⟩

/-- Newlines around short lines do not count. -/
theorem outline_join {ls : List Text} (h : ∀ line ∈ ls, OneLine line ∧ line ≠ []) {front back : Text}
    (hfront : front = [] ∨ front = ['\n']) (hback : back = [] ∨ back = ['\n']) :
    outline (front ++ join ['\n'] ls ++ back) = Outline.ofLines ls := by
  have hlines : Outline.ofLines (sourceLines (join ['\n'] ls ++ back)) = Outline.ofLines ls := by
    cases ls with
    | nil =>
      rcases hback with rfl | rfl
      · rfl
      · exact Outline.ofLines_nil_cons []
    | cons line rest => rw [sourceLines_join h (by simp) hback]
  rw [outline, List.append_assoc]
  rcases hfront with rfl | rfl
  · exact hlines
  · rw [List.singleton_append, sourceLines_newline, Outline.ofLines_nil_cons, hlines]

theorem PlainLines.of_source {source : Text} (h : Plain source) : PlainLines (sourceLines source) where
  ascii line hline := h.ascii.of_subset (part_of_mem_sourceLines source line hline).subset
  comments line hline := h.comments.of_part (part_of_mem_sourceLines source line hline)
  points := meaning_sourceLines h.comments ▸ h.points

/-- **The outline stays as white space is collapsed.** -/
theorem outline_compactSpacing {source : Text} (h : Plain source)
    (hclosed : ∀ line ∈ sourceLines source, isDirective line = true → ParametersClosed line) :
    outline (compactSpacing source) = outline source := by
  have hlines := PlainLines.of_source h
  have hone := oneLine_of_mem_sourceLines source
  have hshort : ∀ line ∈ compactLines [] (sourceLines source), OneLine line ∧ line ≠ [] :=
    oneLine_of_mem_compactLines (by simp) hlines.ascii hone
  have hnewline : ∀ p : Prop, ∀ [Decidable p],
      (if p then ['\n'] else []) = [] ∨ (if p then ['\n'] else []) = ['\n'] := by
    intro p _
    split <;> simp
  unfold compactSpacing
  simp only
  rw [compactLines_lines, outline_join hshort (hnewline _) (hnewline _),
    Outline.ofLines_compactLines (by simpa using hlines) (by simp) hone hclosed]
  rfl

/-- **Collapsing white space keeps the tokens of a shader and its outline**, if it is ASCII and no
number stands next to a point. The outline is that of a shader without comments, in which the
parameters of each macro end on its line. -/
theorem compactSpacing_structure (source : Text) (hascii : Ascii source)
    (hpoints : PointsApart (significant (tokens source))) :
    (tokens (compactCode source)).filter (fun t => t.kind ≠ .whitespace) =
        significant (tokens source) ∧
      ((∀ t ∈ tokens source, t.kind ≠ .comment) →
        (∀ line ∈ sourceLines source, isDirective line = true → ParametersClosed line) →
        outline (compactSpacing source) = outline source) := by
  refine ⟨visible_compactCode hascii hpoints, fun hcomments hclosed => ?_⟩
  exact outline_compactSpacing ⟨hascii, commentFree_iff.mpr hcomments, hpoints⟩ hclosed

/-- A shader with a macro, an `#include`, lines ended in two ways and white space to collapse. -/
def macroShader : Text :=
  "\n#define F(x) x - -x\r\n  #  include  <a b.h>\nfloat y =  F( 1. )\n  / .5 ;\n#endif ".toList

theorem compactSpacing_structure_macro :
    Ascii macroShader ∧ PointsApart (significant (tokens macroShader)) ∧
      (tokens (compactCode macroShader)).filter (fun t => t.kind ≠ .whitespace) =
        significant (tokens macroShader) ∧
      (∀ t ∈ tokens macroShader, t.kind ≠ .comment) ∧
      (∀ line ∈ sourceLines macroShader, isDirective line = true → ParametersClosed line) ∧
      outline (compactSpacing macroShader) = outline macroShader :=
  have hascii : Ascii macroShader := by decide +kernel
  have hpoints : PointsApart (significant (tokens macroShader)) := by decide +kernel
  have hcomments : ∀ t ∈ tokens macroShader, t.kind ≠ .comment := by decide +kernel
  have hclosed : ∀ line ∈ sourceLines macroShader, isDirective line = true →
      ParametersClosed line := by decide +kernel
  have hkept := compactSpacing_structure macroShader hascii hpoints
  ⟨hascii, hpoints, hkept.1, hcomments, hclosed, hkept.2 hcomments hclosed⟩

end WebTrim.Shader
