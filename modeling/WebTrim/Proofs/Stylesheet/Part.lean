import Mathlib.Data.List.Chain
import WebTrim.Proofs.Stylesheet.Splice

/-!
# The parts of a rewritten text

A text is rewritten by replacing parts of it, wherever they stand: in code, in strings or in
comments. A part that holds neither a quote nor a backslash nor the beginning or the end of a comment
lies within one token. If what is put in its place is quiet, the scanner is in the same situation
behind it as before.

* `Part`, `oldText`, `newText` — the parts of a text and what becomes of them.
* `Sound` — parts that can be replaced wherever they stand.
* `Sound.split` — **a token ends between two parts**.
* `Sound.isCode` — **code stays code**.
-/

set_option autoImplicit false

namespace WebTrim.Stylesheet

open Text

/-! ## Parts -/

/-- A part of a text that is rewritten: a character that stays, or a text and what replaces it. -/
inductive Part where
  | keep (c : Char)
  | replace (old new : Text)
  deriving DecidableEq, Repr

namespace Part

/-- The part as it stands in the text. -/
def old : Part → Text
  | keep c => [c]
  | replace old _ => old

/-- What becomes of the part. -/
def new : Part → Text
  | keep c => [c]
  | replace _ new => new

end Part

/-- The text that the parts make up. -/
def oldText (parts : List Part) : Text :=
  parts.flatMap Part.old

/-- The rewritten text. -/
def newText (parts : List Part) : Text :=
  parts.flatMap Part.new

/-- A text of which nothing is replaced. -/
def keepAll (t : Text) : List Part :=
  t.map Part.keep

section Texts

variable (p : Part) (ps qs : List Part) (t : Text)

@[simp] theorem oldText_nil : oldText [] = [] := rfl

@[simp] theorem newText_nil : newText [] = [] := rfl

@[simp] theorem oldText_cons : oldText (p :: ps) = p.old ++ oldText ps := by
  simp [oldText]

@[simp] theorem newText_cons : newText (p :: ps) = p.new ++ newText ps := by
  simp [newText]

@[simp] theorem oldText_append : oldText (ps ++ qs) = oldText ps ++ oldText qs := by
  simp [oldText]

@[simp] theorem newText_append : newText (ps ++ qs) = newText ps ++ newText qs := by
  simp [newText]

theorem oldText_flatMap {α : Type} (xs : List α) (f : α → List Part) :
    oldText (xs.flatMap f) = xs.flatMap fun x => oldText (f x) :=
  List.flatMap_assoc

theorem newText_flatMap {α : Type} (xs : List α) (f : α → List Part) :
    newText (xs.flatMap f) = xs.flatMap fun x => newText (f x) :=
  List.flatMap_assoc

@[simp] theorem oldText_keepAll : oldText (keepAll t) = t := by
  induction t with
  | nil => rfl
  | cons c t ih => exact congrArg (c :: ·) ih

@[simp] theorem newText_keepAll : newText (keepAll t) = t := by
  induction t with
  | nil => rfl
  | cons c t ih => exact congrArg (c :: ·) ih

end Texts

/-! ## Parts that can be replaced everywhere -/

/-- Two characters that begin or end a comment. -/
def Delimits (x y : Char) : Prop :=
  x = '/' ∧ y = '*' ∨ x = '*' ∧ y = '/'

/-- A text in which no string begins or ends, no comment begins or ends, and nothing is escaped. -/
structure Tame (t : Text) : Prop where
  nonempty : t ≠ []
  plain : ∀ c ∈ t, c ≠ '\\' ∧ c ≠ '"' ∧ c ≠ '\''
  apart : t.IsChain fun x y => ¬Delimits x y

/-- A text of which no character means anything to the scanner. -/
structure Quiet (t : Text) : Prop where
  nonempty : t ≠ []
  quiet : ∀ c ∈ t, c ∉ ['\\', '/', '*', '"', '\'', '\n']

theorem Quiet.of_all {t : Text} (hne : t ≠ [])
    (h : t.all (fun c => !(['\\', '/', '*', '"', '\'', '\n'].contains c)) = true) : Quiet t :=
  ⟨hne, by simpa using h⟩

/-- The part can be replaced. -/
def Part.Safe : Part → Prop
  | keep _ => True
  | replace old new => Tame old ∧ Quiet new

/-- No comment begins or ends between the parts, unless both stay. -/
def Part.Apart (p q : Part) : Prop :=
  (∃ c d, p = keep c ∧ q = keep d) ∨ ∀ x ∈ p.old.getLast?, ∀ y ∈ q.old.head?, ¬Delimits x y

/-- The parts can be replaced, wherever they stand. -/
structure Sound (parts : List Part) : Prop where
  safe : ∀ p ∈ parts, p.Safe
  apart : parts.IsChain Part.Apart

namespace Sound

variable {p : Part} {ps qs : List Part}

theorem nil : Sound [] :=
  ⟨by simp, .nil⟩

theorem tail (h : Sound (p :: ps)) : Sound ps :=
  ⟨(List.forall_mem_cons.mp h.safe).2, h.apart.tail⟩

theorem left (h : Sound (ps ++ qs)) : Sound ps :=
  ⟨fun p hp => h.safe p (List.mem_append_left _ hp), h.apart.left_of_append⟩

theorem right (h : Sound (ps ++ qs)) : Sound qs :=
  ⟨fun p hp => h.safe p (List.mem_append_right _ hp), h.apart.right_of_append⟩

theorem head_apart {q : Part} (h : Sound (p :: q :: ps)) : p.Apart q :=
  (List.isChain_cons_cons.mp h.apart).1

theorem replaced {old new : Text} (h : Sound (.replace old new :: ps)) : Tame old ∧ Quiet new :=
  (List.forall_mem_cons.mp h.safe).1

/-- No part is empty. -/
theorem old_ne_nil (h : p.Safe) : p.old ≠ [] := by
  cases p with
  | keep c => exact List.cons_ne_nil c []
  | replace old new => exact h.1.nonempty

theorem new_ne_nil (h : p.Safe) : p.new ≠ [] := by
  cases p with
  | keep c => exact List.cons_ne_nil c []
  | replace old new => exact h.2.nonempty

theorem eq_nil_of_oldText (h : Sound ps) (hold : oldText ps = []) : ps = [] := by
  cases ps with
  | nil => rfl
  | cons p ps =>
    rw [oldText_cons, List.append_eq_nil_iff] at hold
    exact absurd hold.1 (old_ne_nil (h.safe p List.mem_cons_self))

/-- What means something to the scanner comes to the beginning of the new text only from there. -/
theorem head?_oldText (h : Sound ps) {c : Char} (hc : c ∈ ['\\', '/', '*', '"', '\'', '\n'])
    (hnew : (newText ps).head? = some c) : (oldText ps).head? = some c := by
  cases ps with
  | nil => cases hnew
  | cons p ps =>
    cases p with
    | keep d => exact hnew
    | replace old new =>
      obtain ⟨-, hquiet⟩ := h.replaced
      obtain ⟨d, more, rfl⟩ := List.exists_cons_of_ne_nil hquiet.nonempty
      cases hnew
      exact absurd hc (hquiet.quiet c List.mem_cons_self)

end Sound

/-! ## Parts that can stand beside each other -/

/-- A character that neither begins nor ends a comment, whatever stands beside it. -/
def Calm (c : Char) : Prop :=
  c ≠ '/' ∧ c ≠ '*'

theorem Calm.not_delimits {x y : Char} (h : Calm x ∨ Calm y) : ¬Delimits x y := by
  rintro (⟨rfl, rfl⟩ | ⟨rfl, rfl⟩) <;> simp [Calm] at h

theorem Tame.of_calm {t : Text} (hne : t ≠ []) (hplain : ∀ c ∈ t, c ≠ '\\' ∧ c ≠ '"' ∧ c ≠ '\'')
    (hcalm : ∀ c ∈ t, Calm c) : Tame t := by
  refine ⟨hne, hplain, ?_⟩
  rw [List.isChain_iff_forall_rel_of_append_cons_cons]
  rintro x y u v rfl
  exact Calm.not_delimits (.inl (hcalm x (by simp)))

theorem Quiet.tame {t : Text} (h : Quiet t) : Tame t := by
  have hquiet : ∀ c ∈ t, c ≠ '\\' ∧ c ≠ '/' ∧ c ≠ '*' ∧ c ≠ '"' ∧ c ≠ '\'' ∧ c ≠ '\n' := by
    simpa using h.quiet
  refine .of_calm h.nonempty (fun c hc => ?_) fun c hc => ?_
  · exact ⟨(hquiet c hc).1, (hquiet c hc).2.2.2.1, (hquiet c hc).2.2.2.2.1⟩
  · exact ⟨(hquiet c hc).2.1, (hquiet c hc).2.2.1⟩

namespace Part

variable {p q : Part}

theorem Apart.of_last (h : ∀ x ∈ p.old.getLast?, Calm x) : p.Apart q :=
  .inr fun x hx _ _ => Calm.not_delimits (.inl (h x hx))

theorem Apart.of_first (h : ∀ y ∈ q.old.head?, Calm y) : p.Apart q :=
  .inr fun _ _ y hy => Calm.not_delimits (.inr (h y hy))

/-- The part stays, or it begins and ends with calm characters. -/
def Mild (p : Part) : Prop :=
  (∃ c, p = keep c) ∨ (∀ x ∈ p.old.head?, Calm x) ∧ ∀ x ∈ p.old.getLast?, Calm x

theorem Mild.apart (hp : p.Mild) (hq : q.Mild) : p.Apart q := by
  rcases hp with ⟨c, rfl⟩ | ⟨-, hp⟩
  · rcases hq with ⟨d, rfl⟩ | ⟨hq, -⟩
    · exact .inl ⟨c, d, rfl, rfl⟩
    · exact .of_first hq
  · exact .of_last hp

end Part

theorem calm_last_keepAll {t : Text} (h : ∀ c ∈ t.getLast?, Calm c) :
    ∀ p ∈ (keepAll t).getLast?, ∀ c ∈ p.old.getLast?, Calm c := by
  intro p hp c hc
  rw [keepAll, List.getLast?_map] at hp
  obtain ⟨d, hd, rfl⟩ := Option.map_eq_some_iff.mp hp
  obtain rfl : d = c := Option.some.inj hc
  exact h d hd

theorem calm_first_keepAll {t : Text} (h : ∀ c ∈ t.head?, Calm c) :
    ∀ p ∈ (keepAll t).head?, ∀ c ∈ p.old.head?, Calm c := by
  intro p hp c hc
  rw [keepAll, List.head?_map] at hp
  obtain ⟨d, hd, rfl⟩ := Option.map_eq_some_iff.mp hp
  obtain rfl : d = c := Option.some.inj hc
  exact h d hd

theorem Sound.append {ps qs : List Part} (h : Sound ps) (h' : Sound qs)
    (hapart : ∀ p ∈ ps.getLast?, ∀ q ∈ qs.head?, p.Apart q) : Sound (ps ++ qs) :=
  ⟨List.forall_mem_append.mpr ⟨h.safe, h'.safe⟩,
    List.isChain_append.mpr ⟨h.apart, h'.apart, hapart⟩⟩

theorem Sound.single {p : Part} (h : p.Safe) : Sound [p] :=
  ⟨by simpa using h, .singleton p⟩

/-- Parts that can be replaced beside any others of this kind. -/
structure Loose (parts : List Part) : Prop extends Sound parts where
  first : ∀ p ∈ parts.head?, p.Mild
  last : ∀ p ∈ parts.getLast?, p.Mild

namespace Loose

variable {ps qs : List Part}

theorem append (h : Loose ps) (h' : Loose qs) : Loose (ps ++ qs) := by
  refine ⟨h.toSound.append h'.toSound fun p hp q hq => (h.last p hp).apart (h'.first q hq), ?_, ?_⟩
  · cases ps with
    | nil => exact h'.first
    | cons p ps => exact h.first
  · rcases List.eq_nil_or_concat qs with rfl | ⟨qs, q, rfl⟩
    · rw [List.append_nil]
      exact h.last
    · rw [List.concat_eq_append] at h' ⊢
      rw [← List.append_assoc, List.getLast?_concat]
      simpa using h'.last

theorem nil : Loose [] :=
  ⟨.nil, nofun, nofun⟩

theorem flatMap {α : Type} {xs : List α} {f : α → List Part} (h : ∀ x ∈ xs, Loose (f x)) :
    Loose (xs.flatMap f) := by
  induction xs with
  | nil => exact nil
  | cons x xs ih =>
    obtain ⟨hx, hxs⟩ := List.forall_mem_cons.mp h
    exact hx.append (ih hxs)

theorem keepAll (t : Text) : Loose (keepAll t) := by
  have hkept : ∀ p ∈ Stylesheet.keepAll t, ∃ c, p = .keep c := fun p hp => by
    obtain ⟨c, -, rfl⟩ := List.mem_map.mp hp
    exact ⟨c, rfl⟩
  refine ⟨⟨fun p hp => ?_, ?_⟩, fun p hp => .inl (hkept p (List.mem_of_mem_head? hp)),
    fun p hp => .inl (hkept p (List.mem_of_mem_getLast? hp))⟩
  · obtain ⟨c, rfl⟩ := hkept p hp
    trivial
  · have hpairs : t.Pairwise fun c d => (Part.keep c).Apart (.keep d) :=
      List.pairwise_of_forall fun c d => .inl ⟨c, d, rfl, rfl⟩
    exact (List.isChain_map _).mpr hpairs.isChain

theorem single {p : Part} (hsafe : p.Safe) (hmild : p.Mild) : Loose [p] :=
  ⟨.single hsafe, by simpa using hmild, by simpa using hmild⟩

/-- Between calm characters any parts can be replaced. -/
theorem enclose {front back : List Part} (hfront : Loose front) (hback : Loose back)
    (hps : Sound ps) (hne : front ≠ []) (hne' : back ≠ [])
    (hlast : ∀ p ∈ front.getLast?, ∀ c ∈ p.old.getLast?, Calm c)
    (hfirst : ∀ q ∈ back.head?, ∀ c ∈ q.old.head?, Calm c) : Loose (front ++ ps ++ back) := by
  have hright : Sound (ps ++ back) :=
    hps.append hback.toSound fun _ _ q hq => .of_first (hfirst q hq)
  rw [List.append_assoc]
  refine ⟨hfront.toSound.append hright fun p hp _ _ => .of_last (hlast p hp), ?_, ?_⟩
  · rw [List.head?_append_of_ne_nil _ hne]
    exact hfront.first
  · rw [← List.append_assoc, List.getLast?_append_of_ne_nil _ hne']
    exact hback.last

end Loose

/-! ## Places between parts -/

/-- Every place lies between two parts or within one. -/
theorem split_or_within {ps : List Part} {t rest : Text} (hold : oldText ps = t ++ rest) :
    (∃ qs rs, ps = qs ++ rs ∧ oldText qs = t ∧ oldText rs = rest) ∨
      ∃ qs p rs x y, ps = qs ++ p :: rs ∧ p.old = x ++ y ∧ x ≠ [] ∧ y ≠ [] ∧
        t = oldText qs ++ x ∧ rest = y ++ oldText rs := by
  induction ps generalizing t with
  | nil =>
    obtain ⟨rfl, rfl⟩ := List.append_eq_nil_iff.mp hold.symm
    exact .inl ⟨[], [], rfl, rfl, rfl⟩
  | cons p ps ih =>
    rw [oldText_cons] at hold
    rcases List.append_eq_append_iff.mp hold with ⟨u, rfl, hrest⟩ | ⟨y, hy, hrest⟩
    · rcases ih hrest with ⟨qs, rs, rfl, rfl, hrs⟩ | ⟨qs, q, rs, x, y, rfl, hq, hx, hy, rfl, rfl⟩
      · exact .inl ⟨p :: qs, rs, rfl, oldText_cons p qs, hrs⟩
      · exact .inr ⟨p :: qs, q, rs, x, y, rfl, hq, hx, hy, by simp, rfl⟩
    · by_cases ht : t = []
      · subst ht
        exact .inl ⟨[], p :: ps, rfl, rfl, by rw [oldText_cons, hy, hrest]; rfl⟩
      · by_cases hnil : y = []
        · subst hnil
          rw [List.append_nil] at hy
          exact .inl ⟨[p], ps, rfl, by simp [hy], hrest.symm⟩
        · exact .inr ⟨[], p, ps, t, y, rfl, hy, ht, hnil, rfl, hrest⟩

/-- A place where a token may end: at a quote, at the beginning or the end of a comment, or at the
end of the text. -/
inductive TokenEnd : Text → Text → Prop where
  | stop (t : Text) : TokenEnd t []
  | opensString {t rest : Text} {q : Char} (hq : q = '"' ∨ q = '\'') : TokenEnd t (q :: rest)
  | closesString {t rest : Text} {q : Char} (hq : q = '"' ∨ q = '\'') : TokenEnd (t ++ [q]) rest
  | opensComment {t rest : Text} : TokenEnd t ('/' :: '*' :: rest)
  | closesComment {t rest : Text} : TokenEnd (t ++ ['*', '/']) rest

theorem Tame.not_quote {t : Text} (h : Tame t) {q : Char} (hq : q = '"' ∨ q = '\'') : q ∉ t :=
  fun hmem => hq.elim (h.plain q hmem).2.1 (h.plain q hmem).2.2

namespace Sound

variable {ps qs rs : List Part} {t rest u v new : Text}

/-- No comment begins or ends right behind a character of a part that is replaced. -/
theorem not_delimits_behind {a : Char} (h : Sound (.replace (u ++ a :: v) new :: rs)) :
    ∀ b ∈ (v ++ oldText rs).head?, ¬Delimits a b := by
  intro b hb
  cases v with
  | cons c v =>
    cases hb
    exact (List.isChain_append_cons_cons.mp h.replaced.1.apart).2.1
  | nil =>
    cases rs with
    | nil => cases hb
    | cons r rs =>
      have hr : b ∈ r.old.head? := by
        obtain ⟨c, more, hr⟩ := List.exists_cons_of_ne_nil (old_ne_nil (h.tail.safe r (by simp)))
        rw [List.nil_append, oldText_cons, hr] at hb
        rwa [hr]
      rcases h.head_apart with ⟨_, _, ⟨⟩, _⟩ | hapart
      exact hapart a (by simp [Part.old]) b hr

/-- Nor right before one. -/
theorem not_delimits_before {b : Char} (h : Sound (qs ++ .replace (u ++ b :: v) new :: rs)) :
    ∀ a ∈ (oldText qs ++ u).getLast?, ¬Delimits a b := by
  intro a ha
  rcases List.eq_nil_or_concat u with rfl | ⟨u, c, rfl⟩
  · rcases List.eq_nil_or_concat qs with rfl | ⟨qs, q, rfl⟩
    · cases ha
    · rw [List.concat_eq_append] at h ha
      have hq : a ∈ q.old.getLast? := by
        have hne := old_ne_nil (h.safe q (by simp))
        simpa [List.getLast?_append_of_ne_nil _ hne] using ha
      rw [List.append_assoc] at h
      rcases (List.isChain_append_cons_cons.mp h.apart).2.1 with ⟨_, _, _, ⟨⟩⟩ | hapart
      exact hapart a hq b rfl
  · have htame := h.right.replaced.1.apart
    rw [List.concat_eq_append, List.append_assoc] at htame
    rw [List.concat_eq_append, ← List.append_assoc, List.getLast?_concat] at ha
    cases ha
    exact (List.isChain_append_cons_cons.mp htame).2.1

/-- **A token ends between two parts.** -/
theorem split (h : Sound ps) (hold : oldText ps = t ++ rest) (hend : TokenEnd t rest) :
    ∃ qs rs, ps = qs ++ rs ∧ oldText qs = t ∧ oldText rs = rest := by
  rcases split_or_within hold with hsplit | ⟨qs, p, rs, x, y, rfl, hxy, hx, hy, ht, hrest⟩
  · exact hsplit
  · exfalso
    obtain ⟨b, y, rfl⟩ := List.exists_cons_of_ne_nil hy
    obtain ⟨x, a, rfl⟩ := (List.eq_nil_or_concat x).resolve_left hx
    rw [List.concat_eq_append] at hxy ht
    cases p with
    | keep c =>
      -- a single character is not divided
      have hlength := congrArg List.length hxy
      simp only [Part.old, List.length_append, List.length_cons, List.length_nil] at hlength
      omega
    | replace old new =>
      obtain rfl : old = x ++ [a] ++ b :: y := hxy
      have htame := h.right.replaced.1
      rw [← List.append_assoc] at ht
      cases hend with
      | stop => cases hrest
      | opensString hq =>
        cases hrest
        exact htame.not_quote hq (by simp)
      | closesString hq =>
        obtain ⟨-, ⟨⟩⟩ := List.append_inj' ht rfl
        exact htame.not_quote hq (by simp)
      | opensComment =>
        rw [List.cons_append, List.cons.injEq] at hrest
        obtain ⟨rfl, hstar⟩ := hrest
        exact h.right.not_delimits_behind '*' (by rw [← hstar]; rfl) (.inl ⟨rfl, rfl⟩)
      | @closesComment t =>
        rw [List.append_cons t '*' ['/']] at ht
        obtain ⟨hstar, ⟨⟩⟩ := List.append_inj' ht rfl
        rw [List.append_assoc] at h
        refine h.not_delimits_before '*' ?_ (.inr ⟨rfl, rfl⟩)
        rw [← hstar, List.getLast?_concat]
        rfl

end Sound

/-! ## Code -/

/-- **Code stays code.** -/
theorem Sound.isCode {qs rs : List Part} (h : Sound (qs ++ rs)) {escaped : Bool}
    (hcode : IsCode (oldText rs) escaped (oldText qs)) :
    IsCode (newText rs) escaped (newText qs) := by
  induction qs generalizing escaped with
  | nil =>
    cases escaped with
    | false => trivial
    | true =>
      have hnil := h.eq_nil_of_oldText hcode
      rw [List.nil_append] at hnil
      rw [hnil]
      rfl
  | cons q qs ih =>
    rw [List.cons_append] at h
    cases q with
    | keep c =>
      change IsCode (oldText rs) escaped (c :: oldText qs) at hcode
      change IsCode (newText rs) escaped (c :: newText qs)
      refine hcode.keep (ih h.tail) fun hstar => ?_
      rw [← newText_append] at hstar
      rw [← oldText_append]
      exact h.tail.head?_oldText (by decide) hstar
    | replace old new =>
      obtain ⟨htame, hquiet⟩ := h.replaced
      obtain ⟨front, c, rfl⟩ := (List.eq_nil_or_concat old).resolve_left htame.nonempty
      have hc : c ≠ '\\' := (htame.plain c (by simp)).1
      change IsCode (oldText rs) escaped (front.concat c ++ oldText qs) at hcode
      rw [List.concat_eq_append, List.append_assoc] at hcode
      refine .literal hquiet.nonempty (fun d hd hmem => hquiet.quiet d hd ?_)
        (ih h.tail (hcode.behind hc)) escaped
      simp only [List.mem_cons, List.not_mem_nil, or_false] at hmem ⊢
      tauto

end WebTrim.Stylesheet
