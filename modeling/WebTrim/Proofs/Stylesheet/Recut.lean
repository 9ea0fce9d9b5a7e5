import WebTrim.Proofs.Stylesheet.Part

/-!
# Cutting a rewritten stylesheet into tokens

The tokens of a text that is rewritten part by part are the rewritten tokens, if every string before
the last token is closed: a string that breaks off at a newline would go on if the newline were
replaced.

* `StringBody`, `CommentBody` — the text of a string or a comment behind its opening; `newText`: it
  stays one.
* `Inert` — a string or a comment that is closed or breaks off.
* `Row` — the parts of a token.
* `rows` — the parts of a text, dealt out to its tokens.
* `Sound.tokens_newText` — **cutting into tokens commutes with rewriting**: the new texts of a
  token's parts make up the new token.
-/

set_option autoImplicit false

namespace WebTrim.Stylesheet

open Text

/-! ## Strings -/

/-- The text of a string behind its quote. It is closed by the same quote, or stops; if `escaped`, a
backslash stands before it. -/
inductive StringBody (quote : Char) (closed : Bool) : (escaped : Bool) → Text → Prop where
  | close (h : closed = true) : StringBody quote closed false [quote]
  | stop (h : closed = false) (escaped : Bool) : StringBody quote closed escaped []
  | escaped (c : Char) {t : Text} (h : StringBody quote closed false t) :
      StringBody quote closed true (c :: t)
  | backslash {t : Text} (h : StringBody quote closed true t) :
      StringBody quote closed false ('\\' :: t)
  | plain {c : Char} {t : Text} (hslash : c ≠ '\\') (hquote : c ≠ quote) (hline : c ≠ '\n')
      (h : StringBody quote closed false t) : StringBody quote closed false (c :: t)

namespace StringBody

variable {quote : Char} {closed escaped : Bool} {t u : Text}

theorem of_plain {old : Text} (hplain : ∀ c ∈ old, c ≠ '\\' ∧ c ≠ quote)
    (h : StringBody quote closed false (old ++ t)) : StringBody quote closed false t := by
  induction old with
  | nil => exact h
  | cons c old ih =>
    obtain ⟨hc, hold⟩ := List.forall_mem_cons.mp hplain
    generalize hu : c :: old ++ t = u at h
    cases h with
    | close => exact absurd (List.cons.inj hu).1 hc.2
    | stop => cases hu
    | backslash => exact absurd (List.cons.inj hu).1 hc.1
    | plain _ _ _ h =>
      cases hu
      exact ih hold h

theorem of_quiet {new : Text} (hquote : quote = '"' ∨ quote = '\'') (hnew : Quiet new)
    (h : StringBody quote closed false t) (escaped : Bool) :
    StringBody quote closed escaped (new ++ t) := by
  have hplain : ∀ u : Text, (∀ c ∈ u, c ∉ ['\\', '/', '*', '"', '\'', '\n']) →
      StringBody quote closed false (u ++ t) := by
    intro u hu
    induction u with
    | nil => exact h
    | cons c u ih =>
      obtain ⟨hc, hu⟩ := List.forall_mem_cons.mp hu
      simp only [List.mem_cons, List.not_mem_nil, or_false, not_or] at hc
      obtain ⟨hslash, -, -, hdouble, hsingle, hline⟩ := hc
      refine .plain hslash ?_ hline (ih hu)
      rcases hquote with rfl | rfl
      · exact hdouble
      · exact hsingle
  cases escaped with
  | false => exact hplain new hnew.quiet
  | true =>
    obtain ⟨c, u, rfl⟩ := List.exists_cons_of_ne_nil hnew.nonempty
    exact .escaped c (hplain u (List.forall_mem_cons.mp hnew.quiet).2)

theorem closing {body : Text}
    (h : body.all (fun c => !(['\\', quote, '\n'].contains c)) = true) :
    StringBody quote true false (body ++ [quote]) := by
  induction body with
  | nil => exact .close rfl
  | cons c body ih =>
    rw [List.all_cons, Bool.and_eq_true] at h
    obtain ⟨hslash, hquote, hline⟩ : c ≠ '\\' ∧ c ≠ quote ∧ c ≠ '\n' := by simpa using h.1
    exact .plain hslash hquote hline (ih h.2)

/-- **The text of a string stays one.** -/
theorem newText {ps : List Part} (hquote : quote = '"' ∨ quote = '\'') (hps : Sound ps)
    (h : StringBody quote closed escaped (oldText ps)) :
    StringBody quote closed escaped (Stylesheet.newText ps) := by
  induction ps generalizing escaped with
  | nil => exact h
  | cons p ps ih =>
    rw [newText_cons]
    rw [oldText_cons] at h
    cases p with
    | keep c =>
      generalize hu : oldText ps = u at h ih
      cases h with
      | close hclosed =>
        rw [hps.tail.eq_nil_of_oldText hu]
        exact .close hclosed
      | escaped _ h => exact .escaped c (ih hps.tail h)
      | backslash h => exact .backslash (ih hps.tail h)
      | plain hslash hc hline h => exact .plain hslash hc hline (ih hps.tail h)
    | replace old new =>
      obtain ⟨htame, hquiet⟩ := hps.replaced
      have hold : ∀ c ∈ old, c ≠ '\\' ∧ c ≠ quote := fun c hc =>
        ⟨(htame.plain c hc).1, fun heq => htame.not_quote hquote (heq ▸ hc)⟩
      refine of_quiet hquote hquiet (ih hps.tail ?_) escaped
      cases escaped with
      | false => exact of_plain hold h
      | true =>
        obtain ⟨c, u, rfl⟩ := List.exists_cons_of_ne_nil htame.nonempty
        cases h with
        | escaped _ h => exact of_plain (List.forall_mem_cons.mp hold).2 h

/-- A closed string ends behind its text, whatever follows, and any other at the end of the text. -/
theorem stringLength_eq (hquote : quote = '"' ∨ quote = '\'') {after : Text}
    (h : StringBody quote closed escaped t) (hafter : closed = false → after = []) :
    stringLength quote (if escaped then '\\' :: (t ++ after) else t ++ after) =
      if escaped then t.length + 1 else t.length := by
  have hquote' : quote ≠ '\n' ∧ quote ≠ '\\' := by
    rcases hquote with rfl | rfl <;> decide
  induction h with
  | close => exact stringLength_closing hquote'.1 hquote'.2 after
  | stop h escaped =>
    rw [hafter h]
    cases escaped <;> rfl
  | escaped c h ih =>
    simp only [Bool.false_eq_true, if_false, if_true, List.cons_append, List.length_cons] at ih ⊢
    rw [stringLength, if_pos rfl, ih]
    omega
  | backslash h ih => exact ih
  | plain hslash hc hline h ih =>
    simp only [Bool.false_eq_true, if_false, List.cons_append, List.length_cons] at ih ⊢
    rw [stringLength_plain hslash hc hline, ih]
    omega

theorem exists_front (h : StringBody quote true escaped t) : ∃ front, t = front ++ [quote] := by
  induction h with
  | close => exact ⟨[], rfl⟩
  | stop h => cases h
  | @escaped c t _ ih =>
    obtain ⟨front, rfl⟩ := ih
    exact ⟨c :: front, rfl⟩
  | @backslash t _ ih =>
    obtain ⟨front, rfl⟩ := ih
    exact ⟨'\\' :: front, rfl⟩
  | @plain c t _ _ _ _ ih =>
    obtain ⟨front, rfl⟩ := ih
    exact ⟨c :: front, rfl⟩

/-- What the scanner takes behind a quote is the text of a string, which is closed unless it stops at
a newline or at the end of the text. -/
theorem exists_of_drop {rest : Text} (hdrop : rest.drop (stringLength quote rest) = []) :
    ∃ closed, StringBody quote closed false (rest.take (stringLength quote rest)) := by
  fun_induction stringLength quote rest with
  | case1 => exact ⟨false, .stop rfl false⟩
  | case2 => cases hdrop
  | case3 c hline =>
    by_cases hslash : c = '\\'
    · subst hslash
      exact ⟨false, .backslash (.stop rfl true)⟩
    · by_cases hc : c = quote
      · subst hc
        exact ⟨true, .close rfl⟩
      · exact ⟨false, .plain hslash hc hline (.stop rfl false)⟩
  | case4 d rest ih =>
    rw [Nat.add_comm] at hdrop ⊢
    obtain ⟨closed, h⟩ := ih hdrop
    exact ⟨closed, .backslash (.escaped d h)⟩
  | case5 => cases hdrop
  | case6 => cases hdrop
  | case7 c d rest hslash hc hline ih =>
    rw [Nat.add_comm] at hdrop ⊢
    obtain ⟨closed, h⟩ := ih hdrop
    exact ⟨closed, .plain hslash hc hline h⟩

end StringBody

/-! ## Comments -/

/-- The text of a comment behind its opening. It is closed by the first star and slash, or stops. -/
inductive CommentBody (closed : Bool) : Text → Prop where
  | close (h : closed = true) : CommentBody closed ['*', '/']
  | stop (h : closed = false) : CommentBody closed []
  | cons {c : Char} {t : Text} (hc : c = '*' → t.head? ≠ some '/') (h : CommentBody closed t) :
      CommentBody closed (c :: t)

namespace CommentBody

variable {closed : Bool} {t : Text}

/-- No comment ends within a part that is replaced. -/
theorem behind {old new : Text} {ps : List Part} (hps : Sound (.replace old new :: ps))
    (h : CommentBody closed (old ++ oldText ps)) : CommentBody closed (oldText ps) := by
  have hskip : ∀ u v : Text, old = u ++ v → CommentBody closed (v ++ oldText ps) →
      CommentBody closed (oldText ps) := by
    intro u v hold h
    induction v generalizing u with
    | nil => exact h
    | cons c v ih =>
      generalize hw : c :: v ++ oldText ps = w at h
      cases h with
      | close =>
        rw [List.cons_append, List.cons.injEq] at hw
        obtain ⟨rfl, hslash⟩ := hw
        subst hold
        exact absurd (.inr ⟨rfl, rfl⟩) (hps.not_delimits_behind '/' (by rw [hslash]; rfl))
      | stop => cases hw
      | cons hc h =>
        cases hw
        exact ih (u ++ [c]) (by rw [hold, List.append_assoc]; rfl) h
  exact hskip [] old rfl h

theorem of_quiet {new : Text} (hnew : ∀ c ∈ new, c ∉ ['\\', '/', '*', '"', '\'', '\n'])
    (h : CommentBody closed t) : CommentBody closed (new ++ t) := by
  induction new with
  | nil => exact h
  | cons c new ih =>
    obtain ⟨hc, hnew⟩ := List.forall_mem_cons.mp hnew
    exact .cons (fun hstar => absurd (by simp [hstar]) hc) (ih hnew)

/-- **The text of a comment stays one.** -/
theorem newText {ps : List Part} (hps : Sound ps) (h : CommentBody closed (oldText ps)) :
    CommentBody closed (Stylesheet.newText ps) := by
  induction ps with
  | nil => exact h
  | cons p ps ih =>
    cases p with
    | keep c =>
      have hnew := hps.tail.head?_oldText (c := '/') (by decide)
      generalize hu : oldText ps = u at ih hnew
      change CommentBody closed (c :: oldText ps) at h
      rw [hu] at h
      cases h with
      | close hclosed =>
        -- the slash is a part of its own, since it closes a comment with the star before it
        cases ps with
        | nil => cases hu
        | cons q ps =>
          have hq := Sound.old_ne_nil (hps.tail.safe q List.mem_cons_self)
          obtain ⟨d, more, hd⟩ := List.exists_cons_of_ne_nil hq
          rw [oldText_cons, hd, List.cons_append, List.cons.injEq, List.append_eq_nil_iff] at hu
          obtain ⟨rfl, rfl, hps'⟩ := hu
          rw [hps.tail.tail.eq_nil_of_oldText hps']
          rcases hps.head_apart with ⟨_, e, -, rfl⟩ | hapart
          · cases hd
            exact .close hclosed
          · exact absurd (.inr ⟨rfl, rfl⟩) (hapart '*' rfl '/' (by rw [hd]; rfl))
      | cons hc h => exact .cons (fun hstar hslash => hc hstar (hnew hslash)) (ih hps.tail h)
    | replace old new =>
      rw [newText_cons]
      exact of_quiet hps.replaced.2.quiet (ih hps.tail (behind hps h))

theorem lengthThrough_cons {c : Char} {rest : Text} (h : c = '*' → rest.head? ≠ some '/') :
    lengthThrough ['*', '/'] (c :: rest) = 1 + lengthThrough ['*', '/'] rest := by
  have hnone : ['*', '/'].isPrefixOf? (c :: rest) = none := by
    by_cases hc : c = '*'
    · cases rest with
      | nil => simp [List.isPrefixOf?, hc]
      | cons d rest =>
        have hd : '/' ≠ d := fun hd => h hc (by rw [hd]; rfl)
        simp [List.isPrefixOf?, hd]
    · simp [List.isPrefixOf?, Ne.symm hc]
  unfold lengthThrough
  rw [cut?, hnone]
  cases hcut : cut? ['*', '/'] rest with
  | none =>
    simp only [Option.map_none, List.length_cons]
    omega
  | some pair =>
    simp only [Option.map_some, List.length_cons, List.length_nil]
    omega

/-- A closed comment ends behind its text, whatever follows, and any other at the end of a text. -/
theorem lengthThrough_eq {after : Text} (h : CommentBody closed t)
    (hafter : closed = false → after = []) :
    lengthThrough ['*', '/'] (t ++ after) = t.length := by
  induction h with
  | close => rfl
  | stop h =>
    rw [hafter h]
    rfl
  | @cons c t hc h ih =>
    have hnext : c = '*' → (t ++ after).head? ≠ some '/' := fun hstar => by
      cases h with
      | close => simp
      | stop h => simp [hafter h]
      | cons => exact hc hstar
    rw [List.cons_append, lengthThrough_cons hnext, ih, List.length_cons, Nat.add_comm]

/-- What the scanner takes for a comment is the text of one, closed unless the whole text ends. -/
theorem exists_of_lengthThrough (rest : Text) :
    ∃ closed, CommentBody closed (rest.take (lengthThrough ['*', '/'] rest)) ∧
      (closed = false → rest.drop (lengthThrough ['*', '/'] rest) = []) := by
  induction rest with
  | nil => exact ⟨false, .stop rfl, fun _ => rfl⟩
  | cons c rest ih =>
    by_cases hc : c = '*' ∧ rest.head? = some '/'
    · obtain ⟨rfl, hslash⟩ := hc
      obtain ⟨more, rfl⟩ := List.head?_eq_some_iff.mp hslash
      exact ⟨true, .close rfl, nofun⟩
    · have hnext : c = '*' → rest.head? ≠ some '/' := fun hstar hslash => hc ⟨hstar, hslash⟩
      obtain ⟨closed, h, hend⟩ := ih
      rw [lengthThrough_cons hnext, Nat.add_comm]
      refine ⟨closed, .cons (fun hstar hslash => hnext hstar ?_) h, hend⟩
      rw [List.head?_take] at hslash
      split at hslash
      · cases hslash
      · exact hslash

theorem exists_front (h : CommentBody true t) : ∃ front, t = front ++ ['*', '/'] := by
  induction h with
  | close => exact ⟨[], rfl⟩
  | stop h => cases h
  | @cons c t _ _ ih =>
    obtain ⟨front, rfl⟩ := ih
    exact ⟨c :: front, rfl⟩

end CommentBody

/-! ## Strings and comments as tokens -/

/-- A string or a comment, which is closed or breaks off. -/
inductive Inert (closed : Bool) : Token Kind → Prop where
  | string {quote : Char} {body : Text} (hquote : quote = '"' ∨ quote = '\'')
      (h : StringBody quote closed false body) : Inert closed ⟨.string, quote :: body⟩
  | comment {body : Text} (h : CommentBody closed body) :
      Inert closed ⟨.comment, '/' :: '*' :: body⟩

/-- The opening of a comment is two parts that stay. -/
theorem exists_keep_of_opening {ps : List Part} {body : Text} (hps : Sound ps)
    (hold : oldText ps = '/' :: '*' :: body) :
    ∃ qs, ps = .keep '/' :: .keep '*' :: qs ∧ oldText qs = body := by
  cases ps with
  | nil => cases hold
  | cons p ps =>
    cases p with
    | keep c =>
      obtain ⟨rfl, hstar⟩ : c = '/' ∧ oldText ps = '*' :: body := List.cons.inj hold
      cases ps with
      | nil => cases hstar
      | cons q qs =>
        cases q with
        | keep d =>
          obtain ⟨rfl, hqs⟩ : d = '*' ∧ oldText qs = body := List.cons.inj hstar
          exact ⟨qs, rfl, hqs⟩
        | replace old new =>
          obtain ⟨d, more, rfl⟩ := List.exists_cons_of_ne_nil hps.tail.replaced.1.nonempty
          obtain rfl : d = '*' := (List.cons.inj hstar).1
          rcases hps.head_apart with ⟨_, _, _, ⟨⟩⟩ | hapart
          exact absurd (.inl ⟨rfl, rfl⟩) (hapart '/' rfl '*' rfl)
    | replace old new =>
      obtain ⟨c, more, rfl⟩ := List.exists_cons_of_ne_nil hps.replaced.1.nonempty
      obtain ⟨rfl, hstar⟩ : c = '/' ∧ more ++ oldText ps = '*' :: body := List.cons.inj hold
      have hapart := hps.not_delimits_behind (u := []) '*' (by rw [hstar]; rfl)
      exact absurd (.inl ⟨rfl, rfl⟩) hapart

namespace Inert

variable {closed : Bool} {token : Token Kind} {after : Text}

/-- The scanner takes it: if it is closed, in front of every text. -/
theorem takes (h : Inert closed token) (hafter : closed = false → after = []) :
    Takes token after := by
  cases h with
  | @string quote body hquote h =>
    have hlength : stringLength quote (body ++ after) = body.length :=
      h.stringLength_eq hquote hafter
    refine ⟨quote, body ++ after, ?_, ?_⟩
    · rw [tokenStep_quote hquote, hlength, List.take_left]
    · rw [tokenStep_quote hquote, hlength, List.drop_left]
  | @comment body h =>
    have hlength := h.lengthThrough_eq hafter
    refine ⟨'/', '*' :: (body ++ after), ?_, ?_⟩
    · rw [tokenStep_comment, hlength, Nat.add_comm, List.take_succ_cons, List.take_left]
    · rw [tokenStep_comment, hlength, Nat.add_comm, List.drop_succ_cons, List.drop_left]

/-- A closed one ends between two parts of a text. -/
theorem tokenEnd (h : Inert closed token) (hafter : closed = false → after = []) :
    TokenEnd token.text after := by
  cases closed with
  | false =>
    rw [hafter rfl]
    exact .stop _
  | true =>
    cases h with
    | @string quote body hquote h =>
      obtain ⟨front, rfl⟩ := h.exists_front
      exact .closesString (t := quote :: front) hquote
    | comment h =>
      obtain ⟨front, rfl⟩ := h.exists_front
      exact .closesComment (t := '/' :: '*' :: front)

/-- **A string or a comment stays one.** -/
theorem newText {kind : Kind} {ps : List Part} (hps : Sound ps)
    (h : Inert closed ⟨kind, oldText ps⟩) : Inert closed ⟨kind, Stylesheet.newText ps⟩ := by
  generalize hold : oldText ps = t at h
  cases ps with
  | nil =>
    subst hold
    exact h
  | cons p ps =>
    cases h with
    | @string quote body hquote h =>
      cases p with
      | keep c =>
        obtain ⟨rfl, rfl⟩ : c = quote ∧ oldText ps = body := List.cons.inj hold
        exact .string hquote (h.newText hquote hps.tail)
      | replace old new =>
        obtain ⟨htame, -⟩ := hps.replaced
        obtain ⟨c, more, rfl⟩ := List.exists_cons_of_ne_nil htame.nonempty
        obtain rfl : c = quote := (List.cons.inj hold).1
        exact absurd List.mem_cons_self (htame.not_quote hquote)
    | @comment body h =>
      obtain ⟨qs, heq, rfl⟩ := exists_keep_of_opening hps hold
      rw [heq] at hps ⊢
      exact .comment (h.newText hps.tail.tail)

end Inert

/-- What the scanner takes besides code is a string or a comment. A comment breaks off only at the
end of the text. -/
theorem Takes.exists_inert {token : Token Kind} {after : Text} (h : Takes token after)
    (hkind : token.kind ≠ .code) (hlast : token.kind = .string → after = []) :
    ∃ closed, Inert closed token ∧ (closed = false → after = []) := by
  obtain ⟨c, rest, rfl, rfl⟩ := h
  rcases tokenStep_cases c rest with rfl | ⟨hslash, hdouble, hsingle, hcomment⟩ |
    ⟨rfl, more, rfl⟩ | hquote
  · exact absurd rfl hkind
  · rw [tokenStep_plain hslash hdouble hsingle hcomment] at hkind
    exact absurd rfl hkind
  · obtain ⟨closed, hbody, hend⟩ := CommentBody.exists_of_lengthThrough more
    rw [tokenStep_comment, Nat.add_comm]
    exact ⟨closed, .comment hbody, hend⟩
  · rw [tokenStep_quote hquote] at hlast ⊢
    obtain ⟨closed, hbody⟩ := StringBody.exists_of_drop (hlast rfl)
    exact ⟨closed, .string hquote hbody, fun _ => hlast rfl⟩

theorem Takes.tokenEnd {token : Token Kind} {after : Text} (h : Takes token after)
    (hkind : token.kind ≠ .code) (t : Text) : TokenEnd t (token.text ++ after) := by
  obtain ⟨c, rest, rfl, rfl⟩ := h
  rcases tokenStep_cases c rest with rfl | ⟨hslash, hdouble, hsingle, hcomment⟩ |
    ⟨rfl, more, rfl⟩ | hquote
  · exact absurd rfl hkind
  · rw [tokenStep_plain hslash hdouble hsingle hcomment] at hkind
    exact absurd rfl hkind
  · rw [tokenStep_comment, Nat.add_comm]
    exact .opensComment
  · exact .opensString hquote

/-! ## Token lists -/

/-- Tokens that the scanner cuts are the tokens of their text if no code is empty or beside code. -/
theorem tokens_join {ts : List (Token Kind)} (h : Cut ts)
    (hne : ∀ t ∈ ts, t.kind = .code → t.text ≠ [])
    (hapart : ts.IsChain fun t u => ¬(t.kind = .code ∧ u.kind = .code)) :
    tokens (Token.join ts) = ts := by
  have htail : ∀ {t : Token Kind} {ts : List (Token Kind)},
      (∀ u ∈ t :: ts, u.kind = .code → u.text ≠ []) →
      ∀ u ∈ ts, u.kind = .code → u.text ≠ [] := fun hne => (List.forall_mem_cons.mp hne).2
  induction h with
  | nil => simp [tokens_eq, Token.mergeRuns]
  | @code t ts hcode h ih =>
    have ih := ih (htail hne) hapart.tail
    obtain ⟨pieces, hpieces, hscan⟩ := (scansAsCode_of_isCode (Token.join ts) t).1 hcode
    have htext : Token.join (pieces.map Token.ofPiece) = t := by
      have hwhole := scan_text tokenStep () (t ++ Token.join ts)
      rw [hscan, List.flatMap_append, scan_text] at hwhole
      rw [Token.join_map_ofPiece]
      exact List.append_cancel_right hwhole
    have hrun : pieces.map Token.ofPiece ≠ [] := fun hnil => by
      rw [hnil] at htext
      exact hne _ List.mem_cons_self rfl htext.symm
    rw [Token.join_cons, tokens_eq, hscan, List.map_append, Token.mergeRuns_run_append hrun, htext]
    · rw [← tokens_eq, ih]
    · intro u hu
      obtain ⟨p, hp, rfl⟩ := List.mem_map.mp hu
      exact hpieces p hp
    · intro u hu hkind
      rw [← tokens_eq, ih] at hu
      obtain ⟨more, rfl⟩ := List.head?_eq_some_iff.mp hu
      exact (List.isChain_cons_cons.mp hapart).1 ⟨rfl, hkind⟩
  | @inert token ts hkind htakes h ih =>
    rw [Token.join_cons, tokens_eq, htakes.scan_eq, List.map_cons]
    refine (Token.mergeRuns_cons_of_ne hkind _).trans ?_
    rw [← tokens_eq, ih (htail hne) hapart.tail]

/-- The parts of a token. -/
structure Row where
  kind : Kind
  parts : List Part
  deriving DecidableEq, Repr

namespace Row

/-- The token as it stands in the text. -/
def before (r : Row) : Token Kind :=
  ⟨r.kind, oldText r.parts⟩

/-- The token in the rewritten text. -/
def after (r : Row) : Token Kind :=
  ⟨r.kind, newText r.parts⟩

/-- Nothing of the token is replaced. -/
def Kept (r : Row) : Prop :=
  r.parts = keepAll (oldText r.parts)
  deriving Decidable

theorem Kept.after_eq {r : Row} (h : r.Kept) : r.after = r.before := by
  rw [after, h, newText_keepAll, before]

/-- A token of which nothing is replaced stays in its place. -/
theorem getElem?_after {rows : List Row} {i : Nat} {token : Token Kind}
    (hbefore : (rows.map before)[i]? = some token) (hkept : ∀ r ∈ rows[i]?, r.Kept) :
    (rows.map after)[i]? = some token := by
  rw [List.getElem?_map] at hbefore ⊢
  obtain ⟨r, hr, rfl⟩ := Option.map_eq_some_iff.mp hbefore
  rw [hr, Option.map_some, (hkept r hr).after_eq]

theorem join_after (rows : List Row) :
    Token.join (rows.map after) = newText (rows.flatMap parts) := by
  induction rows with
  | nil => rfl
  | cons r rows ih =>
    rw [List.map_cons, Token.join_cons, ih, List.flatMap_cons, newText_append, after]

end Row

/-- Every string but the last token is closed. -/
def ClosedBeforeLast (ts : List (Token Kind)) : Prop :=
  ∀ t ∈ ts.dropLast, t.kind = .string → Inert true t

namespace ClosedBeforeLast

variable {t : Token Kind} {ts : List (Token Kind)}

theorem tail (h : ClosedBeforeLast (t :: ts)) : ClosedBeforeLast ts := by
  cases ts with
  | nil => simp [ClosedBeforeLast]
  | cons u ts => exact (List.forall_mem_cons.mp h).2

theorem head (h : ClosedBeforeLast (t :: ts)) (hkind : t.kind = .string) :
    Inert true t ∨ ts = [] := by
  cases ts with
  | nil => exact .inr rfl
  | cons u ts => exact .inl ((List.forall_mem_cons.mp h).1 hkind)

theorem cons (h : ClosedBeforeLast ts) (ht : t.kind = .string → ts = [] ∨ Inert true t) :
    ClosedBeforeLast (t :: ts) := by
  cases ts with
  | nil => simp [ClosedBeforeLast]
  | cons u ts =>
    exact List.forall_mem_cons.mpr ⟨fun hkind => (ht hkind).resolve_left nofun, h⟩

end ClosedBeforeLast

/-- **The parts are dealt out to the tokens**, and the new texts of a token's parts make up a token of
the same kind. -/
theorem Cut.exists_rows {ts : List (Token Kind)} (h : Cut ts)
    (hapart : ts.IsChain fun t u => ¬(t.kind = .code ∧ u.kind = .code))
    (hclosed : ClosedBeforeLast ts) {ps : List Part} (hps : Sound ps)
    (hold : oldText ps = Token.join ts) :
    ∃ rows : List Row, rows.flatMap Row.parts = ps ∧ rows.map Row.before = ts ∧
      Cut (rows.map Row.after) ∧ ClosedBeforeLast (rows.map Row.after) := by
  induction h generalizing ps with
  | nil =>
    obtain rfl := hps.eq_nil_of_oldText hold
    exact ⟨[], rfl, rfl, .nil, by simp [ClosedBeforeLast]⟩
  | @code t ts hcode h ih =>
    rw [Token.join_cons] at hold
    have htokenEnd : TokenEnd t (Token.join ts) := by
      cases h with
      | nil => exact .stop t
      | code => exact absurd ⟨rfl, rfl⟩ (List.isChain_cons_cons.mp hapart).1
      | inert hkind htakes _ =>
        rw [Token.join_cons]
        exact htakes.tokenEnd hkind t
    obtain ⟨qs, rs, rfl, rfl, hrs⟩ := hps.split hold htokenEnd
    obtain ⟨rows, rfl, rfl, hcut, hclosed'⟩ := ih hapart.tail hclosed.tail hps.right hrs
    refine ⟨⟨.code, qs⟩ :: rows, rfl, rfl, .code ?_ hcut, hclosed'.cons nofun⟩
    rw [Row.join_after]
    rw [← hrs] at hcode
    exact hps.isCode hcode
  | @inert token ts hkind htakes h ih =>
    rw [Token.join_cons] at hold
    obtain ⟨closed, hinert, hend, hstring⟩ : ∃ closed, Inert closed token ∧
        (closed = false → Token.join ts = []) ∧
        (token.kind = .string → ts = [] ∨ closed = true) := by
      by_cases hstring : token.kind = .string
      · rcases hclosed.head hstring with hinert | rfl
        · exact ⟨true, hinert, nofun, fun _ => .inr rfl⟩
        · obtain ⟨closed, hinert, -⟩ := htakes.exists_inert hkind fun _ => rfl
          exact ⟨closed, hinert, fun _ => rfl, fun _ => .inl rfl⟩
      · obtain ⟨closed, hinert, hend⟩ := htakes.exists_inert hkind fun h => absurd h hstring
        exact ⟨closed, hinert, hend, fun h => absurd h hstring⟩
    obtain ⟨kind, text⟩ := token
    obtain ⟨qs, rs, rfl, rfl, hrs⟩ := hps.split hold (hinert.tokenEnd hend)
    obtain ⟨rows, rfl, rfl, hcut, hclosed'⟩ := ih hapart.tail hclosed.tail hps.right hrs
    have hnew := hinert.newText hps.left
    have hend' : closed = false → Token.join (rows.map Row.after) = [] := fun h => by
      rw [Row.join_after, hps.right.eq_nil_of_oldText (hrs.trans (hend h))]
      rfl
    refine ⟨⟨kind, qs⟩ :: rows, rfl, rfl, .inert hkind (hnew.takes hend') hcut, hclosed'.cons ?_⟩
    intro h
    rcases hstring h with hnil | rfl
    · left
      rw [List.map_eq_nil_iff] at hnil ⊢
      exact hnil
    · exact .inr hnew

theorem isChain_tokens (css : Text) :
    (tokens css).IsChain fun t u => ¬(t.kind = .code ∧ u.kind = .code) := by
  rw [tokens_eq]
  exact Token.isChain_mergeRuns Kind.code _

theorem tokens_text_ne_nil (css : Text) : ∀ t ∈ tokens css, t.kind = .code → t.text ≠ [] := by
  rw [tokens_eq]
  refine Token.text_ne_nil_of_mem_mergeRuns fun t ht _ => ?_
  obtain ⟨p, hp, rfl⟩ := List.mem_map.mp ht
  exact scan_ne_nil _ _ _ p hp

/-- The parts that make up the first `n` characters, and the parts behind them. -/
def splitParts (n : Nat) : List Part → List Part × List Part
  | [] => ([], [])
  | p :: ps =>
    if p.old.length ≤ n then
      (p :: (splitParts (n - p.old.length) ps).1, (splitParts (n - p.old.length) ps).2)
    else ([], p :: ps)

/-- The parts, dealt out to tokens. -/
def deal : List (Token Kind) → List Part → List Row
  | [], _ => []
  | t :: ts, ps =>
    ⟨t.kind, (splitParts t.text.length ps).1⟩ :: deal ts (splitParts t.text.length ps).2

/-- The parts of a text, dealt out to its tokens. -/
def rows (parts : List Part) : List Row :=
  deal (tokens (oldText parts)) parts

theorem splitParts_append {qs rs : List Part} (h : ∀ p ∈ qs ++ rs, p.old ≠ []) :
    splitParts (oldText qs).length (qs ++ rs) = (qs, rs) := by
  induction qs with
  | nil =>
    cases rs with
    | nil => rfl
    | cons r rs =>
      have hr := List.length_pos_iff.mpr (h r List.mem_cons_self)
      exact if_neg (Nat.not_le.mpr hr)
  | cons q qs ih =>
    have hlength : (oldText (q :: qs)).length = q.old.length + (oldText qs).length := by
      rw [oldText_cons, List.length_append]
    rw [List.cons_append, splitParts, hlength, if_pos (Nat.le_add_right _ _),
      Nat.add_sub_cancel_left, ih (List.forall_mem_cons.mp h).2]

theorem deal_rows {rs : List Row} (h : ∀ p ∈ rs.flatMap Row.parts, p.old ≠ []) :
    deal (rs.map Row.before) (rs.flatMap Row.parts) = rs := by
  induction rs with
  | nil => rfl
  | cons r rs ih =>
    have hsplit := @splitParts_append r.parts (rs.flatMap Row.parts) h
    rw [List.map_cons, List.flatMap_cons, deal, Row.before, hsplit,
      ih (List.forall_mem_append.mp h).2]

/-- **Cutting into tokens commutes with rewriting.** -/
theorem Sound.tokens_newText {ps : List Part} (hps : Sound ps)
    (hclosed : ClosedBeforeLast (tokens (oldText ps))) :
    (rows ps).map Row.before = tokens (oldText ps) ∧ tokens (newText ps) = (rows ps).map Row.after ∧
      ClosedBeforeLast (tokens (newText ps)) := by
  have hapart := isChain_tokens (oldText ps)
  obtain ⟨dealt, hdealt, hbefore, hcut, hclosed'⟩ :=
    (cut_tokens (oldText ps)).exists_rows hapart hclosed hps (join_tokens _).symm
  have hrows : rows ps = dealt := by
    subst hdealt
    rw [rows, ← hbefore]
    exact deal_rows fun p hp => old_ne_nil (hps.safe p hp)
  have hne : ∀ t ∈ dealt.map Row.after, t.kind = .code → t.text ≠ [] := by
    intro t ht hkind hnil
    obtain ⟨r, hr, rfl⟩ := List.mem_map.mp ht
    have hbefore : r.before ∈ tokens (oldText ps) := hbefore ▸ List.mem_map_of_mem hr
    refine tokens_text_ne_nil _ _ hbefore hkind ?_
    -- a token without parts is empty, and so was the old one
    cases hparts : r.parts with
    | nil => exact congrArg oldText hparts
    | cons p more =>
      have hp : p ∈ ps := by
        rw [← hdealt]
        exact List.mem_flatMap.mpr ⟨r, hr, by rw [hparts]; exact List.mem_cons_self⟩
      rw [Row.after, hparts, newText_cons, List.append_eq_nil_iff] at hnil
      exact absurd hnil.1 (new_ne_nil (hps.safe p hp))
  have hafter : tokens (newText ps) = dealt.map Row.after := by
    rw [← hbefore, List.isChain_map] at hapart
    rw [← hdealt, ← Row.join_after]
    exact tokens_join hcut hne ((List.isChain_map _).mpr hapart)
  rw [hrows]
  exact ⟨hbefore, hafter, hafter ▸ hclosed'⟩

end WebTrim.Stylesheet
