import WebTrim.Calc.Expression
import WebTrim.Proofs.Calc.Numeral

/-!
# The grammar of an expression

An expression is terms joined by `+` and `-`, a term is factors joined by `*` and `/`, a factor is a
number, a signed factor or an expression in brackets. A phrase is a derivation by these rules, in
which chains of operators of one rank lean to the left.

* `Phrase`, `Phrase.symbols`, `Phrase.Evaluates` — derivations, what they derive, and their values.
* `expression_sound`, `term_sound`, `factor_sound` — what a reader takes is a phrase of its rank,
  with the value that the reader gives.
* `Phrase.Evaluates.read` — a phrase with a value is read, whatever follows it.
* `parse_iff_phrase` — **a token list has a value exactly if it is a phrase with that value**
  and its numbers can be read; everything else is a fault of the grammar or a number too long.
-/

set_option autoImplicit false

namespace WebTrim.Calc

open Text

/-! ## Phrases and their values -/

/-- The ranks of the grammar. -/
inductive Rank where
  | expression
  | term
  | factor

/-- Is an operator one of sums? The others are operators of products. -/
def Operator.isAdditive : Operator → Bool
  | add | sub => true
  | mul | div => false

/-- The symbol of an operator. -/
def Operator.symbol : Operator → Symbol
  | add => .plus
  | sub => .minus
  | mul => .times
  | div => .slash

/-- A derivation by the grammar. -/
inductive Phrase : Rank → Type where
  | number (n : Numeral) (wellFormed : n.WellFormed) : Phrase .factor
  | plus (operand : Phrase .factor) : Phrase .factor
  | minus (operand : Phrase .factor) : Phrase .factor
  | bracketed (inner : Phrase .expression) : Phrase .factor
  | factor (only : Phrase .factor) : Phrase .term
  | product (left : Phrase .term) (op : Operator) (multiplies : op.isAdditive = false)
      (right : Phrase .factor) : Phrase .term
  | term (only : Phrase .term) : Phrase .expression
  | sum (left : Phrase .expression) (op : Operator) (adds : op.isAdditive = true)
      (right : Phrase .term) : Phrase .expression

/-- The symbols that a phrase derives. -/
def Phrase.symbols : {r : Rank} → Phrase r → List Symbol
  | _, number n _ => [.number n.text]
  | _, plus operand => .plus :: operand.symbols
  | _, minus operand => .minus :: operand.symbols
  | _, bracketed inner => .opening :: inner.symbols ++ [.closing]
  | _, factor only => only.symbols
  | _, product left op _ right => left.symbols ++ op.symbol :: right.symbols
  | _, term only => only.symbols
  | _, sum left op _ right => left.symbols ++ op.symbol :: right.symbols

/-- The results of an operation. Sums are of equal units, a product has at most one unit, and a
divisor has none and is not zero. -/
inductive Operator.Gives : Operator → Dimension → Dimension → Dimension → Prop where
  | add (v w : Rat) (unit : Text) : Gives .add ⟨v, unit⟩ ⟨w, unit⟩ ⟨v + w, unit⟩
  | sub (v w : Rat) (unit : Text) : Gives .sub ⟨v, unit⟩ ⟨w, unit⟩ ⟨v - w, unit⟩
  | mulRight (v w : Rat) (unit : Text) : Gives .mul ⟨v, unit⟩ ⟨w, []⟩ ⟨v * w, unit⟩
  | mulLeft (v w : Rat) (unit : Text) : Gives .mul ⟨v, []⟩ ⟨w, unit⟩ ⟨v * w, unit⟩
  | div (v w : Rat) (unit : Text) (nonzero : w ≠ 0) : Gives .div ⟨v, unit⟩ ⟨w, []⟩ ⟨v / w, unit⟩

/-- The value of a phrase, which it need not have. -/
inductive Phrase.Evaluates : {r : Rank} → Phrase r → Dimension → Prop where
  | number (n : Numeral) (h : n.WellFormed) : Evaluates (.number n h) n.dimension
  | plus {operand : Phrase .factor} {d : Dimension} (h : Evaluates operand d) :
      Evaluates (.plus operand) d
  | minus {operand : Phrase .factor} {v : Rat} {unit : Text} (h : Evaluates operand ⟨v, unit⟩) :
      Evaluates (.minus operand) ⟨-v, unit⟩
  | bracketed {inner : Phrase .expression} {d : Dimension} (h : Evaluates inner d) :
      Evaluates (.bracketed inner) d
  | factor {only : Phrase .factor} {d : Dimension} (h : Evaluates only d) :
      Evaluates (.factor only) d
  | product {left : Phrase .term} {right : Phrase .factor} {op : Operator}
      {multiplies : op.isAdditive = false} {a b d : Dimension} (hleft : Evaluates left a)
      (hright : Evaluates right b) (hgives : op.Gives a b d) :
      Evaluates (.product left op multiplies right) d
  | term {only : Phrase .term} {d : Dimension} (h : Evaluates only d) : Evaluates (.term only) d
  | sum {left : Phrase .expression} {right : Phrase .term} {op : Operator}
      {adds : op.isAdditive = true} {a b d : Dimension} (hleft : Evaluates left a)
      (hright : Evaluates right b) (hgives : op.Gives a b d) :
      Evaluates (.sum left op adds right) d

/-- The operations compute exactly their results. -/
theorem Operator.apply_eq_ok_iff {op : Operator} {a b d : Dimension} :
    op.apply a b = .ok d ↔ op.Gives a b d := by
  obtain ⟨v, left⟩ := a
  obtain ⟨w, right⟩ := b
  constructor
  · intro h
    cases op with
    | add =>
      simp only [apply] at h
      split at h
      · next hunit =>
        cases h
        cases hunit
        exact .add v w left
      · cases h
    | sub =>
      simp only [apply] at h
      split at h
      · next hunit =>
        cases h
        cases hunit
        exact .sub v w left
      · cases h
    | mul =>
      simp only [apply] at h
      split at h
      · next hunit =>
        cases h
        rcases hunit with rfl | rfl
        · exact .mulLeft v w right
        · rw [List.append_nil]
          exact .mulRight v w left
      · cases h
    | div =>
      simp only [apply] at h
      split at h
      · cases h
      next hunit =>
        split at h
        · cases h
        next hzero =>
          cases h
          cases not_not.mp hunit
          exact .div v w left hzero
  · intro h
    cases h with
    | add | sub | mulRight | mulLeft => simp [apply]
    | div _ _ _ hzero => simp [apply, hzero]

/-- An operation that has no result is a fault. -/
theorem Operator.apply_eq_error {op : Operator} {a b : Dimension} {e : Error}
    (h : op.apply a b = .error e) : ∃ fault, e.stop = .fault fault := by
  have hcause : e = .unlikeUnits a.unit b.unit ∨ e = .twoUnits ∨ e = .unitInDivisor ∨
      e = .divisionByZero := by
    fun_cases Operator.apply op a b <;> simp_all [apply]
  rcases hcause with rfl | rfl | rfl | rfl <;> exact ⟨_, rfl⟩

theorem Symbol.additive?_eq_some {s : Symbol} {op : Operator} :
    s.additive? = some op ↔ s = op.symbol ∧ op.isAdditive = true := by
  cases s <;> cases op <;> simp [additive?, Operator.symbol, Operator.isAdditive]

theorem Symbol.multiplicative?_eq_some {s : Symbol} {op : Operator} :
    s.multiplicative? = some op ↔ s = op.symbol ∧ op.isAdditive = false := by
  cases s <;> cases op <;> simp [multiplicative?, Operator.symbol, Operator.isAdditive]

/-! ## The readers -/

/-- What a reader returns, without the bound on the tokens that it leaves. -/
def taken {p : List Located → Prop} (result : Except Error (Dimension × { rest // p rest })) :
    Except Error (Dimension × List Located) :=
  result.map fun r => (r.1, r.2.val)

theorem taken_expression (ts : List Located) :
    taken (expression ts) =
      (taken (term ts)).bind fun first => taken (moreTerms first.1 first.2) := by
  rw [expression]
  rcases term ts with e | ⟨left, rest⟩
  · rfl
  · simp only [taken, Except.map, Except.bind]
    rcases moreTerms left rest.val with e | ⟨value, last⟩ <;> rfl

theorem taken_term (ts : List Located) :
    taken (term ts) =
      (taken (factor ts)).bind fun first => taken (moreFactors first.1 first.2) := by
  rw [term]
  rcases factor ts with e | ⟨left, rest⟩
  · rfl
  · simp only [taken, Except.map, Except.bind]
    rcases moreFactors left rest.val with e | ⟨value, last⟩ <;> rfl

theorem taken_moreTerms (left : Dimension) (t : Located) (rest : List Located) :
    taken (moreTerms left (t :: rest)) =
      match t.symbol.additive? with
      | none => .ok (left, t :: rest)
      | some op =>
        (taken (term rest)).bind fun next =>
          (op.apply left next.1).bind fun sum => taken (moreTerms sum next.2) := by
  rw [moreTerms]
  cases t.symbol.additive? with
  | none => rfl
  | some op =>
    rcases term rest with e | ⟨right, more⟩
    · rfl
    simp only [taken, Except.map, Except.bind]
    rcases op.apply left right with e | sum
    · rfl
    simp only
    rcases moreTerms sum more.val with e | ⟨value, last⟩ <;> rfl

theorem taken_moreFactors (left : Dimension) (t : Located) (rest : List Located) :
    taken (moreFactors left (t :: rest)) =
      match t.symbol.multiplicative? with
      | none => .ok (left, t :: rest)
      | some op =>
        (taken (factor rest)).bind fun next =>
          (op.apply left next.1).bind fun product => taken (moreFactors product next.2) := by
  rw [moreFactors]
  cases t.symbol.multiplicative? with
  | none => rfl
  | some op =>
    rcases factor rest with e | ⟨right, more⟩
    · rfl
    simp only [taken, Except.map, Except.bind]
    rcases op.apply left right with e | product
    · rfl
    simp only
    rcases moreFactors product more.val with e | ⟨value, last⟩ <;> rfl

/-- What a factor is depends on its first token. -/
theorem taken_factor (t : Located) (rest : List Located) :
    taken (factor (t :: rest)) =
      match t.symbol with
      | .number text => (readNumber text).map fun d => (d, rest)
      | .plus => (taken (factor rest)).map fun next => (next.1, next.2)
      | .minus => (taken (factor rest)).map fun next => (next.1.neg, next.2)
      | .opening =>
        (taken (expression rest)).bind fun inner =>
          match inner.2 with
          | [] => .error .unexpectedEnd
          | u :: last =>
            if u.symbol = .closing then .ok (inner.1, last) else .error (.unclosed u.offset)
      | symbol => .error (.unexpected symbol.text t.offset) := by
  rw [factor]
  cases t.symbol with
  | number text =>
    dsimp only
    cases readNumber text <;> rfl
  | plus => rcases factor rest with e | ⟨value, last⟩ <;> rfl
  | minus => rcases factor rest with e | ⟨value, last⟩ <;> rfl
  | opening =>
    rcases expression rest with e | ⟨value, ⟨_ | ⟨u, last⟩, h⟩⟩
    · rfl
    · rfl
    · by_cases hclosing : u.symbol = .closing <;>
        simp [taken, Except.map, Except.bind, hclosing]
  | times => rfl
  | slash => rfl
  | closing => rfl

/-! ## What is read is a phrase -/

/-- No number of a token list is too long to be read. -/
def Legible (ts : List Located) : Prop :=
  ∀ n : Numeral, n.WellFormed → Symbol.number n.text ∈ ts.map Located.symbol →
    n.digitCount ≤ digitLimit

/-- An error has a cause in a token list: it is a fault of the grammar, or one of the numbers is too
long. -/
def Explained (ts : List Located) (e : Error) : Prop :=
  (∃ fault, e.stop = .fault fault) ∨
    ∃ n : Numeral, n.WellFormed ∧ Symbol.number n.text ∈ ts.map Located.symbol ∧
      digitLimit < n.digitCount ∧ e = .tooManyDigits n.digitCount

/-- The result of a reader that goes on after the symbols `before`: together with the tokens that it
takes they are a phrase, which has the value that the reader gives. -/
def Continues (r : Rank) (before : List Symbol) (ts : List Located) :
    Except Error (Dimension × List Located) → Prop
  | .ok (d, rest) =>
    ∃ front, ts = front ++ rest ∧ Legible front ∧
      ∃ e : Phrase r, e.symbols = before ++ front.map Located.symbol ∧ e.Evaluates d
  | .error e => Explained ts e

theorem legible_nil : Legible [] := by
  intro n _ h
  cases h

theorem legible_append {front back : List Located} :
    Legible (front ++ back) ↔ Legible front ∧ Legible back := by
  simp only [Legible, List.map_append, List.mem_append]
  constructor
  · intro h
    exact ⟨fun n hn hmem => h n hn (.inl hmem), fun n hn hmem => h n hn (.inr hmem)⟩
  · rintro ⟨hfront, hback⟩ n hn (hmem | hmem)
    · exact hfront n hn hmem
    · exact hback n hn hmem

/-- A token that is no number is legible. -/
theorem Legible.cons {t : Located} {ts : List Located} (ht : ∀ text, t.symbol ≠ .number text)
    (h : Legible ts) : Legible (t :: ts) := by
  intro n hn hmem
  rw [List.map_cons, List.mem_cons] at hmem
  rcases hmem with heq | hmem
  · exact absurd heq.symm (ht _)
  · exact h n hn hmem

theorem Explained.append {ts : List Located} {e : Error} (h : Explained ts e)
    (front : List Located) : Explained (front ++ ts) e := by
  rcases h with hfault | ⟨n, hn, hmem, hlimit, he⟩
  · exact .inl hfault
  · refine .inr ⟨n, hn, ?_, hlimit, he⟩
    rw [List.map_append, List.mem_append]
    exact .inr hmem

namespace Continues

variable {r r' : Rank} {before : List Symbol} {ts : List Located}
  {result : Except Error (Dimension × List Located)}

/-- A token that is no number may be counted to the symbols before. -/
theorem cons {t : Located} (ht : ∀ text, t.symbol ≠ .number text)
    (h : Continues r (before ++ [t.symbol]) ts result) : Continues r before (t :: ts) result := by
  rcases result with e | ⟨d, rest⟩
  · exact Explained.append h [t]
  · obtain ⟨front, rfl, hlegible, e, hsymbols, hvalue⟩ := h
    exact ⟨t :: front, rfl, hlegible.cons ht, e, by simp [hsymbols], hvalue⟩

/-- One reader after another. -/
theorem bind {next : Dimension × List Located → Except Error (Dimension × List Located)}
    (h : Continues r [] ts result)
    (hnext : ∀ front d rest, ∀ e : Phrase r, ts = front ++ rest →
      e.symbols = front.map Located.symbol → e.Evaluates d →
      Continues r' (before ++ e.symbols) rest (next (d, rest))) :
    Continues r' before ts (result.bind next) := by
  rcases result with e | ⟨d, rest⟩
  · exact h
  obtain ⟨front, rfl, hlegible, e, hsymbols, hvalue⟩ := h
  have hrest := hnext front d rest e rfl hsymbols hvalue
  show Continues r' before (front ++ rest) (next (d, rest))
  generalize next (d, rest) = last at hrest ⊢
  rcases last with e' | ⟨d', rest'⟩
  · exact Explained.append hrest front
  · obtain ⟨more, rfl, hlegible', e', hsymbols', hvalue'⟩ := hrest
    refine ⟨front ++ more, by simp, legible_append.mpr ⟨hlegible, hlegible'⟩, e', ?_, hvalue'⟩
    simp [hsymbols', hsymbols]

end Continues

theorem Phrase.symbols_ne_nil {r : Rank} (e : Phrase r) : e.symbols ≠ [] := by
  induction e with
  | factor only ih | term only ih => exact ih
  | _ => simp [symbols]

theorem length_lt_of_phrase {r : Rank} {e : Phrase r} {front : List Located}
    (h : e.symbols = front.map Located.symbol) (rest : List Located) :
    rest.length < (front ++ rest).length := by
  have hfront : front ≠ [] := by
    rintro rfl
    exact e.symbols_ne_nil h
  have := List.length_pos_iff.mpr hfront
  simp only [List.length_append]
  omega

/-- Operators are no numbers. -/
theorem Operator.symbol_ne_number (op : Operator) (text : Text) : op.symbol ≠ .number text := by
  cases op <;> exact Symbol.noConfusion

/-- A reader of operands of the rank `r'` that are joined by the operators of the rank `r`. -/
structure Chain (r r' : Rank) (operator? : Symbol → Option Operator)
    (operand : List Located → Except Error (Dimension × List Located))
    (more : Dimension → List Located → Except Error (Dimension × List Located)) : Prop where
  nil : ∀ left, more left [] = .ok (left, [])
  cons : ∀ left t rest, more left (t :: rest) =
    match operator? t.symbol with
    | none => .ok (left, t :: rest)
    | some op =>
      (operand rest).bind fun next => (op.apply left next.1).bind fun value => more value next.2
  symbol : ∀ s op, operator? s = some op → s = op.symbol
  join : ∀ s op, operator? s = some op → ∀ (e : Phrase r) (f : Phrase r') (a b d : Dimension),
    e.Evaluates a → f.Evaluates b → op.Gives a b d →
    ∃ g : Phrase r, g.symbols = e.symbols ++ s :: f.symbols ∧ g.Evaluates d

theorem chain_terms : Chain .expression .term Symbol.additive? (fun ts => taken (term ts))
    (fun left ts => taken (moreTerms left ts)) where
  nil left := by
    rw [moreTerms]
    rfl
  cons := taken_moreTerms
  symbol _ _ h := (Symbol.additive?_eq_some.mp h).1
  join s op h e f a b d ha hb hgives := by
    obtain ⟨rfl, hadds⟩ := Symbol.additive?_eq_some.mp h
    exact ⟨.sum e op hadds f, rfl, .sum ha hb hgives⟩

theorem chain_factors : Chain .term .factor Symbol.multiplicative? (fun ts => taken (factor ts))
    (fun left ts => taken (moreFactors left ts)) where
  nil left := by
    rw [moreFactors]
    rfl
  cons := taken_moreFactors
  symbol _ _ h := (Symbol.multiplicative?_eq_some.mp h).1
  join s op h e f a b d ha hb hgives := by
    obtain ⟨rfl, hmultiplies⟩ := Symbol.multiplicative?_eq_some.mp h
    exact ⟨.product e op hmultiplies f, rfl, .product ha hb hgives⟩

/-- A chain continues a phrase of its rank. -/
theorem Chain.sound {r r' : Rank} {operator? : Symbol → Option Operator}
    {operand : List Located → Except Error (Dimension × List Located)}
    {more : Dimension → List Located → Except Error (Dimension × List Located)}
    (h : Chain r r' operator? operand more) {ts : List Located}
    (hoperand : ∀ s, s.length < ts.length → Continues r' [] s (operand s))
    {left : Dimension} {e : Phrase r} (he : e.Evaluates left) :
    Continues r e.symbols ts (more left ts) := by
  -- Each round takes an operator and an operand and hangs them to the phrase.
  induction hlength : ts.length using Nat.strong_induction_on generalizing ts left e with
  | _ n ih =>
    subst hlength
    have hstop : Continues r e.symbols ts (.ok (left, ts)) :=
      ⟨[], rfl, legible_nil, e, by simp, he⟩
    cases ts with
    | nil => rwa [h.nil]
    | cons t rest =>
      rw [h.cons]
      split
      · exact hstop
      next op hop =>
        have hsymbol : ∀ text, t.symbol ≠ .number text := fun text =>
          h.symbol _ _ hop ▸ op.symbol_ne_number text
        refine Continues.cons hsymbol ?_
        refine (hoperand rest (by simp)).bind fun front right last f hrest hfront hright => ?_
        show Continues r _ last ((op.apply left right).bind _)
        cases hgives : op.apply left right with
        | error err => exact .inl (op.apply_eq_error hgives)
        | ok value =>
          subst hrest
          have hlast := length_lt_of_phrase hfront last
          obtain ⟨g, hg, hvalue⟩ :=
            h.join _ _ hop e f left right value he hright (Operator.apply_eq_ok_iff.mp hgives)
          have hg' : e.symbols ++ [t.symbol] ++ f.symbols = g.symbols := by simp [hg]
          rw [hg']
          refine ih last.length ?_ (fun s hs => hoperand s ?_) hvalue rfl
          · simp only [List.length_cons]
            omega
          · simp only [List.length_cons]
            omega

section Sound

variable {ts : List Located}
  (hfactor : ∀ s : List Located, s.length ≤ ts.length → Continues .factor [] s (taken (factor s)))

include hfactor

theorem term_sound : Continues .term [] ts (taken (term ts)) := by
  rw [taken_term]
  refine (hfactor ts (Nat.le_refl _)).bind fun front d rest f hts hfront hd => ?_
  subst hts
  have hrest := length_lt_of_phrase hfront rest
  exact chain_factors.sound (fun s hs => hfactor s (by omega)) (.factor hd)

theorem expression_sound : Continues .expression [] ts (taken (expression ts)) := by
  have hterm : ∀ s : List Located, s.length ≤ ts.length → Continues .term [] s (taken (term s)) :=
    fun s hs => term_sound fun s' hs' => hfactor s' (hs'.trans hs)
  rw [taken_expression]
  refine (hterm ts (Nat.le_refl _)).bind fun front d rest t hts hfront hd => ?_
  subst hts
  have hrest := length_lt_of_phrase hfront rest
  exact chain_terms.sound (fun s hs => hterm s (by omega)) (.term hd)

end Sound

/-- A number is read as a phrase of its own. -/
theorem number_sound {t : Located} {text : Text} (ht : t.symbol = .number text)
    (rest : List Located) :
    Continues .factor [] (t :: rest) ((readNumber text).map fun d => (d, rest)) := by
  have hmem : Symbol.number text ∈ (t :: rest).map Located.symbol := by simp [ht]
  cases hread : readNumber text with
  | error e =>
    rcases readNumber_eq_error hread with rfl | ⟨n, hn, rfl, hlimit, rfl⟩
    · exact .inl ⟨_, rfl⟩
    · exact .inr ⟨n, hn, hmem, hlimit, rfl⟩
  | ok d =>
    obtain ⟨n, hn, rfl, hlimit, rfl⟩ := readNumber_eq_ok_iff.mp hread
    refine ⟨[t], rfl, ?_, .number n hn, by simp [Phrase.symbols, ht], .number n hn⟩
    intro m hm hmtext
    rw [List.map_singleton, List.mem_singleton, ht, Symbol.number.injEq] at hmtext
    rwa [Numeral.eq_of_text_eq hm hn hmtext]

/-- A signed factor. -/
theorem signed_sound {t : Located} {rest : List Located} (sign : Dimension → Dimension)
    (signed : Phrase .factor → Phrase .factor) (ht : ∀ text, t.symbol ≠ .number text)
    (hsymbols : ∀ f, (signed f).symbols = t.symbol :: f.symbols)
    (hvalue : ∀ f d, f.Evaluates d → (signed f).Evaluates (sign d))
    (hrest : Continues .factor [] rest (taken (factor rest))) :
    Continues .factor [] (t :: rest)
      ((taken (factor rest)).map fun next => (sign next.1, next.2)) := by
  refine Continues.cons ht ?_
  generalize taken (factor rest) = result at hrest ⊢
  rcases result with e | ⟨d, last⟩
  · exact hrest
  · obtain ⟨front, rfl, hlegible, f, hfront, hd⟩ := hrest
    exact ⟨front, rfl, hlegible, signed f, by simp [hsymbols, hfront], hvalue f d hd⟩

theorem factor_sound (ts : List Located) : Continues .factor [] ts (taken (factor ts)) := by
  obtain ⟨n, hlength⟩ : ∃ n, ts.length = n := ⟨_, rfl⟩
  induction n using Nat.strong_induction_on generalizing ts with
  | _ n ih =>
    subst hlength
    cases ts with
    | nil =>
      rw [factor]
      exact .inl ⟨_, rfl⟩
    | cons t rest =>
      have hfactor : ∀ s : List Located, s.length ≤ rest.length →
          Continues .factor [] s (taken (factor s)) := fun s hs =>
        ih s.length (Nat.lt_succ_of_le hs) s rfl
      have hrest := hfactor rest (Nat.le_refl _)
      rw [taken_factor]
      split
      · next text hsymbol => exact number_sound hsymbol rest
      · next hsymbol =>
        exact signed_sound id .plus (by simp [hsymbol]) (fun f => by simp [Phrase.symbols, hsymbol])
          (fun f d => .plus) hrest
      · next hsymbol =>
        exact signed_sound Dimension.neg .minus (by simp [hsymbol])
          (fun f => by simp [Phrase.symbols, hsymbol]) (fun f d => .minus) hrest
      · next hsymbol =>
        refine Continues.cons (by simp [hsymbol]) ?_
        refine (expression_sound hfactor).bind fun front d last e hts hfront hd => ?_
        cases last with
        | nil => exact .inl ⟨_, rfl⟩
        | cons u last =>
          show Continues _ _ _ (if u.symbol = .closing then _ else _)
          split
          · next hclosing =>
            exact ⟨[u], rfl, legible_nil.cons (by simp [hclosing]), .bracketed e,
              by simp [Phrase.symbols, hsymbol, hclosing], .bracketed hd⟩
          · exact .inl ⟨_, rfl⟩
      · exact .inl ⟨_, rfl⟩

/-! ## A phrase is read -/

namespace Chain

variable {r r' : Rank} {operator? : Symbol → Option Operator}
  {operand : List Located → Except Error (Dimension × List Located)}
  {more : Dimension → List Located → Except Error (Dimension × List Located)}

/-- A chain ends where no operator of its rank follows. -/
theorem stop (h : Chain r r' operator? operand more) (left : Dimension) {ts : List Located}
    (hstop : ∀ t ∈ ts.head?, operator? t.symbol = none) : more left ts = .ok (left, ts) := by
  cases ts with
  | nil => exact h.nil left
  | cons t rest => rw [h.cons, hstop t rfl]

theorem step (h : Chain r r' operator? operand more) {a b d : Dimension} {op : Operator}
    {t : Located} {rest last : List Located} (hop : operator? t.symbol = some op)
    (hright : operand rest = .ok (b, last)) (hgives : op.Gives a b d) :
    more a (t :: rest) = more d last := by
  rw [h.cons, hop]
  show (operand rest).bind _ = _
  rw [hright]
  show (op.apply a b).bind _ = _
  rw [Operator.apply_eq_ok_iff.mpr hgives]
  rfl

end Chain

/-- The reader of a rank takes a phrase of it from the tokens `ts` and goes on with the tokens
`rest`. A term can only end where no `*` and no `/` follows. -/
def Resumes (ts : List Located) (d : Dimension) (rest : List Located) : Rank → Prop
  | .factor => taken (factor ts) = .ok (d, rest)
  | .term => taken (term ts) = taken (moreFactors d rest)
  | .expression => (∀ t ∈ rest.head?, t.symbol.multiplicative? = none) →
      taken (expression ts) = taken (moreTerms d rest)

/-- The tokens of two phrases with an operator between them. -/
theorem exists_of_map_eq_append_cons {front : List Located} {a b : List Symbol} {s : Symbol}
    (h : front.map Located.symbol = a ++ s :: b) :
    ∃ left t right, front = left ++ t :: right ∧ left.map Located.symbol = a ∧ t.symbol = s ∧
      right.map Located.symbol = b := by
  obtain ⟨left, tail, rfl, hleft, htail⟩ := List.map_eq_append_iff.mp h
  obtain ⟨t, right, rfl, ht, hright⟩ := List.map_eq_cons_iff.mp htail
  exact ⟨left, t, right, rfl, hleft, ht, hright⟩

theorem Legible.tail {t : Located} {ts : List Located} (h : Legible (t :: ts)) : Legible ts :=
  (legible_append.mp (show Legible ([t] ++ ts) from h)).2

/-- **A phrase with a value is read, whatever follows it.** -/
theorem Phrase.Evaluates.read {r : Rank} {e : Phrase r} {d : Dimension} (h : e.Evaluates d)
    {front : List Located} (hfront : front.map Located.symbol = e.symbols)
    (hlegible : Legible front) (rest : List Located) : Resumes (front ++ rest) d rest r := by
  induction h generalizing front rest with
  | number n hn =>
    obtain ⟨t, rfl, ht⟩ := List.map_eq_singleton_iff.mp hfront
    have hlimit : n.digitCount ≤ digitLimit := hlegible n hn (by simp [ht])
    show taken (Calc.factor (t :: rest)) = _
    rw [taken_factor, ht]
    show (readNumber n.text).map _ = _
    rw [Numeral.readNumber_text hn, if_neg (Nat.not_lt.mpr hlimit)]
    rfl
  | plus h ih =>
    obtain ⟨t, front, rfl, ht, hfront⟩ := List.map_eq_cons_iff.mp hfront
    have hread : taken (Calc.factor (front ++ rest)) = _ := ih hfront hlegible.tail rest
    show taken (Calc.factor (t :: (front ++ rest))) = _
    rw [taken_factor, ht, hread]
    rfl
  | minus h ih =>
    obtain ⟨t, front, rfl, ht, hfront⟩ := List.map_eq_cons_iff.mp hfront
    have hread : taken (Calc.factor (front ++ rest)) = _ := ih hfront hlegible.tail rest
    show taken (Calc.factor (t :: (front ++ rest))) = _
    rw [taken_factor, ht, hread]
    rfl
  | @bracketed inner d h ih =>
    obtain ⟨t, tail, rfl, ht, htail⟩ := List.map_eq_cons_iff.mp hfront
    obtain ⟨front, u, last, rfl, hinside, hu, hlast⟩ := exists_of_map_eq_append_cons htail
    obtain rfl := List.map_eq_nil_iff.mp hlast
    -- The closing bracket ends the term and the expression inside.
    have hinner : Legible front := (legible_append.mp hlegible.tail).1
    have hread : taken (expression (front ++ u :: rest)) = _ :=
      ih hinside hinner (u :: rest) (by simp [hu, Symbol.multiplicative?])
    have hstop : taken (moreTerms d (u :: rest)) = .ok (d, u :: rest) :=
      chain_terms.stop d (by simp [hu, Symbol.additive?])
    have hts : t :: (front ++ [u]) ++ rest = t :: (front ++ u :: rest) := by simp
    show taken (Calc.factor _) = _
    rw [hts, taken_factor, ht, hread, hstop]
    show (if u.symbol = .closing then _ else _) = _
    rw [if_pos hu]
  | factor h ih =>
    have hread : taken (Calc.factor (front ++ rest)) = _ := ih hfront hlegible rest
    show taken (Calc.term (front ++ rest)) = _
    rw [taken_term, hread]
    rfl
  | @product left right op hmultiplies a b d hleft hright hgives ihleft ihright =>
    obtain ⟨front, t, back, rfl, hfront, ht, hback⟩ := exists_of_map_eq_append_cons hfront
    obtain ⟨hlegible, hlegible'⟩ := legible_append.mp hlegible
    have hread : taken (Calc.term (front ++ t :: (back ++ rest))) = _ :=
      ihleft hfront hlegible (t :: (back ++ rest))
    have hfactor : taken (Calc.factor (back ++ rest)) = _ := ihright hback hlegible'.tail rest
    have hop : t.symbol.multiplicative? = some op :=
      Symbol.multiplicative?_eq_some.mpr ⟨ht, hmultiplies⟩
    have hts : front ++ t :: back ++ rest = front ++ t :: (back ++ rest) := by simp
    show taken (Calc.term _) = _
    rw [hts, hread]
    exact chain_factors.step hop hfactor hgives
  | @term only d h ih =>
    intro hrest
    have hread : taken (Calc.term (front ++ rest)) = _ := ih hfront hlegible rest
    have hstop : taken (moreFactors d rest) = .ok (d, rest) := chain_factors.stop d hrest
    rw [taken_expression, hread, hstop]
    rfl
  | @sum left right op hadds a b d hleft hright hgives ihleft ihright =>
    intro hrest
    obtain ⟨front, t, back, rfl, hfront, ht, hback⟩ := exists_of_map_eq_append_cons hfront
    obtain ⟨hlegible, hlegible'⟩ := legible_append.mp hlegible
    have hop : t.symbol.additive? = some op := Symbol.additive?_eq_some.mpr ⟨ht, hadds⟩
    have hnext : t.symbol.multiplicative? = none := by
      rw [ht]
      cases op <;> first | rfl | cases hadds
    have hread : taken (expression (front ++ t :: (back ++ rest))) = _ :=
      ihleft hfront hlegible (t :: (back ++ rest)) (by simp [hnext])
    have hterm : taken (Calc.term (back ++ rest)) = _ := ihright hback hlegible'.tail rest
    rw [chain_factors.stop b hrest] at hterm
    have hts : front ++ t :: back ++ rest = front ++ t :: (back ++ rest) := by simp
    rw [hts, hread]
    exact chain_terms.step hop hterm hgives

/-! ## The value of a token list -/

theorem parse_eq_bind (ts : List Located) :
    parse ts = (taken (expression ts)).bind fun read =>
      match read.2 with
      | [] => .ok read.1
      | t :: _ => .error (.trailing t.offset) := by
  unfold parse
  rcases expression ts with e | ⟨d, ⟨_ | ⟨t, rest⟩, h⟩⟩ <;> rfl

/-- What the parser accepts is a phrase. -/
theorem exists_phrase_of_parse {ts : List Located} {d : Dimension} (h : parse ts = .ok d) :
    Legible ts ∧ ∃ e : Phrase .expression, e.symbols = ts.map Located.symbol ∧ e.Evaluates d := by
  have hsound : Continues .expression [] ts (taken (expression ts)) :=
    expression_sound fun s _ => factor_sound s
  rw [parse_eq_bind] at h
  generalize taken (expression ts) = result at h hsound
  rcases result with e | ⟨d', _ | ⟨t, rest⟩⟩
  · cases h
  · cases h
    obtain ⟨front, rfl, hlegible, e, hsymbols, hvalue⟩ := hsound
    rw [List.append_nil]
    exact ⟨hlegible, e, hsymbols, hvalue⟩
  · cases h

/-- A phrase with a value is accepted. -/
theorem parse_of_phrase {ts : List Located} {d : Dimension} {e : Phrase .expression}
    (hlegible : Legible ts) (hsymbols : e.symbols = ts.map Located.symbol)
    (hvalue : e.Evaluates d) : parse ts = .ok d := by
  have hread : taken (expression (ts ++ [])) = taken (moreTerms d []) :=
    hvalue.read hsymbols.symm hlegible [] (by simp)
  rw [List.append_nil, show taken (moreTerms d []) = .ok (d, []) from chain_terms.nil d] at hread
  rw [parse_eq_bind, hread]
  rfl

theorem explained_of_parse {ts : List Located} {e : Error} (h : parse ts = .error e) :
    Explained ts e := by
  have hsound : Continues .expression [] ts (taken (expression ts)) :=
    expression_sound fun s _ => factor_sound s
  rw [parse_eq_bind] at h
  generalize taken (expression ts) = result at h hsound
  rcases result with e' | ⟨d, _ | ⟨t, rest⟩⟩
  · cases h
    exact hsound
  · cases h
  · cases h
    exact .inl ⟨_, rfl⟩

/-- **The parser accepts exactly the phrases that have a value and whose numbers can be read, and
gives that value.** Whatever else it is given is a fault of the grammar or holds a number that is
too long. -/
theorem parse_iff_phrase (ts : List Located) :
    (∀ d, parse ts = .ok d ↔
      Legible ts ∧ ∃ e : Phrase .expression, e.symbols = ts.map Located.symbol ∧ e.Evaluates d) ∧
    ∀ e, parse ts = .error e →
      (∃ fault, e.stop = .fault fault) ∨
        ∃ n : Numeral, n.WellFormed ∧ Symbol.number n.text ∈ ts.map Located.symbol ∧
          digitLimit < n.digitCount ∧ e.stop = .crash (.tooManyDigits n.digitCount) := by
  refine ⟨fun d => ⟨exists_phrase_of_parse, ?_⟩, fun e h => ?_⟩
  · rintro ⟨hlegible, e, hsymbols, hvalue⟩
    exact parse_of_phrase hlegible hsymbols hvalue
  · rcases explained_of_parse h with hfault | ⟨n, hn, hmem, hlimit, rfl⟩
    · exact .inl hfault
    · exact .inr ⟨n, hn, hmem, hlimit, rfl⟩

/-- The number one after as many zeros as are read. -/
def paddedOne : Numeral :=
  ⟨List.replicate digitLimit '0' ++ ['1'], [], false, []⟩

theorem wellFormed_paddedOne : paddedOne.WellFormed where
  whole c hc := by
    rcases List.mem_append.mp hc with hzero | hone
    · rw [List.eq_of_mem_replicate hzero]
      decide
    · rw [List.mem_singleton.mp hone]
      decide
  fraction c hc := absurd hc List.not_mem_nil
  unit c hc := absurd hc List.not_mem_nil
  digits := .inl (by simp [paddedOne])
  point _ := rfl

/-- A number that is written with too many zeros is a phrase with a value, but it is not read, and
that is no fault of the grammar. -/
theorem leading_zeros_refused :
    (∃ e : Phrase .expression, e.symbols = [.number paddedOne.text] ∧ e.Evaluates ⟨1, []⟩) ∧
      parse [⟨.number paddedOne.text, 0⟩] = .error (.tooManyDigits (digitLimit + 1)) ∧
      (Error.tooManyDigits (digitLimit + 1)).stop = .crash (.tooManyDigits (digitLimit + 1)) := by
  have hcount : paddedOne.digitCount = digitLimit + 1 := by
    simp [Numeral.digitCount, paddedOne]
  have hvalue : paddedOne.dimension = ⟨1, []⟩ := by
    simp only [Numeral.dimension, paddedOne, List.append_nil, digitsValue_zeros]
    rfl
  refine ⟨⟨.term (.factor (.number paddedOne wellFormed_paddedOne)), rfl, ?_⟩, ?_, rfl⟩
  · rw [← hvalue]
    exact .term (.factor (.number _ _))
  · have hfactor : taken (factor [⟨.number paddedOne.text, 0⟩]) =
        .error (.tooManyDigits (digitLimit + 1)) := by
      rw [taken_factor]
      show (readNumber paddedOne.text).map _ = _
      rw [Numeral.readNumber_text wellFormed_paddedOne, hcount, if_pos (Nat.lt_succ_self _)]
      rfl
    rw [parse_eq_bind, taken_expression, taken_term, hfactor]
    rfl

end WebTrim.Calc
