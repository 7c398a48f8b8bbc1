import Stencil.Expression.Parser
import Stencil.Proofs.Number.Integer
import Stencil.Proofs.Text.Search

/-!
The grammar of expressions: `$name`, and behind it accessors `[n]`, `['key']`, `["key"]`, `[key]`
and `->name`.  It says which text is which expression and not how one is read.  What reading takes
off the head of a text is derived by the grammar, and what the grammar derives is taken off whole
wherever a text stands behind that cannot go on with it.
-/

namespace Stencil

theorem isNamePart_of_isNameStart {c : Char} (h : isNameStart c) : isNamePart c := by
  simp only [isNameStart, isNamePart, Char.isAlphanum, Bool.or_eq_true] at h ⊢
  rcases h with (h | h) | h
  · exact Or.inl (Or.inl (Or.inl h))
  · exact Or.inl (Or.inr h)
  · exact Or.inr h

theorem isDigit_eq_false_of_isNameStart {c : Char} (h : isNameStart c) : c.isDigit = false := by
  -- The classes as ranges of code points.
  change (decide (65 ≤ c.toNat ∧ c.toNat ≤ 90) ||
    (decide (97 ≤ c.toNat) && decide (c.toNat ≤ 122)) || c == '_' ||
    decide (128 ≤ c.toNat)) = true at h
  change (decide (48 ≤ c.toNat) && decide (c.toNat ≤ 57)) = false
  simp only [Bool.or_eq_true, Bool.and_eq_true, decide_eq_true_eq, beq_iff_eq] at h
  rw [← Bool.decide_and, decide_eq_false_iff_not]
  rcases h with ((h | h) | rfl) | h
  · omega
  · omega
  · decide
  · omega

/-- No name can go on into the text. -/
def EndsName (rest : Text) : Prop :=
  ∀ c t, rest = c :: t → isNamePart c = false

theorem endsName_nil : EndsName [] := by
  intro c t h
  simp at h

theorem endsName_cons {c : Char} (h : isNamePart c = false) (t : Text) : EndsName (c :: t) := by
  intro d s hd
  rw [← (List.cons.inj hd).1, h]

theorem isName_of_name? {t name rest : Text} (h : name? t = some (name, rest)) :
    isName name ∧ EndsName rest := by
  cases t with
  | nil => simp [name?] at h
  | cons c t =>
      simp only [name?] at h
      split at h
      next hc =>
        simp only [Option.some.injEq, Prod.mk.injEq] at h
        obtain ⟨rfl, rfl⟩ := h
        constructor
        · simp only [isName, hc, Bool.true_and, List.all_eq_true]
          intro d hd
          exact List.all_eq_true.mp (List.all_takeWhile) d hd
        · intro d s hd
          have hhead := List.head?_dropWhile_not isNamePart t
          rw [hd] at hhead
          simpa using hhead
      next => simp at h

theorem name?_append {name rest : Text} (hname : isName name) (hrest : EndsName rest) :
    name? (name ++ rest) = some (name, rest) := by
  cases name with
  | nil => simp [isName] at hname
  | cons c name =>
      simp only [isName, Bool.and_eq_true, List.all_eq_true] at hname
      obtain ⟨htake, hdrop⟩ := Text.takeWhile_append_of_stop hname.2 hrest
      rw [List.cons_append, name?, if_pos hname.1, htake, hdrop]

theorem exists_head_of_isName {name : Text} (h : isName name) :
    ∃ c t, name = c :: t ∧ isNameStart c := by
  cases name with
  | nil => simp [isName] at h
  | cons c t =>
      rw [isName, Bool.and_eq_true] at h
      exact ⟨c, t, rfl, h.1⟩

theorem notMem_of_isName {name : Text} (h : isName name) {c : Char} (hc : isNamePart c = false) :
    c ∉ name := by
  intro hmem
  cases name with
  | nil => simp at hmem
  | cons d name =>
      simp only [isName, Bool.and_eq_true, List.all_eq_true] at h
      rcases List.mem_cons.mp hmem with rfl | hmem
      · rw [isNamePart_of_isNameStart h.1] at hc
        exact absurd hc (by decide)
      · rw [h.2 c hmem] at hc
        exact absurd hc (by decide)

namespace Accessor

/-- What may stand between brackets, and the accessor that it makes. -/
inductive Bracketed : Text → Accessor → Prop
  | integer {s : Text} {n : Int64} (h : SpellsInteger s n) : Bracketed s (.index n)
  | quoted {quote : Char} {k : Text} (hquote : quote = '\'' ∨ quote = '"') (hk : quote ∉ k) :
      Bracketed (quote :: (k ++ [quote])) (.key k)
  | name {k : Text} (hk : isName k) : Bracketed k (.key k)

/-- The texts that are accessors. -/
inductive Derives : Text → Accessor → Prop
  | bracketed {s : Text} {a : Accessor} (h : Bracketed s a) : Derives ('[' :: (s ++ [']'])) a
  | property {name : Text} (h : isName name) : Derives ('-' :: '>' :: name) (.property name)

/-- The texts that are rows of accessors. -/
inductive DeriveAll : Text → List Accessor → Prop
  | nil : DeriveAll [] []
  | cons {s t : Text} {a : Accessor} {accessors : List Accessor} (h : Derives s a)
      (ht : DeriveAll t accessors) : DeriveAll (s ++ t) (a :: accessors)

theorem integer?_of_ne {c : Char} (hc : c ≠ '-') (t : Text) :
    integer? (c :: t) =
      (readInteger? ((c :: t).takeWhile Char.isDigit)).map
        (·, (c :: t).dropWhile Char.isDigit) := by
  simp only [integer?]
  split
  next s hs => exact absurd (List.cons.inj hs).1 hc
  next => simp only [List.nil_append]

theorem exists_spelling_of_integer? {t rest : Text} {n : Int64}
    (h : integer? t = some (n, rest)) : ∃ s, t = s ++ rest ∧ SpellsInteger s n := by
  have hdigits (t : Text) : ∀ c ∈ t.takeWhile Char.isDigit, c.isDigit :=
    List.all_eq_true.mp List.all_takeWhile
  cases t with
  | nil => simp [integer?, readInteger?, readDigits?] at h
  | cons c t =>
      by_cases hc : c = '-'
      · subst hc
        simp only [integer?, List.singleton_append, Option.map_eq_some_iff, Prod.mk.injEq,
          readInteger?_minus_eq_some_iff] at h
        obtain ⟨_, ⟨ht, hvalue⟩, rfl, rfl⟩ := h
        refine ⟨'-' :: t.takeWhile Char.isDigit, ?_, .minus ht hvalue⟩
        rw [List.cons_append, List.takeWhile_append_dropWhile]
      · simp only [integer?_of_ne hc, Option.map_eq_some_iff, Prod.mk.injEq,
          readInteger?_eq_some_iff_of_digits (hdigits (c :: t))] at h
        obtain ⟨_, ⟨hne, hvalue⟩, rfl, rfl⟩ := h
        exact ⟨_, List.takeWhile_append_dropWhile.symm, .plain ⟨hne, hdigits _⟩ hvalue⟩

theorem integer?_of_spelling {s rest : Text} {n : Int64} (hs : SpellsInteger s n)
    (hrest : ∀ c t, rest = c :: t → c.isDigit = false) :
    integer? (s ++ rest) = some (n, rest) := by
  cases hs with
  | @plain digits _ hdigits hvalue =>
      obtain ⟨htake, hdrop⟩ := Text.takeWhile_append_of_stop hdigits.2 hrest
      have hread := (readInteger?_eq_some_iff_of_digits hdigits.2).mpr ⟨hdigits.1, hvalue⟩
      obtain ⟨c, t, rfl⟩ := List.exists_cons_of_ne_nil hdigits.1
      have hc : c ≠ '-' := by
        rintro rfl
        exact absurd (hdigits.2 '-' (by simp)) (by decide)
      rw [List.cons_append] at htake hdrop ⊢
      rw [integer?_of_ne hc, htake, hdrop, hread, Option.map_some]
  | @minus digits _ hdigits hvalue =>
      obtain ⟨htake, hdrop⟩ := Text.takeWhile_append_of_stop hdigits.2 hrest
      have hread := readInteger?_minus_eq_some_iff.mpr ⟨hdigits, hvalue⟩
      simp only [List.cons_append, integer?, htake, hdrop, List.nil_append, hread,
        Option.map_some]

theorem integer?_eq_none {c : Char} (hc : c ≠ '-') (hdigit : c.isDigit = false) (t : Text) :
    integer? (c :: t) = none := by
  rw [integer?_of_ne hc, List.takeWhile_cons_of_neg (by simp [hdigit])]
  rfl

theorem eq_of_quoted? {quote : Char} {t k rest : Text} (h : quoted? quote t = some (k, rest)) :
    t = quote :: (k ++ quote :: rest) ∧ quote ∉ k := by
  cases t with
  | nil => simp [quoted?] at h
  | cons c t =>
      simp only [quoted?] at h
      split at h
      next hc =>
        split at h
        next => simp at h
        next d r hd =>
          obtain ⟨rfl, rfl⟩ := Prod.mk.inj (Option.some.inj h)
          have hquote : d = quote := by
            have := List.head?_dropWhile_not (· != quote) t
            simpa [hd] using this
          constructor
          · rw [hc, ← hquote, ← hd, hquote, List.takeWhile_append_dropWhile]
          · intro hmem
            have := List.all_eq_true.mp List.all_takeWhile quote hmem
            simp at this
      next => simp at h

theorem quoted?_enclosed {quote : Char} {k : Text} (hk : quote ∉ k) (rest : Text) :
    quoted? quote (quote :: (k ++ quote :: rest)) = some (k, rest) := by
  have hfront : ∀ c ∈ k, (c != quote) = true := by
    intro c hc
    rw [bne_iff_ne]
    rintro rfl
    exact hk hc
  have hback : ∀ c t, quote :: rest = c :: t → (c != quote) = false := by
    intro c t h
    simp [(List.cons.inj h).1]
  obtain ⟨htake, hdrop⟩ := Text.takeWhile_append_of_stop hfront hback
  simp only [quoted?, if_true, htake, hdrop]

theorem quoted?_of_ne {quote c : Char} (hc : c ≠ quote) (t : Text) :
    quoted? quote (c :: t) = none := by
  simp [quoted?, hc]

theorem exists_bracketed_of_bracketed? {t rest : Text} {a : Accessor}
    (h : bracketed? t = some (a, rest)) : ∃ s, t = s ++ rest ∧ Bracketed s a := by
  simp only [bracketed?, Option.or_eq_some_iff, Option.map_eq_some_iff, Prod.exists,
    Prod.map_apply, id_eq, Prod.mk.injEq] at h
  rcases h with ⟨n, _, h, rfl, rfl⟩ | ⟨-, h⟩
  · obtain ⟨s, hs, hspells⟩ := exists_spelling_of_integer? h
    exact ⟨s, hs, .integer hspells⟩
  rcases h with ⟨k, _, h, rfl, rfl⟩ | ⟨-, h⟩
  · obtain ⟨rfl, hk⟩ := eq_of_quoted? h
    exact ⟨_, by simp, .quoted (Or.inl rfl) hk⟩
  rcases h with ⟨k, _, h, rfl, rfl⟩ | ⟨-, k, _, h, rfl, rfl⟩
  · obtain ⟨rfl, hk⟩ := eq_of_quoted? h
    exact ⟨_, by simp, .quoted (Or.inr rfl) hk⟩
  · exact ⟨k, eq_of_name? h, .name (isName_of_name? h).1⟩

theorem bracketed?_of_bracketed {s : Text} {a : Accessor} (h : Bracketed s a) (rest : Text) :
    bracketed? (s ++ ']' :: rest) = some (a, ']' :: rest) := by
  -- the alternatives tried before the one that fits begin with other characters
  cases h with
  | integer h =>
      have hstop : ∀ c t, ']' :: rest = c :: t → c.isDigit = false := by
        intro c t heq
        rw [← (List.cons.inj heq).1]
        decide
      rw [bracketed?, integer?_of_spelling h hstop]
      rfl
  | @quoted quote k hquote hk =>
      have henclosed := quoted?_enclosed hk (']' :: rest)
      rw [List.cons_append, List.append_assoc, List.singleton_append]
      rcases hquote with rfl | rfl
      · rw [bracketed?, integer?_eq_none (by decide) (by decide), henclosed]
        rfl
      · rw [bracketed?, integer?_eq_none (by decide) (by decide), quoted?_of_ne (by decide),
          henclosed]
        rfl
  | name hk =>
      have hname := name?_append hk (endsName_cons (show isNamePart ']' = false by decide) rest)
      obtain ⟨c, t, rfl, hc⟩ := exists_head_of_isName hk
      have hne (d : Char) (hd : isNameStart d = false) : c ≠ d := by
        rintro rfl
        exact absurd hc (by simp [hd])
      rw [List.cons_append] at hname ⊢
      rw [bracketed?,
        integer?_eq_none (hne '-' (by decide)) (isDigit_eq_false_of_isNameStart hc),
        quoted?_of_ne (hne '\'' (by decide)), quoted?_of_ne (hne '"' (by decide)), hname]
      rfl

theorem exists_derives_of_parse? {t rest : Text} {a : Accessor} (h : parse? t = some (a, rest)) :
    ∃ s, t = s ++ rest ∧ Derives s a := by
  unfold parse? at h
  split at h
  next t =>
    simp only [Option.bind_eq_some_iff, Prod.exists] at h
    obtain ⟨b, r, hb, h⟩ := h
    split at h
    next =>
      obtain ⟨rfl, rfl⟩ := Prod.mk.inj (Option.some.inj h)
      obtain ⟨s, rfl, hs⟩ := exists_bracketed_of_bracketed? hb
      exact ⟨_, by simp, .bracketed hs⟩
    next => simp at h
  next t =>
    simp only [Option.map_eq_some_iff, Prod.exists, Prod.map_apply, id_eq, Prod.mk.injEq] at h
    obtain ⟨name, r, hn, rfl, rfl⟩ := h
    exact ⟨'-' :: '>' :: name, by simp [eq_of_name? hn], .property (isName_of_name? hn).1⟩
  next => simp at h

theorem parse?_of_derives {s : Text} {a : Accessor} (h : Derives s a) {rest : Text}
    (hrest : EndsName rest) : parse? (s ++ rest) = some (a, rest) := by
  cases h with
  | bracketed h =>
      rw [List.cons_append, List.append_assoc, List.singleton_append, parse?,
        bracketed?_of_bracketed h]
      rfl
  | property h =>
      rw [List.cons_append, List.cons_append, parse?, name?_append h hrest]
      rfl

theorem DeriveAll.endsName_append {s : Text} {accessors : List Accessor}
    (h : DeriveAll s accessors) {rest : Text} (hrest : EndsName rest) : EndsName (s ++ rest) := by
  cases h with
  | nil => exact hrest
  | cons h ht =>
      cases h with
      | bracketed h => exact endsName_cons (by decide) _
      | property h => exact endsName_cons (by decide) _

theorem exists_deriveAll_of_parseAll (t : Text) :
    ∃ s, t = s ++ (parseAll t).2 ∧ DeriveAll s (parseAll t).1 := by
  fun_induction parseAll t with
  | case1 t h => exact ⟨[], rfl, .nil⟩
  | case2 t a rest h accessors r hr ih =>
      obtain ⟨s, rfl, hs⟩ := exists_derives_of_parse? h
      rw [hr] at ih
      obtain ⟨s', hs', hall⟩ := ih
      refine ⟨s ++ s', ?_, .cons hs hall⟩
      rw [List.append_assoc, ← hs']

/-- Neither a name nor another accessor can go on into the text. -/
def EndsExpression (rest : Text) : Prop :=
  EndsName rest ∧ parse? rest = none

theorem endsExpression_nil : EndsExpression [] :=
  ⟨endsName_nil, rfl⟩

theorem parseAll_of_parse?_eq_none {t : Text} (h : parse? t = none) : parseAll t = ([], t) := by
  rw [parseAll]
  split
  next => rfl
  next h' => simp [h] at h'

theorem parseAll_nil : parseAll [] = ([], []) :=
  parseAll_of_parse?_eq_none rfl

theorem parseAll_of_parse?_eq_some {t rest : Text} {a : Accessor} (h : parse? t = some (a, rest)) :
    parseAll t = (a :: (parseAll rest).1, (parseAll rest).2) := by
  rw [parseAll]
  split
  next h' => simp [h] at h'
  next b r h' =>
    rw [h] at h'
    obtain ⟨rfl, rfl⟩ := Prod.mk.inj (Option.some.inj h')
    rfl

theorem parseAll_of_deriveAll {s : Text} {accessors : List Accessor} (h : DeriveAll s accessors)
    {rest : Text} (hrest : EndsExpression rest) : parseAll (s ++ rest) = (accessors, rest) := by
  induction h with
  | nil => exact parseAll_of_parse?_eq_none hrest.2
  | cons h ht ih =>
      rw [List.append_assoc,
        parseAll_of_parse?_eq_some (parse?_of_derives h (ht.endsName_append hrest.1)), ih]

end Accessor

namespace Expression

/-- The texts that are expressions. -/
inductive Derives : Text → Expression → Prop
  | intro {name s : Text} {accessors : List Accessor} (hname : isName name)
      (h : Accessor.DeriveAll s accessors) : Derives ('$' :: (name ++ s)) ⟨name, accessors⟩

theorem head?_eq_some_iff {t rest : Text} {e : Expression} :
    head? t = some (e, rest) ↔
      ∃ s back, t = '$' :: s ∧ name? s = some (e.name, back) ∧
        Accessor.parseAll back = (e.accessors, rest) := by
  constructor
  · intro h
    unfold head? ofHead at h
    split at h
    next s =>
      cases hname : name? s with
      | none => simp [hname, Except.toOption] at h
      | some found =>
          obtain ⟨name, back⟩ := found
          simp only [hname, Except.toOption, Option.some.injEq, Prod.mk.injEq] at h
          obtain ⟨rfl, rfl⟩ := h
          exact ⟨s, back, rfl, hname, rfl⟩
    next => simp [Except.toOption] at h
  · rintro ⟨s, back, rfl, hname, hall⟩
    simp only [head?, ofHead, hname, hall, Except.toOption]

theorem exists_derives_of_head? {t rest : Text} {e : Expression}
    (h : head? t = some (e, rest)) : ∃ s, t = s ++ rest ∧ Derives s e := by
  obtain ⟨t, back, rfl, hname, hall⟩ := head?_eq_some_iff.mp h
  obtain ⟨s, hs, hderives⟩ := Accessor.exists_deriveAll_of_parseAll back
  rw [hall] at hs hderives
  refine ⟨'$' :: (e.name ++ s), ?_, .intro (isName_of_name? hname).1 hderives⟩
  rw [eq_of_name? hname, List.cons_append, List.append_assoc, ← hs]

theorem head?_of_derives {s : Text} {e : Expression} (h : Derives s e) {rest : Text}
    (hrest : Accessor.EndsExpression rest) : head? (s ++ rest) = some (e, rest) := by
  cases h with
  | @intro name s accessors hname h =>
      have hn : name? (name ++ s ++ rest) = some (name, s ++ rest) := by
        rw [List.append_assoc]
        exact name?_append hname (h.endsName_append hrest.1)
      exact head?_eq_some_iff.mpr
        ⟨_, _, List.cons_append, hn, Accessor.parseAll_of_deriveAll h hrest⟩

theorem parse_eq_ok_iff {t : Text} {e : Expression} :
    parse t = .ok e ↔ head? t = some (e, []) := by
  unfold parse head?
  split
  next h => simp [h, Except.toOption]
  next h => simp [h, Except.toOption]
  next h => simp [h, Except.toOption]
  next h => simp [h, Except.toOption]

theorem derives_of_parse {t : Text} {e : Expression} (h : parse t = .ok e) : Derives t e := by
  obtain ⟨s, rfl, hs⟩ := exists_derives_of_head? (parse_eq_ok_iff.mp h)
  rwa [List.append_nil]

theorem parse_of_derives {t : Text} {e : Expression} (h : Derives t e) : parse t = .ok e := by
  rw [parse_eq_ok_iff]
  simpa using head?_of_derives h Accessor.endsExpression_nil

theorem accepts_iff {t : Text} : accepts t = true ↔ ∃ e, Derives t e := by
  unfold accepts
  constructor
  · intro h
    cases hparse : parse t with
    | ok e => exact ⟨e, derives_of_parse hparse⟩
    | error e => simp [hparse, Except.toOption] at h
  · rintro ⟨e, he⟩
    rw [parse_of_derives he]
    rfl

/-- The texts that are read are those that the grammar derives, as the expressions that it derives
them as, and it derives no text as two. -/
theorem grammar_read_exactly :
    (∀ (t : Text) (e : Expression), parse t = .ok e ↔ Derives t e) ∧
      ∀ (t : Text) (e e' : Expression), Derives t e → Derives t e' → e = e' := by
  refine ⟨fun t e => ⟨derives_of_parse, parse_of_derives⟩, ?_⟩
  intro t e e' h h'
  have heq : (Except.ok e : Except ParseError Expression) = .ok e' :=
    (parse_of_derives h).symm.trans (parse_of_derives h')
  exact Except.ok.inj heq

theorem derives_every_kind_of_accessor :
    let t := "$a[-9223372036854775808]['\n\x7d'][\"it's\"][b]->é".toList
    let e : Expression :=
      ⟨['a'], [.index Int64.minValue, .key ['\n', '}'], .key "it's".toList, .key ['b'],
        .property ['é']]⟩
    Derives t e ∧ (∀ e', Derives t e' → e' = e) ∧
      ∀ e', ¬ Derives "$a[9223372036854775808]".toList e' := by
  intro t e
  have hparse : parse t = .ok e := parse_eq_ok_iff.mpr (by decide +kernel)
  have hderives : Derives t e := (grammar_read_exactly.1 t e).mp hparse
  refine ⟨hderives, fun e' h => grammar_read_exactly.2 t e' e h hderives, ?_⟩
  intro e' h
  have hread := parse_eq_ok_iff.mp ((grammar_read_exactly.1 _ e').mpr h)
  have hrest : (head? "$a[9223372036854775808]".toList).map Prod.snd ≠ some [] := by
    decide +kernel
  exact hrest (by rw [hread]; rfl)

end Expression

end Stencil
