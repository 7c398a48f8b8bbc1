import Stencil.Proofs.Expression.Grammar
import Stencil.Proofs.Text.Position

/-!
Where the reading of an expression fails.  A reader that has left something of a text behind leaves
the same behind when the text goes on, and one that has read all of it leaves nothing of it behind.
So what is read of a text is its longest beginning that is an expression, and the character behind
it is the one that is reported; the end of the text is reported only where no expression begins.
-/

namespace Stencil

/-- What the reader takes off a text it also takes off a longer one, unless it came to the end of
the text; then it may go on behind it. -/
def ReadsOn {α : Type} (read : Text → Option (α × Text)) : Prop :=
  ∀ (t rest more : Text) (a : α), read t = some (a, rest) →
    read (t ++ more) = some (a, rest ++ more) ∨
      rest = [] ∧ ∃ b left, read (t ++ more) = some (b, left) ∧ left <:+ more

theorem readsOn_name? : ReadsOn name? := by
  intro t rest more name h
  obtain ⟨hname, hrest⟩ := isName_of_name? h
  obtain rfl := eq_of_name? h
  cases rest with
  | cons c rest =>
      left
      rw [List.append_assoc]
      exact name?_append hname (endsName_cons (hrest c rest rfl) (rest ++ more))
  | nil =>
      right
      obtain ⟨c, t, rfl, hc⟩ := exists_head_of_isName hname
      rw [isName, Bool.and_eq_true, List.all_eq_true] at hname
      refine ⟨rfl, c :: (t ++ more).takeWhile isNamePart, more.dropWhile isNamePart, ?_,
        List.dropWhile_suffix _⟩
      rw [List.append_nil, List.cons_append, name?, if_pos hc,
        List.dropWhile_append_of_pos hname.2]

namespace Accessor

theorem readsOn_parse? : ReadsOn parse? := by
  intro t rest more a h
  obtain ⟨s, rfl, hs⟩ := exists_derives_of_parse? h
  cases hs with
  | bracketed hs =>
      -- A bracket is closed by its own last character, so only a name can go on.
      left
      rw [List.cons_append, List.cons_append, List.append_assoc, List.append_assoc,
        List.singleton_append, parse?, bracketed?_of_bracketed hs]
      rfl
  | @property name hname =>
      simp only [List.cons_append, parse?, Option.map_eq_some_iff, Prod.exists, Prod.map_apply,
        id_eq, Prod.mk.injEq, property.injEq] at h
      obtain ⟨_, _, hread, rfl, rfl⟩ := h
      rcases readsOn_name? _ _ more _ hread with hread | ⟨hnil, b, left, hread, hleft⟩
      · left
        rw [List.cons_append, List.cons_append, List.cons_append, List.cons_append, parse?, hread]
        rfl
      · right
        refine ⟨hnil, .property b, left, ?_, hleft⟩
        rw [List.cons_append, List.cons_append, List.cons_append, List.cons_append, parse?, hread]
        rfl

/-- Accessors that are left behind are read when the text goes on, and none of a text is left behind
that was read whole. -/
theorem parseAll_append (t more : Text) :
    (parseAll (t ++ more)).2 = (parseAll ((parseAll t).2 ++ more)).2 ∨
      (parseAll t).2 = [] ∧ (parseAll (t ++ more)).2 <:+ more := by
  fun_induction parseAll t with
  | case1 t h => exact .inl rfl
  | case2 t a rest h accessors left hleft ih =>
      rw [hleft] at ih
      rcases readsOn_parse? _ _ more _ h with hread | ⟨rfl, b, rest', hread, hsuffix⟩
      · rw [parseAll_of_parse?_eq_some hread]
        exact ih
      · right
        rw [parseAll_nil] at hleft
        rw [parseAll_of_parse?_eq_some hread]
        exact ⟨(Prod.mk.inj hleft).2.symm, (suffix_of_parseAll rest').trans hsuffix⟩

theorem eq_of_parse?_ne_none {c : Char} {t : Text} (h : parse? (c :: t) ≠ none) :
    c = '[' ∨ c = '-' := by
  unfold parse? at h
  split at h
  next heq => exact Or.inl (List.cons.inj heq).1
  next heq => exact Or.inr (List.cons.inj heq).1
  next => exact absurd rfl h

end Accessor

namespace Expression

variable {t more rest p q : Text} {e : Expression} {c : Char}

theorem head?_append (h : head? t = some (e, rest)) (more : Text) :
    ∃ e' left, head? (t ++ more) = some (e', left) ∧
      (left = (Accessor.parseAll (rest ++ more)).2 ∨ rest = [] ∧ left <:+ more) := by
  obtain ⟨s, back, rfl, hname, hall⟩ := head?_eq_some_iff.mp h
  rcases readsOn_name? _ _ more _ hname with hread | ⟨rfl, name, left, hread, hleft⟩
  · refine ⟨⟨e.name, (Accessor.parseAll (back ++ more)).1⟩,
      (Accessor.parseAll (back ++ more)).2, head?_eq_some_iff.mpr ⟨_, _, rfl, hread, rfl⟩, ?_⟩
    have happend := Accessor.parseAll_append back more
    rwa [hall] at happend
  · rw [Accessor.parseAll_nil] at hall
    exact ⟨⟨name, (Accessor.parseAll left).1⟩, (Accessor.parseAll left).2,
      head?_eq_some_iff.mpr ⟨_, _, rfl, hread, rfl⟩,
      .inr ⟨(Prod.mk.inj hall).2.symm, (Accessor.suffix_of_parseAll left).trans hleft⟩⟩

theorem exists_head?_of_accepts (h : accepts t) : ∃ e, head? t = some (e, []) := by
  obtain ⟨e, he⟩ := accepts_iff.mp h
  exact ⟨e, parse_eq_ok_iff.mp (parse_of_derives he)⟩

/-- The longest beginning of a text that is an expression. -/
structure IsLongest (p t : Text) : Prop where
  isPrefix : p <+: t
  accepted : accepts p
  longest : ∀ q, q <+: t → accepts q → q <+: p

theorem isLongest_of_head? (h : head? (p ++ rest) = some (e, rest)) : IsLongest p (p ++ rest) := by
  obtain ⟨s, hs, hderives⟩ := exists_derives_of_head? h
  obtain rfl := List.append_cancel_right hs
  refine ⟨List.prefix_append p rest, accepts_iff.mpr ⟨e, hderives⟩, ?_⟩
  rintro q ⟨more, hmore⟩ hq
  -- All of `q` is taken off the whole text too, so what is left of it lies behind `q`.
  obtain ⟨e', hread⟩ := exists_head?_of_accepts hq
  obtain ⟨e'', left, hlonger, hleft⟩ := head?_append hread more
  rw [hmore, h] at hlonger
  obtain rfl : rest = left := (Prod.mk.inj (Option.some.inj hlonger)).2
  have hsuffix : rest <:+ more := by
    rcases hleft with rfl | ⟨-, hsuffix⟩
    · exact Accessor.suffix_of_parseAll more
    · exact hsuffix
  refine List.prefix_of_prefix_length_le ⟨more, hmore⟩ (List.prefix_append p rest) ?_
  have hlength := congrArg List.length hmore
  have hle := hsuffix.length_le
  simp only [List.length_append] at hlength
  omega

theorem ofHead_of_head? {found : Expression × Text} (h : head? t = some found) :
    ofHead t = .ok found := by
  unfold head? at h
  cases hread : ofHead t with
  | error left => simp [hread, Except.toOption] at h
  | ok found' =>
      rw [hread] at h
      rw [Option.some.inj h]

theorem ofHead_eq_error_nil_iff : ofHead t = .error [] ↔ t = [] ∨ t = ['$'] := by
  constructor
  · intro h
    unfold ofHead at h
    split at h
    next s =>
      split at h
      next => simp at h
      next => exact .inr (by rw [Except.error.inj h])
    next => exact .inl (Except.error.inj h)
  · rintro (rfl | rfl)
    · rfl
    · rfl

theorem placeBefore_append (p rest : Text) : placeBefore (p ++ rest) rest = p.endPosition := by
  rw [placeBefore, List.length_append, Nat.add_sub_cancel, List.take_left',
    Position.behind_eq_endPosition]
  rfl

theorem parse_of_head? (h : head? (p ++ c :: rest) = some (e, c :: rest)) :
    parse (p ++ c :: rest) = .error (.trailing p.endPosition c) := by
  simp only [parse, ofHead_of_head? h, placeBefore_append]

theorem parse_eq_unfinished_iff {place : Position} :
    parse t = .error (.unfinished place) ↔ (t = [] ∨ t = ['$']) ∧ place = t.endPosition := by
  have hplace : placeBefore t [] = t.endPosition := by
    simpa using placeBefore_append t []
  rw [← ofHead_eq_error_nil_iff, ← hplace]
  constructor
  · intro h
    unfold parse at h
    split at h
    next => simp at h
    next => simp at h
    next hread => exact ⟨hread, (ParseError.unfinished.inj (Except.error.inj h)).symm⟩
    next => simp at h
  · rintro ⟨hread, rfl⟩
    simp only [parse, hread]

theorem exists_head?_of_rejected (hrejected : accepts t = false) (hq : q <+: t)
    (haccepts : accepts q) :
    ∃ p c rest e, t = p ++ c :: rest ∧ head? t = some (e, c :: rest) := by
  obtain ⟨more, rfl⟩ := hq
  obtain ⟨e', hread⟩ := exists_head?_of_accepts haccepts
  obtain ⟨e, left, hlonger, -⟩ := head?_append hread more
  cases left with
  | nil =>
      have haccepted : accepts (q ++ more) :=
        accepts_iff.mpr ⟨e, derives_of_parse (parse_eq_ok_iff.mpr hlonger)⟩
      exact absurd (haccepted.symm.trans hrejected) (by decide)
  | cons c rest =>
      obtain ⟨p, hp⟩ := suffix_of_head? hlonger
      exact ⟨p, c, rest, e, hp.symm, hlonger⟩

/-- A text that is no expression but begins with one is refused at the character behind its longest
beginning that is an expression. -/
theorem refused_behind_longest_expression {t q : Text} (hrejected : accepts t = false)
    (hq : q <+: t) (haccepts : accepts q) :
    ∃ p c rest, t = p ++ c :: rest ∧ IsLongest p t ∧
      ∃ err : ParseError, parse t = .error err ∧ err.place = p.endPosition ∧
        err.detail? = some ("unexpected character: '".toList ++ [c] ++ ['\'']) ∧
        err.message =
          "syntax error at ".toList ++ integerText (p.count '\n' + 1 : Nat) ++ [':'] ++
            integerText (p.lastLine.utf8Size + 1 : Nat) ++ ": unexpected character: '".toList ++
            [c] ++ ['\''] := by
  obtain ⟨p, c, rest, e, rfl, hread⟩ := exists_head?_of_rejected hrejected hq haccepts
  refine ⟨p, c, rest, rfl, isLongest_of_head? hread, _, parse_of_head? hread, rfl, rfl, ?_⟩
  simp [ParseError.message, ParseError.detail?, ParseError.place, Text.endPosition]

theorem refused_behind_key_with_newline :
    let t := "$é['\nü'][".toList
    accepts t = false ∧ accepts "$é".toList ∧ parse t = .error (.trailing ⟨2, 5⟩ '[') ∧
      ∃ p c rest, t = p ++ c :: rest ∧ IsLongest p t ∧ p.endPosition = ⟨2, 5⟩ := by
  intro t
  have hrejected : accepts t = false := by decide +kernel
  have haccepts : accepts "$é".toList := by decide +kernel
  have hparse : parse t = .error (.trailing ⟨2, 5⟩ '[') := by decide +kernel
  obtain ⟨p, c, rest, ht, hlongest, err, herr, hplace, -⟩ :=
    refused_behind_longest_expression hrejected ⟨"['\nü'][".toList, rfl⟩ haccepts
  refine ⟨hrejected, haccepts, hparse, p, c, rest, ht, hlongest, ?_⟩
  rw [← hplace, ← Except.error.inj (hparse.symm.trans herr)]
  rfl

/-- The text is no expression but can go on to be one. -/
structure Incomplete (t : Text) : Prop where
  rejected : accepts t = false
  goesOn : ∃ more, accepts (t ++ more)

theorem Incomplete.exists_accepted (h : Incomplete t) (hne : t ≠ []) (hdollar : t ≠ ['$']) :
    ∃ q, q <+: t ∧ accepts q := by
  obtain ⟨more, hmore⟩ := h.goesOn
  obtain ⟨e, he⟩ := accepts_iff.mp hmore
  generalize hu : t ++ more = u at he
  cases he with
  | @intro name s accessors hname hs =>
      obtain ⟨d, name, rfl, hd⟩ := exists_head_of_isName hname
      rcases t with _ | ⟨c, _ | ⟨c', t⟩⟩
      · exact absurd rfl hne
      · obtain rfl : c = '$' := (List.cons.inj hu).1
        exact absurd rfl hdollar
      · simp only [List.cons_append, List.cons.injEq] at hu
        obtain ⟨rfl, rfl, -⟩ := hu
        have hsingle : isName [c'] := by simp [isName, hd]
        exact ⟨['$', c'], ⟨t, rfl⟩, accepts_iff.mpr ⟨_, .intro hsingle .nil⟩⟩

theorem Incomplete.opens_accessor (h : Incomplete t) (hread : head? t = some (e, c :: rest)) :
    c = '[' ∨ c = '-' := by
  obtain ⟨more, hmore⟩ := h.goesOn
  obtain ⟨e', left, hlonger, hleft⟩ := head?_append hread more
  obtain ⟨e'', hwhole⟩ := exists_head?_of_accepts hmore
  obtain rfl : left = [] := (Prod.mk.inj (Option.some.inj (hlonger.symm.trans hwhole))).2
  have hall : [] = (Accessor.parseAll (c :: (rest ++ more))).2 := by
    rcases hleft with hall | ⟨hnil, -⟩
    · exact hall
    · exact absurd hnil (List.cons_ne_nil c rest)
  apply Accessor.eq_of_parse?_ne_none
  -- What no accessor begins is left however the text goes on.
  intro hnone
  rw [Accessor.parseAll_of_parse?_eq_none hnone] at hall
  exact absurd hall.symm (List.cons_ne_nil c _)

/-- Of the texts that could go on to be an expression the empty one and the dollar alone are said to
end too early.  Every other one is an expression and a part of an accessor, and is refused at the
character that begins the accessor. -/
theorem incomplete_refused_at_end_iff {t : Text} (h : Incomplete t) :
    (parse t = .error (.unfinished t.endPosition) ↔ t = [] ∨ t = ['$']) ∧
      (t ≠ [] → t ≠ ['$'] →
        ∃ p c rest, t = p ++ c :: rest ∧ IsLongest p t ∧ (c = '[' ∨ c = '-') ∧
          parse t = .error (.trailing p.endPosition c)) := by
  refine ⟨parse_eq_unfinished_iff.trans (and_iff_left rfl), ?_⟩
  intro hne hdollar
  obtain ⟨q, hq, haccepts⟩ := h.exists_accepted hne hdollar
  obtain ⟨p, c, rest, e, rfl, hread⟩ := exists_head?_of_rejected h.rejected hq haccepts
  exact ⟨p, c, rest, rfl, isLongest_of_head? hread, h.opens_accessor hread, parse_of_head? hread⟩

theorem dollar_ends_early_and_open_key_does_not :
    let t : Text := "$a->b['k".toList
    Incomplete ['$'] ∧ parse ['$'] = .error (.unfinished ⟨1, 2⟩) ∧ Incomplete t ∧
      parse t ≠ .error (.unfinished t.endPosition) ∧
      ∃ p c rest, t = p ++ c :: rest ∧ IsLongest p t ∧ (c = '[' ∨ c = '-') ∧
        parse t = .error (.trailing p.endPosition c) := by
  intro t
  have hdollar : Incomplete ['$'] := ⟨by decide +kernel, ['a'], by decide +kernel⟩
  have hkey : Incomplete t := ⟨by decide +kernel, "']".toList, by decide +kernel⟩
  have hended := (incomplete_refused_at_end_iff hdollar).1.mpr (.inr rfl)
  obtain ⟨hiff, hopened⟩ := incomplete_refused_at_end_iff hkey
  refine ⟨hdollar, hended, hkey, ?_, hopened (by decide) (by decide)⟩
  intro h
  exact absurd (hiff.mp h) (by decide)

/-- A bracket that is not closed is refused as a character that should not be there. -/
theorem open_bracket_not_refused_at_end :
    let t : Text := "$a[".toList
    Incomplete t ∧ parse t = .error (.trailing ⟨1, 3⟩ '[') ∧
      parse t ≠ .error (.unfinished t.endPosition) := by
  intro t
  have hparse : parse t = .error (.trailing ⟨1, 3⟩ '[') := by decide +kernel
  refine ⟨⟨by decide +kernel, "0]".toList, by decide +kernel⟩, hparse, ?_⟩
  rw [hparse]
  simp

end Expression

end Stencil
