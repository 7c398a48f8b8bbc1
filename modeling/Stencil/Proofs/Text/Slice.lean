import Stencil.Text.Position

namespace Stencil.Text

/-- The text before and the text after a number of bytes, unless a character runs over that
place. -/
def splitAt? : Nat → Text → Option (Text × Text)
  | 0, t => some ([], t)
  | _ + 1, [] => none
  | n + 1, c :: t =>
      if c.utf8Size ≤ n + 1 then
        (splitAt? (n + 1 - c.utf8Size) t).map fun (before, rest) => (c :: before, rest)
      else
        none

/-- The text from one byte to before another, if both places are between characters. -/
def slice? (t : Text) (start stop : Nat) : Option Text :=
  if start ≤ stop then
    (splitAt? start t).bind fun (_, t) => (splitAt? (stop - start) t).map Prod.fst
  else
    none

theorem utf8Size_pos (c : Char) (t : Text) : 0 < Text.utf8Size (c :: t) := by
  have := c.utf8Size_pos
  rw [utf8Size_cons]
  omega

theorem splitAt?_utf8Size (before rest : Text) :
    splitAt? before.utf8Size (before ++ rest) = some (before, rest) := by
  induction before with
  | nil => cases rest <;> rfl
  | cons c before ih =>
      have hpos := utf8Size_pos c before
      obtain ⟨n, hn⟩ := Nat.exists_eq_succ_of_ne_zero (Nat.ne_of_gt hpos)
      have hle : c.utf8Size ≤ n + 1 := by
        rw [utf8Size_cons] at hn
        omega
      have hrest : n + 1 - c.utf8Size = utf8Size before := by
        rw [utf8Size_cons] at hn
        omega
      rw [hn, List.cons_append, splitAt?, if_pos hle, hrest, ih]
      rfl

theorem splitAt?_eq_some_iff {n : Nat} {t before rest : Text} :
    splitAt? n t = some (before, rest) ↔ t = before ++ rest ∧ before.utf8Size = n := by
  constructor
  · intro h
    fun_induction splitAt? n t generalizing before with
    | case1 t =>
        obtain ⟨rfl, rfl⟩ := Prod.mk.inj (Option.some.inj h)
        exact ⟨rfl, rfl⟩
    | case2 => simp at h
    | case3 n c t hle ih =>
        simp only [Option.map_eq_some_iff, Prod.mk.injEq, Prod.exists] at h
        obtain ⟨b, r, hsplit, rfl, rfl⟩ := h
        obtain ⟨rfl, hsize⟩ := ih hsplit
        refine ⟨rfl, ?_⟩
        rw [utf8Size_cons]
        omega
    | case4 => simp at h
  · rintro ⟨rfl, rfl⟩
    exact splitAt?_utf8Size before rest

theorem slice?_eq_some_iff {t part : Text} {start stop : Nat} :
    t.slice? start stop = some part ↔
      ∃ before rest, t = before ++ (part ++ rest) ∧ before.utf8Size = start ∧
        start + part.utf8Size = stop := by
  unfold slice?
  constructor
  · intro h
    split at h
    next hle =>
      simp only [Option.bind_eq_some_iff, Option.map_eq_some_iff, Prod.exists,
        splitAt?_eq_some_iff] at h
      obtain ⟨before, _, ⟨rfl, rfl⟩, _, rest, ⟨rfl, hsize⟩, rfl⟩ := h
      exact ⟨before, rest, rfl, rfl, by omega⟩
    next => simp at h
  · rintro ⟨before, rest, rfl, rfl, rfl⟩
    simp only [if_pos (Nat.le_add_right _ _), splitAt?_utf8Size, Option.bind_some,
      Nat.add_sub_cancel_left, Option.map_some]

theorem append_inj_of_utf8Size {before before' rest rest' : Text}
    (h : before ++ rest = before' ++ rest') (hsize : before.utf8Size = before'.utf8Size) :
    before = before' ∧ rest = rest' := by
  have hsplit := splitAt?_utf8Size before rest
  rw [h, hsize, splitAt?_utf8Size] at hsplit
  obtain ⟨hbefore, hrest⟩ := Prod.mk.inj (Option.some.inj hsplit)
  exact ⟨hbefore.symm, hrest.symm⟩

theorem prefix_of_utf8Size_le {t front front' : Text} (h : front <+: t) (h' : front' <+: t)
    (hsize : front.utf8Size ≤ front'.utf8Size) : front <+: front' := by
  rcases List.prefix_or_prefix_of_prefix h h' with hprefix | ⟨rest, rfl⟩
  · exact hprefix
  · cases rest with
    | nil => simp
    | cons c rest =>
        have hpos := utf8Size_pos c rest
        rw [utf8Size_append] at hsize
        omega

theorem slice?_append (front part rest : Text) :
    slice? (front ++ (part ++ rest)) front.utf8Size (front.utf8Size + part.utf8Size) =
      some part :=
  slice?_eq_some_iff.mpr ⟨front, rest, rfl, rfl, rfl⟩

theorem slice?_append_to_end (front rest : Text) :
    slice? (front ++ rest) front.utf8Size (utf8Size (front ++ rest)) = some rest :=
  slice?_eq_some_iff.mpr ⟨front, [], by rw [List.append_nil], rfl, (utf8Size_append _ _).symm⟩

theorem splitAt?_isSome_of_slice? {t part : Text} {start stop : Nat}
    (h : t.slice? start stop = some part) :
    (t.splitAt? start).isSome ∧ (t.splitAt? stop).isSome ∧ stop ≤ t.utf8Size := by
  obtain ⟨before, rest, rfl, rfl, rfl⟩ := slice?_eq_some_iff.mp h
  have hstop := splitAt?_utf8Size (before ++ part) rest
  rw [utf8Size_append, List.append_assoc] at hstop
  rw [splitAt?_utf8Size, hstop, utf8Size_append, utf8Size_append, ← Nat.add_assoc]
  exact ⟨rfl, rfl, Nat.le_add_right _ _⟩

theorem slice?_of_slice?_append {t front part back : Text} {start stop : Nat}
    (h : t.slice? start stop = some (front ++ (part ++ back))) :
    t.slice? (start + front.utf8Size) (stop - back.utf8Size) = some part := by
  obtain ⟨before, rest, rfl, rfl, rfl⟩ := slice?_eq_some_iff.mp h
  refine slice?_eq_some_iff.mpr ⟨before ++ front, back ++ rest, by simp, by simp, ?_⟩
  simp only [utf8Size_append]
  omega

theorem isInfix_of_between {front inner before part rest rest' : Text}
    (h : before ++ (part ++ rest) = front ++ (inner ++ rest'))
    (hstart : front.utf8Size ≤ before.utf8Size)
    (hstop : before.utf8Size + part.utf8Size ≤ front.utf8Size + inner.utf8Size) :
    part <:+: inner := by
  obtain ⟨gap, rfl⟩ : front <+: before :=
    prefix_of_utf8Size_le ⟨_, h.symm⟩ (List.prefix_append before _) hstart
  rw [List.append_assoc, List.append_cancel_left_eq] at h
  have hprefix : gap ++ part <+: inner := by
    apply prefix_of_utf8Size_le ⟨rest, by rw [List.append_assoc, h]⟩ (List.prefix_append inner _)
    simp only [utf8Size_append] at hstop ⊢
    omega
  exact (List.suffix_append gap part).isInfix.trans hprefix.isInfix

end Stencil.Text
