import Stencil.Number.Integer

namespace Stencil

/-- One digit or more. -/
def IsDigits (t : Text) : Prop :=
  t ≠ [] ∧ ∀ c ∈ t, c.isDigit

/-- The texts that spell a number without a plus sign. -/
inductive SpellsInteger : Text → Int64 → Prop
  | plain {digits : Text} {n : Int64} (hdigits : IsDigits digits)
      (hvalue : n.toInt = Nat.ofDigitChars 10 digits 0) : SpellsInteger digits n
  | minus {digits : Text} {n : Int64} (hdigits : IsDigits digits)
      (hvalue : n.toInt = -Nat.ofDigitChars 10 digits 0) : SpellsInteger ('-' :: digits) n

theorem toInt64?_eq_some_iff {i : Int} {n : Int64} : toInt64? i = some n ↔ n.toInt = i := by
  constructor
  · intro h
    rw [toInt64?, Option.ite_none_right_eq_some, Int64.toInt_minValue, Int64.toInt_maxValue] at h
    obtain ⟨⟨hmin, hmax⟩, hn⟩ := h
    rw [← Option.some.inj hn]
    exact Int64.toInt_ofInt_of_le hmin (by omega)
  · rintro rfl
    exact toInt64?_toInt n

theorem readDigits?_eq_some_iff {t : Text} {m : Nat} :
    readDigits? t = some m ↔ IsDigits t ∧ Nat.ofDigitChars 10 t 0 = m := by
  simp only [readDigits?, IsDigits, Option.ite_none_right_eq_some, Option.some.injEq,
    List.all_eq_true]

theorem readDigits?_bind_eq_some_iff (value : Nat → Int) {t : Text} {n : Int64} :
    ((readDigits? t).bind fun m => toInt64? (value m)) = some n ↔
      IsDigits t ∧ n.toInt = value (Nat.ofDigitChars 10 t 0) := by
  simp only [Option.bind_eq_some_iff, readDigits?_eq_some_iff, toInt64?_eq_some_iff]
  constructor
  · rintro ⟨m, ⟨ht, rfl⟩, hn⟩
    exact ⟨ht, hn⟩
  · rintro ⟨ht, hn⟩
    exact ⟨_, ⟨ht, rfl⟩, hn⟩

theorem readInteger?_minus_eq_some_iff {t : Text} {n : Int64} :
    readInteger? ('-' :: t) = some n ↔ IsDigits t ∧ n.toInt = -Nat.ofDigitChars 10 t 0 := by
  rw [readInteger?]
  exact readDigits?_bind_eq_some_iff fun m => -m

theorem readInteger?_plus_eq_some_iff {t : Text} {n : Int64} :
    readInteger? ('+' :: t) = some n ↔ IsDigits t ∧ n.toInt = Nat.ofDigitChars 10 t 0 := by
  rw [readInteger?]
  exact readDigits?_bind_eq_some_iff fun m => m

theorem readInteger?_eq_some_iff_of_digits {t : Text} (ht : ∀ c ∈ t, c.isDigit) {n : Int64} :
    readInteger? t = some n ↔ t ≠ [] ∧ n.toInt = Nat.ofDigitChars 10 t 0 := by
  have hread : readInteger? t = (readDigits? t).bind fun m => toInt64? m := by
    have hhead (c : Char) (s : Text) (heq : t = c :: s) : c.isDigit := ht c (by simp [heq])
    rw [readInteger?]
    · intro s hs
      exact absurd (hhead _ _ hs) (by decide)
    · intro s hs
      exact absurd (hhead _ _ hs) (by decide)
  rw [hread, readDigits?_bind_eq_some_iff fun m => m]
  exact ⟨fun ⟨⟨hne, _⟩, hn⟩ => ⟨hne, hn⟩, fun ⟨hne, hn⟩ => ⟨⟨hne, ht⟩, hn⟩⟩

/-- The texts that are read as a number: those that spell it, and digits behind a plus sign. -/
inductive ReadsInteger : Text → Int64 → Prop
  | spelled {t : Text} {n : Int64} (h : SpellsInteger t n) : ReadsInteger t n
  | plus {digits : Text} {n : Int64} (hdigits : IsDigits digits)
      (hvalue : n.toInt = Nat.ofDigitChars 10 digits 0) : ReadsInteger ('+' :: digits) n

theorem readInteger?_of_spelling {t : Text} {n : Int64} (h : SpellsInteger t n) :
    readInteger? t = some n := by
  cases h with
  | plain hdigits hvalue =>
      exact (readInteger?_eq_some_iff_of_digits hdigits.2).mpr ⟨hdigits.1, hvalue⟩
  | minus hdigits hvalue => exact readInteger?_minus_eq_some_iff.mpr ⟨hdigits, hvalue⟩

theorem readInteger?_eq_some_iff {t : Text} {n : Int64} :
    readInteger? t = some n ↔ ReadsInteger t n := by
  constructor
  · intro h
    unfold readInteger? at h
    split at h
    next digits =>
      obtain ⟨hdigits, hvalue⟩ := (readDigits?_bind_eq_some_iff fun m => -m).mp h
      exact .spelled (.minus hdigits hvalue)
    next digits =>
      obtain ⟨hdigits, hvalue⟩ := (readDigits?_bind_eq_some_iff fun m => m).mp h
      exact .plus hdigits hvalue
    next =>
      obtain ⟨hdigits, hvalue⟩ := (readDigits?_bind_eq_some_iff fun m => m).mp h
      exact .spelled (.plain hdigits hvalue)
  · intro h
    cases h with
    | spelled h => exact readInteger?_of_spelling h
    | plus hdigits hvalue => exact readInteger?_plus_eq_some_iff.mpr ⟨hdigits, hvalue⟩

theorem isDigits_toDigits (n : Nat) : IsDigits (Nat.toDigits 10 n) :=
  ⟨Nat.toDigits_ne_nil, fun _ hc => Nat.isDigit_of_mem_toDigits (by decide) (by decide) hc⟩

theorem spellsInteger_integerText (n : Int64) : SpellsInteger (integerText n.toInt) n := by
  cases hn : n.toInt with
  | ofNat m =>
      refine .plain (isDigits_toDigits m) ?_
      rw [hn, integerText, Nat.ofDigitChars_ten_toDigits, Int.ofNat_eq_natCast]
  | negSucc m =>
      refine .minus (isDigits_toDigits (m + 1)) ?_
      rw [hn, Nat.ofDigitChars_ten_toDigits, Int.negSucc_eq, Int.natCast_succ]

theorem readInteger?_integerText (n : Int64) : readInteger? (integerText n.toInt) = some n :=
  readInteger?_of_spelling (spellsInteger_integerText n)

theorem SpellsInteger.notMem {s : Text} {n : Int64} (h : SpellsInteger s n) {c : Char}
    (hc : c.isDigit = false) (hminus : c ≠ '-') : c ∉ s := by
  have hdigits {digits : Text} (h : IsDigits digits) : c ∉ digits := by
    intro hmem
    have hdigit := h.2 c hmem
    rw [hc] at hdigit
    exact Bool.false_ne_true hdigit
  cases h with
  | plain h => exact hdigits h
  | minus h => simp [hminus, hdigits h]

end Stencil
