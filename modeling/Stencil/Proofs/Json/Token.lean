import Stencil.Json.Writer
import Stencil.Proofs.Number.Integer
import Stencil.Proofs.Text.Search

namespace Stencil

theorem head?_toDigits_eq_zero {n : Nat} (h : (Nat.toDigits 10 n).head? = some '0') : n = 0 := by
  induction n using Nat.strongRecOn with
  | ind n ih =>
      rw [Nat.toDigits_eq_if (by decide)] at h
      split at h
      next hn =>
        have hdigit : ∀ d < 10, Nat.digitChar d = '0' → d = 0 := by decide
        exact hdigit n hn (Option.some.inj h)
      next hn =>
        have hne : Nat.toDigits 10 (n / 10) ≠ [] := Nat.toDigits_ne_nil
        obtain ⟨c, t, ht⟩ := List.exists_cons_of_ne_nil hne
        rw [ht] at h
        have hdiv := ih (n / 10) (by omega) (by rw [ht]; exact h)
        omega

namespace Token

theorem hexValue?_hexDigit : ∀ n < 16, hexValue? (hexDigit n) = some n := by
  decide

theorem escape?_control {c : Char} (hc : c.toNat < 0x20) (t : Text) :
    escape? ('u' :: '0' :: '0' :: hexDigit (c.toNat / 16) :: hexDigit (c.toNat % 16) :: t) =
      some (c, t) := by
  have hzero : hexValue? '0' = some 0 := by decide
  have hhigh : hexValue? (hexDigit (c.toNat / 16)) = some (c.toNat / 16) :=
    hexValue?_hexDigit _ (by omega)
  have hlow : hexValue? (hexDigit (c.toNat % 16)) = some (c.toNat % 16) :=
    hexValue?_hexDigit _ (by omega)
  have hvalue : ((0 * 16 + 0) * 16 + c.toNat / 16) * 16 + c.toNat % 16 = c.toNat := by omega
  have hnotHigh : isHighSurrogate c.toNat = false := by
    simp only [isHighSurrogate, Bool.and_eq_false_imp, decide_eq_true_eq, decide_eq_false_iff_not]
    omega
  have hnotLow : isLowSurrogate c.toNat = false := by
    simp only [isLowSurrogate, Bool.and_eq_false_imp, decide_eq_true_eq, decide_eq_false_iff_not]
    omega
  simp only [escape?, if_true, numericEscape?, hex4?, hzero, hhigh, hlow, Option.bind_eq_bind,
    Option.bind_some, hvalue, hnotHigh, hnotLow, Bool.false_eq_true, if_false, Char.ofNat_toNat]

theorem quoted?_escape {s t : Text} {c : Char} (h : escape? s = some (c, t)) :
    quoted? ('\\' :: s) = (quoted? t).map fun (text, rest) => (c :: text, rest) := by
  rw [quoted?, if_neg (by decide), if_pos rfl]
  split
  next hnone =>
    rw [h] at hnone
    exact absurd hnone (by simp)
  next hsome =>
    rw [h] at hsome
    obtain ⟨rfl, rfl⟩ := Prod.mk.inj (Option.some.inj hsome)
    rfl

theorem quoted?_escapeChar_append (c : Char) (t : Text) :
    quoted? (escapeChar c ++ t) = (quoted? t).map fun (text, rest) => (c :: text, rest) := by
  unfold escapeChar
  split
  case h_8 =>
    split
    next hc => exact quoted?_escape (escape?_control hc t)
    next hquote hslash _ _ _ _ _ hc =>
      rw [List.singleton_append, quoted?, if_neg hquote, if_neg hslash, if_neg hc]
  all_goals exact quoted?_escape rfl

theorem quoted?_flatMap_escapeChar (t rest : Text) :
    quoted? (t.flatMap escapeChar ++ '"' :: rest) = some (t, rest) := by
  induction t with
  | nil => rw [List.flatMap_nil, List.nil_append, quoted?, if_pos rfl]
  | cons c t ih =>
      rw [List.flatMap_cons, List.append_assoc, quoted?_escapeChar_append, ih]
      rfl

/-- No number can go on into the text. -/
def EndsNumber (rest : Text) : Prop :=
  ∀ c t, rest = c :: t → c.isDigit = false ∧ c ≠ '.' ∧ c ≠ 'e' ∧ c ≠ 'E'

theorem endsNumber_nil : EndsNumber [] := by
  intro c t h
  simp at h

theorem endsNumber_cons {c : Char} (h : c.isDigit = false ∧ c ≠ '.' ∧ c ≠ 'e' ∧ c ≠ 'E')
    (t : Text) : EndsNumber (c :: t) := by
  intro d s hd
  rwa [← (List.cons.inj hd).1]

variable {rest : Text}

theorem fraction?_of_endsNumber (h : EndsNumber rest) : fraction? rest = some (none, rest) := by
  unfold fraction?
  split
  next t => exact absurd rfl (h _ t rfl).2.1
  next => rfl

theorem exponent?_of_endsNumber (h : EndsNumber rest) : exponent? rest = some (none, rest) := by
  cases rest with
  | nil => rfl
  | cons c t =>
      obtain ⟨-, -, he, hE⟩ := h c t rfl
      rw [exponent?, if_neg (by simp [he, hE])]

theorem spanDigits_toDigits_append (n : Nat) (h : EndsNumber rest) :
    spanDigits (Nat.toDigits 10 n ++ rest) = (Nat.toDigits 10 n, rest) := by
  obtain ⟨htake, hdrop⟩ := Text.takeWhile_append_of_stop (isDigits_toDigits n).2
    fun c t hrest => (h c t hrest).1
  rw [spanDigits, htake, hdrop]

theorem unsigned?_toDigits_append (negative : Bool) {n : Nat}
    (hfits : if negative then 0 < n ∧ (toInt64? (-n)).isSome else n < UInt64.size)
    (h : EndsNumber rest) :
    unsigned? negative (Nat.toDigits 10 n ++ rest) =
      some (.int (if negative then -n else n), rest) := by
  have hzero : ¬ (Nat.toDigits 10 n = [] ∨
      ((Nat.toDigits 10 n).head? = some '0' ∧ (Nat.toDigits 10 n).length ≠ 1)) := by
    rintro (hnil | ⟨hhead, hlength⟩)
    · exact Nat.toDigits_ne_nil hnil
    · rw [head?_toDigits_eq_zero hhead] at hlength
      exact hlength rfl
  simp only [unsigned?, spanDigits_toDigits_append n h, if_neg hzero, fraction?_of_endsNumber h,
    exponent?_of_endsNumber h, Option.bind_eq_bind, Option.bind_some]
  rw [number?]
  simp only [Option.getD_none, List.append_nil, Nat.ofDigitChars_ten_toDigits, Option.isNone_none,
    true_and]
  rw [if_pos hfits]
  rfl

theorem scan?_of_isDigit {c : Char} (hc : c.isDigit) (t : Text) :
    scan? c t = unsigned? false (c :: t) := by
  unfold scan?
  split
  case h_12 => rfl
  all_goals exact absurd hc (by decide)

theorem ofText_of_scan? {c : Char} {t : Text} {token : Token} (hc : isSpace c = false)
    (h : scan? c t = some (token, rest)) : ofText (c :: t) = token :: ofText rest := by
  rw [ofText, if_neg (by simp [hc])]
  split
  next hsome =>
    rw [h] at hsome
    obtain ⟨rfl, rfl⟩ := Prod.mk.inj (Option.some.inj hsome)
    rfl
  next hnone =>
    rw [h] at hnone
    exact absurd hnone (by simp)

theorem isSpace_of_isDigit {c : Char} (hc : c.isDigit) : isSpace c = false := by
  simp only [isSpace, Bool.or_eq_false_iff, beq_eq_false_iff_ne]
  refine ⟨⟨⟨?_, ?_⟩, ?_⟩, ?_⟩ <;>
    · rintro rfl
      exact absurd hc (by decide)

theorem ofText_int_append (n : Int64) (h : EndsNumber rest) :
    ofText (integerText n.toInt ++ rest) = .int n.toInt :: ofText rest := by
  have hmax := Int64.toInt_le n
  have hsome := toInt64?_toInt n
  rw [Int64.toInt_maxValue] at hmax
  cases hn : n.toInt with
  | ofNat m =>
      rw [hn] at hmax
      have hfits : m < UInt64.size := by
        rw [Int.ofNat_eq_natCast] at hmax
        rw [UInt64.size]
        omega
      obtain ⟨c, t, ht⟩ := List.exists_cons_of_ne_nil (Nat.toDigits_ne_nil (n := m) (b := 10))
      have hc : c.isDigit := (isDigits_toDigits m).2 c (by simp [ht])
      have hscan : scan? c (t ++ rest) = some (.int m, rest) := by
        rw [scan?_of_isDigit hc, ← List.cons_append, ← ht]
        exact unsigned?_toDigits_append false hfits h
      rw [integerText, ht]
      exact ofText_of_scan? (isSpace_of_isDigit hc) hscan
  | negSucc m =>
      rw [hn, Int.negSucc_eq] at hsome
      have hfits : (toInt64? (-(m + 1 : Nat))).isSome := by
        rw [Int.natCast_succ, hsome]
        rfl
      have hscan : scan? '-' (Nat.toDigits 10 (m + 1) ++ rest) =
          some (.int (-(m + 1 : Nat)), rest) :=
        unsigned?_toDigits_append true ⟨Nat.succ_pos m, hfits⟩ h
      exact ofText_of_scan? rfl hscan

theorem ofText_quote_append (t rest : Text) :
    ofText (quote t ++ rest) = .string t :: ofText rest := by
  have hscan : scan? '"' (t.flatMap escapeChar ++ '"' :: rest) = some (.string t, rest) := by
    rw [scan?, quoted?_flatMap_escapeChar]
    rfl
  rw [quote, List.cons_append, List.cons_append, List.append_assoc]
  exact ofText_of_scan? rfl hscan

end Token

end Stencil
