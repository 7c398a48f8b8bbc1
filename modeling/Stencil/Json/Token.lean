import Stencil.Number.Notation

/-!
Tokens of JSON texts.  A text has a token list whatever it is: where no token can be read the list
ends with `invalid`, so that a reader of tokens sees exactly how far the text was good.
-/

namespace Stencil

/-- A token of a JSON text. -/
inductive Token where
  | openList
  | closeList
  | openObject
  | closeObject
  | comma
  | colon
  | null
  | bool (b : Bool)
  | int (n : Int)
  | float (x : Binary64)
  | string (t : Text)
  | invalid
deriving DecidableEq, Repr

namespace Token

def isSpace (c : Char) : Bool :=
  c == ' ' || c == '\t' || c == '\n' || c == '\r'

def hexValue? (c : Char) : Option Nat :=
  if c.isDigit then
    some (c.toNat - '0'.toNat)
  else if 'a' ≤ c ∧ c ≤ 'f' then
    some (c.toNat - 'a'.toNat + 10)
  else if 'A' ≤ c ∧ c ≤ 'F' then
    some (c.toNat - 'A'.toNat + 10)
  else
    none

/-- The number that four hexadecimal digits spell, and the rest. -/
def hex4? : Text → Option (Nat × Text)
  | a :: b :: c :: d :: t => do
      let a ← hexValue? a
      let b ← hexValue? b
      let c ← hexValue? c
      let d ← hexValue? d
      some (((a * 16 + b) * 16 + c) * 16 + d, t)
  | _ => none

theorem length_lt_of_hex4? {t rest : Text} {n : Nat} (h : hex4? t = some (n, rest)) :
    rest.length < t.length := by
  unfold hex4? at h
  split at h
  next a b c d t =>
    simp only [Option.bind_eq_bind, Option.bind_eq_some_iff, Option.some.injEq,
      Prod.mk.injEq] at h
    obtain ⟨_, _, _, _, _, _, _, _, _, rfl⟩ := h
    simp only [List.length_cons]
    omega
  next => simp at h

def isHighSurrogate (n : Nat) : Bool :=
  0xD800 ≤ n && n < 0xDC00

def isLowSurrogate (n : Nat) : Bool :=
  0xDC00 ≤ n && n < 0xE000

/-- The character of a numeric escape and the rest; surrogates must come in pairs. -/
def numericEscape? (t : Text) : Option (Char × Text) :=
  match hex4? t with
  | none => none
  | some (n, rest) =>
      if isHighSurrogate n then
        match rest with
        | '\\' :: 'u' :: rest =>
            match hex4? rest with
            | none => none
            | some (m, rest) =>
                if isLowSurrogate m then
                  some (Char.ofNat (0x10000 + (n - 0xD800) * 0x400 + (m - 0xDC00)), rest)
                else
                  none
        | _ => none
      else if isLowSurrogate n then
        none
      else
        some (Char.ofNat n, rest)

/-- The character that a letter behind a backslash stands for. -/
def namedEscape? : Char → Option Char
  | '"' => some '"'
  | '\\' => some '\\'
  | '/' => some '/'
  | 'b' => some '\x08'
  | 'f' => some '\x0C'
  | 'n' => some '\n'
  | 'r' => some '\r'
  | 't' => some '\t'
  | _ => none

/-- The character of an escape, behind its backslash, and the rest. -/
def escape? : Text → Option (Char × Text)
  | [] => none
  | c :: t => if c = 'u' then numericEscape? t else (namedEscape? c).map (·, t)

theorem length_lt_of_numericEscape? {t rest : Text} {c : Char}
    (h : numericEscape? t = some (c, rest)) : rest.length < t.length := by
  unfold numericEscape? at h
  split at h
  next => simp at h
  next n r hr =>
    have hlt := length_lt_of_hex4? hr
    split at h
    next =>
      split at h
      next s =>
        split at h
        next => simp at h
        next m q hq =>
          have hlt' := length_lt_of_hex4? hq
          split at h
          next =>
            simp only [Option.some.injEq, Prod.mk.injEq] at h
            obtain ⟨_, rfl⟩ := h
            simp only [List.length_cons] at hlt
            omega
          next => simp at h
      next => simp at h
    next =>
      split at h
      next => simp at h
      next =>
        simp only [Option.some.injEq, Prod.mk.injEq] at h
        obtain ⟨_, rfl⟩ := h
        exact hlt

theorem length_lt_of_escape? {t rest : Text} {c : Char} (h : escape? t = some (c, rest)) :
    rest.length < t.length := by
  cases t with
  | nil => simp [escape?] at h
  | cons d t =>
      simp only [escape?] at h
      split at h
      next =>
        have := length_lt_of_numericEscape? h
        simp only [List.length_cons]
        omega
      next =>
        simp only [Option.map_eq_some_iff, Prod.mk.injEq] at h
        obtain ⟨_, _, _, rfl⟩ := h
        simp

/-- The text up to the closing quote, escapes resolved, and what follows the quote. -/
def quoted? : Text → Option (Text × Text)
  | [] => none
  | c :: t =>
      if c = '"' then
        some ([], t)
      else if c = '\\' then
        match _h : escape? t with
        | none => none
        | some (e, rest) => (quoted? rest).map fun (text, rest) => (e :: text, rest)
      else if c.toNat < 0x20 then
        none
      else
        (quoted? t).map fun (text, rest) => (c :: text, rest)
termination_by t => t.length
decreasing_by
  · have := length_lt_of_escape? _h
    simp only [List.length_cons]
    omega
  · simp

theorem length_lt_of_quoted? {t text rest : Text} (h : quoted? t = some (text, rest)) :
    rest.length < t.length := by
  fun_induction quoted? t generalizing text rest with
  | case1 => simp at h
  | case2 => simp_all
  | case3 => simp at h
  | case4 t e r hr _ ih =>
      simp only [Option.map_eq_some_iff, Prod.mk.injEq, Prod.exists] at h
      obtain ⟨_, _, hq, _, rfl⟩ := h
      have := ih hq
      have := length_lt_of_escape? hr
      simp only [List.length_cons]
      omega
  | case5 => simp at h
  | case6 c t _ _ _ ih =>
      simp only [Option.map_eq_some_iff, Prod.mk.injEq, Prod.exists] at h
      obtain ⟨_, _, hq, _, rfl⟩ := h
      have := ih hq
      simp only [List.length_cons]
      omega

/-- The digits at the head of a text, and the rest. -/
def spanDigits (t : Text) : Text × Text :=
  (t.takeWhile Char.isDigit, t.dropWhile Char.isDigit)

/-- The digits behind a decimal point, if there is one, and the rest. -/
def fraction? : Text → Option (Option Text × Text)
  | '.' :: t =>
      let (digits, rest) := spanDigits t
      if digits = [] then none else some (some digits, rest)
  | t => some (none, t)

/-- Whether a text begins with a minus sign, and the text behind a sign of either kind. -/
def splitSign : Text → Bool × Text
  | '-' :: t => (true, t)
  | '+' :: t => (false, t)
  | t => (false, t)

/-- The exponent, if there is one, and the rest. -/
def exponent? : Text → Option (Option Int × Text)
  | [] => some (none, [])
  | c :: t =>
      if c = 'e' ∨ c = 'E' then
        let (digits, rest) := spanDigits (splitSign t).2
        if digits = [] then
          none
        else
          let size : Int := Nat.ofDigitChars 10 digits 0
          some (some (if (splitSign t).1 then -size else size), rest)
      else
        some (none, c :: t)

/-- The token of a number with the given parts.  A whole number of at most 64 bits, signed or not,
is one, zero with a minus sign apart; a number beyond the finite binary numbers is refused. -/
def number? (negative : Bool) (whole : Text) (fraction : Option Text) (exponent : Option Int) :
    Option Token :=
  let digits := whole ++ fraction.getD []
  let size := Nat.ofDigitChars 10 digits 0
  let fits := if negative then 0 < size ∧ (toInt64? (-size)).isSome else size < UInt64.size
  if fraction.isNone ∧ exponent.isNone ∧ fits then
    some (.int (if negative then -size else size))
  else
    let real := Binary64.ofDecimal negative size (exponent.getD 0 - (fraction.getD []).length)
    if real.isFinite then some (.float real) else none

/-- A number behind its sign, and the rest. -/
def unsigned? (negative : Bool) (t : Text) : Option (Token × Text) := do
  let (whole, t) := spanDigits t
  if whole = [] ∨ (whole.head? = some '0' ∧ whole.length ≠ 1) then
    none
  else
    let (fraction, t) ← fraction? t
    let (exponent, rest) ← exponent? t
    let token ← number? negative whole fraction exponent
    some (token, rest)

/-- The token that begins with a character, and the rest. -/
def scan? (c : Char) (t : Text) : Option (Token × Text) :=
  match c with
  | '[' => some (.openList, t)
  | ']' => some (.closeList, t)
  | '\x7b' => some (.openObject, t)
  | '\x7d' => some (.closeObject, t)
  | ',' => some (.comma, t)
  | ':' => some (.colon, t)
  | '"' => (quoted? t).map (Prod.map string id)
  | 'n' => (Text.after? ['u', 'l', 'l'] t).map (.null, ·)
  | 't' => (Text.after? ['r', 'u', 'e'] t).map (.bool true, ·)
  | 'f' => (Text.after? ['a', 'l', 's', 'e'] t).map (.bool false, ·)
  | '-' => unsigned? true t
  | c => unsigned? false (c :: t)

theorem length_spanDigits_le (t : Text) : (spanDigits t).2.length ≤ t.length :=
  (List.dropWhile_sublist _).length_le

theorem length_spanDigits_lt {t : Text} (h : (spanDigits t).1 ≠ []) :
    (spanDigits t).2.length < t.length := by
  have hl := congrArg List.length (List.takeWhile_append_dropWhile (p := Char.isDigit) (l := t))
  have := List.length_pos_iff.mpr h
  simp only [spanDigits, List.length_append] at hl this ⊢
  omega

theorem length_le_of_fraction? {t rest : Text} {f : Option Text}
    (h : fraction? t = some (f, rest)) : rest.length ≤ t.length := by
  unfold fraction? at h
  split at h
  next t =>
    have := length_spanDigits_le t
    simp only at h
    split at h
    next => simp at h
    next =>
      simp only [Option.some.injEq, Prod.mk.injEq] at h
      obtain ⟨_, rfl⟩ := h
      simp only [List.length_cons]
      omega
  next => simp_all

theorem length_splitSign_le (t : Text) : (splitSign t).2.length ≤ t.length := by
  unfold splitSign
  split <;> simp

theorem length_le_of_exponent? {t rest : Text} {e : Option Int}
    (h : exponent? t = some (e, rest)) : rest.length ≤ t.length := by
  unfold exponent? at h
  split at h
  next => simp_all
  next c t =>
    split at h
    next =>
      simp only at h
      split at h
      next => simp at h
      next =>
        simp only [Option.some.injEq, Prod.mk.injEq] at h
        obtain ⟨_, rfl⟩ := h
        have := length_spanDigits_le (splitSign t).2
        have := length_splitSign_le t
        simp only [List.length_cons]
        omega
    next => simp_all

theorem length_lt_of_unsigned? {negative : Bool} {t rest : Text} {token : Token}
    (h : unsigned? negative t = some (token, rest)) : rest.length < t.length := by
  simp only [unsigned?] at h
  split at h
  next => simp at h
  next hw =>
    simp only [Option.bind_eq_bind, Option.bind_eq_some_iff, Prod.exists, Option.some.injEq,
      Prod.mk.injEq] at h
    obtain ⟨f, r, hf, e, r', he, n, _, _, rfl⟩ := h
    have := length_spanDigits_lt fun h => hw (.inl h)
    have := length_le_of_fraction? hf
    have := length_le_of_exponent? he
    omega

theorem length_le_of_scan? {c : Char} {t rest : Text} {token : Token}
    (h : scan? c t = some (token, rest)) : rest.length ≤ t.length := by
  have hafter {pattern : Text} {token' : Token}
      (h : (Text.after? pattern t).map (token', ·) = some (token, rest)) :
      rest.length ≤ t.length := by
    simp only [Option.map_eq_some_iff, Prod.mk.injEq, Text.after?_eq_some_iff] at h
    obtain ⟨r, rfl, _, rfl⟩ := h
    simp
  unfold scan? at h
  split at h
  case h_7 =>
    simp only [Option.map_eq_some_iff, Prod.exists, Prod.map_apply, id_eq, Prod.mk.injEq] at h
    obtain ⟨_, _, hq, _, rfl⟩ := h
    exact Nat.le_of_lt (length_lt_of_quoted? hq)
  case h_8 => exact hafter h
  case h_9 => exact hafter h
  case h_10 => exact hafter h
  case h_11 => exact Nat.le_of_lt (length_lt_of_unsigned? h)
  case h_12 =>
    have := length_lt_of_unsigned? h
    simp only [List.length_cons] at this
    omega
  all_goals
    simp only [Option.some.injEq, Prod.mk.injEq] at h
    obtain ⟨_, rfl⟩ := h
    exact Nat.le_refl _

/-- The tokens of a text; where none can be read the list ends with `invalid`. -/
def ofText : Text → List Token
  | [] => []
  | c :: t =>
      if isSpace c then
        ofText t
      else
        match _h : scan? c t with
        | some (token, rest) => token :: ofText rest
        | none => [.invalid]
termination_by t => t.length
decreasing_by
  · simp
  · have := length_le_of_scan? _h
    simp only [List.length_cons]
    omega

end Token

end Stencil
