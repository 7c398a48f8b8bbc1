import Stencil.Expression.Basic
import Stencil.Text.Position

/-!
Reading expressions.  An expression is `$name` followed by accessors: `[n]` with a whole number,
`['key']`, `["key"]` or `[key]`, and `->name`.  Alternatives are tried in this order and the first
that fits is kept; the first accessor that does not fit ends the expression before it.
-/

namespace Stencil

/-- A character that may begin a name: an ASCII letter, an underscore or any other script. -/
def isNameStart (c : Char) : Bool :=
  c.isAlpha || c == '_' || 128 ≤ c.toNat

def isNamePart (c : Char) : Bool :=
  c.isAlphanum || c == '_' || 128 ≤ c.toNat

/-- A name begins with a letter, an underscore or any character that is not ASCII; digits may
follow. -/
def isName : Text → Bool
  | [] => false
  | c :: t => isNameStart c && t.all isNamePart

/-- The longest name at the head of a text, and the rest. -/
def name? : Text → Option (Text × Text)
  | [] => none
  | c :: t =>
      if isNameStart c then
        some (c :: t.takeWhile isNamePart, t.dropWhile isNamePart)
      else
        none

theorem eq_of_name? {t name rest : Text} (h : name? t = some (name, rest)) : t = name ++ rest := by
  cases t with
  | nil => simp [name?] at h
  | cons c t =>
      simp only [name?] at h
      split at h
      next =>
        simp only [Option.some.injEq, Prod.mk.injEq] at h
        obtain ⟨rfl, rfl⟩ := h
        simp
      next => simp at h

namespace Accessor

/-- The number at the head of a text, if it fits 64 bits. -/
def integer? (t : Text) : Option (Int64 × Text) :=
  let (sign, t) := match t with
    | '-' :: t => (['-'], t)
    | t => ([], t)
  (readInteger? (sign ++ t.takeWhile Char.isDigit)).map (·, t.dropWhile Char.isDigit)

/-- What stands between two quotes of the given kind, and the rest. -/
def quoted? (quote : Char) : Text → Option (Text × Text)
  | [] => none
  | c :: t =>
      if c = quote then
        match t.dropWhile (· != quote) with
        | [] => none
        | _ :: rest => some (t.takeWhile (· != quote), rest)
      else
        none

/-- What may stand between brackets: a number, a key in quotes or a bare key. -/
def bracketed? (t : Text) : Option (Accessor × Text) :=
  ((integer? t).map (Prod.map index id)).or <|
    ((quoted? '\'' t).map (Prod.map key id)).or <|
      ((quoted? '"' t).map (Prod.map key id)).or <|
        (name? t).map (Prod.map key id)

/-- The accessor at the head of a text, by the first alternative that fits. -/
def parse? : Text → Option (Accessor × Text)
  | '[' :: t => (bracketed? t).bind fun (a, t) =>
      match t with
      | ']' :: rest => some (a, rest)
      | _ => none
  | '-' :: '>' :: t => (name? t).map (Prod.map property id)
  | _ => none

theorem suffix_of_integer? {t rest : Text} {n : Int64} (h : integer? t = some (n, rest)) :
    rest <:+ t := by
  simp only [integer?, Option.map_eq_some_iff, Prod.mk.injEq] at h
  obtain ⟨m, _, _, rfl⟩ := h
  split
  next => exact (List.dropWhile_suffix _).trans (List.suffix_cons _ _)
  next => exact List.dropWhile_suffix _

theorem suffix_of_quoted? {quote : Char} {t key rest : Text}
    (h : quoted? quote t = some (key, rest)) : rest <:+ t := by
  cases t with
  | nil => simp [quoted?] at h
  | cons c t =>
      simp only [quoted?] at h
      split at h
      next =>
        split at h
        next => simp at h
        next d r hd =>
          simp only [Option.some.injEq, Prod.mk.injEq] at h
          obtain ⟨_, rfl⟩ := h
          have hs : d :: r <:+ t := hd ▸ List.dropWhile_suffix _
          exact ((List.suffix_cons d r).trans hs).trans (List.suffix_cons c t)
      next => simp at h

theorem suffix_of_bracketed? {t rest : Text} {a : Accessor} (h : bracketed? t = some (a, rest)) :
    rest <:+ t := by
  simp only [bracketed?, Option.or_eq_some_iff, Option.map_eq_some_iff, Prod.exists,
    Prod.map_apply, id_eq, Prod.mk.injEq] at h
  rcases h with ⟨_, _, h, _, rfl⟩ | ⟨_, h⟩
  · exact suffix_of_integer? h
  rcases h with ⟨_, _, h, _, rfl⟩ | ⟨_, h⟩
  · exact suffix_of_quoted? h
  rcases h with ⟨_, _, h, _, rfl⟩ | ⟨_, _, _, h, _, rfl⟩
  · exact suffix_of_quoted? h
  · exact ⟨_, (eq_of_name? h).symm⟩

theorem suffix_of_parse? {t rest : Text} {a : Accessor} (h : parse? t = some (a, rest)) :
    rest <:+ t ∧ rest.length < t.length := by
  unfold parse? at h
  split at h
  next t =>
    simp only [Option.bind_eq_some_iff, Prod.exists] at h
    obtain ⟨b, r, hb, h⟩ := h
    split at h
    next q =>
      simp only [Option.some.injEq, Prod.mk.injEq] at h
      obtain ⟨_, rfl⟩ := h
      have hs := (List.suffix_cons _ _).trans (suffix_of_bracketed? hb)
      exact ⟨hs.trans (List.suffix_cons _ _), Nat.lt_succ_of_le hs.length_le⟩
    next => simp at h
  next t =>
    simp only [Option.map_eq_some_iff, Prod.exists, Prod.map_apply, id_eq, Prod.mk.injEq] at h
    obtain ⟨n, r, hn, _, rfl⟩ := h
    have hs : r <:+ t := ⟨_, (eq_of_name? hn).symm⟩
    exact ⟨hs.trans ⟨['-', '>'], rfl⟩, by have := hs.length_le; simp only [List.length_cons]; omega⟩
  next => simp at h

/-- The accessors at the head of a text, up to the first one that does not fit. -/
def parseAll (t : Text) : List Accessor × Text :=
  match _h : parse? t with
  | none => ([], t)
  | some (a, rest) =>
      let (accessors, rest) := parseAll rest
      (a :: accessors, rest)
termination_by t.length
decreasing_by exact (suffix_of_parse? _h).2

theorem suffix_of_parseAll (t : Text) : (parseAll t).2 <:+ t := by
  fun_induction parseAll t with
  | case1 => exact List.suffix_rfl
  | case2 t a rest h accessors r hr ih =>
      rw [hr] at ih
      exact ih.trans (suffix_of_parse? h).1

end Accessor

namespace Expression

/-- Why a text is no expression, and where. -/
inductive ParseError where
  | trailing (place : Position) (found : Char)
  | noReference (place : Position)
  | unfinished (place : Position)
deriving DecidableEq, Repr

/-- The expression at the head of a text and the rest, or the rest at which reading failed. -/
def ofHead (t : Text) : Except Text (Expression × Text) :=
  match t with
  | '$' :: t =>
      match name? t with
      | some (name, rest) =>
          let (accessors, rest) := Accessor.parseAll rest
          .ok (⟨name, accessors⟩, rest)
      | none => .error t
  | t => .error t

/-- The expression at the head of a text, and the rest. -/
def head? (t : Text) : Option (Expression × Text) :=
  (ofHead t).toOption

theorem suffix_of_head? {t rest : Text} {e : Expression} (h : head? t = some (e, rest)) :
    rest <:+ t := by
  unfold head? ofHead at h
  split at h
  next t =>
    cases hn : name? t with
    | none => simp [hn, Except.toOption] at h
    | some p =>
        obtain ⟨name, r⟩ := p
        simp only [hn, Except.toOption, Option.some.injEq, Prod.mk.injEq] at h
        obtain ⟨_, rfl⟩ := h
        exact ((Accessor.suffix_of_parseAll r).trans ⟨name, (eq_of_name? hn).symm⟩).trans
          (List.suffix_cons _ _)
  next => simp [Except.toOption] at h

/-- The place in a text at which only `rest` is left. -/
def placeBefore (t rest : Text) : Position :=
  Position.behind (t.take (t.length - rest.length))

/-- The expression that is the whole text. -/
def parse (t : Text) : Except ParseError Expression :=
  match ofHead t with
  | .ok (e, []) => .ok e
  | .ok (_, c :: rest) => .error (.trailing (placeBefore t (c :: rest)) c)
  | .error [] => .error (.unfinished (placeBefore t []))
  | .error (c :: rest) => .error (.noReference (placeBefore t (c :: rest)))

def accepts (t : Text) : Bool :=
  (parse t).toOption.isSome

namespace ParseError

def place : ParseError → Position
  | .trailing place _ | .noReference place | .unfinished place => place

/-- What was wrong at the place; of a text that ended there nothing more is told. -/
def detail? : ParseError → Option Text
  | .trailing _ found => some ("unexpected character: '".toList ++ [found] ++ "'".toList)
  | .noReference _ => some
      ("expected variable reference: Parsing Error: ".toList ++
        "ContextError \x7b context: [], cause: None \x7d".toList)
  | .unfinished _ => none

def message (e : ParseError) : Text :=
  let place := integerText e.place.line ++ [':'] ++ integerText e.place.column
  match e.detail? with
  | some detail => "syntax error at ".toList ++ place ++ ": ".toList ++ detail
  | none => "unexpected end of input at ".toList ++ place

end ParseError

end Expression

end Stencil
