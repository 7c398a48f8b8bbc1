import Stencil.Program.Basic
import Stencil.Proofs.Expression.Grammar

/-!
Programs as decompositions of texts.  A program cuts its text into pieces, one for each segment: the
source of a call, or a run of plain text in which no call begins.  Every text has exactly one such
program.  A reader that tries the alternatives one after the other never fails and finds it.
-/

namespace Stencil

namespace Segment

/-- The texts that call a function on an expression. -/
inductive CallSource : Text → Text → Expression → Prop
  | intro {function s : Text} {e : Expression} (hfunction : isName function)
      (hs : Expression.parse s = .ok e) :
      CallSource (delimited (function ++ ['('] ++ s ++ [')'])) function e

/-- A call stands at the head of the text. -/
def BeginsCall (t : Text) : Prop :=
  ∃ piece function e rest, CallSource piece function e ∧ t = piece ++ rest

theorem call?_of_source {piece function : Text} {e : Expression}
    (h : CallSource piece function e) (rest : Text) :
    call? (piece ++ rest) = some (.call function e, rest) := by
  cases h with
  | @intro _ s _ hfunction hs =>
      have hname : name? (function ++ '(' :: (s ++ (')' :: closing ++ rest))) =
          some (function, '(' :: (s ++ (')' :: closing ++ rest))) :=
        name?_append hfunction (endsName_cons (by decide) _)
      have hexpression : Expression.head? (s ++ (')' :: closing ++ rest)) =
          some (e, ')' :: closing ++ rest) :=
        Expression.head?_of_derives (Expression.derives_of_parse hs)
          ⟨endsName_cons (by decide) _, rfl⟩
      have htext : delimited (function ++ ['('] ++ s ++ [')']) ++ rest =
          opening ++ (function ++ '(' :: (s ++ (')' :: closing ++ rest))) := by
        simp [delimited]
      have hopen (t : Text) : Text.after? opening (opening ++ t) = some t :=
        Text.after?_eq_some_iff.mpr rfl
      have hclose (t : Text) : Text.after? (')' :: closing) (')' :: closing ++ t) = some t :=
        Text.after?_eq_some_iff.mpr rfl
      have hparen (t : Text) : Text.after? ['('] ('(' :: t) = some t :=
        Text.after?_eq_some_iff.mpr rfl
      simp only [call?, Option.bind_eq_bind, htext, hopen, hname, hparen, hexpression, hclose,
        Option.bind_some]

theorem exists_source_of_call? {t rest : Text} {s : Segment} (h : call? t = some (s, rest)) :
    ∃ piece function e, s = .call function e ∧ CallSource piece function e ∧
      t = piece ++ rest := by
  simp only [call?, Option.bind_eq_bind, Option.bind_eq_some_iff, Prod.exists, Option.some.injEq,
    Prod.mk.injEq] at h
  obtain ⟨t₁, h₁, f, t₂, h₂, t₃, h₃, e, t₄, h₄, r, h₅, rfl, rfl⟩ := h
  obtain ⟨source, hsource, hderives⟩ := Expression.exists_derives_of_head? h₄
  refine ⟨_, f, e, rfl, .intro (isName_of_name? h₂).1 (Expression.parse_of_derives hderives), ?_⟩
  rw [Text.after?_eq_some_iff] at h₁ h₃ h₅
  rw [h₁, eq_of_name? h₂, h₃, hsource, h₅]
  simp [delimited]

theorem call?_eq_none_iff {t : Text} : call? t = none ↔ ¬ BeginsCall t := by
  constructor
  · rintro hnone ⟨piece, function, e, rest, hpiece, rfl⟩
    simp [call?_of_source hpiece] at hnone
  · intro hfree
    cases h : call? t with
    | none => rfl
    | some found =>
        obtain ⟨s, rest⟩ := found
        obtain ⟨piece, function, e, -, hpiece, ht⟩ := exists_source_of_call? h
        exact absurd ⟨piece, function, e, rest, hpiece, ht⟩ hfree

/-- The text of a call stands somewhere in the text. -/
def HoldsCall (t : Text) : Prop :=
  ∃ piece function e, CallSource piece function e ∧ piece <:+: t

theorem opening_infix_of_holdsCall {text : Text} (h : HoldsCall text) :
    opening <:+: text := by
  obtain ⟨piece, function, e, hpiece, hstands⟩ := h
  cases hpiece with
  | intro hfunction hs =>
      rw [delimited, List.append_assoc] at hstands
      exact (List.prefix_append opening _).isInfix.trans hstands

theorem call?_of_ne {c : Char} (hc : c ≠ '{') (t : Text) : call? (c :: t) = none := by
  simp [call?, opening, Text.after?, Ne.symm hc]

end Segment

namespace Program

open Segment

theorem parse_call {t rest : Text} {s : Segment} (h : call? t = some (s, rest)) :
    parse t = s :: parse rest := by
  cases t with
  | nil => simp [call?, Text.after?, opening] at h
  | cons c t =>
      rw [parse]
      split
      next s' r hs =>
        rw [h] at hs
        obtain ⟨rfl, rfl⟩ := Prod.mk.inj (Option.some.inj hs)
        rfl
      next hs => simp [h] at hs

theorem parse_plain {c : Char} {t : Text} (h : call? (c :: t) = none) :
    parse (c :: t) = consPlain c (parse t) := by
  rw [parse]
  split
  next hs => simp [h] at hs
  next => rfl

theorem parse_nil : parse [] = [] := by
  rw [parse]

/-- No call begins inside a piece of text that stands before the rest. -/
def NoCallInside (piece rest : Text) : Prop :=
  ∀ before inside, piece = before ++ inside → inside ≠ [] → ¬ BeginsCall (inside ++ rest)

theorem noCallInside_singleton {c : Char} {rest : Text} (h : ¬ BeginsCall (c :: rest)) :
    NoCallInside [c] rest := by
  intro before inside heq hinside
  cases before with
  | nil => rwa [← show [c] = inside from heq]
  | cons b before =>
      have hnil := (List.cons.inj heq).2
      exact absurd (List.append_eq_nil_iff.mp hnil.symm).2 hinside

theorem NoCallInside.cons {c : Char} {piece rest : Text} (h : NoCallInside piece rest)
    (hc : ¬ BeginsCall (c :: (piece ++ rest))) : NoCallInside (c :: piece) rest := by
  intro before inside heq hinside
  cases before with
  | nil => rwa [← show c :: piece = inside from heq]
  | cons b before => exact h before inside (List.cons.inj heq).2 hinside

theorem NoCallInside.head {c : Char} {piece rest : Text} (h : NoCallInside (c :: piece) rest) :
    call? (c :: (piece ++ rest)) = none :=
  call?_eq_none_iff.mpr (h [] (c :: piece) rfl (List.cons_ne_nil c piece))

theorem NoCallInside.tail {c : Char} {piece rest : Text} (h : NoCallInside (c :: piece) rest) :
    NoCallInside piece rest := by
  intro before inside heq
  exact h (c :: before) inside (by rw [heq, List.cons_append])

/-- A text cut into pieces, one for each segment of a program.  A literal is not empty, stands next
to no other literal, and no call begins inside it. -/
inductive Decomposes : Text → Program → Prop
  | nil : Decomposes [] []
  | call {piece rest function : Text} {e : Expression} {p : Program}
      (hpiece : CallSource piece function e) (h : Decomposes rest p) :
      Decomposes (piece ++ rest) (.call function e :: p)
  | literal {piece rest : Text} {p : Program} (hne : piece ≠ [])
      (hnext : ∀ text, p.head? ≠ some (.literal text)) (hfree : NoCallInside piece rest)
      (h : Decomposes rest p) : Decomposes (piece ++ rest) (.literal piece :: p)

theorem Decomposes.consPlain {c : Char} {t : Text} {p : Program} (h : Decomposes t p)
    (hc : ¬ BeginsCall (c :: t)) : Decomposes (c :: t) (consPlain c p) := by
  have hsingle : NoCallInside [c] t := noCallInside_singleton hc
  cases h with
  | nil => exact .literal (List.cons_ne_nil c []) (by simp) hsingle .nil
  | call hpiece h =>
      exact .literal (List.cons_ne_nil c []) (by simp) hsingle (.call hpiece h)
  | @literal piece _ _ hne hnext hfree h =>
      exact .literal (List.cons_ne_nil c piece) hnext (hfree.cons hc) h

theorem decomposes_parse (t : Text) : Decomposes t (parse t) := by
  fun_induction parse t with
  | case1 => exact .nil
  | case2 c t s rest h ih =>
      obtain ⟨piece, function, e, rfl, hpiece, heq⟩ := exists_source_of_call? h
      rw [heq]
      exact .call hpiece ih
  | case3 c t h ih => exact ih.consPlain (call?_eq_none_iff.mp h)

/-- A literal before a program; it is joined with the literal that stands there. -/
def consLiteral (t : Text) : Program → Program
  | .literal text :: p => .literal (t ++ text) :: p
  | p => .literal t :: p

theorem consPlain_eq (c : Char) (p : Program) : consPlain c p = consLiteral [c] p := by
  rcases p with _ | ⟨_ | _, p⟩
  · rfl
  · rfl
  · rfl

theorem consPlain_consLiteral (c : Char) (t : Text) (p : Program) :
    consPlain c (consLiteral t p) = consLiteral (c :: t) p := by
  rcases p with _ | ⟨_ | _, p⟩
  · rfl
  · rfl
  · rfl

theorem consLiteral_of_head (t : Text) {p : Program}
    (h : ∀ text, p.head? ≠ some (.literal text)) : consLiteral t p = .literal t :: p := by
  rcases p with _ | ⟨text | _, p⟩
  · rfl
  · exact absurd rfl (h text)
  · rfl

theorem parse_append_of_noCallInside {piece rest : Text} (hne : piece ≠ [])
    (h : NoCallInside piece rest) : parse (piece ++ rest) = consLiteral piece (parse rest) := by
  induction piece with
  | nil => exact absurd rfl hne
  | cons c piece ih =>
      rw [List.cons_append, parse_plain h.head]
      cases piece with
      | nil => exact consPlain_eq c (parse rest)
      | cons d piece =>
          rw [ih (List.cons_ne_nil d piece) h.tail, consPlain_consLiteral]

theorem mem_consPlain_iff {c : Char} {p : Program} {function : Text} {e : Expression} :
    Segment.call function e ∈ consPlain c p ↔ Segment.call function e ∈ p := by
  rcases p with _ | ⟨_ | _, p⟩
  · simp [consPlain]
  · simp [consPlain]
  · simp [consPlain]

theorem holdsCall_iff {t : Text} :
    HoldsCall t ↔ ∃ function e, Segment.call function e ∈ parse t := by
  fun_induction parse t with
  | case1 =>
      constructor
      · rintro ⟨piece, function, e, hpiece, hstands⟩
        rw [List.infix_nil.mp hstands] at hpiece
        cases hpiece
      · rintro ⟨function, e, he⟩
        exact absurd he List.not_mem_nil
  | case2 c t s rest h ih =>
      obtain ⟨piece, function, e, rfl, hpiece, ht⟩ := exists_source_of_call? h
      constructor
      · intro
        exact ⟨function, e, List.mem_cons_self⟩
      · intro
        exact ⟨piece, function, e, hpiece, ht ▸ (List.prefix_append piece rest).isInfix⟩
  | case3 c t h ih =>
      simp only [mem_consPlain_iff, ← ih]
      constructor
      · rintro ⟨piece, function, e, hpiece, hstands⟩
        rcases List.infix_cons_iff.mp hstands with ⟨rest, hrest⟩ | hstands
        · exact absurd ⟨piece, function, e, rest, hpiece, hrest.symm⟩ (call?_eq_none_iff.mp h)
        · exact ⟨piece, function, e, hpiece, hstands⟩
      · rintro ⟨piece, function, e, hpiece, hstands⟩
        exact ⟨piece, function, e, hpiece, hstands.trans (List.suffix_cons c t).isInfix⟩

theorem parse_of_not_holdsCall {t : Text} (h : ¬ HoldsCall t) (hne : t ≠ []) :
    parse t = [.literal t] := by
  have hfree : NoCallInside t [] := by
    rintro before inside rfl - ⟨piece, function, e, rest, hpiece, heq⟩
    rw [List.append_nil] at heq
    rw [heq] at h
    exact h ⟨piece, function, e, hpiece, before, rest, by simp⟩
  have hparse := parse_append_of_noCallInside hne hfree
  rwa [List.append_nil, parse_nil] at hparse

theorem Decomposes.eq_parse {t : Text} {p : Program} (h : Decomposes t p) : p = parse t := by
  induction h with
  | nil => exact parse_nil.symm
  | call hpiece h ih => rw [parse_call (call?_of_source hpiece _), ih]
  | literal hne hnext hfree h ih =>
      rw [parse_append_of_noCallInside hne hfree, ← ih, consLiteral_of_head _ hnext]

end Program

namespace Segment

/-- The text before the next opening brace, if that is any, and the rest. -/
def run? (t : Text) : Option (Segment × Text) :=
  match t.takeWhile (· != '{') with
  | [] => none
  | run => some (.literal run, t.dropWhile (· != '{'))

/-- The last alternative: one character, be it a brace. -/
def single? : Text → Option (Segment × Text)
  | [] => none
  | c :: t => some (.literal [c], t)

/-- A segment at the head of a text and the rest.  The alternatives are tried in this order, so that
only a brace that begins no call stands alone. -/
def head? (t : Text) : Option (Segment × Text) :=
  (call? t).or ((run? t).or (single? t))

theorem noCallInside_of_notMem {piece : Text} (h : ∀ c ∈ piece, c ≠ '{') (rest : Text) :
    Program.NoCallInside piece rest := by
  intro before inside heq hinside
  obtain ⟨c, inside, rfl⟩ := List.exists_cons_of_ne_nil hinside
  exact call?_eq_none_iff.mp (call?_of_ne (h c (by simp [heq])) _)

theorem head?_cases {t rest : Text} {s : Segment} (h : head? t = some (s, rest)) :
    call? t = some (s, rest) ∨
      ∃ piece, s = .literal piece ∧ piece ≠ [] ∧ t = piece ++ rest ∧
        Program.NoCallInside piece rest := by
  rw [head?, Option.or_eq_some_iff, Option.or_eq_some_iff] at h
  rcases h with h | ⟨hnone, h | ⟨-, h⟩⟩
  · exact Or.inl h
  · right
    unfold run? at h
    split at h
    next => simp at h
    next hne =>
      obtain ⟨rfl, rfl⟩ := Prod.mk.inj (Option.some.inj h)
      refine ⟨_, rfl, hne, List.takeWhile_append_dropWhile.symm, ?_⟩
      apply noCallInside_of_notMem
      intro c hc
      simpa using List.all_eq_true.mp List.all_takeWhile c hc
  · right
    cases t with
    | nil => simp [single?] at h
    | cons c t =>
        obtain ⟨rfl, rfl⟩ := Prod.mk.inj (Option.some.inj h)
        exact ⟨[c], rfl, List.cons_ne_nil c [], rfl,
          Program.noCallInside_singleton (call?_eq_none_iff.mp hnone)⟩

theorem length_lt_of_head? {t rest : Text} {s : Segment} (h : head? t = some (s, rest)) :
    rest.length < t.length := by
  rcases head?_cases h with h | ⟨piece, -, hne, rfl, -⟩
  · exact length_lt_of_call? h
  · have := List.length_pos_iff.mpr hne
    rw [List.length_append]
    omega

theorem eq_nil_of_head? {t : Text} (h : head? t = none) : t = [] := by
  cases t with
  | nil => rfl
  | cons c t => simp [head?, single?] at h

/-- Segments as long as one is found, and the rest. -/
def readAll (t : Text) : List Segment × Text :=
  match _h : head? t with
  | none => ([], t)
  | some (s, rest) =>
      let (segments, rest) := readAll rest
      (s :: segments, rest)
termination_by t.length
decreasing_by exact length_lt_of_head? _h

end Segment

namespace Program

open Segment

/-- Segments with adjacent literals joined. -/
def mergeLiterals : List Segment → Program
  | [] => []
  | .literal t :: segments => consLiteral t (mergeLiterals segments)
  | s :: segments => s :: mergeLiterals segments

/-- The program that is read by trying the alternatives of a segment over and over, or the text that
is left where none of them fits. -/
def read (t : Text) : Except Text Program :=
  match readAll t with
  | (segments, []) => .ok (mergeLiterals segments)
  | (_, rest) => .error rest

theorem mergeLiterals_readAll (t : Text) :
    (readAll t).2 = [] ∧ mergeLiterals (readAll t).1 = parse t := by
  fun_induction readAll t with
  | case1 t h =>
      obtain rfl := eq_nil_of_head? h
      exact ⟨rfl, parse_nil.symm⟩
  | case2 t s rest h segments r hr ih =>
      rw [hr] at ih
      refine ⟨ih.1, ?_⟩
      rcases head?_cases h with hcall | ⟨piece, rfl, hne, rfl, hfree⟩
      · obtain ⟨-, function, e, rfl, -⟩ := exists_source_of_call? hcall
        rw [parse_call hcall, ← ih.2]
        rfl
      · rw [parse_append_of_noCallInside hne hfree, ← ih.2]
        rfl

/-- Reading by alternatives never fails, and the program that it gives is the one decomposition of
the text into calls and plain text in which no call is missed. -/
theorem parse_is_leftmost_decomposition (t : Text) :
    read t = .ok (parse t) ∧ ∀ p : Program, Decomposes t p ↔ p = parse t := by
  obtain ⟨hrest, hmerge⟩ := mergeLiterals_readAll t
  constructor
  · unfold read
    split
    next segments hread =>
      rw [hread] at hmerge
      exact congrArg Except.ok hmerge
    next segments rest hne hread =>
      rw [hread] at hrest
      exact absurd hrest hne
  · intro p
    constructor
    · exact Decomposes.eq_parse
    · rintro rfl
      exact decomposes_parse t

/-- A brace before a call stands alone, a key may hold the closing delimiter, and a call that is cut
short is plain text. -/
example : parse "\x7b\x7b\x7becho($a['\x7d\x7d'])\x7d\x7d\x7b\x7bf($a)".toList =
    [.literal ['{'], .call "echo".toList ⟨['a'], [.key ['}', '}']]⟩,
      .literal "\x7b\x7bf($a)".toList] := by
  decide +kernel

end Program

end Stencil
