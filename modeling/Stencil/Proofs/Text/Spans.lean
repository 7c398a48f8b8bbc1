import Mathlib.Data.List.Basic
import Stencil.Proofs.Text.Placed
import Stencil.Proofs.Text.Search
import Stencil.Proofs.Text.Slice

/-!
Spans of a text, told by their bytes.  A loop that searches on behind the span it found last tells
them; taking them out copies what lies between.  Both cut the text at bytes, which fails where a
byte is not between characters, and does not where the spans are those of stretches of the text.
-/

namespace Stencil.Text

/-- A part of a text, from one byte to before another. -/
structure Span where
  start : Nat
  stop : Nat
deriving DecidableEq, Repr

/-- Spans that stand in a text one behind the other. -/
structure Fits (t : Text) (spans : List Span) : Prop where
  ordered : spans.Pairwise fun r s => r.stop ≤ s.start
  nonempty : ∀ s ∈ spans, s.start < s.stop
  inside : ∀ s ∈ spans, s.stop ≤ t.utf8Size
  between : ∀ s ∈ spans, (t.splitAt? s.start).isSome ∧ (t.splitAt? s.stop).isSome

/-- No part of the text that is apart from all the spans has the property. -/
def NoneOutside (t : Text) (spans : List Span) (P : Text → Prop) : Prop :=
  ∀ start stop part, t.slice? start stop = some part →
    (∀ s ∈ spans, stop ≤ s.start ∨ s.stop ≤ start) → ¬ P part

/-- The byte is in none of the spans. -/
def isOutside (spans : List Span) (n : Nat) : Bool :=
  spans.all fun s => n < s.start || s.stop ≤ n

/-- The text from a byte on without the spans, copied by the bytes between them. -/
def removeSpans? (t : Text) : Nat → List Span → Option Text
  | last, [] => t.slice? last t.utf8Size
  | last, s :: spans =>
      (t.slice? last s.start).bind fun between => (removeSpans? t s.stop spans).map (between ++ ·)

/-- The byte where the pattern stands next from a byte on, if it does; without any result where the
text cannot be cut at that byte. -/
def findFrom? (pattern t : Text) (cursor : Nat) : OptionT Option Nat :=
  OptionT.mk ((t.slice? cursor t.utf8Size).map fun rest =>
    (cut? pattern rest).map fun (before, _) => cursor + before.utf8Size)

/-- The span of the pattern where it stands next. -/
def findText? (pattern t : Text) (cursor : Nat) : OptionT Option Span := do
  let start ← findFrom? pattern t cursor
  return ⟨start, start + pattern.utf8Size⟩

/-- The span from where the first search finds something up to where the second one does from there
on. -/
def findThrough? (first second : Text → Nat → OptionT Option Span) (t : Text) (cursor : Nat) :
    OptionT Option Span := do
  let r ← first t cursor
  let s ← second t r.stop
  return ⟨r.start, s.stop⟩

/-- A loop collects the spans that a search finds, each from the end of the one before it on, and
ends where the search finds none. -/
inductive Collects (next : Nat → OptionT Option Span) : Nat → List Span → Prop
  | done {cursor : Nat} (h : (next cursor).run = some none) : Collects next cursor []
  | more {cursor : Nat} {s : Span} {spans : List Span} (h : (next cursor).run = some (some s))
      (hrest : Collects next s.stop spans) : Collects next cursor (s :: spans)

theorem Collects.unique {next : Nat → OptionT Option Span} {cursor : Nat}
    {spans spans' : List Span} (h : Collects next cursor spans)
    (h' : Collects next cursor spans') : spans = spans' := by
  induction h generalizing spans' with
  | done h =>
      cases h' with
      | done => rfl
      | more h' => exact absurd (h.symm.trans h') (by simp)
  | more h _ ih =>
      cases h' with
      | done h' => exact absurd (h.symm.trans h') (by simp)
      | more h' hrest =>
          obtain rfl := Option.some.inj (Option.some.inj (h.symm.trans h'))
          rw [ih hrest]

/-- A part of a text that is taken out, and the text between the part before it and it. -/
structure Stretch where
  before : Text
  taken : Text

/-- The text with all its stretches, and what is left of it without the parts that are taken. -/
def whole (parts : List Stretch) (tail : Text) : Text :=
  parts.foldr (fun p t => p.before ++ (p.taken ++ t)) tail

/-- What stands between the stretches and behind them. -/
def remainder (parts : List Stretch) (tail : Text) : Text :=
  parts.foldr (fun p t => p.before ++ t) tail

/-- The span of what is taken where the stretch begins at a byte. -/
def Stretch.span (p : Stretch) (offset : Nat) : Span :=
  ⟨offset + p.before.utf8Size, offset + p.before.utf8Size + p.taken.utf8Size⟩

/-- The spans of stretches one behind the other. -/
def spansFrom (offset : Nat) : List Stretch → List Span
  | [] => []
  | p :: parts => p.span offset :: spansFrom (p.span offset).stop parts

theorem spansFrom_cons (offset : Nat) (p : Stretch) (parts : List Stretch) :
    spansFrom offset (p :: parts) =
      ⟨offset + p.before.utf8Size, offset + p.before.utf8Size + p.taken.utf8Size⟩ ::
        spansFrom (offset + p.before.utf8Size + p.taken.utf8Size) parts := rfl

@[simp] theorem whole_nil (tail : Text) : whole [] tail = tail := rfl

@[simp] theorem whole_cons (p : Stretch) (parts : List Stretch) (tail : Text) :
    whole (p :: parts) tail = p.before ++ (p.taken ++ whole parts tail) := rfl

@[simp] theorem remainder_nil (tail : Text) : remainder [] tail = tail := rfl

@[simp] theorem remainder_cons (p : Stretch) (parts : List Stretch) (tail : Text) :
    remainder (p :: parts) tail = p.before ++ remainder parts tail := rfl

section

variable {parts : List Stretch} {s : Span}

theorem bounds_of_mem_spansFrom {offset : Nat} (h : s ∈ spansFrom offset parts) :
    offset ≤ s.start ∧ s.start ≤ s.stop := by
  induction parts generalizing offset with
  | nil => simp [spansFrom] at h
  | cons p parts ih =>
      rcases List.mem_cons.mp h with rfl | h
      · exact ⟨Nat.le_add_right _ _, Nat.le_add_right _ _⟩
      · have hbounds := ih h
        simp only [Stretch.span] at hbounds
        omega

theorem ordered_spansFrom (offset : Nat) (parts : List Stretch) :
    (spansFrom offset parts).Pairwise fun r s => r.stop ≤ s.start := by
  induction parts generalizing offset with
  | nil => exact List.Pairwise.nil
  | cons p parts ih => exact List.Pairwise.cons (fun s hs => (bounds_of_mem_spansFrom hs).1) (ih _)

theorem map_slice?_spansFrom (front tail : Text) (parts : List Stretch) :
    (spansFrom front.utf8Size parts).map
        (fun s => slice? (front ++ whole parts tail) s.start s.stop) =
      parts.map fun p => some p.taken := by
  -- the induction moves a stretch to the front
  induction parts generalizing front with
  | nil => rfl
  | cons p parts ih =>
      have hhead := slice?_append (front ++ p.before) p.taken (whole parts tail)
      have htail := ih (front ++ p.before ++ p.taken)
      simp only [utf8Size_append, List.append_assoc] at hhead htail
      rw [spansFrom_cons, List.map_cons, whole_cons, hhead, List.map_cons, ← htail, Nat.add_assoc]

theorem removeSpans?_spansFrom (front tail : Text) (parts : List Stretch) :
    removeSpans? (front ++ whole parts tail) front.utf8Size (spansFrom front.utf8Size parts) =
      some (remainder parts tail) := by
  induction parts generalizing front with
  | nil => exact slice?_append_to_end front tail
  | cons p parts ih =>
      have hhead := slice?_append front p.before (p.taken ++ whole parts tail)
      have htail := ih (front ++ p.before ++ p.taken)
      simp only [utf8Size_append, List.append_assoc] at htail
      rw [spansFrom_cons, removeSpans?, whole_cons, hhead, Option.bind_some, Nat.add_assoc, htail]
      rfl

theorem exists_slice?_of_mem_spansFrom (tail : Text) (h : s ∈ spansFrom 0 parts) :
    ∃ p ∈ parts, slice? (whole parts tail) s.start s.stop = some p.taken := by
  have hmem : slice? (whole parts tail) s.start s.stop ∈
      (spansFrom 0 parts).map fun s => slice? (whole parts tail) s.start s.stop :=
    List.mem_map_of_mem h
  have hmap := map_slice?_spansFrom [] tail parts
  rw [List.nil_append, utf8Size_nil] at hmap
  rw [hmap, List.mem_map] at hmem
  obtain ⟨p, hp, hslice⟩ := hmem
  exact ⟨p, hp, hslice.symm⟩

theorem fits_spansFrom (tail : Text) (h : ∀ p ∈ parts, p.taken ≠ []) :
    Fits (whole parts tail) (spansFrom 0 parts) := by
  refine ⟨ordered_spansFrom 0 parts, ?_, ?_, ?_⟩
  · intro s hs
    obtain ⟨p, hp, hslice⟩ := exists_slice?_of_mem_spansFrom tail hs
    obtain ⟨_, _, -, -, hstop⟩ := slice?_eq_some_iff.mp hslice
    obtain ⟨c, taken, htaken⟩ := List.exists_cons_of_ne_nil (h p hp)
    have hpos := utf8Size_pos c taken
    rw [htaken] at hstop
    omega
  · intro s hs
    obtain ⟨p, hp, hslice⟩ := exists_slice?_of_mem_spansFrom tail hs
    exact (splitAt?_isSome_of_slice? hslice).2.2
  · intro s hs
    obtain ⟨p, hp, hslice⟩ := exists_slice?_of_mem_spansFrom tail hs
    obtain ⟨hstart, hstop, -⟩ := splitAt?_isSome_of_slice? hslice
    exact ⟨hstart, hstop⟩

theorem isOutside_cons (s : Span) (spans : List Span) (n : Nat) :
    isOutside (s :: spans) n = ((n < s.start || s.stop ≤ n) && isOutside spans n) := rfl

theorem isOutside_spansFrom_of_lt {offset n : Nat} (h : n < offset) :
    isOutside (spansFrom offset parts) n := by
  rw [isOutside, List.all_eq_true]
  intro s hs
  have hbounds := bounds_of_mem_spansFrom hs
  have hlt : n < s.start := by omega
  simp [hlt]

theorem filter_placed_spansFrom (offset : Nat) (tail : Text) (parts : List Stretch) :
    ((placed offset (whole parts tail)).filter
        fun q => isOutside (spansFrom offset parts) q.2).map Prod.fst = remainder parts tail := by
  induction parts generalizing offset with
  | nil => simp [spansFrom, isOutside]
  | cons p parts ih =>
      have hbefore : ∀ q ∈ placed offset p.before,
          isOutside (spansFrom offset (p :: parts)) q.2 := by
        intro q hq
        have hbounds := bounds_of_mem_placed hq
        rw [spansFrom_cons, isOutside_cons, isOutside_spansFrom_of_lt (by omega)]
        simp [hbounds.2]
      have htaken : ∀ q ∈ placed (offset + p.before.utf8Size) p.taken,
          ¬ isOutside (spansFrom offset (p :: parts)) q.2 := by
        intro q hq
        have hbounds := bounds_of_mem_placed hq
        rw [spansFrom_cons, isOutside_cons]
        simp [Nat.not_lt.mpr hbounds.1, Nat.not_le.mpr hbounds.2]
      have hrest : ∀ q ∈ placed (offset + p.before.utf8Size + p.taken.utf8Size)
            (whole parts tail), isOutside (spansFrom offset (p :: parts)) q.2 =
          isOutside (spansFrom (offset + p.before.utf8Size + p.taken.utf8Size) parts) q.2 := by
        intro q hq
        have hbounds := bounds_of_mem_placed hq
        rw [spansFrom_cons, isOutside_cons]
        simp [hbounds.1]
      rw [whole_cons, remainder_cons, placed_append, placed_append, List.filter_append,
        List.filter_append, List.filter_eq_self.mpr hbefore, List.filter_eq_nil_iff.mpr htaken,
        List.filter_congr hrest, List.nil_append, List.map_append, ih, map_fst_placed]

theorem isInfix_of_apart (front : Text) {tail part : Text} {start stop : Nat}
    (hslice : slice? (front ++ whole parts tail) start stop = some part)
    (hfront : front.utf8Size ≤ start)
    (hapart : ∀ s ∈ spansFrom front.utf8Size parts, stop ≤ s.start ∨ s.stop ≤ start) :
    (∃ p ∈ parts, part <:+: p.before) ∨ part <:+: tail := by
  induction parts generalizing front with
  | nil =>
      obtain ⟨before, rest, hparts, rfl, rfl⟩ := slice?_eq_some_iff.mp hslice
      have hsize := congrArg utf8Size hparts
      simp only [whole_nil, utf8Size_append] at hsize
      have hparts' : before ++ (part ++ rest) = front ++ (tail ++ []) := by
        rw [← hparts, whole_nil, List.append_nil]
      exact Or.inr (isInfix_of_between hparts' hfront (by omega))
  | cons p parts ih =>
      rw [spansFrom_cons, List.forall_mem_cons] at hapart
      obtain ⟨hstop | hstart, hapart⟩ := hapart
      · obtain ⟨before, rest, hparts, rfl, rfl⟩ := slice?_eq_some_iff.mp hslice
        exact Or.inl ⟨p, List.mem_cons_self, isInfix_of_between hparts.symm hfront hstop⟩
      · have hrest := @ih (front ++ p.before ++ p.taken)
        simp only [utf8Size_append, List.append_assoc, ← Nat.add_assoc] at hrest
        rcases hrest hslice hstart hapart with ⟨q, hq, hpart⟩ | hpart
        · exact Or.inl ⟨q, List.mem_cons_of_mem p hq, hpart⟩
        · exact Or.inr hpart

theorem exists_stretches {spans : List Span} (front t : Text)
    (hordered : spans.Pairwise fun r s => r.stop ≤ s.start)
    (hfront : ∀ s ∈ spans, front.utf8Size ≤ s.start) (hle : ∀ s ∈ spans, s.start ≤ s.stop)
    (hbetween : ∀ s ∈ spans,
      (splitAt? s.start (front ++ t)).isSome ∧ (splitAt? s.stop (front ++ t)).isSome) :
    ∃ parts tail, t = whole parts tail ∧ spans = spansFrom front.utf8Size parts := by
  -- the induction moves a stretch to the front
  induction spans generalizing front t with
  | nil => exact ⟨[], t, rfl, rfl⟩
  | cons s spans ih =>
      obtain ⟨hnext, hordered⟩ := List.pairwise_cons.mp hordered
      rw [List.forall_mem_cons] at hfront hle hbetween
      obtain ⟨⟨before, r⟩, hstart⟩ := Option.isSome_iff_exists.mp hbetween.1.1
      obtain ⟨⟨through, rest⟩, hstop⟩ := Option.isSome_iff_exists.mp hbetween.1.2
      obtain ⟨hr, hbefore⟩ := splitAt?_eq_some_iff.mp hstart
      obtain ⟨hrest, hthrough⟩ := splitAt?_eq_some_iff.mp hstop
      obtain ⟨before, rfl⟩ : front <+: before :=
        prefix_of_utf8Size_le ⟨t, rfl⟩ ⟨r, hr.symm⟩ (hbefore ▸ hfront.1)
      obtain ⟨taken, rfl⟩ : front ++ before <+: through := by
        apply prefix_of_utf8Size_le ⟨r, hr.symm⟩ ⟨rest, hrest.symm⟩
        rw [hbefore, hthrough]
        exact hle.1
      obtain ⟨parts, tail, rfl, rfl⟩ := ih (front ++ before ++ taken) rest hordered
        (fun s hs => hthrough ▸ hnext s hs) hle.2 (hrest ▸ hbetween.2)
      simp only [List.append_assoc, List.append_cancel_left_eq] at hrest
      have hspan : Stretch.span ⟨before, taken⟩ front.utf8Size = s := by
        rw [Stretch.span, ← utf8Size_append, ← utf8Size_append, hbefore, hthrough]
      refine ⟨⟨before, taken⟩ :: parts, tail, hrest, ?_⟩
      rw [spansFrom, hspan, hthrough]

theorem Fits.removeSpans?_eq {t : Text} {spans : List Span} (h : Fits t spans) :
    removeSpans? t 0 spans = some (pick (isOutside spans) t) := by
  obtain ⟨parts, tail, rfl, rfl⟩ := exists_stretches [] t h.ordered (fun _ _ => Nat.zero_le _)
    (fun s hs => Nat.le_of_lt (h.nonempty s hs)) h.between
  rw [pick, utf8Size_nil, filter_placed_spansFrom]
  exact removeSpans?_spansFrom [] tail parts

theorem noneOutside_spansFrom {tail : Text} {P : Text → Prop}
    (hparts : ∀ p ∈ parts, ∀ part, part <:+: p.before → ¬ P part)
    (htail : ∀ part, part <:+: tail → ¬ P part) :
    NoneOutside (whole parts tail) (spansFrom 0 parts) P := by
  intro start stop part hslice hapart
  rcases isInfix_of_apart [] hslice (Nat.zero_le _) hapart with ⟨p, hp, hpart⟩ | hpart
  · exact hparts p hp part hpart
  · exact htail part hpart

end

/-- A search by bytes finds in the rest of a text what a cut takes from that rest. -/
structure Finds (find : Text → Nat → OptionT Option Span) (cut : Text → Option (Stretch × Text)) :
    Prop where
  source : ∀ {t p rest}, cut t = some (p, rest) → t = p.before ++ (p.taken ++ rest)
  run : ∀ front t, (find (front ++ t) front.utf8Size).run =
    some ((cut t).map fun (p, _) => p.span front.utf8Size)

/-- A cut at the first place of a pattern. -/
def cutText? (pattern t : Text) : Option (Stretch × Text) :=
  (cut? pattern t).map fun (before, rest) => (⟨before, pattern⟩, rest)

/-- A cut by two searches: from where the first one finds something to the end of what the second
one finds behind. -/
def cutThrough? (first second : Text → Option (Stretch × Text)) (t : Text) :
    Option (Stretch × Text) :=
  (first t).bind fun (p, t) =>
    (second t).map fun (q, rest) => (⟨p.before, p.taken ++ (q.before ++ q.taken)⟩, rest)

theorem run_findFrom? (pattern front rest : Text) :
    (findFrom? pattern (front ++ rest) front.utf8Size).run =
      some ((cut? pattern rest).map fun (before, _) => front.utf8Size + before.utf8Size) := by
  rw [findFrom?, slice?_append_to_end]
  rfl

theorem finds_findText? (pattern : Text) : Finds (findText? pattern) (cutText? pattern) := by
  constructor
  · intro t p rest h
    obtain ⟨⟨before, rest⟩, hcut, heq⟩ := Option.map_eq_some_iff.mp h
    obtain ⟨rfl, rfl⟩ := Prod.mk.inj heq
    rw [eq_of_cut? hcut, List.append_assoc]
  · intro front t
    rw [findText?, OptionT.run_bind, run_findFrom?, cutText?]
    cases cut? pattern t with
    | none => rfl
    | some cut => rfl

theorem Finds.through {find find' : Text → Nat → OptionT Option Span}
    {cut cut' : Text → Option (Stretch × Text)} (h : Finds find cut) (h' : Finds find' cut') :
    Finds (findThrough? find find') (cutThrough? cut cut') := by
  constructor
  · intro t p rest hcut
    simp only [cutThrough?, Option.bind_eq_some_iff, Option.map_eq_some_iff, Prod.exists,
      Prod.mk.injEq] at hcut
    obtain ⟨p, t', hp, q, _, hq, rfl, rfl⟩ := hcut
    rw [h.source hp, h'.source hq]
    simp
  · intro front t
    rw [findThrough?, OptionT.run_bind, h.run]
    cases hp : cut t with
    | none =>
        rw [cutThrough?, hp]
        rfl
    | some found =>
        obtain ⟨p, t'⟩ := found
        have hcut : cutThrough? cut cut' t = (cut' t').map fun (q, rest) =>
            (⟨p.before, p.taken ++ (q.before ++ q.taken)⟩, rest) := by
          rw [cutThrough?, hp]
          rfl
        have hnext := h'.run (front ++ p.before ++ p.taken) t'
        simp only [utf8Size_append, List.append_assoc, ← Nat.add_assoc, ← h.source hp] at hnext
        show (find' (front ++ t) (p.span front.utf8Size).stop >>= fun s => _).run = _
        rw [OptionT.run_bind, Stretch.span, hnext, hcut]
        cases cut' t' with
        | none => rfl
        | some found =>
            simp only [Option.map_some, Stretch.span, utf8Size_append, ← Nat.add_assoc]
            rfl

/-- A text is cut again and again, up to a tail that is not. -/
inductive CutInto (cut : Text → Option (Stretch × Text)) : Text → List Stretch → Text → Prop
  | last {t : Text} (h : cut t = none) : CutInto cut t [] t
  | more {t rest tail : Text} {p : Stretch} {parts : List Stretch} (h : cut t = some (p, rest))
      (hrest : CutInto cut rest parts tail) : CutInto cut t (p :: parts) tail

section

variable {find : Text → Nat → OptionT Option Span} {cut : Text → Option (Stretch × Text)}
  {t tail : Text} {parts : List Stretch}

theorem CutInto.eq_whole (h : CutInto cut t parts tail) (hfind : Finds find cut) :
    t = whole parts tail := by
  induction h with
  | last => rfl
  | more h _ ih => rw [hfind.source h, ih, whole_cons]

theorem CutInto.exists_cut (h : CutInto cut t parts tail) {p : Stretch} (hp : p ∈ parts) :
    ∃ t rest, cut t = some (p, rest) := by
  induction h with
  | last => simp at hp
  | @more t rest _ _ _ h _ ih =>
      rcases List.mem_cons.mp hp with rfl | hp
      · exact ⟨t, rest, h⟩
      · exact ih hp

theorem CutInto.cut_tail (h : CutInto cut t parts tail) : cut tail = none := by
  induction h with
  | last h => exact h
  | more _ _ ih => exact ih

/-- The loop over a search collects the spans of what the cuts take. -/
theorem CutInto.collects (h : CutInto cut t parts tail) (hfind : Finds find cut) (front : Text) :
    Collects (find (front ++ t)) front.utf8Size (spansFrom front.utf8Size parts) := by
  induction h generalizing front with
  | last h => exact .done (by rw [hfind.run, h]; rfl)
  | @more t rest tail p parts h _ ih =>
      have hnext := ih (front ++ p.before ++ p.taken)
      simp only [utf8Size_append, List.append_assoc, ← Nat.add_assoc, ← hfind.source h] at hnext
      exact .more (by rw [hfind.run, h]; rfl) hnext

theorem CutInto.collects_iff (h : CutInto cut t parts tail) (hfind : Finds find cut)
    {spans : List Span} : Collects (find t) 0 spans ↔ spans = spansFrom 0 parts := by
  have hcollects : Collects (find t) 0 (spansFrom 0 parts) := h.collects hfind []
  constructor
  · exact fun hspans => hspans.unique hcollects
  · rintro rfl
    exact hcollects

theorem CutInto.removeSpans?_eq (h : CutInto cut t parts tail) (hfind : Finds find cut) :
    removeSpans? t 0 (spansFrom 0 parts) = some (remainder parts tail) := by
  rw [h.eq_whole hfind]
  exact removeSpans?_spansFrom [] tail parts

end

end Stencil.Text
