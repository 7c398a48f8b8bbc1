import Stencil.Proofs.Block.Fragments
import Stencil.Proofs.Block.Sweep
import Stencil.Proofs.Text.Spans

namespace Stencil.Block

open Text

/-- The span of the next tag with a head, whatever the key in it. -/
def findTag? (head t : Text) (cursor : Nat) : OptionT Option Span := do
  let start ← findFrom? head t cursor
  let last ← findFrom? ['>'] t start
  return ⟨start, last + 1⟩

/-- The span of the next block of a key. -/
def nextBlock? (kind : BlockKind) (key : Text) : Text → Nat → OptionT Option Span :=
  findThrough? (findText? (openTag kind key)) (findText? (closeTag kind key))

/-- The span of the next block of a kind. -/
def nextOfKind? (kind : BlockKind) : Text → Nat → OptionT Option Span :=
  findThrough? (findTag? (openHead kind)) (findTag? (closeHead kind))

/-- The body by the bytes of its block. -/
def bodySlice? (kind : BlockKind) (key t : Text) (s : Span) : Option Text :=
  t.slice? (s.start + (openTag kind key).utf8Size) (s.stop - (closeTag kind key).utf8Size)

/-- The text in which the rows take the place of a loop, by the bytes of its block. -/
def expandSpan? (key : Text) (rows : List Row) (t : Text) (s : Span) : Option Text := do
  let body ← bodySlice? .loop key t s
  let before ← t.slice? 0 s.start
  let behind ← t.slice? s.stop t.utf8Size
  return before ++ rows.flatMap (instantiate key body) ++ behind

/-- An opening tag of a key stands in the text and a closing tag of the key behind it. -/
def HoldsTags (kind : BlockKind) (key t : Text) : Prop :=
  ∃ front body back, t = front ++ (openTag kind key ++ (body ++ (closeTag kind key ++ back)))

/-- Spans that reach from opening tags of a key to the first closing tags behind them, and miss no
pair of such tags. -/
structure SpansOfKey (kind : BlockKind) (key t : Text) (spans : List Span) : Prop where
  fits : Fits t spans
  tags : ∀ s ∈ spans, ∃ body,
    t.slice? s.start s.stop = some (openTag kind key ++ (body ++ closeTag kind key)) ∧
      bodySlice? kind key t s = some body ∧ ¬ closeTag kind key <:+: body
  length : ∀ s ∈ spans,
    (openTag kind key).utf8Size + (closeTag kind key).utf8Size ≤ s.stop - s.start
  complete : NoneOutside t spans (HoldsTags kind key)

variable {kind : BlockKind} {key t : Text}

/-- What is cut at the next tag with the given head: the bytes up to the end of the tag. -/
def cutTag? (head t : Text) : Option (Stretch × Text) :=
  (cut? head t).bind fun (before, t) =>
    (cut? ['>'] t).map fun (key, rest) => (⟨before, anyTag head key⟩, rest)

/-- What is cut at the next block of a key. -/
def cutBlock? (kind : BlockKind) (key : Text) : Text → Option (Stretch × Text) :=
  cutThrough? (cutText? (openTag kind key)) (cutText? (closeTag kind key))

/-- What is cut at the next block of a kind, whatever the keys in its tags. -/
def cutOfKind? (kind : BlockKind) : Text → Option (Stretch × Text) :=
  cutThrough? (cutTag? (openHead kind)) (cutTag? (closeHead kind))

theorem finds_findTag? {head : Text} (hhead : '>' ∉ head) :
    Finds (findTag? head) (cutTag? head) := by
  constructor
  · intro t p rest h
    simp only [cutTag?, Option.bind_eq_some_iff, Option.map_eq_some_iff, Prod.exists,
      Prod.mk.injEq] at h
    obtain ⟨before, t', hhead, key, _, hangle, rfl, rfl⟩ := h
    rw [eq_of_cut? hhead, eq_of_cut? hangle]
    simp [anyTag]
  · intro front t
    rw [findTag?, OptionT.run_bind, run_findFrom?]
    cases hcut : cut? head t with
    | none =>
        rw [cutTag?, hcut]
        rfl
    | some cut =>
        obtain ⟨before, t'⟩ := cut
        have hcutTag : cutTag? head t = (cut? ['>'] t').map fun (key, rest) =>
            (⟨before, anyTag head key⟩, rest) := by
          rw [cutTag?, hcut]
          rfl
        -- the end of the tag is searched from its beginning, and its head is passed by
        have ht : front ++ before ++ (head ++ t') = front ++ t := by
          rw [eq_of_cut? hcut]
          simp
        have hangle := run_findFrom? ['>'] (front ++ before) (head ++ t')
        rw [ht, utf8Size_append, cut?_append_of_skips (skips_of_notMem [] hhead)] at hangle
        show (findFrom? ['>'] (front ++ t) (front.utf8Size + before.utf8Size) >>= _).run = _
        rw [OptionT.run_bind, hangle, hcutTag]
        cases cut? ['>'] t' with
        | none => rfl
        | some cut =>
            simp only [Option.map_some, Prod.map, Stretch.span, anyTag, utf8Size_append,
              ← Nat.add_assoc]
            rfl

theorem finds_nextBlock? (kind : BlockKind) (key : Text) :
    Finds (nextBlock? kind key) (cutBlock? kind key) :=
  (finds_findText? _).through (finds_findText? _)

theorem finds_nextOfKind? (kind : BlockKind) : Finds (nextOfKind? kind) (cutOfKind? kind) :=
  (finds_findTag? (by cases kind <;> decide)).through (finds_findTag? (by cases kind <;> decide))

/-- A block, from its opening tag to its closing tag, and what stands before it. -/
def stretch (kind : BlockKind) (key : Text) (b : Block) : Stretch :=
  ⟨b.before, openTag kind key ++ (b.body ++ closeTag kind key)⟩

@[simp] theorem stretch_before (kind : BlockKind) (key : Text) (b : Block) :
    (stretch kind key b).before = b.before := rfl

theorem cutBlock?_eq (kind : BlockKind) (key t : Text) :
    cutBlock? kind key t = (first? kind key t).map (Prod.map (stretch kind key) id) := by
  rw [cutBlock?, cutThrough?, cutText?, first?]
  cases cut? (openTag kind key) t with
  | none => rfl
  | some cut =>
      simp only [Option.map_some, Option.bind_some, cutText?]
      cases cut? (closeTag kind key) cut.2 with
      | none => rfl
      | some cut => rfl

theorem cutInto_ofText (kind : BlockKind) (key t : Text) :
    CutInto (cutBlock? kind key) t ((ofText kind key t).1.map (stretch kind key))
      (ofText kind key t).2 := by
  fun_induction ofText kind key t with
  | case1 t h => exact .last (by rw [cutBlock?_eq, h]; rfl)
  | case2 t b rest h blocks tail hr ih =>
      rw [hr] at ih
      exact .more (by rw [cutBlock?_eq, h]; rfl) ih

theorem remainder_ofText (kind : BlockKind) (key t : Text) :
    remainder ((ofText kind key t).1.map (stretch kind key)) (ofText kind key t).2 =
      outside kind key t := by
  rw [outside]
  induction (ofText kind key t).1 with
  | nil => rfl
  | cons b blocks ih =>
      rw [List.map_cons, remainder_cons, ih, List.flatMap_cons, List.append_assoc]
      rfl

theorem CutAtBlocks.eq_whole {blocks : List Block} {tail : Text}
    (h : CutAtBlocks kind key t blocks tail) : t = whole (blocks.map (stretch kind key)) tail := by
  rw [h.text]
  clear h
  induction blocks with
  | nil => rfl
  | cons b blocks ih =>
      rw [List.map_cons, whole_cons, ← ih, List.flatMap_cons]
      simp [stretch, source]

theorem CutAtBlocks.spansOfKey {blocks : List Block} {tail : Text}
    (h : CutAtBlocks kind key t blocks tail) :
    SpansOfKey kind key t (spansFrom 0 (blocks.map (stretch kind key))) := by
  obtain rfl := h.eq_whole
  have hsource : ∀ s ∈ spansFrom 0 (blocks.map (stretch kind key)), ∃ b ∈ blocks,
      slice? (whole (blocks.map (stretch kind key)) tail) s.start s.stop =
        some (openTag kind key ++ (b.body ++ closeTag kind key)) := by
    intro s hs
    obtain ⟨p, hp, hslice⟩ := exists_slice?_of_mem_spansFrom tail hs
    obtain ⟨b, hb, rfl⟩ := List.mem_map.mp hp
    exact ⟨b, hb, hslice⟩
  constructor
  · apply fits_spansFrom
    simp [stretch, openTag_ne_nil]
  · intro s hs
    obtain ⟨b, hb, hslice⟩ := hsource s hs
    exact ⟨b.body, hslice, slice?_of_slice?_append hslice, (h.first b hb).2⟩
  · intro s hs
    obtain ⟨b, hb, hslice⟩ := hsource s hs
    obtain ⟨_, _, -, -, hstop⟩ := slice?_eq_some_iff.mp hslice
    simp only [utf8Size_append] at hstop
    omega
  · apply noneOutside_spansFrom
    · rintro p hp _ hpart ⟨front, body, back, rfl⟩
      obtain ⟨b, hb, rfl⟩ := List.mem_map.mp hp
      have hopen : openTag kind key <:+: b.before :=
        List.IsInfix.trans ⟨front, body ++ (closeTag kind key ++ back), by simp⟩ hpart
      exact (h.first b hb).1 hopen
    · rintro _ ⟨front', back', htail⟩ ⟨front, body, back, rfl⟩
      apply h.last (front' ++ front) body (back ++ back')
      rw [← htail]
      simp

theorem length_spansFrom_map_stretch (offset : Nat) (blocks : List Block) :
    (spansFrom offset (blocks.map (stretch kind key))).length = blocks.length := by
  induction blocks generalizing offset with
  | nil => rfl
  | cons b blocks ih => rw [List.map_cons, spansFrom, List.length_cons, ih, List.length_cons]

theorem around?_eq (kind : BlockKind) (t : Text) :
    around? kind t = (cutOfKind? kind t).map fun (p, rest) => (p.before, rest) := by
  simp only [around?, cutOfKind?, cutThrough?, cutTag?, Option.bind_eq_bind, Option.map_eq_bind,
    Option.bind_assoc, Option.bind_some, Function.comp_def]

theorem exists_cutInto_sweep (kind : BlockKind) (t : Text) :
    ∃ parts tail, CutInto (cutOfKind? kind) t parts tail ∧
      remainder parts tail = sweep kind t := by
  fun_induction sweep kind t with
  | case1 t h =>
      rw [around?_eq, Option.map_eq_none_iff] at h
      exact ⟨[], t, .last h, rfl⟩
  | case2 t before rest h ih =>
      obtain ⟨parts, tail, hcuts, hsweep⟩ := ih
      rw [around?_eq, Option.map_eq_some_iff] at h
      obtain ⟨⟨p, rest⟩, hcut, heq⟩ := h
      obtain ⟨rfl, rfl⟩ := Prod.mk.inj heq
      exact ⟨p :: parts, tail, .more hcut hcuts, by rw [remainder_cons, hsweep]⟩

theorem HoldsBlock.of_isInfix {part : Text} (h : HoldsBlock kind part) (hpart : part <:+: t) :
    HoldsBlock kind t := by
  obtain ⟨before, key, body, key', rest, hkey, hkey', rfl⟩ := h
  obtain ⟨front, back, rfl⟩ := hpart
  exact ⟨front ++ before, key, body, key', rest ++ back, hkey, hkey', by simp⟩

theorem HoldsBlock.openHead_isInfix (h : HoldsBlock kind t) : openHead kind <:+: t := by
  obtain ⟨before, key, body, key', rest, -, -, rfl⟩ := h
  exact ⟨before, key ++ (['>'] ++ (body ++ (anyTag (closeHead kind) key' ++ rest))), by
    simp [anyTag]⟩

theorem stretch_of_cutOfKind? {p : Stretch} {rest : Text}
    (h : cutOfKind? kind t = some (p, rest)) :
    ¬ openHead kind <:+: p.before ∧ p.taken ≠ [] := by
  simp only [cutOfKind?, cutThrough?, cutTag?, Option.bind_eq_some_iff, Option.map_eq_some_iff,
    Prod.exists, Prod.mk.injEq] at h
  obtain ⟨_, _, ⟨before, _, hopen, key, _, -, rfl, rfl⟩, _, _, -, rfl, rfl⟩ := h
  exact ⟨(passes_of_cut? hopen).not_isInfix, by simp [anyTag, openHead]⟩

theorem spansOfKind_spansFrom {parts : List Stretch} {tail : Text}
    (h : CutInto (cutOfKind? kind) t parts tail) :
    Fits t (spansFrom 0 parts) ∧ NoneOutside t (spansFrom 0 parts) (HoldsBlock kind) := by
  have hstretch : ∀ p ∈ parts, ¬ openHead kind <:+: p.before ∧ p.taken ≠ [] := by
    intro p hp
    obtain ⟨_, _, hcut⟩ := h.exists_cut hp
    exact stretch_of_cutOfKind? hcut
  have htail : ¬ HoldsBlock kind tail := by
    rw [← around?_eq_none_iff, around?_eq, h.cut_tail]
    rfl
  rw [h.eq_whole (finds_nextOfKind? kind)]
  refine ⟨fits_spansFrom tail fun p hp => (hstretch p hp).2, noneOutside_spansFrom ?_ ?_⟩
  · intro p hp part hpart hblock
    exact (hstretch p hp).1 (hblock.openHead_isInfix.trans hpart)
  · intro part hpart hblock
    exact htail (hblock.of_isInfix hpart)

theorem expandSpan?_of_single {b : Block} {tail : Text} (h : ofText .loop key t = ([b], tail))
    (rows : List Row) : expandSpan? key rows t ((stretch .loop key b).span 0) =
      some (b.before ++ rows.flatMap (instantiate key b.body) ++ tail) := by
  have ht := (cutAtBlocks_ofText .loop key t).eq_whole
  rw [h, List.map_singleton, whole_cons, whole_nil, stretch_before] at ht
  have hbefore := slice?_append [] b.before ((stretch .loop key b).taken ++ tail)
  have hspan := slice?_append b.before (stretch .loop key b).taken tail
  have hbehind := slice?_append_to_end (b.before ++ (stretch .loop key b).taken) tail
  rw [List.nil_append, ← ht, utf8Size_nil, Nat.zero_add] at hbefore
  rw [← ht] at hspan
  rw [List.append_assoc, ← ht, utf8Size_append] at hbehind
  have hbody := slice?_of_slice?_append hspan
  simp only [expandSpan?, bodySlice?, Stretch.span, Nat.zero_add, stretch_before]
  rw [hbody, hbefore, hbehind]
  rfl

/-- The loops over the bytes of a text run through and collect spans that fit it and miss nothing.
Taking them out copies the text outside them, and that is what the rules and the sweep do. -/
theorem block_spans_fit (hkey : isKey key) (kind : BlockKind) (t : Text) :
    (∃ spans, (∀ spans', Collects (nextBlock? kind key t) 0 spans' ↔ spans' = spans) ∧
      SpansOfKey kind key t spans ∧
      removeSpans? t 0 spans = some (t.pick (isOutside spans))) ∧
    (∃ spans, (∀ spans', Collects (nextOfKind? kind t) 0 spans' ↔ spans' = spans) ∧
      Fits t spans ∧ NoneOutside t spans (HoldsBlock kind) ∧
      removeSpans? t 0 spans = some (t.pick (isOutside spans)) ∧
      removeSpans? t 0 spans = some (sweep kind t)) ∧
    (∀ spans, Collects (nextBlock? .condition key t) 0 spans → ∀ ws,
      (removeSpans? t 0 spans).map (dropTags .condition key) =
        some (resolveCondition key false t ws).1) ∧
    (∀ spans, Collects (nextBlock? .loop key t) 0 spans →
      spans.length = (ofText .loop key t).1.length ∧
        ∀ s, spans = [s] → ∀ rows ws,
          (expandSpan? key rows t s).map (dropTags .loop key) =
            some (resolveLoop key rows t ws).1) := by
  have hfind := finds_nextBlock?
  refine ⟨?_, ?_, ?_, ?_⟩
  · have hcuts := cutInto_ofText kind key t
    have hspans := (cutAtBlocks_ofText kind key t).spansOfKey
    exact ⟨_, fun _ => hcuts.collects_iff (hfind kind key), hspans, hspans.fits.removeSpans?_eq⟩
  · obtain ⟨parts, tail, hcuts, hsweep⟩ := exists_cutInto_sweep kind t
    obtain ⟨hfits, hnone⟩ := spansOfKind_spansFrom hcuts
    refine ⟨_, fun _ => hcuts.collects_iff (finds_nextOfKind? kind), hfits, hnone,
      hfits.removeSpans?_eq, ?_⟩
    rw [hcuts.removeSpans?_eq (finds_nextOfKind? kind), hsweep]
  · intro spans hspans ws
    have hcuts := cutInto_ofText .condition key t
    obtain rfl := (hcuts.collects_iff (hfind _ key)).mp hspans
    rw [hcuts.removeSpans?_eq (hfind _ key), remainder_ofText, fst_resolveCondition hkey]
    rfl
  · intro spans hspans
    have hcuts := cutInto_ofText .loop key t
    obtain rfl := (hcuts.collects_iff (hfind _ key)).mp hspans
    refine ⟨length_spansFrom_map_stretch 0 _, ?_⟩
    intro s hs rows ws
    obtain ⟨b, hb⟩ : ∃ b, (ofText .loop key t).1 = [b] := by
      rw [← List.length_eq_one_iff, ← length_spansFrom_map_stretch 0, hs]
      rfl
    have hsingle : ofText .loop key t = ([b], (ofText .loop key t).2) := by rw [← hb]
    rw [hb] at hs
    obtain rfl : (stretch .loop key b).span 0 = s := (List.cons.inj hs).1
    rw [expandSpan?_of_single hsingle, resolveLoop_of_single hkey hsingle]
    rfl

theorem adjacent_blocks_fit :
    isKey ['a'] ∧
      Collects (nextBlock? .condition ['a'] "é<if.a>ü</if.a><if.a></if.a></if.a>ß<if.a>".toList) 0
        [⟨2, 17⟩, ⟨17, 30⟩] ∧
      SpansOfKey .condition ['a'] "é<if.a>ü</if.a><if.a></if.a></if.a>ß<if.a>".toList
        [⟨2, 17⟩, ⟨17, 30⟩] ∧
      removeSpans? "é<if.a>ü</if.a><if.a></if.a></if.a>ß<if.a>".toList 0 [⟨2, 17⟩, ⟨17, 30⟩] =
        some "é</if.a>ß<if.a>".toList := by
  have hkey : isKey ['a'] := by decide
  have hcollects : Collects
      (nextBlock? .condition ['a'] "é<if.a>ü</if.a><if.a></if.a></if.a>ß<if.a>".toList) 0
      [⟨2, 17⟩, ⟨17, 30⟩] :=
    .more (by decide) (.more (by decide) (.done (by decide)))
  obtain ⟨spans, hunique, hspans, -⟩ :=
    (block_spans_fit hkey .condition "é<if.a>ü</if.a><if.a></if.a></if.a>ß<if.a>".toList).1
  obtain rfl := (hunique _).mp hcollects
  exact ⟨hkey, hcollects, hspans, by decide⟩

end Stencil.Block
