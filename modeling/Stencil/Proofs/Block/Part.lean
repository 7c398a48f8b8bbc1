import Stencil.Placeholder.Tightening
import Stencil.Proofs.Block.Tag
import Stencil.Proofs.Expression.Grammar

/-!
Texts as lists of parts: leaves, each a plain text or a placeholder, and blocks of leaves.  Applying
a rule to the source of parts is applying it to the parts, because no tag and no delimiter begins or
ends inside a leaf.
-/

namespace Stencil

open Text

theorem mem_of_lookup_eq_some {α : Type} {entries : List (Text × α)} {name : Text} {a : α}
    (h : entries.lookup name = some a) : (name, a) ∈ entries := by
  obtain ⟨front, back, rfl, -⟩ := List.lookup_eq_some_iff.mp h
  simp

/-- A text in which no delimiter and no tag can begin, and none can end that began before it. -/
structure Plain (t : Text) : Prop where
  opens : '{' ∉ t
  closes : '}' ∉ t
  tags : '<' ∉ t

instance (t : Text) : Decidable (Plain t) :=
  decidable_of_iff ('{' ∉ t ∧ '}' ∉ t ∧ '<' ∉ t)
    ⟨fun h => ⟨h.1, h.2.1, h.2.2⟩, fun h => ⟨h.opens, h.closes, h.tags⟩⟩

theorem plain_of_isKey {key : Text} (h : isKey key) : Plain key :=
  ⟨notMem_of_isKey h (by decide), notMem_of_isKey h (by decide), notMem_of_isKey h (by decide)⟩

theorem plain_of_isName {name : Text} (h : isName name) : Plain name :=
  ⟨notMem_of_isName h (by decide), notMem_of_isName h (by decide),
    notMem_of_isName h (by decide)⟩

theorem Plain.append {front back : Text} (h : Plain front) (h' : Plain back) :
    Plain (front ++ back) := by
  constructor
  · simp [h.opens, h'.opens]
  · simp [h.closes, h'.closes]
  · simp [h.tags, h'.tags]

theorem plain_field {key name : Text} (hkey : isKey key) (hname : Plain name) :
    Plain (key ++ ['.'] ++ name) :=
  ((plain_of_isKey hkey).append (by decide)).append hname

theorem Plain.sublist {t t' : Text} (h : Plain t) (hsub : t'.Sublist t) : Plain t' :=
  ⟨fun hmem => h.opens (hsub.subset hmem), fun hmem => h.closes (hsub.subset hmem),
    fun hmem => h.tags (hsub.subset hmem)⟩

theorem skips_delimited_tail (inner : Text) {inner' : Text} (h : Plain inner') :
    Skips (delimited inner) (delimited inner').tail := by
  have hpattern : delimited inner = '{' :: '{' :: (inner ++ closing) := by
    simp [delimited, opening]
  have htail : (delimited inner').tail = '{' :: (inner' ++ ['}', '}']) := by
    simp [delimited, opening, closing]
  rw [hpattern, htail]
  constructor
  · intro rest hstarts
    -- a placeholder that began one brace further on would need a second brace there
    rw [List.cons_prefix_cons] at hstarts
    cases inner' with
    | nil => simp at hstarts
    | cons c inner' =>
        rw [List.cons_append, List.cons_append, List.cons_prefix_cons] at hstarts
        obtain ⟨-, rfl, -⟩ := hstarts
        exact h.opens (by simp)
  · apply skips_of_notMem
    simp [h.opens]

theorem skips_delimited_of_ne {inner inner' : Text} (h : Plain inner) (h' : Plain inner')
    (hne : inner ≠ inner') : Skips (delimited inner) (delimited inner') := by
  have htail := skips_delimited_tail inner h'
  have hpattern : delimited inner = '{' :: '{' :: (inner ++ ['}'] ++ ['}']) := by
    simp [delimited, opening, closing]
  have htext : delimited inner' = '{' :: '{' :: (inner' ++ '}' :: ['}']) := by
    simp [delimited, opening, closing]
  rw [htext] at htail ⊢
  refine ⟨?_, htail⟩
  intro rest hstarts
  rw [hpattern, List.cons_prefix_cons, List.cons_append, List.cons_prefix_cons,
    List.append_assoc inner'] at hstarts
  obtain ⟨-, -, hstarts⟩ := hstarts
  apply hne
  apply eq_of_append_cons_isPrefix h.closes h'.closes
  exact (List.prefix_append _ _).trans hstarts

/-- The inner text of a placeholder, on one line and tight between its delimiters. -/
structure Inner (inner : Text) : Prop extends Plain inner where
  line : '\n' ∉ inner
  head : ∀ c ∈ inner.head?, isInlineSpace c = false
  last : ∀ c ∈ inner.getLast?, isInlineSpace c = false

/-- A plain text, or a placeholder. -/
inductive Leaf where
  | text (t : Text)
  | slot (inner : Text)

namespace Leaf

def source : Leaf → Text
  | text t => t
  | slot inner => delimited inner

/-- A plain text, or a placeholder with a tight inner text on one line. -/
def WellFormed : Leaf → Prop
  | text t => Plain t
  | slot inner => Inner inner

/-- The leaf with a text in the place of a placeholder that the table names. -/
def fill (entries : List (Text × Text)) : Leaf → Leaf
  | text t => text t
  | slot inner =>
      match entries.lookup inner with
      | some value => text value
      | none => slot inner

theorem fill_nil (l : Leaf) : l.fill [] = l := by
  cases l with
  | text t => rfl
  | slot inner => rfl

theorem fill_cons (e : Text × Text) (entries : List (Text × Text)) (l : Leaf) :
    l.fill (e :: entries) = (l.fill [e]).fill entries := by
  cases l with
  | text t => rfl
  | slot inner =>
      obtain ⟨key, value⟩ := e
      by_cases h : inner = key
      · simp [fill, h]
      · have hb : (inner == key) = false := by simpa using h
        simp [fill, List.lookup_cons, hb]

theorem wellFormed_fill {entries : List (Text × Text)} (hentries : ∀ e ∈ entries, Plain e.2)
    {l : Leaf} (hl : l.WellFormed) : (l.fill entries).WellFormed := by
  cases l with
  | text t => exact hl
  | slot inner =>
      rw [fill]
      split
      next value h => exact hentries _ (mem_of_lookup_eq_some h)
      next => exact hl

theorem tags_notMem_source {l : Leaf} (hl : l.WellFormed) : '<' ∉ l.source := by
  cases l with
  | text t => exact hl.tags
  | slot inner => simp [source, delimited, opening, closing, hl.tags]

theorem tags_notMem_flatMap_source {leaves : List Leaf} (h : ∀ l ∈ leaves, l.WellFormed) :
    '<' ∉ leaves.flatMap source := by
  intro hmem
  obtain ⟨l, hl, hmem⟩ := List.mem_flatMap.mp hmem
  exact tags_notMem_source (h l hl) hmem

theorem replaceAll_source_append {l : Leaf} (hl : l.WellFormed) {inner : Text}
    (hinner : Plain inner) (value t : Text) :
    replaceAll (delimited inner) value (l.source ++ t) =
      (l.fill [(inner, value)]).source ++ replaceAll (delimited inner) value t := by
  have hpattern : delimited inner = '{' :: ('{' :: inner ++ closing) := by
    simp [delimited, opening]
  cases l with
  | text s =>
      apply replaceAll_append_of_skips
      rw [hpattern]
      exact skips_of_notMem _ hl.opens
  | slot inner' =>
      by_cases h : inner' = inner
      · subst h
        have hfill : (slot inner').fill [(inner', value)] = text value := by
          simp [fill]
        rw [hfill, source, source, hpattern, replaceAll_pattern_append]
      · have hfill : (slot inner').fill [(inner, value)] = slot inner' := by
          simp [fill, h]
        rw [hfill]
        exact replaceAll_append_of_skips
          (skips_delimited_of_ne hinner hl.toPlain (Ne.symm h)) value t

end Leaf

/-- A leaf, or a block of leaves. -/
inductive Part where
  | leaf (l : Leaf)
  | block (kind : BlockKind) (key : Text) (body : List Leaf)

namespace Part

def source : Part → Text
  | leaf l => l.source
  | block kind key body =>
      Block.openTag kind key ++ (body.flatMap Leaf.source ++ Block.closeTag kind key)

/-- A well-formed leaf, or a block of such leaves under a key. -/
def WellFormed : Part → Prop
  | leaf l => l.WellFormed
  | block _ key body => isKey key ∧ ∀ l ∈ body, l.WellFormed

theorem flatMap_source_leaves (leaves : List Leaf) :
    (leaves.map leaf).flatMap source = leaves.flatMap Leaf.source := by
  rw [List.flatMap_map]
  rfl

/-- The part with texts in the places of the placeholders that the table names. -/
def fill (entries : List (Text × Text)) : Part → Part
  | leaf l => leaf (l.fill entries)
  | block kind key body => block kind key (body.map (Leaf.fill entries))

theorem wellFormed_fill {entries : List (Text × Text)} (hentries : ∀ e ∈ entries, Plain e.2)
    {p : Part} (hp : p.WellFormed) : (p.fill entries).WellFormed := by
  cases p with
  | leaf l => exact Leaf.wellFormed_fill hentries hp
  | block kind key body =>
      refine ⟨hp.1, ?_⟩
      intro l hl
      obtain ⟨l', hl', rfl⟩ := List.mem_map.mp hl
      exact Leaf.wellFormed_fill hentries (hp.2 l' hl')

theorem replaceAll_leaves_append {leaves : List Leaf} (hleaves : ∀ l ∈ leaves, l.WellFormed)
    {inner : Text} (hinner : Plain inner) (value t : Text) :
    replaceAll (delimited inner) value (leaves.flatMap Leaf.source ++ t) =
      (leaves.map (Leaf.fill [(inner, value)])).flatMap Leaf.source ++
        replaceAll (delimited inner) value t := by
  induction leaves with
  | nil => rfl
  | cons l leaves ih =>
      have hl : l.WellFormed := hleaves l (by simp)
      have htail := ih fun l' hl' => hleaves l' (List.mem_cons_of_mem _ hl')
      rw [List.flatMap_cons, List.append_assoc, Leaf.replaceAll_source_append hl hinner, htail,
        List.map_cons, List.flatMap_cons, List.append_assoc]

theorem replaceAll_source_append {p : Part} (hp : p.WellFormed) {inner : Text}
    (hinner : Plain inner) (value t : Text) :
    replaceAll (delimited inner) value (p.source ++ t) =
      (p.fill [(inner, value)]).source ++ replaceAll (delimited inner) value t := by
  cases p with
  | leaf l => exact Leaf.replaceAll_source_append hp hinner value t
  | block kind key body =>
      have htag (ends : Bool) : Skips (delimited inner) (Block.tag ends kind key) :=
        skips_of_notMem _ (Block.notMem_tag hp.1 (by decide) (by decide) ends kind)
      simp only [source, fill, Block.openTag_eq_tag, Block.closeTag_eq_tag, List.append_assoc]
      rw [replaceAll_append_of_skips (htag false), replaceAll_leaves_append hp.2 hinner,
        replaceAll_append_of_skips (htag true)]

theorem replaceAll_flatMap_source {parts : List Part} (hparts : ∀ p ∈ parts, p.WellFormed)
    {inner : Text} (hinner : Plain inner) (value : Text) :
    replaceAll (delimited inner) value (parts.flatMap source) =
      (parts.map (fill [(inner, value)])).flatMap source := by
  induction parts with
  | nil => exact replaceAll_nil _ _
  | cons p parts ih =>
      have hp : p.WellFormed := hparts p (by simp)
      have htail := ih fun q hq => hparts q (List.mem_cons_of_mem _ hq)
      rw [List.flatMap_cons, replaceAll_source_append hp hinner, htail, List.map_cons,
        List.flatMap_cons]

theorem fill_cons (e : Text × Text) (entries : List (Text × Text)) (p : Part) :
    p.fill (e :: entries) = (p.fill [e]).fill entries := by
  cases p with
  | leaf l => rw [fill, fill, fill, Leaf.fill_cons]
  | block kind key body =>
      simp only [fill, List.map_map]
      congr 2
      funext l
      exact Leaf.fill_cons e entries l

theorem fill_nil (p : Part) : p.fill [] = p := by
  cases p with
  | leaf l => rw [fill, Leaf.fill_nil]
  | block kind key body =>
      have hid : Leaf.fill [] = id := funext Leaf.fill_nil
      rw [fill, hid, List.map_id]

theorem foldl_replaceAll_source {entries : List (Text × Text)}
    (hentries : ∀ e ∈ entries, Plain e.1 ∧ Plain e.2) {parts : List Part}
    (hparts : ∀ p ∈ parts, p.WellFormed) :
    entries.foldl (fun t e => replaceAll (delimited e.1) e.2 t) (parts.flatMap source) =
      (parts.map (fill entries)).flatMap source := by
  induction entries generalizing parts with
  | nil =>
      have hid : fill [] = id := funext fill_nil
      rw [List.foldl_nil, hid, List.map_id]
  | cons e entries ih =>
      obtain ⟨hname, hvalue⟩ := hentries e (by simp)
      have hfilled : ∀ p ∈ parts.map (fill [e]), p.WellFormed := by
        intro p hp
        obtain ⟨q, hq, rfl⟩ := List.mem_map.mp hp
        apply wellFormed_fill _ (hparts q hq)
        simpa using hvalue
      rw [List.foldl_cons, replaceAll_flatMap_source hparts hname,
        ih (fun e' he' => hentries e' (List.mem_cons_of_mem _ he')) hfilled, List.map_map]
      congr 2
      funext p
      exact (fill_cons e entries p).symm

end Part

end Stencil
