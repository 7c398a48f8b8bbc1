import Mathlib.Data.List.Basic
import Stencil.Proofs.Template.Flat

namespace Stencil

open Text

namespace Flat

theorem Inline.notMem_source {i : Inline} (h : i.WellFormed) {c : Char}
    (hc : c = '\x60' ∨ c = '?') : c ∉ i.source := by
  have hreserved : c ∈ reserved := by rcases hc with rfl | rfl <;> decide
  have hpart : isKeyPart c = false := by rcases hc with rfl | rfl <;> decide
  have hname : isNamePart c = false := by rcases hc with rfl | rfl <;> decide
  have hbrace : c ≠ '{' ∧ c ≠ '}' := by rcases hc with rfl | rfl <;> decide
  cases i with
  | text t => exact h c hreserved
  | static key =>
      simp [source, delimited, opening, closing, notMem_of_isKey h hpart, hbrace]
  | expression e =>
      have hother : c ∉ ['$', '[', ']', '\'', '"', '-', '>'] := by
        rcases hc with rfl | rfl <;> decide
      have hrender : c ∉ e.render :=
        Expression.notMem_render h.1.wellFormed hname hother fun k hk => (h.2 k hk).2 c hreserved
      simp [source, delimited, opening, closing, hrender, hbrace]

theorem BodyPart.notMem_source {key : Text} (hkey : isKey key) {p : BodyPart} (h : p.WellFormed)
    {c : Char} (hc : c = '\x60' ∨ c = '?') : c ∉ p.source key := by
  have hpart : isKeyPart c = false := by rcases hc with rfl | rfl <;> decide
  have hname : isNamePart c = false := by rcases hc with rfl | rfl <;> decide
  have hother : c ≠ '{' ∧ c ≠ '}' ∧ c ≠ '.' := by rcases hc with rfl | rfl <;> decide
  cases p with
  | inline i => exact i.notMem_source h hc
  | field name =>
      simp [source, delimited, opening, closing, notMem_of_isKey hkey hpart,
        notMem_of_isName h hname, hother]

theorem Item.notMem_source {i : Item} (h : i.WellFormed) {c : Char} (hc : c = '\x60' ∨ c = '?') :
    c ∉ i.source := by
  have htag {key : Text} (hkey : isKey key) (ends : Bool) (kind : BlockKind) :
      c ∉ Block.tag ends kind key := by
    apply Block.notMem_tag hkey
    · rcases hc with rfl | rfl <;> decide
    · rcases hc with rfl | rfl <;> decide
  cases i with
  | inline i => exact i.notMem_source h hc
  | condition key body =>
      rw [source, Block.openTag_eq_tag, Block.closeTag_eq_tag, List.mem_append, List.mem_append,
        List.mem_flatMap]
      rintro (hmem | ⟨i, hi, hmem⟩ | hmem)
      · exact htag h.1 _ _ hmem
      · exact i.notMem_source (h.2 i hi) hc hmem
      · exact htag h.1 _ _ hmem
  | loop key body =>
      rw [source, Block.openTag_eq_tag, Block.closeTag_eq_tag, List.mem_append, List.mem_append,
        List.mem_flatMap]
      rintro (hmem | ⟨p, hp, hmem⟩ | hmem)
      · exact htag h.1 _ _ hmem
      · exact p.notMem_source h.1 (h.2 p hp) hc hmem
      · exact htag h.1 _ _ hmem

theorem sanitize_source (f : Flat) : sanitize f.source = f.source := by
  have hnot {c : Char} (hc : c = '\x60' ∨ c = '?') : c ∉ f.source := by
    intro hmem
    obtain ⟨i, hi, hmem⟩ := List.mem_flatMap.mp hmem
    exact i.notMem_source (f.wellFormed i hi) hc hmem
  exact sanitize_of_notMem (hnot (Or.inl rfl)) (hnot (Or.inr rfl))

theorem lookup_eq_none_of_ne {α : Type} {entries : List (Text × α)} {name : Text}
    (h : ∀ e ∈ entries, name ≠ e.1) : entries.lookup name = none := by
  rw [List.lookup_eq_none_iff]
  intro e he
  simpa using h e he

theorem lookup_staticEntries (t : Template) (key : Text) :
    t.staticEntries.lookup key = (t.statics.get? key).map sanitize := by
  rw [Template.staticEntries, Bindings.get?]
  induction t.statics.entries with
  | nil => rfl
  | cons e entries ih =>
      rw [List.map_cons, List.lookup_cons, List.lookup_cons, ih]
      cases key == e.1 with
      | false => rfl
      | true => rfl

theorem lookup_rowEntries (key name : Text) (row : Row) :
    (Part.rowEntries key row).lookup (key ++ ['.'] ++ name) = row.get? name := by
  rw [Part.rowEntries, Bindings.get?]
  induction row.entries with
  | nil => rfl
  | cons e entries ih =>
      have hname : (key ++ ['.'] ++ name == key ++ ['.'] ++ e.1) = (name == e.1) := by
        by_cases h : name = e.1
        · simp [h]
        · simp [beq_eq_false_iff_ne.mpr h, h]
      rw [List.map_cons, List.lookup_cons, List.lookup_cons, ih, hname]

theorem dollar_mem_render (e : Expression) : '$' ∈ e.render := by
  simp [Expression.render]

theorem Inline.fill_rowEntries {key : Text} (hkey : isKey key) {row : Row}
    (hrow : Part.PlainRow row) {i : Inline} (h : i.WellFormed) :
    i.leaf.fill (Part.rowEntries key row) = i.leaf := by
  have hslot {inner : Text} (hne : ∀ field, isKey field → inner ≠ key ++ ['.'] ++ field) :
      (Leaf.slot inner).fill (Part.rowEntries key row) = .slot inner := by
    have hnone : (Part.rowEntries key row).lookup inner = none := by
      apply lookup_eq_none_of_ne
      intro e he
      obtain ⟨e', he', rfl⟩ := List.mem_map.mp he
      exact hne e'.1 (hrow e' he').1
    rw [Leaf.fill, hnone]
  cases i with
  | text t => rfl
  | static k =>
      apply hslot
      rintro field - rfl
      have hdot : '.' ∉ key ++ ['.'] ++ field := notMem_of_isKey h (by decide)
      exact hdot (by simp)
  | expression e =>
      apply hslot
      intro field hfield heq
      have hdollar := dollar_mem_render e
      rw [heq] at hdollar
      have hnotKey : '$' ∉ key := notMem_of_isKey hkey (by decide)
      have hnotField : '$' ∉ field := notMem_of_isKey hfield (by decide)
      simp [hnotKey, hnotField] at hdollar

variable {t : Template} {write : OutputFunction} {scope : Scope}

theorem written_slot {inner : Text} (h : '$' ∉ inner) :
    (Leaf.slot inner).written write scope = [] := by
  rw [Leaf.written, directOutput, Expression.staged?_of_notMem h]

theorem Inline.written_fill_leaf (ht : t.PlainRules) {i : Inline} (h : i.WellFormed) :
    (i.leaf.fill t.staticEntries).written write scope = i.meaning t write scope := by
  cases i with
  | text s => rfl
  | static key =>
      rw [leaf, Leaf.fill, lookup_staticEntries, meaning]
      cases t.statics.get? key with
      | some value => rfl
      | none => exact written_slot (notMem_of_isKey h (by decide))
  | expression e =>
      have hnone : t.staticEntries.lookup e.render = none := by
        apply lookup_eq_none_of_ne
        intro entry hentry heq
        obtain ⟨entry', hentry', rfl⟩ := List.mem_map.mp hentry
        have hdollar := dollar_mem_render e
        rw [heq] at hdollar
        exact notMem_of_isKey (ht.statics entry' hentry').1 (by decide) hdollar
      rw [leaf, Leaf.fill, hnone, Leaf.written, directOutput, Expression.staged?_render h.1]
      rfl

theorem BodyPart.written_fill_leaf (ht : t.PlainRules) {key : Text} (hkey : isKey key) {row : Row}
    (hrow : Part.PlainRow row) {p : BodyPart} (h : p.WellFormed) :
    (((p.leaf key).fill (Part.rowEntries key row)).fill t.staticEntries).written write scope =
      p.meaning t write scope row := by
  cases p with
  | inline i =>
      rw [leaf, Inline.fill_rowEntries hkey hrow h]
      exact i.written_fill_leaf ht h
  | field name =>
      rw [leaf, Leaf.fill, lookup_rowEntries, meaning]
      cases row.get? name with
      | some value => rfl
      | none =>
          have hnone : t.staticEntries.lookup (key ++ ['.'] ++ name) = none := by
            apply lookup_eq_none_of_ne
            intro entry hentry heq
            obtain ⟨entry', hentry', rfl⟩ := List.mem_map.mp hentry
            have hdot : '.' ∉ entry'.1 := notMem_of_isKey (ht.statics entry' hentry').1 (by decide)
            exact hdot (heq ▸ by simp)
          have hdollar : '$' ∉ key ++ ['.'] ++ name := by
            have hnotKey : '$' ∉ key := notMem_of_isKey hkey (by decide)
            have hnotName : '$' ∉ name := notMem_of_isName h (by decide)
            simp [hnotKey, hnotName]
          simp only [Leaf.fill, hnone]
          exact written_slot hdollar

theorem flatMap_written_fill (entries : List (Text × Text)) (leaves : List Leaf) :
    (((leaves.map Part.leaf).map (Part.fill entries)).flatMap fun p =>
        p.leaves.flatMap (Leaf.written write scope)) =
      leaves.flatMap fun l => (l.fill entries).written write scope := by
  rw [List.map_map, List.flatMap_map]
  congr 1
  funext l
  exact List.flatMap_singleton _ _

theorem Item.flatMap_written_resolve (ht : t.PlainRules) {i : Item} (h : i.WellFormed) :
    ((t.resolve i.part).flatMap Part.leaves).flatMap (Leaf.written write scope) =
      i.meaning t write scope := by
  rw [List.flatMap_assoc]
  cases i with
  | inline i =>
      have hresolve : t.resolve (inline i).part = ([i.leaf].map .leaf).map
          (Part.fill t.staticEntries) := rfl
      rw [hresolve, flatMap_written_fill, List.flatMap_singleton]
      exact i.written_fill_leaf ht h
  | condition key body =>
      rw [meaning, Bindings.get?, part, Template.resolve]
      cases hlookup : t.conditions.entries.lookup key with
      | none =>
          rw [Part.expand_of_lookup_none hlookup, List.flatMap_singleton,
            Part.expand_of_ne (by decide)]
          rfl
      | some holds =>
          rw [Part.expand_of_lookup hlookup, Part.flatMap_expand_leaves, flatMap_written_fill,
            Part.keptLeaves]
          cases holds with
          | false => rfl
          | true =>
              rw [if_pos rfl, if_pos rfl, List.flatMap_map]
              apply List.flatMap_congr
              intro i hi
              exact i.written_fill_leaf ht (h.2 i hi)
  | loop key body =>
      rw [meaning, Bindings.get?, part, Template.resolve, Part.expand_of_ne (by decide),
        List.flatMap_singleton]
      cases hlookup : t.loops.entries.lookup key with
      | none =>
          rw [Part.expand_of_lookup_none hlookup]
          rfl
      | some rows =>
          have hrows := ht.rows _ (mem_of_lookup_eq_some hlookup)
          rw [Part.expand_of_lookup hlookup, flatMap_written_fill, Part.rowLeaves,
            List.flatMap_assoc, Option.getD_some]
          apply List.flatMap_congr
          intro row hrow
          rw [List.map_map, List.flatMap_map]
          apply List.flatMap_congr
          intro p hp
          exact p.written_fill_leaf ht h.1 (hrows row hrow) (h.2 p hp)

theorem loopKey?_part (i : Item) : i.part.loopKey? = i.loopKey? := by
  cases i with
  | inline i => rfl
  | condition key body => rfl
  | loop key body => rfl

/-- A flat template compiles to its meaning, without the placeholders that were written. -/
theorem compiled_eq_meaning {σ : Type} [MonadFiles (StateM σ)] (f : Flat) (hne : f.source ≠ [])
    {t : Template} (ht : t.PlainRules) (hmode : t.config.cacheMode = .direct)
    (hf : isKey t.config.evaluationFunction) {write : OutputFunction}
    (hw : t.outputs.get? t.config.evaluationFunction = some write) (globals : Scope)
    (fresh : Text) (s : σ) :
    (runOn s ((t.setContent f.source).compile globals fresh : StateM σ Template)).1.compiled =
      stripPlaceholders (f.meaning t write (globals.restrict t.injects)) := by
  have hrules : (t.setContent f.source).PlainRules := ⟨ht.1, ht.2, ht.3, ht.4⟩
  have hcontent : (t.setContent f.source).content = f.source := sanitize_source f
  have hsource : f.source = (f.items.map Item.part).flatMap Part.source := by
    rw [List.flatMap_map, funext Item.source_part]
    rfl
  have hparts : Part.AllWellFormed (f.items.map Item.part) := by
    constructor
    · intro p hp
      obtain ⟨i, hi, rfl⟩ := List.mem_map.mp hp
      exact i.wellFormed_part (f.wellFormed i hi)
    · rw [List.filterMap_map, show Part.loopKey? ∘ Item.part = Item.loopKey? from
        funext loopKey?_part]
      exact f.loopKeys_nodup
  rw [Template.compiled_of_parts hrules hparts (hcontent.trans hsource) (hcontent.symm ▸ hne)
    hmode hf hw]
  congr 1
  rw [List.flatMap_assoc, List.flatMap_assoc, List.flatMap_map]
  apply List.flatMap_congr
  intro i hi
  rw [← List.flatMap_assoc]
  exact i.flatMap_written_resolve ht (f.wellFormed i hi)

/-- A template with a static variable, a condition that holds and one that no rule names, a loop of
two rows, and an expression whose text ends in a placeholder. -/
theorem compiled_with_every_kind_of_item :
    let items : List Item :=
      [.inline (.text ['a', ' ']), .inline (.static ['x']),
        .condition ['k'] [.expression ⟨['v'], [.key ['q', ' ']]⟩], .condition ['o'] [.text ['!']],
        .loop ['l'] [.field ['f'], .field ['g'], .inline (.text [';'])]]
    let t : Template :=
      { statics := .ofList [(['x'], ['?', '>', '1'])]
        conditions := .ofList [(['k'], true)]
        loops := .ofList [(['l'], [.ofList [(['f'], ['2'])], .ofList [(['f'], ['3'])]])]
        injects := [['v']] }
    let globals : Scope :=
      .ofList [(['v'], .map [(['q', ' '], .string ['b', '{', '{', 'c', '}', '}'])])]
    (∀ i ∈ items, i.WellFormed) ∧ (items.filterMap Item.loopKey?).Nodup ∧
      items.flatMap Item.source ≠ [] ∧ t.PlainRules ∧ t.config.cacheMode = .direct ∧
      isKey t.config.evaluationFunction ∧
      t.outputs.get? t.config.evaluationFunction = some .verbatim ∧
      (runOn { temporary := [] } ((t.setContent (items.flatMap Item.source)).compile globals [] :
        StateM FileSystem Template)).1.compiled =
          ['a', ' ', '1', 'b', '2', ';', '3', ';'] := by
  intro items t globals
  have hitems : ∀ i ∈ items, i.WellFormed := by decide
  have hnodup : (items.filterMap Item.loopKey?).Nodup := by decide
  have hsource : items.flatMap Item.source ≠ [] := by decide
  have hrules : t.PlainRules := by
    constructor
    · decide
    · decide
    · decide
    · decide
  have hkey : isKey t.config.evaluationFunction := by decide
  have hw : t.outputs.get? t.config.evaluationFunction = some .verbatim := rfl
  refine ⟨hitems, hnodup, hsource, hrules, rfl, hkey, hw, ?_⟩
  have hcompiled := compiled_eq_meaning ⟨items, hitems, hnodup⟩ hsource hrules rfl hkey hw
    globals [] ({ temporary := [] } : FileSystem)
  refine Eq.trans hcompiled ?_
  show stripPlaceholders (items.flatMap (Item.meaning t .verbatim (globals.restrict t.injects))) = _
  decide +kernel

end Flat

end Stencil
