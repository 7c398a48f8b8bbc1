import Stencil.Proofs.Expression.Simple
import Stencil.Proofs.Template.Parts

namespace Stencil

open Text

namespace Flat

/-- What may stand anywhere in a flat template. -/
inductive Inline where
  | text (t : Text)
  | static (key : Text)
  | expression (e : Expression)

/-- What may stand in a loop: anything, or a field of the row. -/
inductive BodyPart where
  | inline (i : Inline)
  | field (name : Text)

/-- What a flat template is made of. -/
inductive Item where
  | inline (i : Inline)
  | condition (key : Text) (body : List Inline)
  | loop (key : Text) (body : List BodyPart)

/-- The characters that a text, or a key of an expression, may not hold. -/
def reserved : List Char :=
  ['{', '}', '<', '\x60', '?']

/-- None of the characters that mean something in a template stands in the text. -/
def Unreserved (t : Text) : Prop :=
  ∀ c ∈ reserved, c ∉ t

instance (t : Text) : Decidable (Unreserved t) :=
  List.decidableBAll (· ∉ t) reserved

namespace Inline

def source : Inline → Text
  | text t => t
  | static key => delimited key
  | expression e => delimited e.render

/-- Texts and quoted keys are unreserved, and a static variable has a key for a name. -/
def WellFormed : Inline → Prop
  | text t => Unreserved t
  | static key => isKey key
  | expression e => e.Simple ∧ ∀ k ∈ e.keys, '\n' ∉ k ∧ Unreserved k

instance (i : Inline) : Decidable i.WellFormed :=
  match i with
  | text t => inferInstanceAs (Decidable (Unreserved t))
  | static key => inferInstanceAs (Decidable (isKey key = true))
  | expression e =>
      inferInstanceAs (Decidable (e.Simple ∧ ∀ k ∈ e.keys, '\n' ∉ k ∧ Unreserved k))

/-- What stands for it in the output. -/
def meaning (t : Template) (write : OutputFunction) (scope : Scope) : Inline → Text
  | text s => s
  | static key => ((t.statics.get? key).map sanitize).getD []
  | expression e => write (e.output scope)

/-- The leaf that it is read as. -/
def leaf : Inline → Leaf
  | text t => .text t
  | static key => .slot key
  | expression e => .slot e.render

end Inline

namespace BodyPart

def source (key : Text) : BodyPart → Text
  | inline i => i.source
  | field name => delimited (key ++ ['.'] ++ name)

/-- A field may have any name, be it a key or not. -/
def WellFormed : BodyPart → Prop
  | inline i => i.WellFormed
  | field name => isName name

instance (p : BodyPart) : Decidable p.WellFormed :=
  match p with
  | inline i => inferInstanceAs (Decidable i.WellFormed)
  | field name => inferInstanceAs (Decidable (isName name = true))

/-- What stands for it in the output of one row. -/
def meaning (t : Template) (write : OutputFunction) (scope : Scope) (row : Row) : BodyPart → Text
  | inline i => i.meaning t write scope
  | field name => (row.get? name).getD []

def leaf (key : Text) : BodyPart → Leaf
  | inline i => i.leaf
  | field name => .slot (key ++ ['.'] ++ name)

end BodyPart

namespace Item

def source : Item → Text
  | inline i => i.source
  | condition key body =>
      Block.openTag .condition key ++ (body.flatMap Inline.source ++ Block.closeTag .condition key)
  | loop key body =>
      Block.openTag .loop key ++ (body.flatMap (BodyPart.source key) ++ Block.closeTag .loop key)

/-- A well-formed inline item, or a block of such under a key. -/
def WellFormed : Item → Prop
  | inline i => i.WellFormed
  | condition key body => isKey key ∧ ∀ i ∈ body, i.WellFormed
  | loop key body => isKey key ∧ ∀ p ∈ body, p.WellFormed

instance (i : Item) : Decidable i.WellFormed :=
  match i with
  | inline i => inferInstanceAs (Decidable i.WellFormed)
  | condition key body => inferInstanceAs (Decidable (isKey key ∧ ∀ i ∈ body, i.WellFormed))
  | loop key body => inferInstanceAs (Decidable (isKey key ∧ ∀ p ∈ body, p.WellFormed))

/-- What stands for it in the output: the body of a condition that holds, and that of a loop for
each of its rows. -/
def meaning (t : Template) (write : OutputFunction) (scope : Scope) : Item → Text
  | inline i => i.meaning t write scope
  | condition key body =>
      if t.conditions.get? key = some true then body.flatMap (Inline.meaning t write scope) else []
  | loop key body =>
      ((t.loops.get? key).getD []).flatMap fun row =>
        body.flatMap (BodyPart.meaning t write scope row)

/-- The key of a loop. -/
def loopKey? : Item → Option Text
  | loop key _ => some key
  | _ => none

/-- The part that it is read as. -/
def part : Item → Part
  | inline i => .leaf i.leaf
  | condition key body => .block .condition key (body.map Inline.leaf)
  | loop key body => .block .loop key (body.map (BodyPart.leaf key))

end Item

end Flat

/-- A flat template, in which no two loops have the same key. -/
structure Flat where
  items : List Flat.Item
  wellFormed : ∀ i ∈ items, i.WellFormed
  loopKeys_nodup : (items.filterMap Flat.Item.loopKey?).Nodup

namespace Flat

/-- The content that a flat template is written as. -/
def source (f : Flat) : Text :=
  f.items.flatMap Item.source

/-- What a compilation makes of the template, up to placeholders in what it writes. -/
def meaning (f : Flat) (t : Template) (write : OutputFunction) (scope : Scope) : Text :=
  f.items.flatMap (Item.meaning t write scope)

theorem isInlineSpace_eq_false {c : Char} (h : c ≠ ' ' ∧ c ≠ '\t') : isInlineSpace c = false := by
  simp [isInlineSpace, h]

theorem inner_of_notMem {inner : Text} (hplain : Plain inner) (hline : '\n' ∉ inner)
    (hspace : ' ' ∉ inner) (htab : '\t' ∉ inner) : Inner inner := by
  have hnot {c : Char} (hc : c ∈ inner) : isInlineSpace c = false := by
    apply isInlineSpace_eq_false
    constructor
    · rintro rfl
      exact hspace hc
    · rintro rfl
      exact htab hc
  refine ⟨hplain, hline, ?_, ?_⟩
  · intro c hc
    exact hnot (List.mem_of_mem_head? hc)
  · intro c hc
    exact hnot (List.mem_of_mem_getLast? hc)

theorem inner_of_isKey {key : Text} (h : isKey key) : Inner key := by
  apply inner_of_notMem (plain_of_isKey h)
  · exact notMem_of_isKey h (by decide)
  · exact notMem_of_isKey h (by decide)
  · exact notMem_of_isKey h (by decide)

theorem inner_of_field {key name : Text} (hkey : isKey key) (hname : isName name) :
    Inner (key ++ ['.'] ++ name) := by
  have hnot {c : Char} (hc : isNamePart c = false) (hdot : c ≠ '.') :
      c ∉ key ++ ['.'] ++ name := by
    have hpart : isKeyPart c = false := by
      simp only [isNamePart, isKeyPart, Bool.or_eq_false_iff] at hc ⊢
      exact hc.1
    simp [notMem_of_isKey hkey hpart, notMem_of_isName hname hc, hdot]
  apply inner_of_notMem (plain_field hkey (plain_of_isName hname))
  · exact hnot (by decide) (by decide)
  · exact hnot (by decide) (by decide)
  · exact hnot (by decide) (by decide)

theorem inner_of_render {e : Expression} (h : (Inline.expression e).WellFormed) :
    Inner e.render := by
  obtain ⟨hsimple, hkeys⟩ := h
  have hnot {c : Char} (hc : c ∈ reserved) (hpart : isNamePart c = false)
      (hother : c ∉ ['$', '[', ']', '\'', '"', '-', '>']) : c ∉ e.render :=
    Expression.notMem_render hsimple.wellFormed hpart hother fun k hk => (hkeys k hk).2 c hc
  have hblank {c : Char} (hc : isBlank c = false) : isInlineSpace c = false := by
    apply isInlineSpace_eq_false
    constructor
    · rintro rfl
      exact absurd hc (by decide)
    · rintro rfl
      exact absurd hc (by decide)
  refine ⟨⟨?_, ?_, ?_⟩, ?_, ?_, ?_⟩
  · exact hnot (by decide) (by decide) (by decide)
  · exact hnot (by decide) (by decide) (by decide)
  · exact hnot (by decide) (by decide) (by decide)
  · exact Expression.notMem_render hsimple.wellFormed (by decide) (by decide)
      fun k hk => (hkeys k hk).1
  · intro c hc
    obtain rfl : '$' = c := by simpa [Expression.render] using hc
    decide
  · intro c hc
    obtain ⟨front, d, heq, hd⟩ := Expression.endsTight_render hsimple
    obtain rfl : d = c := by simpa [heq] using hc
    exact hblank hd

theorem Inline.wellFormed_leaf {i : Inline} (h : i.WellFormed) : i.leaf.WellFormed := by
  cases i with
  | text t => exact ⟨h _ (by decide), h _ (by decide), h _ (by decide)⟩
  | static key => exact inner_of_isKey h
  | expression e => exact inner_of_render h

theorem BodyPart.wellFormed_leaf {key : Text} (hkey : isKey key) {p : BodyPart}
    (h : p.WellFormed) : (p.leaf key).WellFormed := by
  cases p with
  | inline i => exact i.wellFormed_leaf h
  | field name => exact inner_of_field hkey h

theorem Item.wellFormed_part {i : Item} (h : i.WellFormed) : i.part.WellFormed := by
  cases i with
  | inline i => exact i.wellFormed_leaf h
  | condition key body =>
      refine ⟨h.1, ?_⟩
      intro l hl
      obtain ⟨i, hi, rfl⟩ := List.mem_map.mp hl
      exact i.wellFormed_leaf (h.2 i hi)
  | loop key body =>
      refine ⟨h.1, ?_⟩
      intro l hl
      obtain ⟨p, hp, rfl⟩ := List.mem_map.mp hl
      exact p.wellFormed_leaf h.1 (h.2 p hp)

theorem Inline.source_leaf (i : Inline) : i.leaf.source = i.source := by
  cases i with
  | text t => rfl
  | static key => rfl
  | expression e => rfl

theorem BodyPart.source_leaf (key : Text) (p : BodyPart) : (p.leaf key).source = p.source key := by
  cases p with
  | inline i => exact i.source_leaf
  | field name => rfl

theorem Item.source_part (i : Item) : i.part.source = i.source := by
  cases i with
  | inline i => exact i.source_leaf
  | condition key body =>
      rw [part, Part.source, List.flatMap_map, funext Inline.source_leaf]
      rfl
  | loop key body =>
      rw [part, Part.source, List.flatMap_map, funext (BodyPart.source_leaf key)]
      rfl

end Flat

end Stencil
