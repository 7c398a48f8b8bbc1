import Stencil.Program.Staging
import Stencil.Proofs.Expression.Line
import Stencil.Proofs.Key

namespace Stencil

/-- A text that ends with a character that is no blank. -/
def EndsTight (t : Text) : Prop :=
  ∃ front c, t = front ++ [c] ∧ Text.isBlank c = false

theorem EndsTight.append {t : Text} (h : EndsTight t) (front : Text) : EndsTight (front ++ t) := by
  obtain ⟨front', c, rfl, hc⟩ := h
  exact ⟨front ++ front', c, by simp, hc⟩

theorem endsTight_of_isKey {k : Text} (h : isKey k) : EndsTight k := by
  rcases List.eq_nil_or_concat k with rfl | ⟨front, c, rfl⟩
  · simp [isKey] at h
  · rw [List.concat_eq_append] at h ⊢
    exact ⟨front, c, rfl, isBlank_eq_false_of_isKeyPart (isKeyPart_of_mem h (by simp))⟩

namespace Accessor

/-- A property is named by a key, and a key in quotes is one that quotes can hold. -/
def Simple : Accessor → Prop
  | .index _ => True
  | .key k => '\'' ∉ k ∨ '"' ∉ k
  | .property name => isKey name

instance (a : Accessor) : Decidable a.Simple :=
  match a with
  | .index _ => .isTrue trivial
  | .key k => inferInstanceAs (Decidable ('\'' ∉ k ∨ '"' ∉ k))
  | .property name => inferInstanceAs (Decidable (isKey name = true))

/-- The key of an accessor that has one. -/
def key? : Accessor → Option Text
  | .key k => some k
  | _ => none

theorem Simple.wellFormed {a : Accessor} (h : a.Simple) : a.WellFormed := by
  cases a with
  | index n => trivial
  | key k => exact h
  | property name => exact isName_of_isKey h

theorem notMem_render {a : Accessor} (ha : a.WellFormed) {c : Char} (hc : isNamePart c = false)
    (hother : c ∉ ['[', ']', '\'', '"', '-', '>']) (hkey : ∀ k, a.key? = some k → c ∉ k) :
    c ∉ a.render := by
  simp only [List.mem_cons, List.not_mem_nil, or_false, not_or] at hother
  cases a with
  | index n =>
      have hdigit : c.isDigit = false := by
        simp only [isNamePart, Char.isAlphanum, Bool.or_eq_false_iff] at hc
        exact hc.1.1.2
      have hnumber := (spellsInteger_integerText n).notMem hdigit hother.2.2.2.2.1
      simp [render, hother, hnumber]
  | key k =>
      have hnotKey := hkey k rfl
      rw [render, quoteKey]
      split
      next => simp [hother, hnotKey]
      next => simp [hother, hnotKey]
  | property name => simp [render, hother, notMem_of_isName ha hc]

theorem Derives.infix_of_key? {s : Text} {a : Accessor} (h : Derives s a) {k : Text}
    (hk : a.key? = some k) : k <:+: s := by
  cases h with
  | @bracketed s a h =>
      have hinside : k <:+: s := by
        cases h with
        | integer h => simp [key?] at hk
        | quoted hquote hmem =>
            obtain rfl := Option.some.inj hk
            exact ⟨[_], [_], rfl⟩
        | name hname =>
            obtain rfl := Option.some.inj hk
            exact List.infix_rfl
      exact hinside.trans ⟨['['], [']'], rfl⟩
  | property h => simp [key?] at hk

theorem DeriveAll.infix_of_key? {s : Text} {accessors : List Accessor} (h : DeriveAll s accessors)
    {a : Accessor} (ha : a ∈ accessors) {k : Text} (hk : a.key? = some k) : k <:+: s := by
  induction h with
  | nil => exact absurd ha List.not_mem_nil
  | @cons s t _ _ h _ ih =>
      rcases List.mem_cons.mp ha with rfl | ha
      · exact (h.infix_of_key? hk).trans (List.prefix_append s t).isInfix
      · exact (ih ha).trans (List.suffix_append s t).isInfix

theorem endsTight_render {a : Accessor} (ha : a.Simple) : EndsTight a.render := by
  cases a with
  | index n => exact ⟨_, ']', rfl, by decide⟩
  | key k => exact ⟨_, ']', rfl, by decide⟩
  | property name => exact (endsTight_of_isKey ha).append _

end Accessor

namespace Expression

/-- The name of the variable is a key, and every accessor is simple. -/
structure Simple (e : Expression) : Prop where
  name : isKey e.name
  accessors : ∀ a ∈ e.accessors, a.Simple

instance (e : Expression) : Decidable e.Simple :=
  decidable_of_iff (isKey e.name ∧ ∀ a ∈ e.accessors, a.Simple)
    ⟨fun h => ⟨h.1, h.2⟩, fun h => ⟨h.name, h.accessors⟩⟩

/-- The keys that the canonical text puts between quotes. -/
def keys (e : Expression) : List Text :=
  e.accessors.filterMap Accessor.key?

theorem Simple.wellFormed {e : Expression} (h : e.Simple) : e.WellFormed :=
  ⟨isName_of_isKey h.name, fun a ha => (h.accessors a ha).wellFormed⟩

theorem notMem_render {e : Expression} (he : e.WellFormed) {c : Char} (hc : isNamePart c = false)
    (hother : c ∉ ['$', '[', ']', '\'', '"', '-', '>'])
    (hkeys : ∀ k ∈ e.keys, c ∉ k) : c ∉ e.render := by
  rw [List.mem_cons, not_or] at hother
  rw [render, List.cons_append, List.mem_cons, List.mem_append, List.mem_flatMap]
  rintro (hmem | hmem | ⟨a, ha, hmem⟩)
  · exact hother.1 hmem
  · exact notMem_of_isName he.name hc hmem
  · apply Accessor.notMem_render (he.accessors a ha) hc hother.2 _ hmem
    intro k hk
    exact hkeys k (List.mem_filterMap.mpr ⟨a, ha, hk⟩)

theorem Derives.infix_of_mem_keys {s : Text} {e : Expression} (h : Derives s e) {k : Text}
    (hk : k ∈ e.keys) : k <:+: s := by
  cases h with
  | @intro name s accessors hname h =>
      obtain ⟨a, ha, hkey⟩ := List.mem_filterMap.mp hk
      exact (h.infix_of_key? ha hkey).trans (List.suffix_append ('$' :: name) s).isInfix

theorem infix_of_mem_keys_of_staged? {inner : Text} {e : Expression} (h : staged? inner = some e)
    {k : Text} (hk : k ∈ e.keys) : k <:+: inner :=
  ((derives_of_parse (parse_of_staged? h)).infix_of_mem_keys hk).trans (Text.isInfix_trim inner)

theorem endsTight_render {e : Expression} (he : e.Simple) : EndsTight e.render := by
  rcases List.eq_nil_or_concat e.accessors with hnil | ⟨accessors, a, hconcat⟩
  · rw [render, hnil, List.flatMap_nil, List.append_nil]
    exact (endsTight_of_isKey he.name).append ['$']
  · have ha : a.Simple := he.accessors a (by simp [hconcat])
    rw [render, hconcat, List.concat_eq_append, List.flatMap_append, List.flatMap_singleton,
      ← List.append_assoc]
    exact (Accessor.endsTight_render ha).append _

theorem trim_render {e : Expression} (he : e.Simple) : Text.trim e.render = e.render := by
  refine Text.trim_of_trimmed ⟨?_, ?_⟩
  · rintro d hd
    obtain rfl : '$' = d := Option.some.inj hd
    decide
  · obtain ⟨front, c, heq, hc⟩ := endsTight_render he
    intro d hd
    rw [heq, List.getLast?_concat] at hd
    exact Option.some.inj hd ▸ hc

theorem staged?_render {e : Expression} (he : e.Simple) : staged? e.render = some e := by
  rw [staged?, trim_render he, parse_render he.wellFormed]
  rfl

theorem Derives.dollar_mem {s : Text} {e : Expression} (h : Derives s e) : '$' ∈ s := by
  cases h with
  | intro hname h => exact List.mem_cons_self

theorem staged?_of_notMem {inner : Text} (h : '$' ∉ inner) : staged? inner = none := by
  cases hs : staged? inner with
  | none => rfl
  | some e =>
      have hderives := derives_of_parse (parse_of_staged? hs)
      exact absurd (Text.mem_of_mem_trim hderives.dollar_mem) h

end Expression

end Stencil
