import Stencil.Proofs.Expression.Grammar

namespace Stencil

namespace Accessor

/-- The accessor has a text that is read back: its name is a name, and its key leaves a kind of
quotes to stand around it. -/
def WellFormed : Accessor → Prop
  | .index _ => True
  | .key k => '\'' ∉ k ∨ '"' ∉ k
  | .property name => isName name

theorem bracketed_quoteKey {k : Text} (hk : '\'' ∉ k ∨ '"' ∉ k) :
    Bracketed (quoteKey k) (.key k) := by
  unfold quoteKey
  split
  next hsingle => exact .quoted (Or.inr rfl) (hk.resolve_left fun h => h hsingle)
  next hsingle => exact .quoted (Or.inl rfl) hsingle

theorem derives_render {a : Accessor} (ha : a.WellFormed) : Derives a.render a := by
  cases a with
  | index n => exact .bracketed (.integer (spellsInteger_integerText n))
  | key k => exact .bracketed (bracketed_quoteKey ha)
  | property name => exact .property ha

theorem Bracketed.wellFormed {s : Text} {a : Accessor} (h : Bracketed s a) : a.WellFormed := by
  cases h with
  | integer h => trivial
  | quoted hquote hk =>
      rcases hquote with rfl | rfl
      · exact Or.inl hk
      · exact Or.inr hk
  | name hk => exact Or.inl (notMem_of_isName hk (by decide))

theorem Derives.wellFormed {s : Text} {a : Accessor} (h : Derives s a) : a.WellFormed := by
  cases h with
  | bracketed h => exact h.wellFormed
  | property h => exact h

theorem deriveAll_flatMap_render {accessors : List Accessor}
    (h : ∀ a ∈ accessors, a.WellFormed) : DeriveAll (accessors.flatMap render) accessors := by
  induction accessors with
  | nil => exact .nil
  | cons a accessors ih =>
      rw [List.flatMap_cons]
      exact .cons (derives_render (h a (by simp))) (ih fun b hb => h b (by simp [hb]))

theorem DeriveAll.wellFormed {s : Text} {accessors : List Accessor} (h : DeriveAll s accessors) :
    ∀ a ∈ accessors, a.WellFormed := by
  induction h with
  | nil => simp
  | cons h ht ih =>
      intro b hb
      rcases List.mem_cons.mp hb with rfl | hb
      · exact h.wellFormed
      · exact ih b hb

end Accessor

namespace Expression

/-- The expression has a text that is read back. -/
structure WellFormed (e : Expression) : Prop where
  name : isName e.name
  accessors : ∀ a ∈ e.accessors, a.WellFormed

theorem derives_render {e : Expression} (he : e.WellFormed) : Derives e.render e :=
  .intro he.name (Accessor.deriveAll_flatMap_render he.accessors)

theorem Derives.wellFormed {s : Text} {e : Expression} (h : Derives s e) : e.WellFormed := by
  cases h with
  | intro hname h => exact ⟨hname, h.wellFormed⟩

theorem parse_render {e : Expression} (he : e.WellFormed) : parse e.render = .ok e :=
  parse_of_derives (derives_render he)

/-- The canonical text of an expression is read as the expression exactly when its names are names
and no key holds both quotes, and so it is for every expression that was read from some text. -/
theorem canonical_text_round_trips :
    (∀ e : Expression, parse e.render = .ok e ↔ e.WellFormed) ∧
      ∀ (t : Text) (e : Expression), parse t = .ok e →
        e.WellFormed ∧ parse e.render = .ok e := by
  have hread {t : Text} {e : Expression} (h : parse t = .ok e) : e.WellFormed :=
    (derives_of_parse h).wellFormed
  refine ⟨fun e => ⟨hread, parse_render⟩, ?_⟩
  intro t e h
  exact ⟨hread h, parse_render (hread h)⟩

theorem canonical_text_of_keys_with_quotes :
    let t := "$a[-9223372036854775808][\"it's\"][b]->é".toList
    let e : Expression :=
      ⟨['a'], [.index Int64.minValue, .key "it's".toList, .key ['b'], .property ['é']]⟩
    let both : Expression := ⟨['a'], [.key ['\'', '"']]⟩
    parse t = .ok e ∧ e.WellFormed ∧ parse e.render = .ok e ∧ e.render ≠ t ∧
      parse both.render ≠ .ok both := by
  intro t e both
  have hparse : parse t = .ok e := parse_eq_ok_iff.mpr (by decide +kernel)
  obtain ⟨hwellFormed, hrender⟩ := canonical_text_round_trips.2 t e hparse
  refine ⟨hparse, hwellFormed, hrender, by decide +kernel, ?_⟩
  intro h
  have hkey := ((canonical_text_round_trips.1 both).mp h).accessors (.key ['\'', '"']) (by decide)
  exact absurd hkey (by simp [Accessor.WellFormed])

end Expression

end Stencil
