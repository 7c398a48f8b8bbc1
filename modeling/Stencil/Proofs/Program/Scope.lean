import Mathlib.Data.List.Induction
import Stencil.Program.Evaluation

namespace Stencil

namespace Bindings

theorem ofList_append_singleton {α : Type} (pairs : List (Text × α)) (name : Text) (a : α) :
    ofList (pairs ++ [(name, a)]) = (ofList pairs).insert name a := by
  rw [ofList, List.foldl_append]
  rfl

theorem get?_ofList {α : Type} (pairs : List (Text × α)) (name : Text) :
    (ofList pairs).get? name = pairs.reverse.lookup name := by
  induction pairs using List.reverseRecOn with
  | nil => rfl
  | append_singleton pairs pair ih =>
      obtain ⟨n, a⟩ := pair
      rw [ofList_append_singleton, get?_insert, ih, List.reverse_concat, List.lookup_cons]
      by_cases h : name = n
      · simp [h]
      · simp [h, beq_eq_false_iff_ne.mpr h]

end Bindings

namespace Scope

theorem lookup_filterMap_get? (scope : Scope) (names : List Text) (name : Text) :
    (names.filterMap fun n => (scope.get? n).map (n, ·)).lookup name =
      if name ∈ names then scope.get? name else none := by
  induction names with
  | nil => rfl
  | cons n names ih =>
      by_cases h : name = n
      · subst h
        cases hget : scope.get? name with
        | none => simp [hget, ih]
        | some v => simp [hget]
      · cases hget : scope.get? n with
        | none => simp [hget, ih, h]
        | some v => simp [hget, ih, h, List.lookup_cons, beq_eq_false_iff_ne.mpr h]

theorem get?_restrict (scope : Scope) (names : List Text) (name : Text) :
    (scope.restrict names).get? name = if name ∈ names then scope.get? name else none := by
  rw [restrict, Bindings.get?_ofList, ← List.filterMap_reverse, lookup_filterMap_get?]
  simp only [List.mem_reverse]

end Scope

variable {scope scope' : Scope}

theorem Expression.text_congr (h : ∀ name, scope.get? name = scope'.get? name)
    (e : Expression) : e.text scope = e.text scope' := by
  rw [text, text, h]

namespace Program

variable {registry registry' : Registry}

theorem evaluate_congr (hregistry : ∀ name, registry.get? name = registry'.get? name)
    (hscope : ∀ name, scope.get? name = scope'.get? name) (p : Program) (ws : Warnings) :
    p.evaluate registry scope ws = p.evaluate registry' scope' ws := by
  induction p generalizing ws with
  | nil => rfl
  | cons s p ih =>
      cases s with
      | literal t => simp only [evaluate, ih]
      | call function e => simp only [evaluate, ih, e.text_congr hscope, hregistry]

theorem run_congr (hregistry : ∀ name, registry.get? name = registry'.get? name)
    (hscope : ∀ name, scope.get? name = scope'.get? name) (p : Program) (ws : Warnings) :
    p.run registry scope ws = p.run registry' scope' ws := by
  rw [run, run, evaluate_congr hregistry hscope]

end Program

end Stencil
