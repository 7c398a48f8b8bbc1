import Mathlib.Data.List.Basic
import Stencil.Proofs.Expression.Simple
import Stencil.Proofs.Placeholder.Matching
import Stencil.Proofs.Program.Staging
import Stencil.Proofs.Warning

/-!
The placeholders of a staged text.  They are the calls that staging wrote and nothing else: the
canonical text of an expression holds a closing brace only in a key between quotes, and such a key
stood within a placeholder.  Every other placeholder has gone, with one warning for each source.
-/

namespace Stencil

open Piece

namespace Accessor

variable {a : Accessor} {inner : Text}

theorem isInner_render (ha : a.WellFormed) (h : IsInner inner)
    (hkey : ∀ k, a.key? = some k → k <:+: inner) : IsInner a.render := by
  have hplain (hnone : a.key? = none) : IsInner a.render := by
    apply isInner_of_notMem
    · exact notMem_render ha (by decide) (by decide) (by simp [hnone])
    · exact notMem_render ha (by decide) (by decide) (by simp [hnone])
  cases a with
  | index n => exact hplain rfl
  | property name => exact hplain rfl
  | key k =>
      have hquoted {quote : Char} (hline : quote ≠ '\n') (hbrace : quote ≠ '}') :
          IsInner (['['] ++ ([quote] ++ k ++ [quote]) ++ [']']) := by
        have hend : IsInner (k ++ [quote]) := h.concat_of_infix (hkey k rfl) hline hbrace
        have hquote : IsInner [quote] :=
          isInner_of_notMem (by simpa using hline.symm) (by simpa using hbrace.symm)
        have hparts := (IsInner.append (isInner_of_notMem (by decide) (by decide) : IsInner ['['])
          (hquote.append hend)).append (isInner_of_notMem (by decide) (by decide) : IsInner [']'])
        rwa [← List.append_assoc [quote]] at hparts
      rw [render, quoteKey]
      split
      next => exact hquoted (by decide) (by decide)
      next => exact hquoted (by decide) (by decide)

end Accessor

namespace Expression

variable {e : Expression} {inner : Text}

theorem isInner_render (he : e.WellFormed) (h : IsInner inner)
    (hkeys : ∀ k ∈ e.keys, k <:+: inner) : IsInner e.render := by
  have haccessors : ∀ a ∈ e.accessors, IsInner a.render := by
    intro a ha
    apply Accessor.isInner_render (he.accessors a ha) h
    intro k hk
    exact hkeys k (List.mem_filterMap.mpr ⟨a, ha, hk⟩)
  have hall : IsInner (e.accessors.flatMap Accessor.render) := by
    generalize e.accessors = accessors at haccessors
    induction accessors with
    | nil => trivial
    | cons a accessors ih =>
        rw [List.forall_mem_cons] at haccessors
        rw [List.flatMap_cons]
        exact haccessors.1.append (ih haccessors.2)
  have hname : IsInner ('$' :: e.name) := by
    apply isInner_of_notMem
    · simpa using notMem_of_isName he.name (by decide)
    · simpa using notMem_of_isName he.name (by decide)
  exact hname.append hall

end Expression

/-- The inner text of the call of an output function on an expression. -/
def callInner (function : Text) (e : Expression) : Text :=
  function ++ ['('] ++ e.render ++ [')']

theorem isInner_callInner {function : Text} (hf : isKey function) {inner : Text}
    (h : IsInner inner) {e : Expression} (he : staged? inner = some e) :
    IsInner (callInner function e) := by
  have hfunction : IsInner function := by
    apply isInner_of_notMem
    · exact notMem_of_isKey hf (by decide)
    · exact notMem_of_isKey hf (by decide)
  have hrender : IsInner e.render :=
    Expression.isInner_render (wellFormed_of_staged? he).1 h fun _ hk =>
      Expression.infix_of_mem_keys_of_staged? he hk
  have hopens : IsInner ['('] := isInner_of_notMem (by decide) (by decide)
  have hcloses : IsInner [')'] := isInner_of_notMem (by decide) (by decide)
  exact ((hfunction.append hopens).append hrender).append hcloses

theorem inners_stage {function : Text} (hf : isKey function) (t : Text) :
    inners (stage function t) =
      (inners t).filterMap fun inner => (staged? inner).map (callInner function) := by
  rw [List.filterMap_eq_flatMap_toList]
  apply inners_replacePlaceholders
  intro inner hinner rest
  rw [stageInner]
  cases hs : staged? inner with
  | none => rfl
  | some e =>
      exact inners_delimited_append (isInner_callInner hf (isInner_of_mem_inners hinner) hs) rest

/-- The source texts of the placeholders that staging takes out. -/
def rejectedSources (t : Text) : List Text :=
  ((placeholders t).filter fun p => (staged? p.inner).isNone).filterMap fun p =>
    t.slice? p.start p.stop

theorem rejections_eq_map_rejectedSources (t : Text) :
    rejections t = (rejectedSources t).map .rejectedPlaceholder := by
  have hslice := (Placeholder.matching_placeholders t).slice
  rw [rejections, ← map_inner_placeholders, rejectedSources, List.filterMap_map,
    List.filterMap_filter, List.map_filterMap]
  apply List.filterMap_congr
  intro p hp
  cases hs : staged? p.inner with
  | none => simp [hs, hslice p hp]
  | some e => simp [hs]

/-- The placeholders of a staged text are the calls of the function on the canonical texts of the
expressions, in their order and each on its line.  The warnings are one for each source text that
was taken out, where it first stood. -/
theorem staged_text_holds_staged_calls {function : Text} (hf : isKey function) (t : Text) :
    (placeholders (stage function t)).map Placeholder.inner =
        ((placeholders t).filterMap fun p => staged? p.inner).map (callInner function) ∧
      (∀ p ∈ placeholders (stage function t), '\n' ∉ p.inner) ∧
      Warnings.recordAll [] (rejections t) =
        (rejectedSources t).eraseDups.map .rejectedPlaceholder := by
  refine ⟨?_, (Placeholder.matching_placeholders _).line, ?_⟩
  · rw [map_inner_placeholders, inners_stage hf, ← map_inner_placeholders t, List.filterMap_map,
      List.map_filterMap]
    rfl
  · have hinjective : ∀ s s' : Text,
        Warning.rejectedPlaceholder s = Warning.rejectedPlaceholder s' → s = s' :=
      fun _ _ => Warning.rejectedPlaceholder.inj
    rw [Warnings.recordAll_eq, rejections_eq_map_rejectedSources,
      ← Warnings.eraseDups_map hinjective, List.nil_append, List.removeAll_nil]

/-- Braces beside the placeholders do not join them, a brace within a key does not close the call,
and a source that is taken out twice is reported once. -/
theorem staged_text_of_braces_beside_placeholders :
    let t := "\x7b\x7b\x7bx\x7d\x7d\x7b$a\x7b\x7b $a['\x7d'][-0]\x7d\x7d\x7d\x7b\x7b\x7bx\x7d\x7d".toList
    isKey "echo".toList ∧
      (placeholders (stage "echo".toList t)).map Placeholder.inner =
        ["echo($a['\x7d'][0])".toList] ∧
      Warnings.recordAll [] (rejections t) =
        [.rejectedPlaceholder "\x7b\x7b\x7bx\x7d\x7d".toList] := by
  intro t
  have hkey : isKey "echo".toList := by decide
  obtain ⟨hcalls, -, hwarnings⟩ := staged_text_holds_staged_calls hkey t
  refine ⟨hkey, ?_, ?_⟩
  · rw [hcalls]
    decide +kernel
  · rw [hwarnings]
    decide +kernel

end Stencil
