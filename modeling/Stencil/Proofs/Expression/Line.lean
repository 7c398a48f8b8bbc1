import Stencil.Program.Staging
import Stencil.Proofs.Expression.RoundTrip
import Stencil.Proofs.Text.Trim

namespace Stencil

/-- The texts agree on whether they hold a newline. -/
def SameLine (s t : Text) : Prop :=
  '\n' ∈ s ↔ '\n' ∈ t

namespace Accessor

theorem sameLine_render_key (k : Text) : SameLine k (render (.key k)) := by
  simp only [SameLine, render, quoteKey]
  split
  next => simp
  next => simp

theorem Bracketed.sameLine {s : Text} {a : Accessor} (h : Bracketed s a) :
    SameLine s a.render := by
  cases h with
  | @integer _ n h =>
      have hs : '\n' ∉ s := h.notMem (by decide) (by decide)
      have hrender : '\n' ∉ integerText n.toInt :=
        (spellsInteger_integerText n).notMem (by decide) (by decide)
      simp [SameLine, render, hs, hrender]
  | @quoted quote k hquote hk =>
      have hne : '\n' ≠ quote := by
        rcases hquote with rfl | rfl
        · decide
        · decide
      have := sameLine_render_key k
      unfold SameLine at this ⊢
      simpa [hne] using this
  | name hk => exact sameLine_render_key _

theorem Derives.sameLine {s : Text} {a : Accessor} (h : Derives s a) : SameLine s a.render := by
  cases h with
  | bracketed h =>
      have := h.sameLine
      unfold SameLine at this ⊢
      simpa using this
  | property h => exact Iff.rfl

theorem DeriveAll.sameLine {s : Text} {accessors : List Accessor} (h : DeriveAll s accessors) :
    SameLine s (accessors.flatMap render) := by
  induction h with
  | nil => exact Iff.rfl
  | cons h ht ih =>
      have hhead := h.sameLine
      unfold SameLine at hhead ih ⊢
      simp only [List.mem_append, List.flatMap_cons, hhead, ih]

end Accessor

namespace Expression

theorem Derives.sameLine {s : Text} {e : Expression} (h : Derives s e) : SameLine s e.render := by
  cases h with
  | intro hname h =>
      have := h.sameLine
      unfold SameLine at this ⊢
      simp only [render, List.cons_append, List.mem_cons, List.mem_append, this]

theorem newline_notMem_render_of_parse {t : Text} {e : Expression} (h : parse t = .ok e)
    (ht : '\n' ∉ t) : '\n' ∉ e.render :=
  fun hmem => ht ((derives_of_parse h).sameLine.mpr hmem)

end Expression

theorem parse_of_staged? {inner : Text} {e : Expression} (h : staged? inner = some e) :
    Expression.parse (Text.trim inner) = .ok e := by
  unfold staged? at h
  cases hparse : Expression.parse (Text.trim inner) with
  | error err => simp [hparse, Except.toOption] at h
  | ok e' => simpa [hparse, Except.toOption] using h

end Stencil
