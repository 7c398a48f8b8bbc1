import Stencil.Proofs.Block.Sweep
import Stencil.Proofs.Text.Occurrence

/-!
Seams of the sweep.  The sweep takes the blocks of a kind out of the text as it finds them, and what
stood around a block comes to stand side by side.  No piece that it leaves holds the head of an
opening tag with a closing tag behind it, so a swept text holds a block exactly when such a head
comes together at a seam.
-/

namespace Stencil.Block

open Text

/-- The text is cut at its blocks of a kind, into the pieces before them and the text behind the
last.  A block begins with the first head of an opening tag and ends as soon as it can. -/
inductive CutAtKind (kind : BlockKind) : Text → List Text → Text → Prop
  | tail {t : Text} (h : ¬ HoldsBlock kind t) : CutAtKind kind t [] t
  | block {before key body key' rest tail : Text} {pieces : List Text}
      (hbefore : ¬ openHead kind <:+: before) (hkey : '>' ∉ key)
      (hbody : ¬ closeHead kind <:+: body) (hkey' : '>' ∉ key')
      (h : CutAtKind kind rest pieces tail) :
      CutAtKind kind (before ++ (anyTag (openHead kind) key ++
        (body ++ (anyTag (closeHead kind) key' ++ rest)))) (before :: pieces) tail

/-- Behind the head of an opening tag the tag ends, and a closing tag follows. -/
def Closes (kind : BlockKind) (t : Text) : Prop :=
  ∃ key body key' rest, '>' ∉ key ∧ '>' ∉ key' ∧
    t = key ++ '>' :: (body ++ (anyTag (closeHead kind) key' ++ rest))

/-- At a seam between the pieces the head of an opening tag comes together, and a closing tag stands
behind it. -/
def HoldsSplitBlock (kind : BlockKind) (pieces : List Text) (tail : Text) : Prop :=
  ∃ left right h₁ h₂ back, pieces = left ++ right ∧ h₁ ≠ [] ∧ h₂ ≠ [] ∧
    h₁ ++ h₂ = openHead kind ∧ h₁ <:+ left.flatten ∧ right.flatten ++ tail = h₂ ++ back ∧
    Closes kind back

variable {kind : BlockKind}

theorem holdsBlock_iff {t : Text} :
    HoldsBlock kind t ↔ ∃ front back, t = front ++ (openHead kind ++ back) ∧ Closes kind back := by
  constructor
  · rintro ⟨before, key, body, key', rest, hkey, hkey', rfl⟩
    exact ⟨before, _, by simp [anyTag], key, body, key', rest, hkey, hkey', rfl⟩
  · rintro ⟨front, _, rfl, key, body, key', rest, hkey, hkey', rfl⟩
    exact ⟨front, key, body, key', rest, hkey, hkey', by simp [anyTag]⟩

theorem around?_block {before key body key' : Text} (hbefore : ¬ openHead kind <:+: before)
    (hkey : '>' ∉ key) (hbody : ¬ closeHead kind <:+: body) (hkey' : '>' ∉ key') (rest : Text) :
    around? kind (before ++ (anyTag (openHead kind) key ++
      (body ++ (anyTag (closeHead kind) key' ++ rest)))) = some (before, rest) := by
  have hangle : '<' ∉ kind.word ++ ['.'] ∧ '<' ∉ '/' :: (kind.word ++ ['.']) := by
    cases kind <;> decide
  have hopen := passes_of_not_isInfix hangle.1 hbefore
  have hclose := passes_of_not_isInfix hangle.2 hbody
  rw [around?_eq_some_iff]
  refine ⟨_, key, _, body, _, key', cut?_eq_some_iff.mpr ⟨?_, hopen _⟩,
    cut?_skips_pattern (skips_of_notMem [] hkey) _, cut?_eq_some_iff.mpr ⟨rfl, hclose _⟩,
    cut?_skips_pattern (skips_of_notMem [] hkey') _⟩
  simp [anyTag, closeHead, openHead]

theorem exists_cutAtKind (kind : BlockKind) (t : Text) :
    ∃ pieces tail, CutAtKind kind t pieces tail ∧ sweep kind t = pieces.flatten ++ tail := by
  fun_induction sweep kind t with
  | case1 t h => exact ⟨[], t, .tail (around?_eq_none_iff.mp h), rfl⟩
  | case2 t before rest h ih =>
      obtain ⟨pieces, tail, hcut, hsweep⟩ := ih
      obtain ⟨t₁, key, t₂, body, t₃, key', h₁, h₂, h₃, h₄⟩ := around?_eq_some_iff.mp h
      refine ⟨before :: pieces, tail, ?_, by rw [hsweep, List.flatten_cons, List.append_assoc]⟩
      have ht : t = before ++ (anyTag (openHead kind) key ++
          (body ++ (anyTag (closeHead kind) key' ++ rest))) := by
        rw [eq_of_cut? h₁, eq_of_cut? h₂, eq_of_cut? h₃, eq_of_cut? h₄]
        simp [anyTag]
      rw [ht]
      exact .block (passes_of_cut? h₁).not_isInfix (notMem_of_cut?_singleton h₂)
        (passes_of_cut? h₃).not_isInfix (notMem_of_cut?_singleton h₄) hcut

theorem CutAtKind.around? {t tail : Text} {pieces : List Text}
    (h : CutAtKind kind t pieces tail) :
    (pieces = [] ∧ tail = t ∧ around? kind t = none) ∨
      ∃ before rest pieces', pieces = before :: pieces' ∧
        around? kind t = some (before, rest) ∧ CutAtKind kind rest pieces' tail := by
  cases h with
  | tail hnone => exact Or.inl ⟨rfl, rfl, around?_eq_none_iff.mpr hnone⟩
  | block hbefore hkey hbody hkey' h =>
      exact Or.inr ⟨_, _, _, rfl, around?_block hbefore hkey hbody hkey' _, h⟩

theorem CutAtKind.unique {t tail tail' : Text} {pieces pieces' : List Text}
    (h : CutAtKind kind t pieces tail) (h' : CutAtKind kind t pieces' tail') :
    pieces' = pieces ∧ tail' = tail := by
  induction h generalizing pieces' with
  | tail hnone =>
      rcases h'.around? with ⟨rfl, rfl, -⟩ | ⟨before, rest, _, -, hfound, -⟩
      · exact ⟨rfl, rfl⟩
      · rw [around?_eq_none_iff.mpr hnone] at hfound
        exact absurd hfound (by simp)
  | block hbefore hkey hbody hkey' _ ih =>
      have hcut := around?_block hbefore hkey hbody hkey'
      rcases h'.around? with ⟨-, -, hnone⟩ | ⟨_, _, pieces', rfl, hfound, h'⟩
      · rw [hcut] at hnone
        exact absurd hnone (by simp)
      · rw [hcut] at hfound
        obtain ⟨rfl, rfl⟩ := Prod.mk.inj (Option.some.inj hfound)
        obtain ⟨rfl, rfl⟩ := ih h'
        exact ⟨rfl, rfl⟩

theorem HoldsSplitBlock.cons {pieces : List Text} {tail : Text} (before : Text)
    (h : HoldsSplitBlock kind pieces tail) : HoldsSplitBlock kind (before :: pieces) tail := by
  obtain ⟨left, right, h₁, h₂, back, rfl, hne₁, hne₂, hhead, hleft, hright, hcloses⟩ := h
  refine ⟨before :: left, right, h₁, h₂, back, rfl, hne₁, hne₂, hhead, ?_, hright, hcloses⟩
  rw [List.flatten_cons]
  exact hleft.trans (List.suffix_append before _)

theorem CutAtKind.holdsSplitBlock {t tail : Text} {pieces : List Text}
    (h : CutAtKind kind t pieces tail) (hblock : HoldsBlock kind (pieces.flatten ++ tail)) :
    HoldsSplitBlock kind pieces tail := by
  induction h with
  | tail hnone => exact absurd hblock hnone
  | @block before key body key' rest tail pieces hbefore _ _ _ h ih =>
      obtain ⟨front, back, hparts, hcloses⟩ := holdsBlock_iff.mp hblock
      rw [List.flatten_cons, List.append_assoc] at hparts
      -- the head of the block stands behind the seam, in the piece before it, or across it
      rcases List.append_eq_append_iff.mp hparts with ⟨a, rfl, hrest⟩ | ⟨h₁, rfl, hrest⟩
      · exact (ih (holdsBlock_iff.mpr ⟨a, back, hrest, hcloses⟩)).cons before
      rcases List.append_eq_append_iff.mp hrest with ⟨a, rfl, -⟩ | ⟨h₂, hhead, hbehind⟩
      · exact absurd ⟨front, a, List.append_assoc _ _ _⟩ hbefore
      by_cases hne₁ : h₁ = []
      · subst hne₁
        have hwhole : HoldsBlock kind (pieces.flatten ++ tail) := by
          rw [hbehind, ← List.nil_append h₂, ← hhead]
          exact holdsBlock_iff.mpr ⟨[], back, rfl, hcloses⟩
        exact (ih hwhole).cons _
      by_cases hne₂ : h₂ = []
      · subst hne₂
        rw [List.append_nil] at hhead
        exact absurd ⟨front, [], by rw [hhead, List.append_nil]⟩ hbefore
      · exact ⟨[front ++ h₁], pieces, h₁, h₂, back, rfl, hne₁, hne₂, hhead.symm,
          by simp, hbehind, hcloses⟩

theorem HoldsSplitBlock.holdsBlock {pieces : List Text} {tail : Text}
    (h : HoldsSplitBlock kind pieces tail) : HoldsBlock kind (pieces.flatten ++ tail) := by
  obtain ⟨left, right, h₁, h₂, back, rfl, -, -, hhead, ⟨front, hleft⟩, hright, hcloses⟩ := h
  refine holdsBlock_iff.mpr ⟨front, back, ?_, hcloses⟩
  rw [List.flatten_append, List.append_assoc, hright, ← hleft, ← hhead]
  simp

/-- The sweep joins the pieces around the blocks of the text.  It leaves a block, and a further
sweep changes the text again, exactly when one comes together at a seam. -/
theorem swept_text_holds_block_iff_split (kind : BlockKind) (t : Text) :
    ∃ pieces tail, CutAtKind kind t pieces tail ∧
      (∀ pieces' tail', CutAtKind kind t pieces' tail' → pieces' = pieces ∧ tail' = tail) ∧
      sweep kind t = pieces.flatten ++ tail ∧
      (HoldsBlock kind (sweep kind t) ↔ HoldsSplitBlock kind pieces tail) ∧
      (sweep kind (sweep kind t) = sweep kind t ↔ ¬ HoldsSplitBlock kind pieces tail) := by
  obtain ⟨pieces, tail, hcut, hsweep⟩ := exists_cutAtKind kind t
  have hiff : HoldsBlock kind (sweep kind t) ↔ HoldsSplitBlock kind pieces tail := by
    rw [hsweep]
    exact ⟨hcut.holdsSplitBlock, HoldsSplitBlock.holdsBlock⟩
  exact ⟨pieces, tail, hcut, fun _ _ => hcut.unique, hsweep, hiff,
    sweep_eq_self_iff.trans (not_congr hiff)⟩

/-- What stands around the first block is put together to the head of another one. -/
theorem sweep_leaves_block :
    let t := "<i<if.a>x</if.b>f.c>y</if.d>".toList
    sweep .condition t = "<if.c>y</if.d>".toList ∧ HoldsBlock .condition (sweep .condition t) ∧
      sweep .condition (sweep .condition t) = [] := by
  intro t
  have hswept : sweep .condition t = "<if.c>y</if.d>".toList := by decide +kernel
  rw [hswept]
  exact ⟨rfl, ⟨[], ['c'], ['y'], ['d'], [], by decide, by decide, rfl⟩, by decide +kernel⟩

end Stencil.Block
