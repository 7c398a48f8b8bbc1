import Mathlib.Data.List.Infix
import Stencil.Proofs.Block.Tag

/-!
Loops that stand in or behind one another.  Of several loops of a key none is expanded and the key
is reported; but the loops are counted as blocks, each up to the first closing tag.  Of balanced
tags there are several blocks exactly when an opening tag stands behind a closing one.  Where all
opening tags come first there is one block, which holds the other opening tags and is expanded.
-/

namespace Stencil.Block

open Text

/-- The tags of a key are balanced: no more are closed than opened, up to any place of the text, and
all are closed in the end. -/
structure Balanced (kind : BlockKind) (key t : Text) : Prop where
  closes_le : ∀ front, front <+: t →
    occurrences (closeTag kind key) front ≤ occurrences (openTag kind key) front
  total : occurrences (closeTag kind key) t = occurrences (openTag kind key) t

instance (kind : BlockKind) (key t : Text) : Decidable (Balanced kind key t) :=
  decidable_of_iff ((∀ front ∈ t.inits,
      occurrences (closeTag kind key) front ≤ occurrences (openTag kind key) front) ∧
        occurrences (closeTag kind key) t = occurrences (openTag kind key) t)
    ⟨fun h => ⟨fun front hfront => h.1 front ((List.mem_inits front t).mpr hfront), h.2⟩,
      fun h => ⟨fun front hfront => h.closes_le front ((List.mem_inits front t).mp hfront),
        h.total⟩⟩

/-- An opening tag of the key stands behind a closing one. -/
def Reopens (kind : BlockKind) (key t : Text) : Prop :=
  ∃ front between back, t = front ++ (closeTag kind key ++ (between ++ (openTag kind key ++ back)))

variable {kind : BlockKind} {key t : Text}

theorem exists_ofText_cons (kind : BlockKind) (key front body back : Text) :
    ∃ b rest, (ofText kind key
        (front ++ (openTag kind key ++ (body ++ (closeTag kind key ++ back))))).1 =
          b :: (ofText kind key rest).1 ∧ back <:+ rest := by
  obtain ⟨b, rest, hfirst, hback⟩ := exists_first?_append kind key front body back
  exact ⟨b, rest, by rw [ofText_eq, hfirst], hback⟩

theorem Balanced.around_reopened (hkey : isKey key) {front between back : Text}
    (h : Balanced kind key
      (front ++ (closeTag kind key ++ (between ++ (openTag kind key ++ back))))) :
    0 < occurrences (openTag kind key) front ∧ 0 < occurrences (closeTag kind key) back := by
  have hfront := h.closes_le (front ++ (closeTag kind key ++ []))
    ⟨between ++ (openTag kind key ++ back), by simp⟩
  have hbetween := h.closes_le (front ++ (closeTag kind key ++ between))
    ⟨openTag kind key ++ back, by simp⟩
  have htotal := h.total
  simp only [openTag_eq_tag, closeTag_eq_tag, occurrences_append_tag hkey, occurrences, if_true,
    Bool.true_eq_false, Bool.false_eq_true, if_false] at hfront hbetween htotal ⊢
  omega

theorem two_le_length_ofText (hkey : isKey key) (h : Balanced kind key t)
    (hreopens : Reopens kind key t) : 2 ≤ (ofText kind key t).1.length := by
  obtain ⟨front, between, back, rfl⟩ := hreopens
  obtain ⟨hopened, hclosed⟩ := h.around_reopened hkey
  obtain ⟨front, body, rfl, -⟩ := exists_first_of_occurrences_pos (openTag_ne_nil kind key) hopened
  obtain ⟨body', back, rfl, -⟩ := exists_first_of_occurrences_pos (closeTag_ne_nil kind key) hclosed
  obtain ⟨b, rest, hfirst, s, rfl⟩ := exists_ofText_cons kind key front body
    (between ++ (openTag kind key ++ (body' ++ (closeTag kind key ++ back))))
  obtain ⟨b', rest', hsecond, -⟩ := exists_ofText_cons kind key (s ++ between) body' back
  rw [List.append_assoc] at hsecond
  have hlength : (ofText kind key (front ++ (openTag kind key ++ (body ++ (closeTag kind key ++
      (between ++ (openTag kind key ++ (body' ++ (closeTag kind key ++ back))))))))).1.length =
        (ofText kind key rest').1.length + 2 := by
    rw [hfirst, hsecond]
    rfl
  simp only [List.append_assoc]
  exact hlength ▸ Nat.le_add_left 2 _

/-- Where no opening tag stands behind a closing one, the first opening tag and the first closing
one are those of a block, which holds all other opening tags. -/
theorem Balanced.exists_single (hkey : isKey key) (h : Balanced kind key t)
    (hopens : 0 < occurrences (openTag kind key) t) (hreopens : ¬ Reopens kind key t) :
    ∃ front body back,
      t = front ++ (openTag kind key ++ (body ++ (closeTag kind key ++ back))) ∧
        occurrences (openTag kind key) body + 1 = occurrences (openTag kind key) t ∧
        ofText kind key t = ([⟨front, body⟩], back) := by
  obtain ⟨front, rest, rfl, hfront⟩ :=
    exists_first_of_occurrences_pos (openTag_ne_nil kind key) hopens
  have hopened : 0 < occurrences (closeTag kind key) rest := by
    have hbefore := h.closes_le front (List.prefix_append _ _)
    have htotal := h.total
    simp only [openTag_eq_tag, closeTag_eq_tag, occurrences_append_tag hkey, if_true,
      Bool.true_eq_false, if_false] at hfront hbefore htotal ⊢
    omega
  obtain ⟨body, back, rfl, hbody⟩ :=
    exists_first_of_occurrences_pos (closeTag_ne_nil kind key) hopened
  have hback : occurrences (openTag kind key) back = 0 := by
    by_contra hsome
    obtain ⟨between, back, rfl, -⟩ := exists_first_of_occurrences_pos (openTag_ne_nil kind key)
      (Nat.pos_of_ne_zero hsome)
    apply hreopens
    exact ⟨front ++ (openTag kind key ++ body), between, back, by simp⟩
  refine ⟨front, body, back, rfl, ?_, ?_⟩
  · simp only [openTag_eq_tag, closeTag_eq_tag, occurrences_append_tag hkey, if_true,
      Bool.false_eq_true, if_false] at hfront hback ⊢
    omega
  · exact ofText_single hkey (occurrences_eq_zero_iff.mp hfront) (occurrences_eq_zero_iff.mp hbody)
      (occurrences_eq_zero_iff.mp hback)

/-- Of several balanced loops of a key none is expanded and the key is reported, when one is opened
behind the end of another.  When all are opened first, none is reported.  All opening tags but the
first stand in the body of one block, which is expanded. -/
theorem several_loops_reported_or_expanded {key : Text} (hkey : isKey key) {t : Text}
    (h : Balanced .loop key t) (hseveral : 2 ≤ occurrences (openTag .loop key) t)
    (rows : List Row) (ws : Warnings) :
    (Reopens .loop key t → 2 ≤ (ofText .loop key t).1.length ∧ resolveLoop key rows t ws =
      (t, ws.record (.duplicateBlock .loop key (ofText .loop key t).1.length))) ∧
    (¬ Reopens .loop key t → ∃ front body back,
      t = front ++ (openTag .loop key ++ (body ++ (closeTag .loop key ++ back))) ∧
        occurrences (openTag .loop key) body + 1 = occurrences (openTag .loop key) t ∧
        resolveLoop key rows t ws =
          (dropTags .loop key (front ++ rows.flatMap (instantiate key body) ++ back), ws)) := by
  constructor
  · intro hreopens
    have hlength := two_le_length_ofText hkey h hreopens
    exact ⟨hlength, resolveLoop_of_several hkey hlength rows ws⟩
  · intro hnot
    obtain ⟨front, body, back, ht, hopens, hsingle⟩ := h.exists_single hkey (by omega) hnot
    exact ⟨front, body, back, ht, hopens, resolveLoop_of_single hkey hsingle rows ws⟩

theorem loops_side_by_side_reported :
    let t := "<loop.a><loop.a>x</loop.a>-<loop.a>y</loop.a></loop.a>".toList
    isKey ['a'] ∧ Balanced .loop ['a'] t ∧ 2 ≤ occurrences (openTag .loop ['a']) t ∧
      Reopens .loop ['a'] t ∧
      resolveLoop ['a'] [] t [] = (t, [.duplicateBlock .loop ['a'] 2]) := by
  intro t
  have hkey : isKey ['a'] := by decide
  have hbalanced : Balanced .loop ['a'] t := by decide +kernel
  have hseveral : 2 ≤ occurrences (openTag .loop ['a']) t := by decide +kernel
  have hreopens : Reopens .loop ['a'] t :=
    ⟨"<loop.a><loop.a>x".toList, ['-'], "y</loop.a></loop.a>".toList, by decide⟩
  obtain ⟨-, hresolve⟩ :=
    (several_loops_reported_or_expanded hkey hbalanced hseveral [] []).1 hreopens
  have hcount : (ofText .loop ['a'] t).1.length = 2 := by decide +kernel
  rw [hcount] at hresolve
  exact ⟨hkey, hbalanced, hseveral, hreopens, hresolve⟩

/-- A loop whose body is one of the same key counts as one block: it is expanded, in silence. -/
theorem loop_in_loop_expanded :
    let t := "<loop.a><loop.a>x</loop.a></loop.a>".toList
    isKey ['a'] ∧ Balanced .loop ['a'] t ∧ 2 ≤ occurrences (openTag .loop ['a']) t ∧
      resolveLoop ['a'] [⟨[], List.nodup_nil⟩] t [] = (['x'], []) := by
  decide +kernel

end Stencil.Block
