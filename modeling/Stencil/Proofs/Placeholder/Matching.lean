import Mathlib.Data.List.Pairwise
import Stencil.Proofs.Placeholder.Strip
import Stencil.Proofs.Text.Slice

/-!
The placeholders of a text are its one leftmost and shortest matching: they stand one behind the
other, each up to the first closing delimiter on its line, and wherever else `\x7b\x7b` begins it
closes on no line.  Replacing them copies the bytes between them.
-/

namespace Stencil

namespace Placeholder

/-- A list of the places in a text at which a placeholder is taken, and none is missed. -/
structure Matching (t : Text) (ps : List Placeholder) : Prop where
  slice : ∀ p ∈ ps, t.slice? p.start p.stop = some (delimited p.inner)
  line : ∀ p ∈ ps, '\n' ∉ p.inner
  closed : ∀ p ∈ ps, ¬ closing <:+: p.inner
  shortest : ∀ p ∈ ps, ∀ before inner rest, t = before ++ (delimited inner ++ rest) →
    Text.utf8Size before = p.start → p.inner <+: inner
  ordered : ps.Pairwise fun p q => p.stop ≤ q.start
  complete : ∀ before inner rest, t = before ++ (delimited inner ++ rest) → '\n' ∉ inner →
    ∃ p ∈ ps, p.start ≤ Text.utf8Size before ∧ Text.utf8Size before < p.stop

namespace Matching

variable {t : Text} {ps qs : List Placeholder} {p q : Placeholder}

theorem exists_source (h : Matching t ps) (hp : p ∈ ps) :
    ∃ before rest, t = before ++ (delimited p.inner ++ rest) ∧
      Text.utf8Size before = p.start ∧ p.start + (delimited p.inner).utf8Size = p.stop :=
  Text.slice?_eq_some_iff.mp (h.slice p hp)

theorem start_lt_stop (h : Matching t ps) (hp : p ∈ ps) : p.start < p.stop := by
  obtain ⟨before, rest, -, -, hstop⟩ := h.exists_source hp
  have hpos : 0 < (delimited p.inner).utf8Size := Text.utf8Size_pos '{' _
  omega

theorem eq_of_common (h : Matching t ps) (hp : p ∈ ps) (hq : q ∈ ps) {n : Nat}
    (hpn : p.start ≤ n ∧ n < p.stop) (hqn : q.start ≤ n ∧ n < q.stop) : p = q := by
  let Apart (p q : Placeholder) : Prop := ¬ ((p.start ≤ n ∧ n < p.stop) ∧ q.start ≤ n ∧ n < q.stop)
  have hsymm : Std.Symm Apart := ⟨fun a b hab hba => hab ⟨hba.2, hba.1⟩⟩
  have hapart : ps.Pairwise Apart := by
    apply h.ordered.imp
    intro a b hab hn
    omega
  by_contra hne
  exact hapart.forall hp hq hne ⟨hpn, hqn⟩

theorem eq_of_start_eq (hps : Matching t ps) (hqs : Matching t qs) (hp : p ∈ ps) (hq : q ∈ qs)
    (hstart : p.start = q.start) : p = q := by
  obtain ⟨before, rest, ht, hbefore, hpstop⟩ := hps.exists_source hp
  obtain ⟨before', rest', ht', hbefore', hqstop⟩ := hqs.exists_source hq
  have hpq : p.inner <+: q.inner := hps.shortest p hp _ _ _ ht' (by omega)
  have hqp : q.inner <+: p.inner := hqs.shortest q hq _ _ _ ht (by omega)
  have hinner : p.inner = q.inner := hpq.eq_of_length_le hqp.length_le
  cases p
  cases q
  simp only at hstart hinner hpstop hqstop
  subst hstart hinner
  rw [← hpstop, ← hqstop]

theorem mem_of_mem (hps : Matching t ps) (hqs : Matching t qs) (hp : p ∈ ps) : p ∈ qs := by
  -- the first placeholder that the other matching misses would begin inside one of that matching,
  -- and so would that one inside an earlier one of this
  induction hn : p.start using Nat.strongRecOn generalizing p with
  | ind n ih =>
      obtain ⟨before, rest, ht, hbefore, -⟩ := hps.exists_source hp
      obtain ⟨q, hq, hqp⟩ := hqs.complete _ _ _ ht (hps.line p hp)
      obtain ⟨before', rest', ht', hbefore', -⟩ := hqs.exists_source hq
      obtain ⟨p', hp', hpq⟩ := hps.complete _ _ _ ht' (hqs.line q hq)
      rw [hbefore] at hqp
      rw [hbefore'] at hpq
      have hqstop := hqs.start_lt_stop hq
      rcases Nat.lt_or_ge q.start p.start with hlt | hge
      · have hp'q : p' ∈ qs := ih p'.start (by omega) hp' rfl
        obtain rfl : p' = q := hqs.eq_of_common hp'q hq hpq ⟨Nat.le_refl _, hqstop⟩
        have hpstop := hps.start_lt_stop hp
        rw [hps.eq_of_common hp hp' ⟨Nat.le_refl _, hpstop⟩ hqp]
        exact hp'q
      · rw [hps.eq_of_start_eq hqs hp hq (by omega)]
        exact hq

theorem pairwise_start_lt (h : Matching t ps) : ps.Pairwise fun p q => p.start < q.start := by
  apply h.ordered.imp_of_mem
  intro p q hp hq hpq
  have := h.start_lt_stop hp
  omega

theorem unique (hps : Matching t ps) (hqs : Matching t qs) : ps = qs := by
  have hnodup {rs : List Placeholder} (h : Matching t rs) : rs.Nodup := by
    apply h.pairwise_start_lt.imp
    rintro p _ hlt rfl
    omega
  have hperm : ps.Perm qs := by
    rw [List.perm_ext_iff_of_nodup (hnodup hps) (hnodup hqs)]
    intro p
    exact ⟨hps.mem_of_mem hqs, hqs.mem_of_mem hps⟩
  apply hperm.eq_of_pairwise _ hps.pairwise_start_lt hqs.pairwise_start_lt
  intro p q hp hq hlt hgt
  omega

end Matching

theorem exists_source_of_mem_ofPieces {t : Text} {offset : Nat} {p : Placeholder}
    (h : p ∈ ofPieces offset (Piece.ofText t)) :
    ∃ before rest, t = before ++ (delimited p.inner ++ rest) ∧
      p.start = offset + Text.utf8Size before ∧
      p.stop = p.start + (delimited p.inner).utf8Size ∧
      Piece.placeholder? (delimited p.inner ++ rest) = some (p.inner, rest) := by
  fun_induction Piece.ofText t generalizing offset with
  | case1 => simp [ofPieces] at h
  | case2 c t inner rest hp ih =>
      have ht := Piece.eq_of_placeholder? hp
      rcases List.mem_cons.mp h with rfl | h
      · exact ⟨[], rest, ht, rfl, rfl, ht ▸ hp⟩
      · obtain ⟨before, rest', hrest, hstart, hstop, hclose⟩ := ih h
        refine ⟨delimited inner ++ before, rest', ?_, ?_, hstop, hclose⟩
        · rw [ht, hrest, List.append_assoc]
        · rw [hstart, Text.utf8Size_append, Nat.add_assoc]
  | case3 c t hp ih =>
      obtain ⟨before, rest, ht, hstart, hstop, hclose⟩ := ih h
      refine ⟨c :: before, rest, by rw [ht, List.cons_append], ?_, hstop, hclose⟩
      rw [hstart, Text.utf8Size_cons, Nat.add_assoc]

theorem le_start_of_mem_ofPieces {pieces : List Piece} {offset : Nat} {p : Placeholder}
    (h : p ∈ ofPieces offset pieces) : offset ≤ p.start := by
  induction pieces generalizing offset with
  | nil => simp [ofPieces] at h
  | cons piece pieces ih =>
      cases piece with
      | plain c => exact Nat.le_trans (Nat.le_add_right _ _) (ih h)
      | placeholder inner =>
          rcases List.mem_cons.mp h with rfl | h
          · exact Nat.le_refl _
          · exact Nat.le_trans (Nat.le_add_right _ _) (ih h)

theorem ordered_ofPieces (offset : Nat) (pieces : List Piece) :
    (ofPieces offset pieces).Pairwise fun p q => p.stop ≤ q.start := by
  induction pieces generalizing offset with
  | nil => exact List.Pairwise.nil
  | cons piece pieces ih =>
      cases piece with
      | plain c => exact ih _
      | placeholder inner =>
          exact List.Pairwise.cons (fun q hq => le_start_of_mem_ofPieces hq) (ih _)

theorem exists_mem_ofPieces {t before inner rest : Text} (offset : Nat)
    (ht : t = before ++ (delimited inner ++ rest)) (hline : '\n' ∉ inner) :
    ∃ p ∈ ofPieces offset (Piece.ofText t), p.start ≤ offset + Text.utf8Size before ∧
      offset + Text.utf8Size before < p.stop := by
  fun_induction Piece.ofText t generalizing offset before with
  | case1 => simp [delimited, opening] at ht
  | case2 c t inner' rest' hp ih =>
      have hsource := Piece.eq_of_placeholder? hp
      rcases Nat.lt_or_ge (Text.utf8Size before) (delimited inner').utf8Size with hlt | hge
      · refine ⟨_, List.mem_cons_self, Nat.le_add_right _ _, ?_⟩
        exact Nat.add_lt_add_left hlt offset
      · obtain ⟨before', rfl⟩ : delimited inner' <+: before :=
          Text.prefix_of_utf8Size_le ⟨rest', hsource.symm⟩ ⟨_, ht.symm⟩ hge
        rw [hsource, List.append_assoc] at ht
        obtain ⟨p, hp, hstart, hstop⟩ := ih _ (List.append_cancel_left ht)
        rw [Text.utf8Size_append, ← Nat.add_assoc]
        exact ⟨p, List.mem_cons_of_mem _ hp, hstart, hstop⟩
  | case3 c t hp ih =>
      cases before with
      | nil => exact absurd hp (ht ▸ Piece.placeholder?_ne_none hline rest)
      | cons d before =>
          obtain ⟨rfl, htail⟩ := List.cons.inj ht
          obtain ⟨p, hp, hstart, hstop⟩ := ih (offset + c.utf8Size) htail
          rw [Text.utf8Size_cons, ← Nat.add_assoc]
          exact ⟨p, hp, hstart, hstop⟩

theorem matching_placeholders (t : Text) : Matching t (placeholders t) := by
  have hsource {p : Placeholder} (hp : p ∈ placeholders t) := exists_source_of_mem_ofPieces hp
  have hshortest : ∀ p ∈ placeholders t, ∀ before inner rest,
      t = before ++ (delimited inner ++ rest) → Text.utf8Size before = p.start →
        p.inner <+: inner := by
    intro p hp before inner rest ht hbefore
    obtain ⟨before', rest', ht', hstart, -, hclose⟩ := hsource hp
    rw [Nat.zero_add] at hstart
    obtain ⟨rfl, hrest⟩ :=
      Text.append_inj_of_utf8Size (ht.symm.trans ht') (hbefore.trans hstart)
    rw [← hrest, Piece.placeholder?, Text.after?_eq_some_iff.mpr (show delimited inner ++ rest =
      opening ++ (inner ++ closing ++ rest) by simp [delimited])] at hclose
    exact Piece.prefix_of_close? hclose
  constructor
  · intro p hp
    obtain ⟨before, rest, ht, hstart, hstop, -⟩ := hsource hp
    rw [Nat.zero_add] at hstart
    exact Text.slice?_eq_some_iff.mpr ⟨before, rest, ht, hstart.symm, hstop.symm⟩
  · intro p hp
    obtain ⟨_, _, _, _, _, hclose⟩ := hsource hp
    rw [Piece.placeholder?, Option.bind_eq_some_iff] at hclose
    obtain ⟨_, -, hclose⟩ := hclose
    exact Piece.newline_notMem_of_close? hclose
  · -- a closing delimiter inside would make a shorter placeholder
    rintro p hp ⟨front, back, hinner⟩
    obtain ⟨before, rest, ht, hstart, -, -⟩ := hsource hp
    rw [Nat.zero_add] at hstart
    have hlen := (hshortest p hp before front (back ++ closing ++ rest)
      (by rw [ht, ← hinner]; simp [delimited]) hstart.symm).length_le
    simp only [← hinner, closing, List.length_append, List.length_cons] at hlen
    omega
  · exact hshortest
  · exact ordered_ofPieces 0 _
  · intro before inner rest ht hline
    obtain ⟨p, hp, hstart, hstop⟩ := exists_mem_ofPieces 0 ht hline
    rw [Nat.zero_add] at hstart hstop
    exact ⟨p, hp, hstart, hstop⟩

/-- The text from a byte on in which a function of the placeholders takes their place, and all else
is copied by its bytes. -/
def splice? (replace : Placeholder → Text) (t : Text) : Nat → List Placeholder → Option Text
  | last, [] => t.slice? last t.utf8Size
  | last, p :: ps =>
      (t.slice? last p.start).bind fun between =>
        (splice? replace t p.stop ps).map (between ++ replace p ++ ·)

/-- The text of the pieces from a byte on when a function of the placeholders writes them. -/
def writeAll (replace : Placeholder → Text) (offset : Nat) : List Piece → Text
  | [] => []
  | .plain c :: pieces => c :: writeAll replace (offset + c.utf8Size) pieces
  | .placeholder inner :: pieces =>
      let stop := offset + (delimited inner).utf8Size
      replace ⟨offset, stop, inner⟩ ++ writeAll replace stop pieces

theorem writeAll_inner (replace : Text → Text) (offset : Nat) (pieces : List Piece) :
    writeAll (fun p => replace p.inner) offset pieces = pieces.flatMap (Piece.write replace) := by
  induction pieces generalizing offset with
  | nil => rfl
  | cons piece pieces ih =>
      cases piece with
      | plain c => rw [writeAll, ih, List.flatMap_cons]; rfl
      | placeholder inner => rw [writeAll, ih, List.flatMap_cons]; rfl

theorem splice?_ofPieces (replace : Placeholder → Text) (front gap t : Text) :
    splice? replace (front ++ (gap ++ t)) front.utf8Size
        (ofPieces (front.utf8Size + gap.utf8Size) (Piece.ofText t)) =
      some (gap ++ writeAll replace (front.utf8Size + gap.utf8Size) (Piece.ofText t)) := by
  -- from piece to piece; `gap` is the text since the last placeholder
  fun_induction Piece.ofText t generalizing front gap with
  | case1 =>
      rw [ofPieces, writeAll, splice?, Text.utf8Size_append, Text.utf8Size_append,
        Text.utf8Size_nil, Nat.add_zero, Text.slice?_append]
      simp
  | case2 c t inner rest hp ih =>
      have hsource := Piece.eq_of_placeholder? hp
      have hnext := ih (front ++ (gap ++ delimited inner)) []
      simp only [List.append_assoc, List.nil_append, Text.utf8Size_append, Text.utf8Size_nil,
        Nat.add_zero, ← Nat.add_assoc] at hnext
      rw [ofPieces, writeAll, splice?, Text.slice?_append, Option.bind_some, hsource, hnext]
      simp
  | case3 c t hp ih =>
      have hnext := ih front (gap ++ [c])
      simpa only [ofPieces, writeAll, List.append_assoc, List.singleton_append,
        Text.utf8Size_append, Text.utf8Size_cons, Text.utf8Size_nil, Nat.add_zero,
        Nat.add_assoc] using hnext

/-- The placeholders of a text are its one matching.  Replacing them by what they were gives the
text back, and whatever they are replaced by, the bytes between them are copied. -/
theorem placeholders_are_the_matching (t : Text) :
    (∀ ps, Matching t ps ↔ ps = placeholders t) ∧
      replacePlaceholders delimited t = t ∧
      (∀ replace : Placeholder → Text, (splice? replace t 0 (placeholders t)).isSome) ∧
      ∀ replace : Text → Text,
        splice? (fun p => replace p.inner) t 0 (placeholders t) =
          some (replacePlaceholders replace t) := by
  have hsplice (replace : Placeholder → Text) : splice? replace t 0 (placeholders t) =
      some (writeAll replace 0 (Piece.ofText t)) := splice?_ofPieces replace [] [] t
  refine ⟨?_, replacePlaceholders_delimited t, ?_, ?_⟩
  · intro ps
    constructor
    · intro hps
      exact hps.unique (matching_placeholders t)
    · rintro rfl
      exact matching_placeholders t
  · intro replace
    rw [hsplice, Option.isSome_some]
  · intro replace
    rw [hsplice, writeAll_inner, replacePlaceholders]

end Placeholder

end Stencil
