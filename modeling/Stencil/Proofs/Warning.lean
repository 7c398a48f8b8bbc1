import Stencil.Warning

namespace Stencil

/-- The passes of a compilation that leave warnings. -/
inductive Pass where
  | loading
  | blocks
  | staging
  | evaluation
  | scratch
deriving DecidableEq, Repr

/-- The pass that leaves a warning. -/
def Warning.pass : Warning → Pass
  | .missingTemplateFile _ => .loading
  | .invalidKey _ _ | .blockNotFound _ _ | .duplicateBlock _ _ _ => .blocks
  | .rejectedPlaceholder _ => .staging
  | .unboundVariable _ | .missingMember _ | .nonScalarValue _ | .unknownFunction _ => .evaluation
  | .staleScratchFile _ => .scratch

namespace Warnings

theorem mem_recordAll {ws more : Warnings} {v : Warning} :
    v ∈ ws.recordAll more ↔ v ∈ ws ∨ v ∈ more := by
  induction more generalizing ws with
  | nil => simp
  | cons w more ih =>
      rw [recordAll_cons, ih, mem_record, List.mem_cons]
      exact or_assoc

/-- Of the warnings that are recorded, those that are new come to stand behind the others, each
where it first arose. -/
theorem recordAll_eq (ws more : Warnings) :
    ws.recordAll more = ws ++ (more.removeAll ws).eraseDups := by
  induction more generalizing ws with
  | nil => simp
  | cons w more ih =>
      rw [recordAll_cons, ih]
      by_cases hmem : w ∈ ws
      · simp [record, hmem, List.removeAll]
      · have hremove : more.removeAll (ws ++ [w]) =
            (more.removeAll ws).filter fun v => !v == w := by
          simp only [List.removeAll, List.filter_filter]
          apply List.filter_congr
          intro v _
          rw [Bool.eq_iff_iff]
          simp [and_comm]
        rw [record, if_neg hmem, hremove, List.append_assoc]
        simp [List.removeAll, hmem, List.eraseDups_cons]

theorem eraseDups_map {α β : Type} [BEq α] [LawfulBEq α] [BEq β] [LawfulBEq β] {f : α → β}
    (hf : ∀ a b, f a = f b → a = b) (l : List α) : (l.map f).eraseDups = l.eraseDups.map f := by
  induction hlength : l.length using Nat.strongRecOn generalizing l with
  | ind n ih =>
      cases l with
      | nil => rfl
      | cons a l =>
          have hrest : (l.map f).filter (fun b => !b == f a) =
              (l.filter fun b => !b == a).map f := by
            rw [List.filter_map]
            congr 1
            apply List.filter_congr
            intro b _
            have hiff : f b = f a ↔ b = a := ⟨hf b a, congrArg f⟩
            rw [Bool.eq_iff_iff]
            simp [hiff]
          have hshorter : (l.filter fun b => !b == a).length < n := by
            have hle := List.length_filter_le (fun b => !b == a) l
            rw [List.length_cons] at hlength
            omega
          rw [List.map_cons, List.eraseDups_cons, List.eraseDups_cons, hrest, ih _ hshorter _ rfl,
            List.map_cons]

/-- The second list is the first one with warnings of a pass recorded. -/
def Records (pass : Pass) (ws ws' : Warnings) : Prop :=
  ∃ more : Warnings, (∀ w ∈ more, w.pass = pass) ∧ ws' = ws.recordAll more

namespace Records

variable {pass : Pass} {ws ws' ws'' : Warnings}

theorem refl (pass : Pass) (ws : Warnings) : Records pass ws ws :=
  ⟨[], by simp, rfl⟩

theorem record (w : Warning) (ws : Warnings) : Records w.pass ws (ws.record w) :=
  ⟨[w], by simp, rfl⟩

theorem trans (h : Records pass ws ws') (h' : Records pass ws' ws'') : Records pass ws ws'' := by
  obtain ⟨front, hfront, rfl⟩ := h
  obtain ⟨back, hback, rfl⟩ := h'
  refine ⟨front ++ back, ?_, (recordAll_append ws front back).symm⟩
  intro w hw
  rcases List.mem_append.mp hw with hw | hw
  · exact hfront w hw
  · exact hback w hw

theorem foldl {α β : Type} (step : α × Warnings → β → α × Warnings)
    (h : ∀ acc b, Records pass acc.2 (step acc b).2) (bs : List β) (acc : α × Warnings) :
    Records pass acc.2 (bs.foldl step acc).2 := by
  induction bs generalizing acc with
  | nil => exact refl pass acc.2
  | cons b bs ih => exact (h acc b).trans (ih (step acc b))

theorem isPrefix (h : Records pass ws ws') : ws <+: ws' := by
  obtain ⟨more, -, rfl⟩ := h
  exact prefix_recordAll ws more

theorem nodup (h : Records pass ws ws') (hws : ws.Nodup) : ws'.Nodup := by
  obtain ⟨more, -, rfl⟩ := h
  exact nodup_recordAll hws more

theorem mem_of_pass_ne (h : Records pass ws ws') {w : Warning} (hw : w ∈ ws')
    (hpass : w.pass ≠ pass) : w ∈ ws := by
  obtain ⟨more, hmore, rfl⟩ := h
  exact (mem_recordAll.mp hw).resolve_right fun hmem => hpass (hmore w hmem)

theorem mem_iff (h : Records pass ws ws') {w : Warning} (hpass : w.pass ≠ pass) :
    w ∈ ws' ↔ w ∈ ws :=
  ⟨fun hw => h.mem_of_pass_ne hw hpass, fun hw => h.isPrefix.subset hw⟩

end Records

end Warnings

end Stencil
