import Stencil.Command.Check
import Stencil.Proofs.Expression.Simple
import Stencil.Proofs.Expression.Thinning
import Stencil.Proofs.Placeholder.Inners
import Stencil.Proofs.Placeholder.Substitution
import Stencil.Proofs.Template.Strict

/-!
The check of template files and the compiler.  The check reads a file as it is; a compilation first
takes out markers, tightens the placeholders, fills those of static variables and takes out blocks.
They agree on which placeholders are rejected as long as no placeholder comes up on the way and the
blanks in those to be filled are spaces and tabs only.
-/

namespace Stencil

namespace Command

variable {t inner b key : Text}

theorem mem_of_isFillable (h : isFillable t) {c : Char} (hc : c ∈ t) : isKeyPart c ∨ c = '.' := by
  unfold isFillable at h
  split at h
  next front back hcut =>
    rw [Bool.and_eq_true] at h
    rw [Text.eq_of_cut? hcut, List.mem_append, List.mem_append, List.mem_singleton] at hc
    rcases hc with (hc | rfl) | hc
    · exact Or.inl (isKeyPart_of_mem h.1 hc)
    · exact Or.inr rfl
    · exact Or.inl (isKeyPart_of_mem h.2 hc)
  next => exact Or.inl (isKeyPart_of_mem h hc)

theorem notMem_of_isFillable (h : isFillable t) {c : Char} (hpart : isKeyPart c = false)
    (hdot : c ≠ '.') : c ∉ t := by
  intro hc
  rcases mem_of_isFillable h hc with hkey | rfl
  · exact absurd (hpart.symm.trans hkey) (by decide)
  · exact hdot rfl

theorem isBlank_eq_false_of_isFillable (h : isFillable t) : ∀ c ∈ t, Text.isBlank c = false := by
  intro c hc
  rcases mem_of_isFillable h hc with hkey | rfl
  · exact isBlank_eq_false_of_isKeyPart hkey
  · decide

theorem ofInner_eq_fillable_iff :
    PlaceholderKind.ofInner inner = .fillable ↔ isFillable (Text.trim inner) = true := by
  unfold PlaceholderKind.ofInner
  dsimp only
  split
  next h => simp [h]
  next h => split <;> simp [h]

theorem ne_rejected_iff :
    PlaceholderKind.ofInner inner ≠ .rejected ↔
      isFillable (Text.trim inner) = true ∨ ∃ e, Expression.Derives (Text.trim inner) e := by
  rw [← Expression.accepts_iff]
  unfold PlaceholderKind.ofInner
  dsimp only
  split
  next h => simp [h]
  next h => split <;> simp [*]

theorem settled_of_ne_rejected (h : PlaceholderKind.ofInner inner ≠ .rejected) :
    Settled inner := by
  rintro front back rfl
  rcases ne_rejected_iff.mp h with hfillable | ⟨e, he⟩
  · have hmem : '}' ∈ Text.trim (front ++ '}' :: back) :=
      Text.mem_trim_of_mem (by simp) (by decide)
    exact absurd hmem (notMem_of_isFillable hfillable (by decide) (by decide))
  · refine Classical.byContradiction fun hnone => ?_
    have hblank : ∀ c ∈ back, Text.isBlank c :=
      fun c hc => isBlank_of_isInlineSpace (isInlineSpace_of_forall hnone c hc)
    have hbrace : Text.isBlank '}' = false := by decide
    obtain ⟨s, hs⟩ := Text.exists_trim_append_singleton front hbrace
    rw [show front ++ '}' :: back = front ++ ['}'] ++ back by simp,
      Text.trim_append_of_blank hblank, hs] at he
    exact EndsClosed.brace_ne_last he.endsClosed

theorem not_suffix_of_thinned (h : PlaceholderKind.ofInner inner ≠ .rejected)
    (hb : Thinned b inner) (hkey : isFillable key) : ¬ '{' :: key <:+ b := by
  rcases ne_rejected_iff.mp h with hfillable | ⟨e, he⟩
  · intro hsuffix
    have hmem : '{' ∈ inner := hb.sublist.subset (hsuffix.subset List.mem_cons_self)
    exact notMem_of_isFillable hfillable (by decide) (by decide)
      (Text.mem_trim_of_mem hmem (by decide))
  · obtain ⟨e', he'⟩ := he.thinned hb.trim
    obtain ⟨front, back, hparts, -, hback⟩ := Text.exists_eq_trim b
    have hbrace : '{' ∉ back := fun hmem => absurd (hback _ hmem) (by decide)
    have hends : EndsClosed (front ++ Text.trim b) := by
      obtain ⟨front', c, name, htrim, hc, hname⟩ := he'.endsClosed
      exact ⟨front ++ front', c, name, by rw [htrim, List.append_assoc], hc, hname⟩
    rw [hparts, ← List.append_assoc]
    refine hends.not_suffix (fun c hc => ?_) hbrace
    have hne {d : Char} (hpart : isKeyPart d = false) (hdot : d ≠ '.') : c ≠ d := by
      rintro rfl
      exact notMem_of_isFillable hkey hpart hdot hc
    exact ⟨hne (by decide) (by decide), hne (by decide) (by decide), hne (by decide) (by decide)⟩

/-- The blanks of an inner text are spaces and tabs. -/
def Snug (inner : Text) : Prop :=
  ∀ c ∈ inner, Text.isBlank c → isInlineSpace c

instance (inner : Text) : Decidable (Snug inner) :=
  List.decidableBAll (fun c => Text.isBlank c → isInlineSpace c) inner

theorem trim_of_tightened (h : isFillable (Text.trim inner)) (hb : Tightened inner b) :
    Text.trim b = Text.trim inner := by
  refine hb.thinned.trim.eq_of_solid fun c hc => ?_
  exact isInlineSpace_eq_false (isBlank_eq_false_of_isFillable h c hc)

theorem eq_trim_of_snug (h : isFillable (Text.trim inner)) (hb : Tightened inner b)
    (hsnug : Snug inner) : b = Text.trim inner := by
  have hsolid {c : Char} (hc : c ∈ b) (hspace : isInlineSpace c = false) :
      Text.isBlank c = false := by
    rw [Bool.eq_false_iff] at hspace ⊢
    exact mt (hsnug c (hb.thinned.sublist.subset hc)) hspace
  rw [← trim_of_tightened h hb, Text.trim_of_trimmed]
  constructor
  · intro c hc
    exact hsolid (List.mem_of_mem_head? hc) (hb.head c hc)
  · intro c hc
    exact hsolid (List.mem_of_mem_getLast? hc) (hb.last c hc)

theorem ne_of_not_snug (hb : Tightened inner b) (hsnug : ¬ Snug inner) (hkey : isFillable key) :
    b ≠ key := by
  rintro rfl
  refine hsnug fun c hc hblank => Classical.byContradiction fun hspace => ?_
  have hmem := hb.thinned.mem_of_mem hc (Bool.eq_false_iff.mpr hspace)
  exact Bool.eq_false_iff.mp (isBlank_eq_false_of_isFillable hkey c hmem) hblank

theorem staged?_of_fillable (h : isFillable (Text.trim inner)) (hb : Tightened inner b) :
    staged? b = none := by
  apply Expression.staged?_of_notMem
  intro hmem
  exact notMem_of_isFillable h (by decide) (by decide)
    (Text.mem_trim_of_mem (hb.thinned.sublist.subset hmem) (by decide))

theorem staged?_isSome_of_expression {e : Expression} (h : Expression.Derives (Text.trim inner) e)
    (hb : Tightened inner b) : (staged? b).isSome := by
  obtain ⟨e', he'⟩ := h.thinned hb.thinned.trim
  rw [staged?, Expression.parse_of_derives he']
  rfl

/-- The variables are those of the placeholders of a text that can be filled, under their trimmed
inner texts. -/
structure Fills (statics : Bindings Text) (text : Text) : Prop where
  bound : ∀ inner ∈ inners text, PlaceholderKind.ofInner inner = .fillable →
    Text.trim inner ∈ statics.entries.map Prod.fst
  named : ∀ key ∈ statics.entries.map Prod.fst, ∃ inner ∈ inners text,
    PlaceholderKind.ofInner inner = .fillable ∧ Text.trim inner = key
  values : ∀ e ∈ statics.entries, '{' ∉ e.2

theorem Fills.isFillable {statics : Bindings Text} {text : Text} (h : Fills statics text)
    (hkey : key ∈ statics.entries.map Prod.fst) : isFillable key := by
  obtain ⟨inner, -, hkind, rfl⟩ := h.named key hkey
  exact ofInner_eq_fillable_iff.mp hkind

section Filling

variable {statics : Bindings Text} {text content : Text}

theorem inners_foldl_substitute_tighten (hstatics : Fills statics text)
    (hcheck : ∀ inner ∈ inners content, PlaceholderKind.ofInner inner ≠ .rejected) :
    inners (statics.entries.foldl (fun t (key, value) => Block.substitute key value t)
        (tighten content)) =
      (inners (tighten content)).filter (· ∉ statics.entries.map Prod.fst) := by
  have htight := inners_tighten fun inner hinner => settled_of_ne_rejected (hcheck inner hinner)
  have hfillable {e : Text × Text} (he : e ∈ statics.entries) : isFillable e.1 :=
    hstatics.isFillable (List.mem_map_of_mem he)
  apply inners_foldl_substitute
  · intro e he
    refine ⟨⟨?_, ?_⟩, hstatics.values e he⟩
    · exact notMem_of_isFillable (hfillable he) (by decide) (by decide)
    · exact notMem_of_isFillable (hfillable he) (by decide) (by decide)
  · intro e he b hb
    obtain ⟨inner, hinner, htightened⟩ := exists_of_forall₂ htight.flip hb
    exact not_suffix_of_thinned (hcheck inner hinner) htightened.thinned (hfillable he)

/-- The variables leave only expressions exactly if every placeholder that can be filled is snug. -/
theorem forall_staged?_isSome_iff_snug (hstatics : Fills statics text)
    (hcheck : ∀ inner ∈ inners text, PlaceholderKind.ofInner inner ≠ .rejected)
    (hcontent : ∀ inner ∈ inners content, inner ∈ inners text) :
    (∀ inner ∈ inners (statics.entries.foldl
        (fun t (key, value) => Block.substitute key value t) (tighten content)),
        (staged? inner).isSome) ↔
      ∀ inner ∈ inners content, PlaceholderKind.ofInner inner = .fillable → Snug inner := by
  have hcheck' : ∀ inner ∈ inners content, PlaceholderKind.ofInner inner ≠ .rejected :=
    fun inner hinner => hcheck inner (hcontent inner hinner)
  have htight := inners_tighten fun inner hinner => settled_of_ne_rejected (hcheck' inner hinner)
  rw [inners_foldl_substitute_tighten hstatics hcheck']
  simp only [List.mem_filter, decide_eq_true_eq]
  constructor
  · intro hstaged inner hinner hkind
    have hfillable := ofInner_eq_fillable_iff.mp hkind
    obtain ⟨b, hb, htightened⟩ := exists_of_forall₂ htight hinner
    refine Classical.byContradiction fun hsnug => ?_
    -- the blank keeps the name from being found, and without a `$` nothing else is staged
    have hsome := hstaged b ⟨hb, fun hkey =>
      ne_of_not_snug htightened hsnug (hstatics.isFillable hkey) rfl⟩
    rw [staged?_of_fillable hfillable htightened] at hsome
    exact absurd hsome (by decide)
  · rintro hsnug b ⟨hb, hkey⟩
    obtain ⟨inner, hinner, htightened⟩ := exists_of_forall₂ htight.flip hb
    rcases ne_rejected_iff.mp (hcheck' inner hinner) with hfillable | ⟨e, he⟩
    · have hkind := ofInner_eq_fillable_iff.mpr hfillable
      rw [eq_trim_of_snug hfillable htightened (hsnug inner hinner hkind)] at hkey
      exact absurd (hstatics.bound inner (hcontent inner hinner) hkind) hkey
    · exact staged?_isSome_of_expression he htightened

end Filling

variable {σ : Type} [MonadFiles (StateM σ)]

theorem rejected_ofText_eq_nil_iff {file text : Text} :
    (FileReport.ofText file text).rejected = [] ↔
      ∀ inner ∈ inners text, PlaceholderKind.ofInner inner ≠ .rejected := by
  simp only [FileReport.ofText, List.map_eq_nil_iff, List.filter_eq_nil_iff, beq_iff_eq, ne_eq]

theorem fst_readReports_singleton {file text : Text} {s : σ}
    (hread : (runOn s (MonadFiles.readText? file : StateM σ (Option Text))).1 = some text) :
    (runOn s (readReports [file] : StateM σ _)).1 = .ok [FileReport.ofText file text] := by
  simp only [readReports, readFile, runOn_bind, hread]
  rfl

theorem code_checkFiles_eq_zero_iff {given : Given} {file text : Text} {s : σ}
    (hread : (runOn s (MonadFiles.readText? file : StateM σ (Option Text))).1 = some text) :
    (runOn s (checkFiles given [file] : StateM σ Outcome)).1.code = 0 ↔
      ∀ inner ∈ inners text, PlaceholderKind.ofInner inner ≠ .rejected := by
  rw [checkFiles, runOn_bind, fst_readReports_singleton hread]
  change (showReports given [FileReport.ofText file text]).code = 0 ↔ _
  rw [showReports, ← @rejected_ofText_eq_nil_iff file]
  split
  next hrejected => simpa [Outcome.dataCode] using hrejected
  next hrejected => simpa [Outcome.success] using hrejected

theorem ruledText_setContent {t : Template} {text : Text} (hcontent : sanitize text ≠ [])
    (hconditions : t.conditions.entries = []) (hloops : t.loops.entries = []) (s : σ) :
    (t.setContent text).ruledText s =
      t.statics.entries.foldl (fun t (key, value) => Block.substitute key value t)
        (tighten (sanitize text)) := by
  have hload := Template.runOn_load_of_content (t := t.setContent text) hcontent s
  rw [Template.ruledText, hload, Template.fst_applyRules, Template.resolved]
  simp only [Template.setContent, hconditions, hloops, List.foldl_nil]

/-- A text that passes the check is compiled without a rejected placeholder exactly if the blanks in
the placeholders to be filled are spaces and tabs: where sanitizing brings up no placeholder and the
rules leave no block.  Where they leave some, their removal must bring up none either. -/
theorem checked_text_keeps_placeholders_iff_snug {given : Given} {file text : Text} {s s' : σ}
    {t : Template} {globals : Scope} {fresh : Text}
    (hread : (runOn s (MonadFiles.readText? file : StateM σ (Option Text))).1 = some text)
    (hcheck : (runOn s (checkFiles given [file] : StateM σ Outcome)).1.code = 0)
    (hcontent : sanitize text ≠ [])
    (hsanitize : ∀ inner ∈ inners (sanitize text), inner ∈ inners text)
    (hconditions : t.conditions.entries = []) (hloops : t.loops.entries = [])
    (hstatics : Fills t.statics text) :
    ((∀ kind, ¬ Block.HoldsBlock kind ((t.setContent text).ruledText s')) →
      ((∀ source, .rejectedPlaceholder source ∉ (runOn s'
          ((t.setContent text).compile globals fresh : StateM σ Template)).1.warnings) ↔
        ∀ inner ∈ inners (sanitize text),
          PlaceholderKind.ofInner inner = .fillable → Snug inner)) ∧
      ((∀ inner ∈ inners (Template.sweepBlocks ((t.setContent text).ruledText s')),
          inner ∈ inners ((t.setContent text).ruledText s')) →
        (∀ inner ∈ inners (sanitize text),
          PlaceholderKind.ofInner inner = .fillable → Snug inner) →
        ∀ source, .rejectedPlaceholder source ∉ (runOn s'
          ((t.setContent text).compile globals fresh : StateM σ Template)).1.warnings) := by
  rw [code_checkFiles_eq_zero_iff hread] at hcheck
  have hstaged := forall_staged?_isSome_iff_snug hstatics hcheck hsanitize
  rw [← ruledText_setContent hcontent hconditions hloops s'] at hstaged
  rw [Template.forall_rejectedPlaceholder_notMem_iff]
  constructor
  · intro hblocks
    rw [Template.sweepBlocks_eq_self_iff.mpr hblocks]
    exact hstaged
  · intro hsweep hsnug inner hinner
    exact hstaged.mpr hsnug inner (hsweep inner hinner)

theorem checked_text_with_block_keeps_placeholders :
    let text :=
      "\x7b\x7b title \x7d\x7d<if.k>\x7b\x7btitle\x7d\x7d</if.k>\x7b\x7b $v \x7d\x7d".toList
    let fs : FileSystem :=
      { nodes := [(⟨.working 0, [['t']]⟩, .file (some text))], temporary := [] }
    let t : Template := { statics := .ofList [("title".toList, ['x'])] }
    (runOn fs (checkFiles [] [['t']] : StateM FileSystem Outcome)).1.code = 0 ∧
      ∀ source, .rejectedPlaceholder source ∉ (runOn fs
        ((t.setContent text).compile .empty [] : StateM FileSystem Template)).1.warnings := by
  intro text fs t
  have hread : (runOn fs (MonadFiles.readText? ['t'] : StateM FileSystem _)).1 = some text := by
    decide +kernel
  have hcheck : (runOn fs (checkFiles [] [['t']] : StateM FileSystem Outcome)).1.code = 0 :=
    (code_checkFiles_eq_zero_iff hread).mpr (by decide +kernel)
  have hstatics : Fills t.statics text :=
    ⟨by decide +kernel, by decide +kernel, by decide +kernel⟩
  refine ⟨hcheck, (checked_text_keeps_placeholders_iff_snug hread hcheck ?_ ?_ rfl rfl
    hstatics).2 ?_ ?_⟩
  · decide +kernel
  · decide +kernel
  · decide +kernel
  · decide +kernel

/-- The check passes a placeholder that sanitizing brings up, one that the removal of a block brings
up, and one with a blank that tightening leaves; the compilation takes all three out. -/
theorem compile_rejects_checked_placeholders :
    let fs (text : Text) : FileSystem :=
      { nodes := [(⟨.working 0, [['t']]⟩, .file (some text))], temporary := [] }
    let disagree (text inner : Text) (t : Template) : Prop :=
      Fills t.statics text ∧
        (runOn (fs text) (checkFiles [] [['t']] : StateM FileSystem Outcome)).1.code = 0 ∧
        .rejectedPlaceholder (delimited inner) ∈ (runOn (fs text)
          ((t.setContent text).compile .empty [] : StateM FileSystem Template)).1.warnings
    disagree "\x7b`\x7b1+1\x7d\x7d".toList "1+1".toList {} ∧
      disagree "\x7b<if.k></if.k>\x7b1+1\x7d\x7d".toList "1+1".toList {} ∧
      disagree (delimited ('\u00a0' :: "title".toList)) ('\u00a0' :: "title".toList)
        { statics := .ofList [("title".toList, ['x'])] } := by
  intro fs disagree
  refine ⟨⟨⟨?_, ?_, ?_⟩, ?_, ?_⟩, ⟨⟨?_, ?_, ?_⟩, ?_, ?_⟩, ⟨?_, ?_, ?_⟩, ?_, ?_⟩
  all_goals decide +kernel

end Command

end Stencil
