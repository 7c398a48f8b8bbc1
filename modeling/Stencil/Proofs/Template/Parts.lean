import Stencil.Proofs.Block.Conditions
import Stencil.Proofs.Block.Loops
import Stencil.Proofs.Block.Tight
import Stencil.Proofs.Program.Staging
import Stencil.Proofs.Template.Compile
import Stencil.Proofs.Text.Sanitize

namespace Stencil

open Text

theorem Block.skips_openHead {kind kind' : BlockKind} {key : Text} (hkey : isKey key)
    {ends : Bool} (h : ends = true ∨ kind' ≠ kind) :
    Skips (openHead kind) (tag ends kind' key) := by
  apply skips_tag (kind.word ++ ['.']) hkey
  intro rest hstarts
  cases kind <;> cases kind' <;> cases ends <;> simp [tagName, BlockKind.word] at h hstarts

namespace Part

/-- The part, unless it is a block of the kind. -/
def swept (kind : BlockKind) : Part → List Part
  | leaf l => [leaf l]
  | block kind' key body => if kind' = kind then [] else [block kind' key body]

/-- The leaves that a part shows in its place. -/
def leaves : Part → List Leaf
  | leaf l => [l]
  | block _ _ _ => []

theorem sweep_source_append {p : Part} (hp : p.WellFormed) (kind : BlockKind) (t : Text) :
    Block.sweep kind (p.source ++ t) = (p.swept kind).flatMap source ++ Block.sweep kind t := by
  cases p with
  | leaf l =>
      rw [swept, List.flatMap_singleton]
      exact Block.sweep_append_of_skips (skips_of_notMem _ (Leaf.tags_notMem_source hp)) t
  | block kind' key body =>
      have hbody := Leaf.tags_notMem_flatMap_source hp.2
      by_cases h : kind' = kind
      · subst h
        rw [swept, if_pos rfl, source, List.append_assoc, List.append_assoc,
          Block.sweep_block hp.1 hbody]
        rfl
      · rw [swept, if_neg h, List.flatMap_singleton]
        apply Block.sweep_append_of_skips
        rw [source, Block.openTag_eq_tag, Block.closeTag_eq_tag]
        apply (Block.skips_openHead hp.1 (Or.inr h)).append
        apply Skips.append
        · exact skips_of_notMem _ hbody
        · exact Block.skips_openHead hp.1 (Or.inl rfl)

theorem sweep_flatMap_source {parts : List Part} (hparts : ∀ p ∈ parts, p.WellFormed)
    (kind : BlockKind) :
    Block.sweep kind (parts.flatMap source) = (parts.flatMap (swept kind)).flatMap source := by
  induction parts with
  | nil =>
      rw [List.flatMap_nil, Block.sweep_eq]
      rfl
  | cons p parts ih =>
      rw [List.flatMap_cons, sweep_source_append (hparts p (by simp)),
        ih fun q hq => hparts q (List.mem_cons_of_mem _ hq), List.flatMap_cons,
        List.flatMap_append]

theorem swept_swept (p : Part) :
    (p.swept .condition).flatMap (swept .loop) = p.leaves.map leaf := by
  rcases p with l | ⟨_ | _, key, body⟩
  · rfl
  · rfl
  · rfl

theorem wellFormed_of_mem_swept {kind : BlockKind} {p q : Part} (hp : p.WellFormed)
    (hq : q ∈ p.swept kind) : q.WellFormed := by
  cases p with
  | leaf l =>
      obtain rfl := List.mem_singleton.mp hq
      exact hp
  | block kind' key body =>
      rw [swept] at hq
      split at hq
      next => simp at hq
      next =>
        obtain rfl := List.mem_singleton.mp hq
        exact hp

theorem sweepBlocks_source {parts : List Part} (hparts : ∀ p ∈ parts, p.WellFormed) :
    Template.sweepBlocks (parts.flatMap source) =
      (parts.flatMap leaves).flatMap Leaf.source := by
  have hswept : ∀ q ∈ parts.flatMap (swept .condition), q.WellFormed := by
    intro q hq
    obtain ⟨p, hp, hq⟩ := List.mem_flatMap.mp hq
    exact wellFormed_of_mem_swept (hparts p hp) hq
  have hleaves : (parts.flatMap (swept .condition)).flatMap (swept .loop) =
      (parts.flatMap leaves).map leaf := by
    rw [List.flatMap_assoc, funext swept_swept, List.map_flatMap]
  rw [Template.sweepBlocks, sweep_flatMap_source hparts, sweep_flatMap_source hswept, hleaves,
    flatMap_source_leaves]

end Part

namespace Leaf

open Piece

/-- The pieces that a leaf is read as. -/
def pieces : Leaf → List Piece
  | text t => t.map .plain
  | slot inner => [.placeholder inner]

theorem ofText_source_append {l : Leaf} (hl : l.WellFormed) (t : Text) :
    ofText (l.source ++ t) = l.pieces ++ ofText t := by
  cases l with
  | text s =>
      have hopens : '{' ∉ s := hl.opens
      rw [source, pieces]
      clear hl
      induction s with
      | nil => rfl
      | cons c s ih =>
          simp only [List.mem_cons, not_or] at hopens
          rw [List.cons_append, ofText_cons_of_ne (Ne.symm hopens.1), ih hopens.2]
          rfl
  | slot inner =>
      exact ofText_placeholder (placeholder?_delimited (isInner_of_notMem hl.line hl.closes) t)

theorem ofText_flatMap_source {leaves : List Leaf} (h : ∀ l ∈ leaves, l.WellFormed) :
    ofText (leaves.flatMap source) = leaves.flatMap pieces := by
  induction leaves with
  | nil => rw [List.flatMap_nil, ofText, List.flatMap_nil]
  | cons l leaves ih =>
      rw [List.flatMap_cons, ofText_source_append (h l (by simp)),
        ih fun l' hl' => h l' (List.mem_cons_of_mem _ hl'), List.flatMap_cons]

theorem opens_notMem_of_plain_mem_pieces {l : Leaf} (hl : l.WellFormed) {c : Char}
    (h : .plain c ∈ l.pieces) : c ≠ '{' := by
  rintro rfl
  cases l with
  | text t =>
      obtain ⟨d, hd, heq⟩ := List.mem_map.mp h
      obtain rfl := Piece.plain.inj heq
      exact hl.opens hd
  | slot inner => simp [pieces] at h

/-- The text that a leaf comes to in the output. -/
def written (write : OutputFunction) (scope : Scope) : Leaf → Text
  | text t => t
  | slot inner => directOutput write scope inner

theorem flatMap_write_pieces (write : OutputFunction) (scope : Scope) (l : Leaf) :
    l.pieces.flatMap (Piece.write (directOutput write scope)) = l.written write scope := by
  cases l with
  | text t =>
      rw [pieces, List.flatMap_map]
      exact List.flatMap_singleton' t
  | slot inner => simp [pieces, Piece.write, written]

end Leaf

theorem Program.callFree_of_ne {function : Text} {pieces : List Piece}
    (h : ∀ c, .plain c ∈ pieces → c ≠ '{') : CallFree function pieces := by
  induction pieces with
  | nil => trivial
  | cons piece pieces ih =>
      have htail := ih fun c hc => h c (List.mem_cons_of_mem _ hc)
      cases piece with
      | plain c =>
          exact ⟨Segment.call?_of_ne (h c (by simp)) _, htail⟩
      | placeholder inner => exact htail

theorem Program.fst_run_stage_leaves {function : Text} (hf : isKey function)
    {registry : Registry} {write : OutputFunction} (hw : registry.get? function = some write)
    (scope : Scope) {leaves : List Leaf} (h : ∀ l ∈ leaves, l.WellFormed) (ws : Warnings) :
    (run registry scope (parse (stage function (leaves.flatMap Leaf.source))) ws).1 =
      leaves.flatMap (Leaf.written write scope) := by
  have hofText := Leaf.ofText_flatMap_source h
  have hfree : CallFree function (Piece.ofText (leaves.flatMap Leaf.source)) := by
    apply callFree_of_ne
    intro c hc
    rw [hofText] at hc
    obtain ⟨l, hl, hc⟩ := List.mem_flatMap.mp hc
    exact Leaf.opens_notMem_of_plain_mem_pieces (h l hl) hc
  have hparse := parse_flatMap_of_callFree (isName_of_isKey hf) hfree
  have hevaluate := evaluate_ofPieces hw scope (Piece.ofText (leaves.flatMap Leaf.source)) ws
  rw [hofText, List.flatMap_assoc, funext (Leaf.flatMap_write_pieces write scope)] at hevaluate
  rw [stage, replacePlaceholders, hparse, run, hofText]
  split
  next output ws' he =>
    rw [he] at hevaluate
    exact Except.ok.inj hevaluate
  next e ws' he =>
    rw [he] at hevaluate
    cases hevaluate

namespace Template

/-- Rules whose keys are keys, and whose texts begin no tag and no placeholder. -/
structure PlainRules (t : Template) : Prop where
  conditions : ∀ c ∈ t.conditions.entries, isKey c.1
  loops : ∀ e ∈ t.loops.entries, isKey e.1
  rows : ∀ e ∈ t.loops.entries, ∀ row ∈ e.2, Part.PlainRow row
  statics : ∀ e ∈ t.statics.entries, isKey e.1 ∧ Plain e.2

/-- The texts of the static variables as they are put into a template. -/
def staticEntries (t : Template) : List (Text × Text) :=
  t.statics.entries.map fun e => (e.1, sanitize e.2)

theorem PlainRules.staticEntries {t : Template} (h : t.PlainRules) :
    ∀ e ∈ t.staticEntries, Plain e.1 ∧ Plain e.2 := by
  intro e he
  obtain ⟨e', he', rfl⟩ := List.mem_map.mp he
  obtain ⟨hkey, hvalue⟩ := h.statics e' he'
  exact ⟨plain_of_isKey hkey, hvalue.sublist (sanitize_sublist _)⟩

/-- What the rules of a template make of a part. -/
def resolve (t : Template) (p : Part) : List Part :=
  ((p.expand .condition Part.keptLeaves t.conditions.entries).flatMap
    (Part.expand .loop Part.rowLeaves t.loops.entries)).map (Part.fill t.staticEntries)

theorem PlainRules.wellFormed_of_mem_resolve {t : Template} (h : t.PlainRules) {p q : Part}
    (hp : p.WellFormed) (hq : q ∈ t.resolve p) : q.WellFormed := by
  obtain ⟨q', hq', rfl⟩ := List.mem_map.mp hq
  obtain ⟨p', hp', hq'⟩ := List.mem_flatMap.mp hq'
  apply Part.wellFormed_fill fun e he => (h.staticEntries e he).2
  apply Part.wellFormed_of_mem_expand (Part.keepsLeaves_rowLeaves h.rows) _ hq'
  exact Part.wellFormed_of_mem_expand (Part.keepsLeaves_keptLeaves _) hp hp'

theorem fst_applyRules_source {t : Template} (h : t.PlainRules) {parts : List Part}
    (hparts : Part.AllWellFormed parts) (hcontent : t.content = parts.flatMap Part.source) :
    t.applyRules.1 = (parts.flatMap t.resolve).flatMap Part.source := by
  have hkept := Part.keepsLeaves_keptLeaves t.conditions.entries
  have hrows := Part.keepsLeaves_rowLeaves h.rows
  have hconditions := Part.fst_foldl_source hkept (fun c hc parts hparts ws =>
    Part.fst_resolveCondition_source (h.conditions c hc) hparts.part c.2 ws) hparts t.warnings
  have hloops := Part.fst_foldl_source hrows (fun e he parts hparts ws =>
    Part.fst_resolveLoop_source (h.loops e he) (h.rows e he) hparts ws)
    (hparts.expand hkept : Part.AllWellFormed (parts.flatMap (Part.expand .condition _ _)))
    (t.conditions.entries.foldl (fun acc c =>
      Block.resolveCondition c.1 c.2 acc.1 acc.2) (parts.flatMap Part.source, t.warnings)).2
  have hexpanded : Part.AllWellFormed
      ((parts.flatMap (Part.expand .condition Part.keptLeaves t.conditions.entries)).flatMap
        (Part.expand .loop Part.rowLeaves t.loops.entries)) := (hparts.expand hkept).expand hrows
  have hstatics := Part.foldl_replaceAll_source h.staticEntries hexpanded.part
  have hresolve : (parts.flatMap t.resolve) =
      ((parts.flatMap (Part.expand .condition Part.keptLeaves t.conditions.entries)).flatMap
        (Part.expand .loop Part.rowLeaves t.loops.entries)).map (Part.fill t.staticEntries) := by
    rw [List.flatMap_assoc, List.map_flatMap]
    rfl
  rw [hresolve, ← hstatics, ← hloops, ← hconditions, staticEntries, List.foldl_map,
    fst_applyRules, resolved, hcontent, tighten_flatMap_source hparts.part]
  rfl

variable {t : Template} {parts : List Part}

theorem fst_evaluateInMemory_stageResult (h : t.PlainRules) (hparts : Part.AllWellFormed parts)
    (hcontent : t.content = parts.flatMap Part.source) (hf : isKey t.config.evaluationFunction)
    {write : OutputFunction} (hw : t.outputs.get? t.config.evaluationFunction = some write)
    (globals : Scope) :
    (t.stageResult.evaluateInMemory globals).1 =
      ((parts.flatMap t.resolve).flatMap Part.leaves).flatMap
        (Leaf.written write (globals.restrict t.injects)) := by
  have hresolved : ∀ q ∈ parts.flatMap t.resolve, q.WellFormed := by
    intro q hq
    obtain ⟨p, hp, hq⟩ := List.mem_flatMap.mp hq
    exact h.wellFormed_of_mem_resolve (hparts.part p hp) hq
  have hleaves : ∀ l ∈ (parts.flatMap t.resolve).flatMap Part.leaves, l.WellFormed := by
    intro l hl
    obtain ⟨q, hq, hl⟩ := List.mem_flatMap.mp hl
    cases q with
    | leaf l' =>
        obtain rfl := List.mem_singleton.mp hl
        exact hresolved _ hq
    | block kind key body => simp [Part.leaves] at hl
  have hrules := fst_applyRules_source h hparts hcontent
  have hresult : t.stageResult.result = stage t.config.evaluationFunction
      (((parts.flatMap t.resolve).flatMap Part.leaves).flatMap Leaf.source) := by
    rw [← Part.sweepBlocks_source hresolved, ← hrules, result_stageResult]
  have hkey : isKey t.stageResult.config.evaluationFunction := hf
  rw [evaluateInMemory, if_pos hkey, Template.run, hresult]
  exact Program.fst_run_stage_leaves hf hw _ hleaves _

/-- A compilation in memory of content that is the source of parts. -/
theorem compiled_of_parts {σ : Type} [MonadFiles (StateM σ)] (h : t.PlainRules)
    (hparts : Part.AllWellFormed parts) (hcontent : t.content = parts.flatMap Part.source)
    (hne : t.content ≠ []) (hmode : t.config.cacheMode = .direct)
    (hf : isKey t.config.evaluationFunction) {write : OutputFunction}
    (hw : t.outputs.get? t.config.evaluationFunction = some write) (globals : Scope) (fresh : Text)
    (s : σ) :
    (runOn s (t.compile globals fresh : StateM σ Template)).1.compiled =
      stripPlaceholders (((parts.flatMap t.resolve).flatMap Part.leaves).flatMap
        (Leaf.written write (globals.restrict t.injects))) := by
  -- Loading only forgets the warnings, on which no rule depends.
  have hloaded : ({ t with warnings := [], phase := .loaded } : Template).PlainRules :=
    ⟨h.1, h.2, h.3, h.4⟩
  have houtput := fst_evaluateInMemory_stageResult hloaded hparts hcontent hf hw globals
  rw [fst_compile_of_direct hmode, staged, runOn_load_of_content hne]
  exact congrArg stripPlaceholders houtput

end Template

end Stencil
