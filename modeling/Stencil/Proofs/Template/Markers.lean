import Stencil.Proofs.Template.Kept
import Stencil.Proofs.Text.Sanitize

/-!
Markers in the output.  Content and static values are sanitized each by itself, and the passes
behind that join texts which were apart before.  A backtick cannot come about in this way.  The
other markers are pairs of neighbours, and such a pair can come about only from a character in front
of a place where something is cut out or put in, and one behind such a place.
-/

namespace Stencil

namespace Marker

/-- The character stands in front of what begins a tag or a placeholder, or ends a value. -/
def BeforeSeam (content : Text) (values : List Text) (a : Char) : Prop :=
  (∃ t ∈ content :: values, [a, '{'] <:+: t ∨ [a, '<'] <:+: t) ∨ ∃ v ∈ values, [a] <:+ v

/-- The character stands behind what ends a tag or a placeholder, or begins a value. -/
def BehindSeam (content : Text) (values : List Text) (b : Char) : Prop :=
  (∃ t ∈ content :: values, ['}', b] <:+: t ∨ ['>', b] <:+: t) ∨ ∃ v ∈ values, [b] <+: v

instance (content : Text) (values : List Text) (a : Char) :
    Decidable (BeforeSeam content values a) :=
  inferInstanceAs (Decidable (_ ∨ _))

instance (content : Text) (values : List Text) (b : Char) :
    Decidable (BehindSeam content values b) :=
  inferInstanceAs (Decidable (_ ∨ _))

/-- No two characters that may come together at a seam are a marker. -/
def SeamsApart (content : Text) (values : List Text) : Prop :=
  ∀ a b, BeforeSeam content values a → BehindSeam content values b → ¬ Pair a b

/-- What is kept of two neighbours: if they are a marker they stand beside a seam, and so do those
that a marker could come of when one of them is cut out. -/
structure Joint (before behind : Char → Prop) (a b : Char) : Prop where
  seam : Pair a b → before a ∧ behind b
  left : b ∈ ['{', '<'] → a ∈ ['<', '?'] → before a
  right : a ∈ ['}', '>'] → b ∈ ['?', '>'] → behind b

section Joint

variable {before behind : Char → Prop}

theorem joint_of_left {a : Char} (ha : a ∉ ['<', '?', '}', '>']) (b : Char) :
    Joint before behind a b := by
  simp only [List.mem_cons, List.not_mem_nil, or_false, not_or] at ha
  constructor
  · simp [Pair, ha]
  · simp [ha]
  · simp [ha]

theorem joint_of_right (a : Char) {b : Char} (hb : b ∉ ['?', '>', '{', '<']) :
    Joint before behind a b := by
  simp only [List.mem_cons, List.not_mem_nil, or_false, not_or] at hb
  constructor
  · simp [Pair, hb]
  · simp [hb]
  · simp [hb]

theorem joint_of_seam {a b : Char} (ha : a ∈ ['<', '?'] → before a)
    (hb : b ∈ ['?', '>'] → behind b) : Joint before behind a b := by
  refine ⟨?_, fun _ => ha, fun _ => hb⟩
  rintro (⟨rfl, rfl⟩ | ⟨rfl, rfl⟩)
  · exact ⟨ha (by simp), hb (by simp)⟩
  · exact ⟨ha (by simp), hb (by simp)⟩

variable (before behind) in
/-- A text that may be put in between two seams. -/
structure Seamed (value : Text) : Prop where
  chain : value.IsChain (Joint before behind)
  last : ∀ a ∈ value.getLast?, a ∈ ['<', '?'] → before a
  head : ∀ b ∈ value.head?, b ∈ ['?', '>'] → behind b

theorem isChain_append_of_left {front t : Text} (hfront : ∀ c ∈ front, c ∉ ['<', '?', '}', '>'])
    (ht : t.IsChain (Joint before behind)) : (front ++ t).IsChain (Joint before behind) := by
  induction front with
  | nil => exact ht
  | cons c front ih =>
      rw [List.forall_mem_cons] at hfront
      exact List.isChain_cons.mpr ⟨fun b _ => joint_of_left hfront.1 b, ih hfront.2⟩

/-- Splicing keeps a chain together: at each seam a character in front meets one behind. -/
theorem isChain_of_spliced {t t' : Text} (hspliced : Spliced (Seamed before behind) t t') (a : Char)
    (h : (a :: t).IsChain (Joint before behind)) : (a :: t').IsChain (Joint before behind) := by
  induction hspliced generalizing a with
  | nil => exact h
  | keep c _ ih =>
      rw [List.isChain_cons_cons] at h ⊢
      exact ⟨h.1, ih c h.2⟩
  | @cut piece value t t' hpiece hvalue _ ih =>
      obtain ⟨first, hfirst, last, hlast, inner, rfl⟩ := hpiece
      rw [List.cons_append, List.isChain_cons_cons, List.append_assoc, List.singleton_append] at h
      obtain ⟨hjoint, hrest⟩ := h
      rw [← List.cons_append, List.isChain_split, List.isChain_cons] at hrest
      obtain ⟨-, hbehind, htail⟩ := hrest
      -- whatever comes to stand in front of the rest instead of the piece makes a chain with it
      have hnext (c : Char) (hc : c ∈ ['<', '?'] → before c) :
          (c :: t).IsChain (Joint before behind) :=
        List.isChain_cons.mpr ⟨fun b hb => joint_of_seam hc ((hbehind b hb).right hlast), htail⟩
      rcases List.eq_nil_or_concat value with rfl | ⟨front, c, rfl⟩
      · exact ih a (hnext a (hjoint.left hfirst))
      · rw [List.concat_eq_append] at hvalue ⊢
        have hend : c ∈ ['<', '?'] → before c := hvalue.last c (by simp)
        rw [List.append_assoc, List.singleton_append, ← List.cons_append, List.isChain_split]
        refine ⟨List.isChain_cons.mpr ⟨?_, hvalue.chain⟩, ih c (hnext c hend)⟩
        intro b hb
        exact joint_of_seam (hjoint.left hfirst) (hvalue.head b hb)

theorem isChain_tighten {t : Text} (a : Char) (h : (a :: t).IsChain (Joint before behind)) :
    (a :: tighten t).IsChain (Joint before behind) := by
  fun_induction tighten t generalizing a with
  | case1 => exact h
  | case2 c t rest hopen ih =>
      rw [Text.after?_eq_some_iff.mp hopen, opening, List.cons_append, List.singleton_append,
        List.isChain_cons_cons, List.isChain_cons_cons] at h
      obtain ⟨hfirst, hsecond, hrest⟩ := h
      rw [opening, List.cons_append, List.singleton_append, List.isChain_cons_cons,
        List.isChain_cons_cons]
      refine ⟨hfirst, hsecond, ih '{' (List.isChain_cons.mpr ⟨?_, ?_⟩)⟩
      · intro b _
        exact joint_of_left (by decide) b
      · exact hrest.tail.suffix (List.dropWhile_suffix _)
  | case3 c t _ hblank ih =>
      rw [Bool.and_eq_true] at hblank
      refine ih a (List.isChain_cons.mpr ⟨?_, h.tail.tail⟩)
      intro b hb
      obtain ⟨t', rfl⟩ := List.head?_eq_some_iff.mp hb
      -- behind a blank that goes stands a blank or a brace, and neither is part of a marker
      apply joint_of_right
      cases hspace : isInlineSpace b with
      | true =>
          simp only [isInlineSpace, Bool.or_eq_true, beq_iff_eq] at hspace
          rcases hspace with rfl | rfl
          · decide
          · decide
      | false =>
          rw [List.dropWhile_cons_of_neg (by simp [hspace]), List.isPrefixOf_iff_prefix,
            closing, List.cons_prefix_cons] at hblank
          rw [← hblank.2.1]
          decide
  | case4 c t _ _ ih =>
      rw [List.isChain_cons_cons] at h ⊢
      exact ⟨h.1, ih c h.2⟩

theorem left_of_isName {name : Text} (h : isName name) : ∀ c ∈ name, c ∉ ['<', '?', '}', '>'] := by
  intro c hc hmem
  have hpart : ∀ c ∈ ['<', '?', '}', '>'], isNamePart c = false := by
    simp [isNamePart]
  exact notMem_of_isName h (hpart c hmem) hc

theorem isChain_render_append {a : Accessor} (ha : a.WellFormed)
    (hkey : ∀ k, a.key? = some k → k.IsChain (Joint before behind)) {t : Text}
    (ht : t.IsChain (Joint before behind)) : (a.render ++ t).IsChain (Joint before behind) := by
  cases a with
  | index n =>
      apply isChain_append_of_left _ ht
      intro c hc hmem
      have hnot : ∀ c ∈ ['<', '?', '}', '>'], c.isDigit = false ∧ c ≠ '-' ∧ c ≠ '[' ∧ c ≠ ']' := by
        simp
      obtain ⟨hdigit, hminus, hopen, hclose⟩ := hnot c hmem
      have hnumber := (spellsInteger_integerText n).notMem hdigit hminus
      simp [Accessor.render, hnumber, hopen, hclose] at hc
  | key k =>
      have hquoted (quote : Char) (hleft : quote ∉ ['<', '?', '}', '>'])
          (hright : quote ∉ ['?', '>', '{', '<']) :
          (['[', quote] ++ (k ++ ([quote, ']'] ++ t))).IsChain (Joint before behind) := by
        apply isChain_append_of_left
        · simpa using hleft
        · refine List.isChain_append.mpr ⟨hkey k rfl, isChain_append_of_left ?_ ht, ?_⟩
          · simpa using hleft
          · intro c _ b hb
            obtain rfl : quote = b := by simpa using hb
            exact joint_of_right c hright
      rw [Accessor.render, quoteKey]
      split
      next => simpa using hquoted '"' (by decide) (by decide)
      next => simpa using hquoted '\'' (by decide) (by decide)
  | property name =>
      obtain ⟨c, name, rfl, hc⟩ := exists_head_of_isName ha
      have hright : c ∉ ['?', '>', '{', '<'] := by
        intro hmem
        have hstart : ∀ c ∈ ['?', '>', '{', '<'], isNameStart c = false := by
          simp [isNameStart]
        rw [hstart c hmem] at hc
        exact Bool.false_ne_true hc
      have hname := isChain_append_of_left (left_of_isName ha) ht
      rw [List.cons_append] at hname
      exact List.isChain_cons_cons.mpr ⟨joint_of_left (by decide) _,
        List.isChain_cons_cons.mpr ⟨joint_of_right _ hright, hname⟩⟩

theorem isChain_renderAll_append {accessors : List Accessor}
    (haccessors : ∀ a ∈ accessors, a.WellFormed)
    (hkeys : ∀ k ∈ accessors.filterMap Accessor.key?, k.IsChain (Joint before behind)) {t : Text}
    (ht : t.IsChain (Joint before behind)) :
    (accessors.flatMap Accessor.render ++ t).IsChain (Joint before behind) := by
  induction accessors with
  | nil => exact ht
  | cons a accessors ih =>
      rw [List.forall_mem_cons] at haccessors
      rw [List.flatMap_cons, List.append_assoc]
      apply isChain_render_append haccessors.1
      · intro k hk
        exact hkeys k (List.mem_filterMap.mpr ⟨a, by simp, hk⟩)
      · apply ih haccessors.2
        intro k hk
        obtain ⟨a', ha', hk⟩ := List.mem_filterMap.mp hk
        exact hkeys k (List.mem_filterMap.mpr ⟨a', List.mem_cons_of_mem _ ha', hk⟩)

theorem seamed_callText {function : Text} (hf : isKey function) {e : Expression}
    (he : e.WellFormed) (hkeys : ∀ k ∈ e.keys, k.IsChain (Joint before behind)) :
    Seamed before behind (callText function e) := by
  have hclose : ([')'] ++ closing).IsChain (Joint before behind) :=
    isChain_append_of_left (by simp)
      (List.isChain_cons_cons.mpr ⟨joint_of_right _ (by decide), List.isChain_singleton _⟩)
  have hfront : ∀ c ∈ opening ++ (function ++ (['(', '$'] ++ e.name)),
      c ∉ ['<', '?', '}', '>'] := by
    intro c hc
    simp only [List.mem_append] at hc
    rcases hc with hc | hc | hc | hc
    · exact (by simp [opening] : ∀ c ∈ opening, c ∉ ['<', '?', '}', '>']) c hc
    · exact left_of_isName (isName_of_isKey hf) c hc
    · exact (by simp : ∀ c ∈ ['(', '$'], c ∉ ['<', '?', '}', '>']) c hc
    · exact left_of_isName he.name c hc
  have htext : callText function e = opening ++ (function ++ (['(', '$'] ++ e.name)) ++
      (e.accessors.flatMap Accessor.render ++ ([')'] ++ closing)) := by
    simp [callText, delimited, Expression.render]
  constructor
  · rw [htext]
    exact isChain_append_of_left hfront (isChain_renderAll_append he.accessors hkeys hclose)
  · intro a ha hmem
    have hlast : (callText function e).getLast? = some '}' := by
      rw [callText, delimited, List.getLast?_append]
      rfl
    obtain rfl : '}' = a := by simpa [hlast] using ha
    exact absurd hmem (by decide)
  · intro b hb hmem
    obtain rfl : '{' = b := by simpa [callText, delimited, opening] using hb
    exact absurd hmem (by decide)

theorem kept_isChain :
    Kept (List.IsChain (Joint before behind)) (Seamed before behind) := by
  -- a newline in front makes of any chain one with a first character
  have hcons {t : Text} (h : t.IsChain (Joint before behind)) :
      ('\n' :: t).IsChain (Joint before behind) :=
    List.isChain_cons.mpr ⟨fun b _ => joint_of_left (by decide) b, h⟩
  constructor
  · exact .nil
  · exact ⟨.nil, by simp, by simp⟩
  · intro t h
    exact (isChain_tighten '\n' (hcons h)).tail
  · intro t t' h hspliced
    exact (isChain_of_spliced hspliced '\n' (hcons h)).tail
  · intro t function e h hf he hkeys
    apply seamed_callText hf he
    intro k hk
    obtain ⟨front, back, rfl⟩ := hkeys k hk
    exact h.left_of_append.right_of_append

end Joint

theorem mem_of_spliced {Fits : Text → Prop} {c : Char} (hfits : ∀ v, Fits v → c ∉ v) {t t' : Text}
    (h : Spliced Fits t t') (hc : c ∈ t') : c ∈ t := by
  induction h with
  | nil => exact hc
  | keep d _ ih =>
      rcases List.mem_cons.mp hc with rfl | hc
      · exact List.mem_cons_self
      · exact List.mem_cons_of_mem d (ih hc)
  | cut _ hvalue _ ih =>
      rcases List.mem_append.mp hc with hc | hc
      · exact absurd hc (hfits _ hvalue)
      · exact List.mem_append_right _ (ih hc)

theorem kept_backtick_notMem :
    Kept (fun t => '\x60' ∉ t) (fun v => '\x60' ∉ v) := by
  constructor
  · exact List.not_mem_nil
  · exact List.not_mem_nil
  · intro t h hmem
    exact h ((tighten_sublist t).subset hmem)
  · intro t t' h hspliced hmem
    exact h (mem_of_spliced (fun _ hv => hv) hspliced hmem)
  · intro t function e h hf he hkeys
    have hfunction : '\x60' ∉ function := notMem_of_isKey hf (by decide)
    have hrender : '\x60' ∉ e.render :=
      Expression.notMem_render he (by decide) (by decide) fun k hk hmem =>
        h ((hkeys k hk).subset hmem)
    simp [callText, delimited, opening, closing, hfunction, hrender]

section Seams

variable {content : Text} {values : List Text}

theorem isChain_of_free {t : Text} (ht : t ∈ content :: values) (h : Free t) :
    t.IsChain (Joint (BeforeSeam content values) (BehindSeam content values)) := by
  rw [List.isChain_iff_forall_rel_of_append_cons_cons]
  intro a b front back heq
  have hstands : [a, b] <:+: t := ⟨front, back, by simp [heq]⟩
  constructor
  · intro hpair
    have hnot := (List.isChain_iff_forall_rel_of_append_cons_cons.mp (free_iff.mp h).2) heq
    exact absurd hpair hnot
  · intro hb _
    rw [List.mem_pair] at hb
    refine Or.inl ⟨t, ht, ?_⟩
    rcases hb with rfl | rfl
    · exact Or.inl hstands
    · exact Or.inr hstands
  · intro ha _
    rw [List.mem_pair] at ha
    refine Or.inl ⟨t, ht, ?_⟩
    rcases ha with rfl | rfl
    · exact Or.inl hstands
    · exact Or.inr hstands

theorem seamed_of_free {v : Text} (hv : v ∈ values) (h : Free v) :
    Seamed (BeforeSeam content values) (BehindSeam content values) v := by
  refine ⟨isChain_of_free (List.mem_cons_of_mem _ hv) h, ?_, ?_⟩
  · intro a ha _
    obtain ⟨front, rfl⟩ := List.getLast?_eq_some_iff.mp ha
    exact Or.inr ⟨_, hv, front, rfl⟩
  · intro b hb _
    obtain ⟨back, rfl⟩ := List.head?_eq_some_iff.mp hb
    exact Or.inr ⟨_, hv, back, rfl⟩

theorem free_of_seamsApart {t : Text} (hbacktick : '\x60' ∉ t)
    (hpairs : ∀ a b, Pair a b → [a, b] <:+: t →
      BeforeSeam content values a ∧ BehindSeam content values b)
    (h : SeamsApart content values) : Free t := by
  rw [free_iff, List.isChain_iff_forall_rel_of_append_cons_cons]
  refine ⟨hbacktick, ?_⟩
  rintro a b front back rfl hpair
  obtain ⟨ha, hb⟩ := hpairs a b hpair ⟨front, back, by simp⟩
  exact h a b ha hb hpair

end Seams

end Marker

namespace Template

variable {σ : Type} [MonadFiles (StateM σ)]

theorem free_content_load (t : Template) (content : Text) (s : σ) :
    Marker.Free (runOn s ((t.setContent content).load : StateM σ Template)).1.content := by
  rcases (t.setContent content).content_load_cases s with hload | ⟨text, hload⟩
  · rw [hload]
    exact Marker.free_sanitize content
  · rw [hload]
    exact Marker.free_sanitize text

variable {view : FileView σ}

/-- Without loops and injected variables no backtick comes to the output.  Any other marker in it is
a pair of characters that stand beside seams, so that there is none where the seams are apart. -/
theorem compiled_holds_markers_at_seams_only (files : LawfulFiles σ view) {t : Template}
    (hloops : t.loops = .empty) (hinjects : t.injects = [])
    (hwrite : ∀ name write, t.outputs.get? name = some write → write [] = [])
    (content : Text) (globals : Scope) (fresh : Text) (s : σ) :
    let loaded := (runOn s ((t.setContent content).load : StateM σ Template)).1.content
    let values := t.statics.entries.map fun e => sanitize e.2
    let compiled :=
      (runOn s ((t.setContent content).compile globals fresh : StateM σ Template)).1.compiled
    '\x60' ∉ compiled ∧
      (∀ a b, Marker.Pair a b → [a, b] <:+: compiled →
        Marker.BeforeSeam loaded values a ∧ Marker.BehindSeam loaded values b) ∧
      (Marker.SeamsApart loaded values → Marker.Free compiled) := by
  intro loaded values compiled
  have hloaded : Marker.Free loaded := free_content_load t content s
  have hnoLoops : (t.setContent content).loops = .empty := hloops
  have hnoNames : (t.setContent content).injects = [] := hinjects
  have hvalue : ∀ e ∈ (t.setContent content).statics.entries, Marker.Free (sanitize e.2) :=
    fun e _ => Marker.free_sanitize e.2
  have hbacktick : '\x60' ∉ compiled :=
    Marker.kept_backtick_notMem.compiled files hnoLoops hnoNames hwrite
      (fun e he => (Marker.free_iff.mp (hvalue e he)).1) globals fresh
      (Marker.free_iff.mp hloaded).1
  have hchain : compiled.IsChain
      (Marker.Joint (Marker.BeforeSeam loaded values) (Marker.BehindSeam loaded values)) :=
    Marker.kept_isChain.compiled files hnoLoops hnoNames hwrite
      (fun e he => Marker.seamed_of_free (List.mem_map.mpr ⟨e, he, rfl⟩) (hvalue e he)) globals
      fresh (Marker.isChain_of_free List.mem_cons_self hloaded)
  have hpairs : ∀ a b, Marker.Pair a b → [a, b] <:+: compiled →
      Marker.BeforeSeam loaded values a ∧ Marker.BehindSeam loaded values b := by
    rintro a b hpair ⟨front, back, heq⟩
    rw [← heq, List.append_assoc] at hchain
    exact (List.isChain_append_cons_cons.mp hchain).2.1.seam hpair
  exact ⟨hbacktick, hpairs, Marker.free_of_seamsApart hbacktick hpairs⟩

theorem builtins_write_nil {name : Text} {write : OutputFunction}
    (h : builtins.get? name = some write) : write [] = [] := by
  obtain ⟨front, back, heq, -⟩ := List.lookup_eq_some_iff.mp h
  have hmem : (name, write) ∈ builtins.entries := by simp [heq]
  have hentries : builtins.entries = [("echo".toList, .verbatim), ("print".toList, .verbatim),
      ("escape_html".toList, .escapeHtml)] := rfl
  simp only [hentries, List.mem_cons, List.not_mem_nil, or_false, Prod.mk.injEq] at hmem
  rcases hmem with ⟨-, rfl⟩ | ⟨-, rfl⟩ | ⟨-, rfl⟩
  · rfl
  · rfl
  · rfl

theorem compiled_between_seams_apart_is_free :
    let t : Template :=
      { statics := .ofList [(['v'], "1<?PHP 2".toList)]
        conditions := .ofList [(['k'], false)] }
    let content := "a<b?> \x7b\x7b v \x7d\x7d?<if.k>c</if.k>\x60d>".toList
    let fs : FileSystem := { temporary := [] }
    let loaded := (runOn fs ((t.setContent content).load : StateM FileSystem Template)).1.content
    let values := t.statics.entries.map fun e => sanitize e.2
    let compiled :=
      (runOn fs ((t.setContent content).compile .empty [] : StateM FileSystem Template)).1.compiled
    t.loops = .empty ∧ t.injects = [] ∧
      (∀ name write, t.outputs.get? name = some write → write [] = []) ∧
      Marker.SeamsApart loaded values ∧ compiled = "a<b 1 2?d>".toList ∧
      Marker.Free compiled := by
  intro t content fs loaded values compiled
  have hwrite : ∀ name write, t.outputs.get? name = some write → write [] = [] :=
    fun _ _ => builtins_write_nil
  have hseams : Marker.SeamsApart loaded values := by
    rintro a b ha hb (⟨rfl, rfl⟩ | ⟨rfl, rfl⟩)
    · have hnone : ¬ Marker.BeforeSeam loaded values '<' := by decide +kernel
      exact hnone ha
    · have hnone : ¬ Marker.BehindSeam loaded values '>' := by decide +kernel
      exact hnone hb
  have hfree := (compiled_holds_markers_at_seams_only FileSystem.lawfulFiles rfl rfl hwrite content
    .empty [] fs).2.2 hseams
  exact ⟨rfl, rfl, hwrite, hseams, by decide +kernel, hfree⟩

/-- Markers that come about where a placeholder is rejected, where a value is put in, and where a
block is taken out. -/
theorem markers_come_about_at_seams :
    let compiled (t : Template) (content : Text) : Text :=
      (runOn { temporary := [] } ((t.setContent content).compile .empty [] :
        StateM FileSystem Template)).1.compiled
    let rejected := compiled {} "<\x7b\x7ba\x7d\x7d?php".toList
    let given := compiled { statics := .ofList [(['v'], ['?'])] } "<\x7b\x7bv\x7d\x7dphp".toList
    let removed := compiled { conditions := .ofList [(['k'], false)] } "?<if.k>a</if.k>>".toList
    (rejected = "<?php".toList ∧ ¬ Marker.Free rejected) ∧
      (given = "<?php".toList ∧ ¬ Marker.Free given) ∧
      removed = "?>".toList ∧ ¬ Marker.Free removed := by
  intro compiled rejected given removed
  have hfree {t : Text} (h : ¬ t.IsChain fun a b => ¬ Marker.Pair a b) : ¬ Marker.Free t :=
    fun hfree => h (Marker.free_iff.mp hfree).2
  refine ⟨⟨?_, hfree ?_⟩, ⟨?_, hfree ?_⟩, ?_, hfree ?_⟩
  · decide +kernel
  · decide +kernel
  · decide +kernel
  · decide +kernel
  · decide +kernel
  · decide +kernel

end Template

end Stencil
