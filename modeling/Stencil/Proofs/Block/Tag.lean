import Stencil.Block
import Stencil.Proofs.Key
import Stencil.Proofs.Text.Occurrence

namespace Stencil

open Text

namespace Block

/-- What stands between the brackets of a tag. -/
def tagName (ends : Bool) (kind : BlockKind) (key : Text) : Text :=
  (if ends then ['/'] else []) ++ kind.word ++ '.' :: key

/-- A tag that begins a block or ends it. -/
def tag (ends : Bool) (kind : BlockKind) (key : Text) : Text :=
  '<' :: (tagName ends kind key ++ ['>'])

theorem openTag_eq_tag (kind : BlockKind) (key : Text) :
    openTag kind key = tag false kind key := by
  simp [openTag, tag, tagName]

theorem closeTag_eq_tag (kind : BlockKind) (key : Text) :
    closeTag kind key = tag true kind key := by
  simp [closeTag, tag, tagName]

theorem openTag_ne_nil (kind : BlockKind) (key : Text) : openTag kind key ≠ [] :=
  List.cons_ne_nil _ _

theorem closeTag_ne_nil (kind : BlockKind) (key : Text) : closeTag kind key ≠ [] :=
  List.cons_ne_nil _ _

theorem tagName_inj {ends ends' : Bool} {kind kind' : BlockKind} {key key' : Text}
    (h : tagName ends kind key = tagName ends' kind' key') :
    ends = ends' ∧ kind = kind' ∧ key = key' := by
  cases ends <;> cases ends' <;> cases kind <;> cases kind' <;>
    simp_all [tagName, BlockKind.word]

theorem notMem_tagName {key : Text} (hkey : isKey key) {c : Char} (hc : isKeyPart c = false)
    (hslash : c ≠ '/') (hdot : c ≠ '.') (ends : Bool) (kind : BlockKind) :
    c ∉ tagName ends kind key := by
  have hword : kind.word.all isKeyPart := by cases kind <;> decide
  have hnotWord : c ∉ kind.word := by
    intro hmem
    rw [List.all_eq_true.mp hword c hmem] at hc
    exact Bool.false_ne_true hc.symm
  have hnotKey : c ∉ key := notMem_of_isKey hkey hc
  cases ends with
  | false => simp [tagName, hnotWord, hnotKey, hdot]
  | true => simp [tagName, hnotWord, hnotKey, hdot, hslash]

theorem notMem_tag {key : Text} (hkey : isKey key) {c : Char} (hc : isKeyPart c = false)
    (hother : c ∉ ['<', '/', '.', '>']) (ends : Bool) (kind : BlockKind) :
    c ∉ tag ends kind key := by
  simp only [List.mem_cons, List.not_mem_nil, or_false, not_or] at hother
  have hname := notMem_tagName hkey hc hother.2.1 hother.2.2.1 ends kind
  simp [tag, hother, hname]

theorem angle_notMem_tagName {key : Text} (hkey : isKey key) (ends : Bool) (kind : BlockKind) :
    '<' ∉ tagName ends kind key ∧ '>' ∉ tagName ends kind key :=
  ⟨notMem_tagName hkey (by decide) (by decide) (by decide) ends kind,
    notMem_tagName hkey (by decide) (by decide) (by decide) ends kind⟩

theorem tagName_inj_of_isPrefix {ends ends' : Bool} {kind kind' : BlockKind} {key key' rest : Text}
    (hkey : isKey key) (hkey' : isKey key')
    (h : tagName ends kind key ++ ['>'] <+: tagName ends' kind' key' ++ '>' :: rest) :
    ends = ends' ∧ kind = kind' ∧ key = key' :=
  tagName_inj (eq_of_append_cons_isPrefix (angle_notMem_tagName hkey ends kind).2
    (angle_notMem_tagName hkey' ends' kind').2 h)

theorem skips_tag (pattern : Text) {key : Text} (hkey : isKey key) {ends : Bool}
    {kind : BlockKind} (h : ∀ rest, ¬ pattern <+: tagName ends kind key ++ '>' :: rest) :
    Skips ('<' :: pattern) (tag ends kind key) := by
  constructor
  · intro rest hstarts
    rw [List.cons_prefix_cons, List.append_assoc] at hstarts
    exact h rest hstarts.2
  · apply skips_of_notMem
    simp [(angle_notMem_tagName hkey ends kind).1]

theorem skips_tag_of_ne {ends ends' : Bool} {kind kind' : BlockKind} {key key' : Text}
    (hkey : isKey key) (hkey' : isKey key')
    (hne : ¬ (ends = ends' ∧ kind = kind' ∧ key = key')) :
    Skips (tag ends kind key) (tag ends' kind' key') := by
  apply skips_tag _ hkey'
  intro rest hstarts
  exact hne (tagName_inj_of_isPrefix hkey hkey' hstarts)

variable {kind : BlockKind} {key front : Text}

theorem passes_tag (hkey : isKey key) {ends : Bool} (h : ¬ tag ends kind key <:+: front)
    (back : Text) : Passes (tag ends kind key) front (tag ends kind key ++ back) :=
  passes_of_not_isInfix (by simp [(angle_notMem_tagName hkey ends kind).1]) h back

theorem occurrences_append_tag (hkey : isKey key) (ends ends' : Bool) (kind : BlockKind)
    (front back : Text) :
    occurrences (tag ends kind key) (front ++ (tag ends' kind key ++ back)) =
      occurrences (tag ends kind key) front +
        ((if ends = ends' then 1 else 0) + occurrences (tag ends kind key) back) := by
  have hname := angle_notMem_tagName hkey
  have hangle : '<' ∉ tagName ends kind key ++ ['>'] := by simp [(hname ends kind).1]
  have hleft : Parted (tag ends kind key) front (tag ends' kind key ++ back) :=
    parted_cons hangle front _
  have hlast : '>' ∉ '<' :: tagName ends kind key := by simp [(hname ends kind).2]
  have hright : Parted (tag ends kind key) (tag ends' kind key) back :=
    parted_concat hlast ('<' :: tagName ends' kind key) back
  have hself : occurrences (tag ends kind key) (tag ends' kind key) =
      if ends = ends' then 1 else 0 := by
    by_cases h : ends = ends'
    · subst h
      rw [if_pos rfl]
      exact occurrences_self hangle
    · have hskips : Skips (tag ends kind key) (tag ends' kind key) :=
        skips_tag_of_ne hkey hkey fun hsame => h hsame.1
      rw [if_neg h]
      exact occurrences_eq_zero_iff.mpr hskips.not_isInfix
  rw [hleft.occurrences_append, hright.occurrences_append, hself]

theorem first?_append_of_skips (h : Skips (openTag kind key) front) (t : Text) :
    first? kind key (front ++ t) =
      (first? kind key t).map fun found =>
        (⟨front ++ found.1.before, found.1.body⟩, found.2) := by
  rw [first?, first?, cut?_append_of_skips h]
  cases cut? (openTag kind key) t with
  | none => rfl
  | some cut =>
      simp only [Option.map_some, Option.bind_some, Prod.map, id_eq]
      cases cut? (closeTag kind key) cut.2 with
      | none => rfl
      | some cut' => rfl

theorem first?_block (hkey : isKey key) {body : Text} (hfront : ¬ openTag kind key <:+: front)
    (hbody : ¬ closeTag kind key <:+: body) (t : Text) :
    first? kind key (front ++ (openTag kind key ++ (body ++ (closeTag kind key ++ t)))) =
      some (⟨front, body⟩, t) := by
  rw [openTag_eq_tag] at hfront ⊢
  rw [closeTag_eq_tag] at hbody ⊢
  have hopen := passes_tag hkey hfront (body ++ (tag true kind key ++ t))
  have hclose := passes_tag hkey hbody t
  simp only [first?, openTag_eq_tag, closeTag_eq_tag, cut?_eq_some_iff.mpr ⟨rfl, hopen⟩,
    cut?_eq_some_iff.mpr ⟨rfl, hclose⟩, Option.bind_some, Option.map_some]

theorem ofText_eq (kind : BlockKind) (key t : Text) :
    ofText kind key t =
      match first? kind key t with
      | none => ([], t)
      | some (b, rest) => (b :: (ofText kind key rest).1, (ofText kind key rest).2) := by
  rw [ofText]
  split
  next h => rw [h]
  next b rest h => rw [h]

theorem exists_first?_append (kind : BlockKind) (key front body back : Text) :
    ∃ b rest, first? kind key
        (front ++ (openTag kind key ++ (body ++ (closeTag kind key ++ back)))) = some (b, rest) ∧
      back <:+ rest := by
  obtain ⟨before, t, hopen, s, rfl⟩ := exists_cut?_append (openTag kind key) front
    (body ++ (closeTag kind key ++ back))
  obtain ⟨body', rest, hclose, hback⟩ := exists_cut?_append (closeTag kind key) (s ++ body) back
  rw [List.append_assoc] at hclose
  refine ⟨⟨before, body'⟩, rest, ?_, hback⟩
  simp only [first?, hopen, Option.bind_some, hclose, Option.map_some]

/-- The text outside the blocks of a key. -/
def outside (kind : BlockKind) (key t : Text) : Text :=
  (ofText kind key t).1.flatMap before ++ (ofText kind key t).2

theorem fst_resolveCondition (hkey : isKey key) (holds : Bool) (t : Text) (ws : Warnings) :
    (resolveCondition key holds t ws).1 =
      dropTags .condition key (if holds then t else outside .condition key t) := by
  rw [resolveCondition, if_pos hkey]
  rfl

theorem outside_append_of_skips (h : Skips (openTag kind key) front) (t : Text) :
    outside kind key (front ++ t) = front ++ outside kind key t := by
  rw [outside, outside, ofText_eq kind key (front ++ t), ofText_eq kind key t,
    first?_append_of_skips h]
  cases first? kind key t with
  | none => rfl
  | some found => simp

theorem outside_block (hkey : isKey key) {body : Text} (h : ¬ closeTag kind key <:+: body)
    (t : Text) :
    outside kind key (openTag kind key ++ (body ++ (closeTag kind key ++ t))) =
      outside kind key t := by
  have hfirst : first? kind key
      ([] ++ (openTag kind key ++ (body ++ (closeTag kind key ++ t)))) = some (⟨[], body⟩, t) :=
    first?_block hkey (by simp [openTag]) h t
  rw [List.nil_append] at hfirst
  rw [outside, outside, ofText_eq, hfirst]
  rfl

theorem ofText_of_not_isInfix {t : Text} (h : ¬ openTag kind key <:+: t) :
    ofText kind key t = ([], t) := by
  have hcut : cut? (openTag kind key) t = none := cut?_eq_none_iff.mpr h
  rw [ofText_eq, first?, hcut]
  rfl

theorem ofText_single (hkey : isKey key) {body back : Text}
    (hfront : ¬ openTag kind key <:+: front) (hbody : ¬ closeTag kind key <:+: body)
    (hback : ¬ openTag kind key <:+: back) :
    ofText kind key (front ++ (openTag kind key ++ (body ++ (closeTag kind key ++ back)))) =
      ([⟨front, body⟩], back) := by
  rw [ofText_eq, first?_block hkey hfront hbody]
  simp only [ofText_of_not_isInfix hback]

theorem resolveLoop_of_single (hkey : isKey key) {t tail : Text} {b : Block}
    (h : ofText .loop key t = ([b], tail)) (rows : List Row) (ws : Warnings) :
    resolveLoop key rows t ws =
      (dropTags .loop key (b.before ++ rows.flatMap (instantiate key b.body) ++ tail), ws) := by
  rw [resolveLoop, if_pos hkey, h]

theorem resolveLoop_of_several (hkey : isKey key) {t : Text}
    (h : 2 ≤ (ofText .loop key t).1.length) (rows : List Row) (ws : Warnings) :
    resolveLoop key rows t ws =
      (t, ws.record (.duplicateBlock .loop key (ofText .loop key t).1.length)) := by
  rw [resolveLoop, if_pos hkey]
  split
  next heq => simp [heq] at h
  next heq => simp [heq] at h
  next blocks tail _ _ heq => rw [heq]

theorem dropTags_eq_self_iff {t : Text} :
    dropTags kind key t = t ↔ ¬ openTag kind key <:+: t ∧ ¬ closeTag kind key <:+: t := by
  constructor
  · intro heq
    rw [dropTags] at heq
    have hsub := replaceAll_empty_sublist (closeTag kind key) (replaceAll (openTag kind key) [] t)
    rw [heq] at hsub
    have hopened : replaceAll (openTag kind key) [] t = t :=
      (replaceAll_empty_sublist _ t).eq_of_length_le hsub.length_le
    rw [hopened] at heq
    exact ⟨replaceAll_empty_eq_self_iff.mp hopened, replaceAll_empty_eq_self_iff.mp heq⟩
  · rintro ⟨hopen, hclose⟩
    rw [dropTags, replaceAll_of_not_infix [] hopen, replaceAll_of_not_infix [] hclose]

theorem dropTags_append_of_skips (hopen : Skips (openTag kind key) front)
    (hclose : Skips (closeTag kind key) front) (t : Text) :
    dropTags kind key (front ++ t) = front ++ dropTags kind key t := by
  rw [dropTags, replaceAll_append_of_skips hopen, replaceAll_append_of_skips hclose, dropTags]

theorem dropTags_openTag_append (kind : BlockKind) (key t : Text) :
    dropTags kind key (openTag kind key ++ t) = dropTags kind key t := by
  rw [dropTags, openTag_eq_tag, tag, replaceAll_pattern_append, List.nil_append, dropTags,
    openTag_eq_tag, tag]

theorem dropTags_closeTag_append (hkey : isKey key) (kind : BlockKind) (t : Text) :
    dropTags kind key (closeTag kind key ++ t) = dropTags kind key t := by
  have hskips : Skips (openTag kind key) (closeTag kind key) := by
    rw [openTag_eq_tag, closeTag_eq_tag]
    apply skips_tag_of_ne hkey hkey
    simp
  rw [dropTags, replaceAll_append_of_skips hskips, closeTag_eq_tag, tag,
    replaceAll_pattern_append, List.nil_append, dropTags, closeTag_eq_tag, tag]

theorem sweep_eq (kind : BlockKind) (t : Text) :
    sweep kind t =
      match around? kind t with
      | none => t
      | some (before, rest) => before ++ sweep kind rest := by
  rw [sweep]
  split
  next h => rw [h]
  next before rest h => rw [h]

theorem sweep_append_of_skips (h : Skips (openHead kind) front) (t : Text) :
    sweep kind (front ++ t) = front ++ sweep kind t := by
  have haround : around? kind (front ++ t) =
      (around? kind t).map (Prod.map (front ++ ·) id) := by
    rw [around?, around?, cut?_append_of_skips h]
    cases cut? (openHead kind) t with
    | none => rfl
    | some cut =>
        simp only [Option.map_some, Option.bind_eq_bind, Option.bind_some, Prod.map, id_eq,
          Option.map_bind, Function.comp_def, Option.map_some]
  rw [sweep_eq kind (front ++ t), sweep_eq kind t, haround]
  cases around? kind t with
  | none => rfl
  | some found => simp

theorem sweep_block (hkey : isKey key) {body : Text} (hbody : '<' ∉ body) (t : Text) :
    sweep kind (openTag kind key ++ (body ++ (closeTag kind key ++ t))) = sweep kind t := by
  have hangle : '>' ∉ key := notMem_of_isKey hkey (by decide)
  have hopen : openTag kind key ++ (body ++ (closeTag kind key ++ t)) =
      openHead kind ++ (key ++ (['>'] ++ (body ++ (closeHead kind ++
        (key ++ (['>'] ++ t)))))) := by
    simp [openTag, openHead, closeTag, closeHead]
  have haround : around? kind (openTag kind key ++ (body ++ (closeTag kind key ++ t))) =
      some ([], t) := by
    rw [hopen, around?]
    simp only [Option.bind_eq_bind, Option.bind_some, cut?_pattern_append,
      cut?_skips_pattern (skips_of_notMem [] hangle),
      show cut? (closeHead kind) (body ++ (closeHead kind ++ (key ++ (['>'] ++ t)))) =
        some (body, key ++ (['>'] ++ t)) from
          cut?_skips_pattern (skips_of_notMem ('/' :: kind.word ++ ['.']) hbody) _]
  rw [sweep_eq, haround]
  rfl

end Block

end Stencil
