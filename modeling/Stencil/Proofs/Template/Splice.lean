import Stencil.Proofs.Block.Sweep
import Stencil.Proofs.Expression.Simple
import Stencil.Proofs.Program.Staging

namespace Stencil

/-- The text begins and ends as a tag or a placeholder does. -/
def Enclosed (piece : Text) : Prop :=
  ∃ first ∈ ['{', '<'], ∃ last ∈ ['}', '>'], ∃ inner, piece = first :: (inner ++ [last])

theorem Enclosed.around {front back : Text} (hfront : Enclosed front) (hback : Enclosed back)
    (between : Text) : Enclosed (front ++ (between ++ back)) := by
  obtain ⟨first, hfirst, c, -, inner, rfl⟩ := hfront
  obtain ⟨o, -, last, hlast, inner', rfl⟩ := hback
  exact ⟨first, hfirst, last, hlast, inner ++ (c :: (between ++ (o :: inner'))), by simp⟩

theorem enclosed_delimited (inner : Text) : Enclosed (delimited inner) :=
  ⟨'{', by simp, '}', by simp, '{' :: (inner ++ ['}']), by simp [delimited, opening, closing]⟩

theorem Segment.CallSource.enclosed {piece function : Text} {e : Expression}
    (h : CallSource piece function e) : Enclosed piece := by
  cases h with
  | intro _ _ => exact enclosed_delimited _

namespace Block

theorem enclosed_anyTag (head key : Text) : Enclosed (anyTag ('<' :: head) key) :=
  ⟨'<', by simp, '>', by simp, head ++ key, by simp [anyTag]⟩

theorem enclosed_openTag (kind : BlockKind) (key : Text) : Enclosed (openTag kind key) := by
  simpa [anyTag, openTag] using enclosed_anyTag (kind.word ++ ['.']) key

theorem enclosed_closeTag (kind : BlockKind) (key : Text) : Enclosed (closeTag kind key) := by
  simpa [anyTag, closeTag] using enclosed_anyTag ('/' :: kind.word ++ ['.']) key

end Block

/-- The second text is the first with enclosed pieces replaced by texts of a kind. -/
inductive Spliced (Fits : Text → Prop) : Text → Text → Prop
  | nil : Spliced Fits [] []
  | keep {t t' : Text} (c : Char) (h : Spliced Fits t t') : Spliced Fits (c :: t) (c :: t')
  | cut {piece value t t' : Text} (hpiece : Enclosed piece) (hvalue : Fits value)
      (h : Spliced Fits t t') : Spliced Fits (piece ++ t) (value ++ t')

namespace Spliced

variable {Fits : Text → Prop}

theorem keepAll {t t' : Text} (front : Text) (h : Spliced Fits t t') :
    Spliced Fits (front ++ t) (front ++ t') := by
  induction front with
  | nil => exact h
  | cons c front ih => exact ih.keep c

theorem refl (t : Text) : Spliced Fits t t := by
  simpa using keepAll t nil

theorem replaceAll {pattern replacement : Text} (hpattern : Enclosed pattern)
    (hreplacement : Fits replacement) (t : Text) :
    Spliced Fits t (Text.replaceAll pattern replacement t) := by
  fun_induction Text.replaceAll pattern replacement t with
  | case1 => exact nil
  | case2 c t hstarts ih =>
      obtain ⟨rest, hrest⟩ := hstarts
      have hdrop : t.drop (pattern.length - 1) = rest := by
        obtain ⟨first, -, last, -, inner, rfl⟩ := hpattern
        obtain ⟨-, rfl⟩ := List.cons.inj hrest
        simp
      rw [hdrop] at ih ⊢
      rw [← hrest]
      exact cut hpattern hreplacement ih
  | case3 c t _ ih => exact ih.keep c

theorem outside (hempty : Fits []) (kind : BlockKind) (key t : Text) :
    Spliced Fits t (Block.outside kind key t) := by
  unfold Block.outside
  fun_induction Block.ofText kind key t with
  | case1 t h => exact refl t
  | case2 t b rest h blocks tail hr ih =>
      rw [hr] at ih
      rw [Block.eq_of_first? h, Block.source, List.flatMap_cons, List.append_assoc,
        List.append_assoc, List.append_assoc, List.append_assoc]
      apply keepAll
      have hpiece : Enclosed (Block.openTag kind key ++ (b.body ++ Block.closeTag kind key)) :=
        (Block.enclosed_openTag kind key).around (Block.enclosed_closeTag kind key) b.body
      simpa using cut hpiece hempty ih

theorem sweep (hempty : Fits []) (kind : BlockKind) (t : Text) :
    Spliced Fits t (Block.sweep kind t) := by
  fun_induction Block.sweep kind t with
  | case1 t h => exact refl t
  | case2 t before rest h ih =>
      obtain ⟨key, body, key', -, -, rfl⟩ := Block.exists_block_of_around? h
      apply keepAll
      have hopen : Enclosed (Block.anyTag (Block.openHead kind) key) :=
        Block.enclosed_anyTag _ key
      have hclose : Enclosed (Block.anyTag (Block.closeHead kind) key') :=
        Block.enclosed_anyTag _ key'
      simpa using cut (hopen.around hclose body) hempty ih

theorem replacePlaceholders {replace : Text → Text} {t : Text}
    (h : ∀ inner ∈ inners t, Fits (replace inner)) :
    Spliced Fits t (replacePlaceholders replace t) := by
  fun_induction Piece.ofText t with
  | case1 =>
      rw [replacePlaceholders_nil]
      exact nil
  | case2 c t inner rest hp ih =>
      rw [inners_placeholder hp, List.forall_mem_cons] at h
      rw [replacePlaceholders_placeholder _ hp, Piece.eq_of_placeholder? hp]
      exact cut (enclosed_delimited inner) h.1 (ih h.2)
  | case3 c t hp ih =>
      rw [inners_plain hp] at h
      rw [replacePlaceholders_plain _ hp]
      exact (ih h).keep c

theorem run (hempty : Fits []) {registry : Registry} {scope : Scope}
    (hscope : ∀ name, scope.get? name = none)
    (hwrite : ∀ name write, registry.get? name = some write → write [] = []) (t : Text)
    (ws : Warnings) :
    ((Program.parse t).run registry scope ws).1 = [] ∨
      Spliced Fits t ((Program.parse t).run registry scope ws).1 := by
  have hevaluate : (∃ err, ((Program.parse t).evaluate registry scope ws).1 = .error err) ∨
      ∃ t', ((Program.parse t).evaluate registry scope ws).1 = .ok t' ∧ Spliced Fits t t' := by
    fun_induction Program.parse t generalizing ws with
    | case1 => exact Or.inr ⟨[], rfl, nil⟩
    | case2 c t s rest h ih =>
        obtain ⟨piece, function, e, rfl, hpiece, ht⟩ := Segment.exists_source_of_call? h
        cases hregistered : registry.get? function with
        | none => exact Or.inl ⟨_, by simp only [Program.evaluate, hregistered]; rfl⟩
        | some write =>
            have houtput : e.output scope = [] := by
              rw [Expression.output, Expression.text_of_get?_eq_none hscope]
            rw [Program.evaluate_call hregistered, houtput, hwrite function write hregistered, ht]
            rcases ih (e.warned scope ws) with ⟨err, herr⟩ | ⟨t', hok, hrest⟩
            · exact Or.inl ⟨err, by rw [herr]; rfl⟩
            · exact Or.inr ⟨t', by rw [hok]; rfl, cut hpiece.enclosed hempty hrest⟩
    | case3 c t h ih =>
        rw [Program.evaluate_consPlain]
        rcases ih ws with ⟨err, herr⟩ | ⟨t', hok, hrest⟩
        · exact Or.inl ⟨err, by rw [herr]; rfl⟩
        · exact Or.inr ⟨c :: t', by rw [hok]; rfl, hrest.keep c⟩
  rw [Program.fst_run]
  rcases hevaluate with ⟨err, herr⟩ | ⟨t', hok, hspliced⟩
  · exact Or.inl (by rw [herr])
  · exact Or.inr (by rwa [hok])

end Spliced

end Stencil
