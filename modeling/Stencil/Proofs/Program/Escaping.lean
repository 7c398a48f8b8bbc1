import Stencil.Proofs.Program.Output
import Stencil.Proofs.Text.Filling

namespace Stencil

/-- A character that begins or ends a tag or a quoted attribute. -/
def isMarkup (c : Char) : Bool :=
  c == '<' || c == '>' || c == '"' || c == '\''

/-- The characters of a text that are markup, in their order. -/
def markup (t : Text) : Text :=
  t.filter isMarkup

theorem markup_append (t u : Text) : markup (t ++ u) = markup t ++ markup u :=
  List.filter_append t u

namespace OutputFunction

/-- The entities, each with the character that it stands for. -/
def entities : List (Text × Text) :=
  [(['&', 'a', 'm', 'p', ';'], ['&']), (['&', 'l', 't', ';'], ['<']),
    (['&', 'g', 't', ';'], ['>']), (['&', 'q', 'u', 'o', 't', ';'], ['"']),
    (['&', '#', '0', '3', '9', ';'], ['\''])]

/-- The text with each entity read as its character, from the left. -/
def decodeEntities (t : Text) : Text :=
  Text.replaceEach entities t

theorem mem_entities_or_eq_singleton (c : Char) :
    (escapeHtmlChar c, [c]) ∈ entities ∨
      escapeHtmlChar c = [c] ∧ c ≠ '&' ∧ isMarkup c = false := by
  unfold escapeHtmlChar
  split
  next => exact Or.inl (by decide)
  next => exact Or.inl (by decide)
  next => exact Or.inl (by decide)
  next => exact Or.inl (by decide)
  next => exact Or.inl (by decide)
  next hamp hless hgreater hdouble hsingle =>
    refine Or.inr ⟨rfl, hamp, ?_⟩
    simp only [isMarkup, Bool.or_eq_false_iff, beq_eq_false_iff_ne]
    exact ⟨⟨⟨hless, hgreater⟩, hdouble⟩, hsingle⟩

theorem exists_eq_of_mem_entities {entity value : Text} (h : (entity, value) ∈ entities) :
    ∃ name, entity = '&' :: name ∧ '&' ∉ name ∧ markup entity = [] := by
  have hall : ∀ e ∈ entities, e.1.head? = some '&' ∧ '&' ∉ e.1.tail ∧ markup e.1 = [] := by
    decide
  obtain ⟨hhead, hname, hmarkup⟩ := hall _ h
  obtain ⟨name, rfl⟩ := List.head?_eq_some_iff.mp hhead
  exact ⟨name, rfl, hname, hmarkup⟩

theorem find?_entities {entity : Text × Text} (h : entity ∈ entities) (t : Text) :
    entities.find? (fun e => e.1 <+: entity.1 ++ t) = some entity := by
  simp only [entities, List.mem_cons, List.not_mem_nil, or_false] at h
  -- no entity is the beginning of another
  rcases h with rfl | rfl | rfl | rfl | rfl
  · simp [entities]
  · simp [entities]
  · simp [entities]
  · simp [entities]
  · simp [entities]

theorem escapeHtml_cons (c : Char) (t : Text) :
    escapeHtml (c :: t) = escapeHtmlChar c ++ escapeHtml t :=
  List.flatMap_cons

theorem decodeEntities_escapeHtmlChar_append (c : Char) (t : Text) :
    decodeEntities (escapeHtmlChar c ++ t) = c :: decodeEntities t := by
  rcases mem_entities_or_eq_singleton c with hentity | ⟨hchar, hamp, -⟩
  · obtain ⟨name, hname, -, -⟩ := exists_eq_of_mem_entities hentity
    have hne : escapeHtmlChar c ≠ [] := by simp [hname]
    exact Text.replaceEach_append_of_find? hne (find?_entities hentity t)
  · rw [hchar]
    apply Text.replaceEach_cons_of_none
    rintro ⟨entity, value⟩ hentity hstarts
    obtain ⟨name, rfl, -, -⟩ := exists_eq_of_mem_entities hentity
    exact hamp (List.cons_prefix_cons.mp hstarts).1.symm

theorem decodeEntities_escapeHtml (t : Text) : decodeEntities (escapeHtml t) = t := by
  induction t with
  | nil => rw [escapeHtml, List.flatMap_nil, decodeEntities, Text.replaceEach]
  | cons c t ih => rw [escapeHtml_cons, decodeEntities_escapeHtmlChar_append, ih]

theorem markup_escapeHtmlChar (c : Char) : markup (escapeHtmlChar c) = [] := by
  rcases mem_entities_or_eq_singleton c with hentity | ⟨hchar, -, hmarkup⟩
  · obtain ⟨-, -, -, hmarkup⟩ := exists_eq_of_mem_entities hentity
    exact hmarkup
  · rw [hchar, markup, List.filter_cons_of_neg (by simp [hmarkup]), List.filter_nil]

theorem markup_escapeHtml (t : Text) : markup (escapeHtml t) = [] := by
  induction t with
  | nil => rfl
  | cons c t ih => rw [escapeHtml_cons, markup_append, markup_escapeHtmlChar, ih, List.append_nil]

theorem eq_nil_of_escapeHtmlChar_eq {c : Char} {front back : Text}
    (h : escapeHtmlChar c = front ++ '&' :: back) :
    front = [] ∧ (escapeHtmlChar c, [c]) ∈ entities := by
  rcases mem_entities_or_eq_singleton c with hentity | ⟨hchar, hamp, -⟩
  · obtain ⟨name, hname, hnot, -⟩ := exists_eq_of_mem_entities hentity
    refine ⟨?_, hentity⟩
    cases front with
    | nil => rfl
    | cons d front =>
        rw [hname, List.cons_append] at h
        exact absurd (by simp [(List.cons.inj h).2]) hnot
  · have hmem : '&' ∈ [c] := by simp [← hchar, h]
    exact absurd (List.mem_singleton.mp hmem).symm hamp

theorem exists_entity_of_ampersand {t back : Text} (h : '&' :: back <:+ escapeHtml t) :
    ∃ entity ∈ entities, entity.1 <+: '&' :: back := by
  induction t with
  | nil => exact absurd (List.suffix_nil.mp h) (List.cons_ne_nil '&' back)
  | cons c t ih =>
      obtain ⟨front, hfront⟩ := h
      rw [escapeHtml_cons, List.append_eq_append_iff] at hfront
      rcases hfront with ⟨inside, hchar, hback⟩ | ⟨between, -, hrest⟩
      · cases inside with
        | nil => exact ih (hback ▸ List.suffix_rfl)
        | cons d inside =>
            obtain ⟨rfl, rfl⟩ := List.cons.inj hback
            obtain ⟨rfl, hentity⟩ := eq_nil_of_escapeHtmlChar_eq hchar
            rw [List.nil_append] at hchar
            exact ⟨_, hentity, hchar ▸ List.prefix_append ('&' :: inside) (escapeHtml t)⟩
      · exact ih ⟨between, hrest.symm⟩

end OutputFunction

/-- The text of a literal; a call has none of its own. -/
def Segment.literalText : Segment → Text
  | .literal t => t
  | .call _ _ => []

/-- The text of a program that is copied. -/
def Program.literals (p : Program) : Text :=
  p.flatMap Segment.literalText

namespace Program

variable {p : Program}

theorem registered_of_escaped (h : ∀ f e, .call f e ∈ p → f = "escape_html".toList) :
    p.Registered builtins := by
  intro f e he
  rw [h f e he]
  rfl

theorem written_escaped (scope : Scope) (e : Expression) :
    Segment.written builtins scope (.call "escape_html".toList e) =
      OutputFunction.escapeHtml (e.output scope) :=
  rfl

theorem markup_written_of_escaped (h : ∀ f e, .call f e ∈ p → f = "escape_html".toList)
    (scope : Scope) :
    markup (p.flatMap (Segment.written builtins scope)) = markup p.literals := by
  induction p with
  | nil => rfl
  | cons segment p ih =>
      have hliterals : literals (segment :: p) = segment.literalText ++ literals p :=
        List.flatMap_cons
      have hsegment :
          markup (Segment.written builtins scope segment) = markup segment.literalText := by
        cases segment with
        | literal t => rfl
        | call f e =>
            rw [h f e List.mem_cons_self, written_escaped, OutputFunction.markup_escapeHtml]
            rfl
      rw [List.flatMap_cons, hliterals, markup_append, markup_append, hsegment,
        ih fun f e he => h f e (List.mem_cons_of_mem _ he)]

open OutputFunction in
/-- A program whose calls all escape comes to its end in every scope, and the markup of its output
is that of its literals, whatever the variables stand for.  What a call writes is free of markup,
every ampersand in it begins an entity, and with the entities decoded it is the text that the call
was given. -/
theorem escaped_calls_add_no_markup
    (h : ∀ f e, .call f e ∈ p → f = "escape_html".toList) (scope scope' : Scope)
    (ws ws' : Warnings) :
    (∃ output output', (p.evaluate builtins scope ws).1 = .ok output ∧
      (p.evaluate builtins scope' ws').1 = .ok output' ∧
      output = p.flatMap (Segment.written builtins scope) ∧
      markup output = markup output' ∧ markup output = markup p.literals) ∧
    ∀ f e, .call f e ∈ p →
      let written := Segment.written builtins scope (.call f e)
      (∀ c ∈ written, isMarkup c = false) ∧
        (∀ back, '&' :: back <:+ written → ∃ entity ∈ entities, entity.1 <+: '&' :: back) ∧
        decodeEntities written = e.output scope := by
  have hregistered : p.Registered builtins := registered_of_escaped h
  constructor
  · refine ⟨_, _, fst_evaluate_of_registered hregistered ws,
      fst_evaluate_of_registered hregistered ws', rfl, ?_, markup_written_of_escaped h scope⟩
    rw [markup_written_of_escaped h scope, markup_written_of_escaped h scope']
  · intro f e he
    rw [h f e he, written_escaped]
    refine ⟨?_, fun back => exists_entity_of_ampersand, decodeEntities_escapeHtml _⟩
    intro c hc
    simpa using List.filter_eq_nil_iff.mp (markup_escapeHtml (e.output scope)) c hc

theorem escaped_value_with_markup_and_entity :
    let call (name : Text) : Segment := .call "escape_html".toList ⟨name, []⟩
    let p : Program := [.literal ['<', 'p', '>'], call ['v'], .literal ['&', '"'], call ['w']]
    let scope : Scope := .ofList [(['v'], .string "<a&lt;'>".toList)]
    (∀ f e, .call f e ∈ p → f = "escape_html".toList) ∧
      (∃ output output', (p.evaluate builtins scope []).1 = .ok output ∧
        (p.evaluate builtins .empty []).1 = .ok output' ∧
        markup output = markup output' ∧ markup output = ['<', '>', '"']) ∧
      Segment.written builtins scope (call ['v']) = "&lt;a&amp;lt;&#039;&gt;".toList ∧
      OutputFunction.decodeEntities (Segment.written builtins scope (call ['v'])) =
        "<a&lt;'>".toList := by
  intro call p scope
  have hcalls : ∀ f e, .call f e ∈ p → f = "escape_html".toList := by
    intro f e he
    simp only [p, call, List.mem_cons, List.not_mem_nil, or_false, reduceCtorEq, false_or] at he
    rcases he with he | he
    · exact (Segment.call.inj he).1
    · exact (Segment.call.inj he).1
  obtain ⟨⟨output, output', hrun, hrun', -, hsame, hmarkup⟩, hwritten⟩ :=
    escaped_calls_add_no_markup hcalls scope .empty [] []
  refine ⟨hcalls, ⟨output, output', hrun, hrun', hsame, hmarkup⟩, by decide +kernel, ?_⟩
  obtain ⟨-, -, hdecoded⟩ := hwritten _ ⟨['v'], []⟩ (List.mem_cons_of_mem _ List.mem_cons_self)
  exact hdecoded

end Program

end Stencil
