import Mathlib.Tactic.ByContra
import Stencil.Program.Staging
import Stencil.Proofs.Expression.Line
import Stencil.Proofs.Key
import Stencil.Proofs.Placeholder.Strip
import Stencil.Proofs.Program.Decomposition
import Stencil.Proofs.Program.Output

/-!
The program that a staged text is.  A call that staging wrote is read where it was written.  Any
other call begins outside the placeholders, where the scan for placeholders saw no closing delimiter
on the line; it is therefore one that holds a newline, and only a quoted key can hold one.
-/

namespace Stencil

open Piece

namespace Segment

theorem call?_callText {function : Text} (hf : isName function) {e : Expression}
    (he : e.WellFormed) (rest : Text) :
    call? (callText function e ++ rest) = some (.call function e, rest) :=
  call?_of_source (.intro hf (Expression.parse_render he)) rest

end Segment

theorem Segment.newline_mem_of_call? {t rest function : Text} {e : Expression}
    (h : call? t = some (.call function e, rest)) (ht : placeholder? t = none) :
    '\n' ∈ e.render := by
  obtain ⟨piece, f, e', hs, hpiece, rfl⟩ := exists_source_of_call? h
  obtain ⟨rfl, rfl⟩ := Segment.call.inj hs
  by_contra hrender
  cases hpiece with
  | @intro _ source _ hname hsource =>
      have hfront : '\n' ∉ function ++ ['('] ++ source ++ [')'] := by
        have hfunction : '\n' ∉ function := notMem_of_isName hname (by decide)
        have hline : '\n' ∉ source := fun hmem =>
          hrender ((Expression.derives_of_parse hsource).sameLine.mp hmem)
        simp [hfunction, hline]
      have hopen := Text.after?_eq_some_iff.mpr (show
        delimited (function ++ ['('] ++ source ++ [')']) ++ rest =
          opening ++ (function ++ ['('] ++ source ++ [')'] ++ closing ++ rest) by
        simp [delimited])
      rw [placeholder?, hopen, Option.bind_some] at ht
      exact close?_ne_none hfront rest ht

theorem wellFormed_of_staged? {inner : Text} {e : Expression} (h : staged? inner = some e) :
    e.WellFormed ∧ ('\n' ∉ inner → '\n' ∉ e.render) := by
  have hparse := parse_of_staged? h
  refine ⟨(Expression.derives_of_parse hparse).wellFormed, ?_⟩
  intro hinner
  exact Expression.newline_notMem_render_of_parse hparse fun hmem =>
    hinner (Text.mem_of_mem_trim hmem)

namespace Program

/-- The program that the pieces of a text ask for: a call for each placeholder that holds an
expression, none for any other, and literal text for all that stands between. -/
def ofPieces (function : Text) : List Piece → Program
  | [] => []
  | .plain c :: pieces => consPlain c (ofPieces function pieces)
  | .placeholder inner :: pieces =>
      match staged? inner with
      | some e => .call function e :: ofPieces function pieces
      | none => ofPieces function pieces

theorem call_mem_ofPieces {function f : Text} {e : Expression} {pieces : List Piece}
    (h : Segment.call f e ∈ ofPieces function pieces) :
    f = function ∧ ∃ inner, .placeholder inner ∈ pieces ∧ staged? inner = some e := by
  induction pieces with
  | nil => simp [ofPieces] at h
  | cons piece pieces ih =>
      cases piece with
      | plain c =>
          obtain ⟨hf, inner, hmem, hs⟩ := ih (mem_consPlain_iff.mp h)
          exact ⟨hf, inner, List.mem_cons_of_mem _ hmem, hs⟩
      | placeholder inner =>
          simp only [ofPieces] at h
          split at h
          next e' hs =>
            rcases List.mem_cons.mp h with hcall | h
            · obtain ⟨rfl, rfl⟩ := Segment.call.inj hcall
              exact ⟨rfl, inner, by simp, hs⟩
            · obtain ⟨hf, inner, hmem, hs⟩ := ih h
              exact ⟨hf, inner, List.mem_cons_of_mem _ hmem, hs⟩
          next =>
            obtain ⟨hf, inner, hmem, hs⟩ := ih h
            exact ⟨hf, inner, List.mem_cons_of_mem _ hmem, hs⟩

end Program

theorem Piece.newline_notMem_of_mem_ofText {t inner : Text}
    (h : .placeholder inner ∈ ofText t) : '\n' ∉ inner := by
  fun_induction ofText t with
  | case1 => simp at h
  | case2 c t i rest hp ih =>
      rcases List.mem_cons.mp h with heq | h
      · obtain rfl := Piece.placeholder.inj heq
        rw [placeholder?, Option.bind_eq_some_iff] at hp
        obtain ⟨r, -, hclose⟩ := hp
        exact newline_notMem_of_close? hclose
      · exact ih h
  | case3 c t hp ih =>
      rcases List.mem_cons.mp h with heq | h
      · cases heq
      · exact ih h

namespace Program

variable {function : Text}

/-- No character outside the placeholders begins a call once the placeholders are staged. -/
def CallFree (function : Text) : List Piece → Prop
  | [] => True
  | .plain c :: pieces =>
      Segment.call? (c :: pieces.flatMap (write (stageInner function))) = none ∧
        CallFree function pieces
  | .placeholder _ :: pieces => CallFree function pieces

theorem parse_flatMap_of_callFree (hf : isName function) {pieces : List Piece}
    (h : CallFree function pieces) :
    parse (pieces.flatMap (write (stageInner function))) = ofPieces function pieces := by
  induction pieces with
  | nil => rw [List.flatMap_nil, parse, ofPieces]
  | cons piece pieces ih =>
      cases piece with
      | plain c =>
          obtain ⟨hcall, htail⟩ := h
          rw [List.flatMap_cons, write, List.singleton_append, parse_plain hcall, ih htail,
            ofPieces]
      | placeholder inner =>
          rw [List.flatMap_cons, write, stageInner, ofPieces]
          cases hs : staged? inner with
          | none => exact ih h
          | some e =>
              simp only
              rw [parse_call (Segment.call?_callText hf (wellFormed_of_staged? hs).1 _), ih h]

theorem callFree_of_oneLine (hf : isName function) {t : Text}
    (h : ∀ f e, Segment.call f e ∈ parse (stage function t) → '\n' ∉ e.render) :
    CallFree function (ofText t) := by
  unfold stage at h
  fun_induction ofText t with
  | case1 => trivial
  | case2 c t inner rest hp ih =>
      rw [replacePlaceholders_placeholder _ hp, stageInner] at h
      apply ih
      intro f e he
      cases hs : staged? inner with
      | none =>
          simp only [hs, List.nil_append] at h
          exact h f e he
      | some e' =>
          simp only [hs] at h
          rw [parse_call (Segment.call?_callText hf (wellFormed_of_staged? hs).1 _)] at h
          exact h f e (List.mem_cons_of_mem _ he)
  | case3 c t hp ih =>
      rw [replacePlaceholders_plain _ hp] at h
      have hnone : Segment.call? (c :: replacePlaceholders (stageInner function) t) = none := by
        cases hcall : Segment.call? (c :: replacePlaceholders (stageInner function) t) with
        | none => rfl
        | some p =>
            obtain ⟨s, rest⟩ := p
            obtain ⟨-, f, e, rfl, -⟩ := Segment.exists_source_of_call? hcall
            have hline := Segment.newline_mem_of_call? hcall
              (placeholder?_cons_replacePlaceholders _ hp)
            exact absurd hline (h f e (by simp [parse_call hcall]))
      refine ⟨hnone, ih ?_⟩
      intro f e he
      rw [parse_plain hnone] at h
      exact h f e (mem_consPlain_iff.mpr he)

theorem newline_notMem_of_mem_ofPieces {t f : Text} {e : Expression}
    (h : Segment.call f e ∈ ofPieces function (ofText t)) : '\n' ∉ e.render := by
  obtain ⟨-, inner, hmem, hs⟩ := call_mem_ofPieces h
  exact (wellFormed_of_staged? hs).2 (newline_notMem_of_mem_ofText hmem)

theorem evaluate_consPlain (registry : Registry) (scope : Scope) (c : Char) (p : Program)
    (ws : Warnings) :
    (consPlain c p).evaluate registry scope ws =
      ((p.evaluate registry scope ws).1.map (c :: ·), (p.evaluate registry scope ws).2) := by
  rcases p with _ | ⟨_ | _, p⟩
  · rfl
  · simp only [consPlain, evaluate]
    cases (evaluate registry scope p ws).1 with
    | error err => rfl
    | ok output => rfl
  · simp only [consPlain, evaluate]
    rfl

end Program

/-- What an output function writes for the inner text of a placeholder. -/
def directOutput (write : OutputFunction) (scope : Scope) (inner : Text) : Text :=
  match staged? inner with
  | some e => write (e.output scope)
  | none => []

namespace Program

variable {function : Text}

theorem evaluate_ofPieces {registry : Registry} {write : OutputFunction}
    (h : registry.get? function = some write) (scope : Scope) (pieces : List Piece)
    (ws : Warnings) :
    ((ofPieces function pieces).evaluate registry scope ws).1 =
      .ok (pieces.flatMap (Piece.write (directOutput write scope))) := by
  induction pieces generalizing ws with
  | nil => rfl
  | cons piece pieces ih =>
      cases piece with
      | plain c =>
          rw [ofPieces, evaluate_consPlain, ih]
          rfl
      | placeholder inner =>
          rw [ofPieces, List.flatMap_cons, Piece.write, directOutput]
          cases hs : staged? inner with
          | none => exact ih ws
          | some e =>
              simp only [evaluate, h, Expression.output]
              cases e.text scope with
              | ok t => rw [ih]; rfl
              | error w => rw [ih]; rfl

theorem evaluate_ofPieces_of_unregistered {registry : Registry}
    (h : registry.get? function = none) (scope : Scope) (pieces : List Piece) (ws : Warnings) :
    ((ofPieces function pieces).evaluate registry scope ws).1 =
      if (pieces.filterMap inner?).any fun inner => (staged? inner).isSome then
        .error (.unknownFunction function)
      else
        .ok (pieces.flatMap (Piece.write fun _ => [])) := by
  induction pieces generalizing ws with
  | nil => rfl
  | cons piece pieces ih =>
      cases piece with
      | plain c =>
          rw [ofPieces, evaluate_consPlain, ih]
          simp only [List.filterMap_cons, inner?, List.flatMap_cons, Piece.write]
          split
          next => rfl
          next => rfl
      | placeholder inner =>
          rw [ofPieces]
          cases hs : staged? inner with
          | none => simpa [inner?, hs, Piece.write] using ih ws
          | some e => simp [evaluate, h, inner?, hs]

/-- The program that is read is that of the pieces exactly when no character outside the
placeholders begins a call, and these are the calls that hold a newline.  It then calls only the
function it was staged with, on the expressions of the placeholders, and what it writes is the text
with each placeholder replaced by what the function writes for it. -/
theorem parse_stage_eq_ofPieces_iff (hf : isKey function) (t : Text) :
    (parse (stage function t) = ofPieces function (ofText t) ↔ CallFree function (ofText t)) ∧
    (parse (stage function t) = ofPieces function (ofText t) ↔
      ∀ f e, Segment.call f e ∈ parse (stage function t) → '\n' ∉ e.render) ∧
    (parse (stage function t) = ofPieces function (ofText t) →
      (∀ f e, Segment.call f e ∈ parse (stage function t) →
        f = function ∧ ∃ inner ∈ inners t, staged? inner = some e) ∧
      ∀ (registry : Registry) (scope : Scope) (ws : Warnings),
        ((parse (stage function t)).evaluate registry scope ws).1 =
          match registry.get? function with
          | some write => .ok (replacePlaceholders (directOutput write scope) t)
          | none =>
              if (inners t).any fun inner => (staged? inner).isSome then
                .error (.unknownFunction function)
              else
                .ok (stripPlaceholders t)) := by
  have hname : isName function := isName_of_isKey hf
  have hfree : CallFree function (ofText t) →
      parse (stage function t) = ofPieces function (ofText t) := parse_flatMap_of_callFree hname
  have hline : parse (stage function t) = ofPieces function (ofText t) →
      ∀ f e, Segment.call f e ∈ parse (stage function t) → '\n' ∉ e.render := by
    intro heq f e he
    rw [heq] at he
    exact newline_notMem_of_mem_ofPieces he
  have hcall := callFree_of_oneLine (t := t) hname
  refine ⟨⟨fun heq => hcall (hline heq), hfree⟩, ⟨hline, fun h => hfree (hcall h)⟩, ?_⟩
  intro heq
  rw [heq]
  constructor
  · intro f e he
    obtain ⟨rfl, inner, hmem, hs⟩ := call_mem_ofPieces he
    exact ⟨rfl, inner, List.mem_filterMap.mpr ⟨_, hmem, rfl⟩, hs⟩
  · intro registry scope ws
    cases h : registry.get? function with
    | some write => exact evaluate_ofPieces h scope (ofText t) ws
    | none => exact evaluate_ofPieces_of_unregistered h scope (ofText t) ws

theorem parse_stage_of_placeholders_on_lines :
    isKey "echo".toList ∧
      parse (stage "echo".toList "a\x7b\x7b $b['\x7b'] \x7d\x7d\n\x7b\x7bc\x7d\x7d\x7b".toList) =
        ofPieces "echo".toList
          (ofText "a\x7b\x7b $b['\x7b'] \x7d\x7d\n\x7b\x7bc\x7d\x7d\x7b".toList) := by
  have hkey : isKey "echo".toList := by decide
  refine ⟨hkey, (parse_stage_eq_ofPieces_iff hkey _).2.1.mpr ?_⟩
  have hparse : parse (stage "echo".toList
      "a\x7b\x7b $b['\x7b'] \x7d\x7d\n\x7b\x7bc\x7d\x7d\x7b".toList) =
      [.literal ['a'], .call "echo".toList ⟨['b'], [.key ['\x7b']]⟩, .literal ['\n', '\x7b']] := by
    decide +kernel
  rw [hparse]
  intro f e he
  simp only [List.mem_cons, List.not_mem_nil, or_false, reduceCtorEq, false_or] at he
  obtain ⟨-, rfl⟩ := Segment.call.inj he
  decide +kernel

/-- A quoted key that runs over the end of a line makes a call of a text without placeholders, and
of another function than the one it was staged with. -/
theorem call_over_line_end_is_run :
    isKey "echo".toList ∧ inners "\x7b\x7bescape_html($a['\n'])\x7d\x7d".toList = [] ∧
      parse (stage "echo".toList "\x7b\x7bescape_html($a['\n'])\x7d\x7d".toList) =
        [.call "escape_html".toList ⟨['a'], [.key ['\n']]⟩] ∧
      parse (stage "echo".toList "\x7b\x7bescape_html($a['\n'])\x7d\x7d".toList) ≠
        ofPieces "echo".toList (ofText "\x7b\x7bescape_html($a['\n'])\x7d\x7d".toList) := by
  decide +kernel

end Program

end Stencil
