import Stencil.Program.Evaluation
import Stencil.Proofs.Warning

namespace Stencil

/-- No warning is about a function. -/
def Warnings.NoUnknownFunction (ws : Warnings) : Prop :=
  ∀ name, Warning.unknownFunction name ∉ ws

namespace Expression

/-- The text that stands for an expression, empty where it has none. -/
def output (scope : Scope) (e : Expression) : Text :=
  match e.text scope with
  | .ok t => t
  | .error _ => []

/-- The warnings when the text of an expression has been asked for. -/
def warned (scope : Scope) (e : Expression) (ws : Warnings) : Warnings :=
  match e.text scope with
  | .ok _ => ws
  | .error w => ws.record w

theorem pass_of_text_eq_error {scope : Scope} {e : Expression} {w : Warning}
    (h : e.text scope = .error w) : w.pass = .evaluation := by
  unfold text at h
  split at h
  next =>
    rw [← Except.error.inj h]
    rfl
  next =>
    split at h
    next =>
      rw [← Except.error.inj h]
      rfl
    next =>
      split at h
      next =>
        rw [← Except.error.inj h]
        rfl
      next => simp at h

theorem text_ne_unknownFunction {scope : Scope} {e : Expression} {name : Text} :
    e.text scope ≠ .error (.unknownFunction name) := by
  unfold text
  split
  next => simp
  next =>
    split
    next => simp
    next =>
      split
      next => simp
      next => simp

theorem records_warned (scope : Scope) (e : Expression) (ws : Warnings) :
    Warnings.Records .evaluation ws (e.warned scope ws) := by
  unfold warned
  split
  next => exact .refl _ ws
  next w h =>
    rw [← pass_of_text_eq_error h]
    exact .record w ws

theorem noUnknownFunction_warned {scope : Scope} {e : Expression} {ws : Warnings}
    (h : ws.NoUnknownFunction) : (e.warned scope ws).NoUnknownFunction := by
  unfold warned
  split
  next => exact h
  next w hw =>
    intro name hmem
    rcases Warnings.mem_record.mp hmem with hmem | rfl
    · exact h name hmem
    · exact absurd hw text_ne_unknownFunction

theorem text_of_get?_eq_none {scope : Scope} (h : ∀ name, scope.get? name = none)
    (e : Expression) : e.text scope = .error (.unboundVariable e.name) := by
  rw [text, h]

end Expression

namespace Program

variable {registry : Registry} {scope : Scope}

theorem evaluate_call {function : Text} {write : OutputFunction}
    (h : registry.get? function = some write) (e : Expression) (p : Program) (ws : Warnings) :
    evaluate registry scope (.call function e :: p) ws =
      ((p.evaluate registry scope (e.warned scope ws)).1.map (write (e.output scope) ++ ·),
        (p.evaluate registry scope (e.warned scope ws)).2) := by
  simp only [evaluate, h, Expression.output, Expression.warned]
  cases e.text scope with
  | ok t => rfl
  | error w => rfl

theorem records_evaluate (p : Program) (ws : Warnings) :
    Warnings.Records .evaluation ws (p.evaluate registry scope ws).2 := by
  induction p generalizing ws with
  | nil => exact .refl _ ws
  | cons segment p ih =>
      cases segment with
      | literal t => exact ih ws
      | call function e =>
          cases h : registry.get? function with
          | none =>
              simp only [evaluate, h]
              exact .refl _ ws
          | some write =>
              rw [evaluate_call h]
              exact (e.records_warned scope ws).trans (ih _)

theorem records_run (p : Program) (ws : Warnings) :
    Warnings.Records .evaluation ws (p.run registry scope ws).2 := by
  have hrecords : Warnings.Records .evaluation ws (p.evaluate registry scope ws).2 :=
    records_evaluate p ws
  unfold run
  split
  next output ws' h =>
    rw [h] at hrecords
    exact hrecords
  next e ws' h =>
    rw [h] at hrecords
    cases e with
    | unknownFunction name => exact hrecords.trans (.record (.unknownFunction name) ws')

theorem snd_run_literal (t : Text) (p : Program) (ws : Warnings) :
    (run registry scope (.literal t :: p) ws).2 = (p.run registry scope ws).2 := by
  simp only [run, evaluate]
  rcases p.evaluate registry scope ws with ⟨err | output, ws'⟩
  · rfl
  · rfl

theorem snd_run_call {function : Text} {write : OutputFunction}
    (h : registry.get? function = some write) (e : Expression) (p : Program) (ws : Warnings) :
    (run registry scope (.call function e :: p) ws).2 =
      (p.run registry scope (e.warned scope ws)).2 := by
  simp only [run, evaluate_call h]
  rcases p.evaluate registry scope (e.warned scope ws) with ⟨err | output, ws'⟩
  · rfl
  · rfl

theorem snd_run_ne_nil_of_call (hscope : ∀ name, scope.get? name = none) {function : Text}
    {e : Expression} {p : Program} (h : Segment.call function e ∈ p) (ws : Warnings) :
    (p.run registry scope ws).2 ≠ [] := by
  induction p with
  | nil => exact absurd h List.not_mem_nil
  | cons segment p ih =>
      cases segment with
      | literal t =>
          rw [snd_run_literal]
          exact ih (by simpa using h)
      | call f e' =>
          cases hregistered : registry.get? f with
          | none =>
              simp only [run, evaluate, hregistered]
              exact Warnings.record_ne_nil _ _
          | some write =>
              rw [snd_run_call hregistered, Expression.warned,
                Expression.text_of_get?_eq_none hscope]
              intro hnil
              have hprefix : ws.record (.unboundVariable e'.name) <+: [] :=
                hnil ▸ (records_run p _).isPrefix
              exact Warnings.record_ne_nil _ _ (List.prefix_nil.mp hprefix)

end Program

/-- What a segment writes; a call of a function that is not registered writes nothing. -/
def Segment.written (registry : Registry) (scope : Scope) : Segment → Text
  | .literal t => t
  | .call function e => ((registry.get? function).map (· (e.output scope))).getD []

namespace Program

variable {registry : Registry} {scope : Scope}

/-- Every function that the program calls is registered. -/
def Registered (registry : Registry) (p : Program) : Prop :=
  ∀ function e, .call function e ∈ p → registry.contains function

theorem registered_nil : Registered registry [] :=
  fun _ _ he => absurd he List.not_mem_nil

theorem registered_literal_cons {t : Text} {p : Program} :
    Registered registry (.literal t :: p) ↔ p.Registered registry := by
  simp [Registered]

theorem registered_call_cons {function : Text} {e : Expression} {p : Program} :
    Registered registry (.call function e :: p) ↔
      registry.contains function ∧ p.Registered registry := by
  constructor
  · intro h
    exact ⟨h function e List.mem_cons_self, fun f e' he => h f e' (List.mem_cons_of_mem _ he)⟩
  · rintro ⟨hfunction, h⟩ f e' he
    rcases List.mem_cons.mp he with heq | he
    · obtain ⟨rfl, rfl⟩ := Segment.call.inj heq
      exact hfunction
    · exact h f e' he

/-- The warnings when the text of each expression has been asked for. -/
def warned (scope : Scope) : Program → Warnings → Warnings
  | [], ws => ws
  | .literal _ :: p, ws => warned scope p ws
  | .call _ e :: p, ws => warned scope p (e.warned scope ws)

theorem map_append_map {ε : Type} (s t : Text) (outcome : Except ε Text) :
    (outcome.map (t ++ ·)).map (s ++ ·) = outcome.map (s ++ t ++ ·) := by
  cases outcome with
  | error err => rfl
  | ok output => simp [Except.map]

theorem evaluate_append {front : Program} (h : front.Registered registry) (back : Program)
    (ws : Warnings) :
    evaluate registry scope (front ++ back) ws =
      ((back.evaluate registry scope (front.warned scope ws)).1.map
          (front.flatMap (Segment.written registry scope) ++ ·),
        (back.evaluate registry scope (front.warned scope ws)).2) := by
  induction front generalizing ws with
  | nil =>
      rw [List.nil_append, warned, List.flatMap_nil]
      rcases back.evaluate registry scope ws with ⟨err | output, ws'⟩
      · rfl
      · rfl
  | cons segment front ih =>
      cases segment with
      | literal t =>
          rw [List.cons_append, evaluate, ih (registered_literal_cons.mp h), warned,
            List.flatMap_cons, ← map_append_map]
          rfl
      | call function e =>
          obtain ⟨hfunction, h⟩ := registered_call_cons.mp h
          obtain ⟨write, hwrite⟩ := Option.isSome_iff_exists.mp hfunction
          have hwritten : Segment.written registry scope (.call function e) =
              write (e.output scope) := by
            rw [Segment.written, hwrite]
            rfl
          rw [List.cons_append, evaluate_call hwrite, ih h, warned, List.flatMap_cons, hwritten,
            ← map_append_map]

/-- Where all functions are registered the evaluation comes to the end of the program, and the
output is what the segments write, one after the other. -/
theorem evaluate_of_registered {p : Program} (h : p.Registered registry) (ws : Warnings) :
    p.evaluate registry scope ws =
      (.ok (p.flatMap (Segment.written registry scope)), p.warned scope ws) := by
  have happend : evaluate registry scope (p ++ []) ws = _ := evaluate_append h [] ws
  rw [List.append_nil] at happend
  rw [happend, evaluate]
  simp [Except.map]

theorem fst_evaluate_of_registered {p : Program} (h : p.Registered registry) (ws : Warnings) :
    (p.evaluate registry scope ws).1 = .ok (p.flatMap (Segment.written registry scope)) := by
  rw [evaluate_of_registered h]

theorem exists_first_unregistered {p : Program} (h : ¬ p.Registered registry) :
    ∃ (front : Program) (function : Text) (e : Expression) (back : Program),
      p = front ++ .call function e :: back ∧ front.Registered registry ∧
        registry.get? function = none := by
  induction p with
  | nil => exact absurd registered_nil h
  | cons segment p ih =>
      cases segment with
      | literal t =>
          rw [registered_literal_cons] at h
          obtain ⟨front, function, e, back, rfl, hfront, hnone⟩ := ih h
          exact ⟨.literal t :: front, function, e, back, rfl,
            registered_literal_cons.mpr hfront, hnone⟩
      | call function e =>
          cases hfunction : registry.get? function with
          | none => exact ⟨[], function, e, p, rfl, registered_nil, hfunction⟩
          | some write =>
              have hcontains : registry.contains function := Option.isSome_of_eq_some hfunction
              have hp : ¬ Registered registry p :=
                fun hp => h (registered_call_cons.mpr ⟨hcontains, hp⟩)
              obtain ⟨front, f, e', back, rfl, hfront, hnone⟩ := ih hp
              exact ⟨.call function e :: front, f, e', back, rfl,
                registered_call_cons.mpr ⟨hcontains, hfront⟩, hnone⟩

theorem evaluate_append_call {front : Program} (h : front.Registered registry) {function : Text}
    (hnone : registry.get? function = none) (e : Expression) (back : Program) (ws : Warnings) :
    evaluate registry scope (front ++ .call function e :: back) ws =
      (.error (.unknownFunction function), front.warned scope ws) := by
  rw [evaluate_append h, evaluate, hnone]
  rfl

theorem exists_error_of_not_registered {p : Program} (h : ¬ p.Registered registry)
    (ws : Warnings) : ∃ e, (p.evaluate registry scope ws).1 = .error e := by
  obtain ⟨front, function, e, back, rfl, hfront, hnone⟩ := exists_first_unregistered h
  exact ⟨.unknownFunction function, by rw [evaluate_append_call hfront hnone]⟩

theorem fst_run (p : Program) (ws : Warnings) :
    (p.run registry scope ws).1 =
      match (p.evaluate registry scope ws).1 with
      | .ok output => output
      | .error _ => [] := by
  unfold run
  split
  next h => rw [h]
  next h => rw [h]

theorem noUnknownFunction_run_iff {p : Program} {ws : Warnings} (hws : ws.NoUnknownFunction) :
    (p.run registry scope ws).2.NoUnknownFunction ↔ p.Registered registry := by
  induction p generalizing ws with
  | nil => exact iff_of_true hws registered_nil
  | cons segment p ih =>
      cases segment with
      | literal t => rw [snd_run_literal, registered_literal_cons, ih hws]
      | call function e =>
          rw [registered_call_cons]
          cases hfunction : registry.get? function with
          | some write =>
              have hcontains : registry.contains function := Option.isSome_of_eq_some hfunction
              rw [snd_run_call hfunction, ih (Expression.noUnknownFunction_warned hws)]
              exact (and_iff_right hcontains).symm
          | none =>
              have hrun : (run registry scope (.call function e :: p) ws).2 =
                  ws.record (.unknownFunction function) := by
                simp only [run, evaluate, hfunction]
                rfl
              rw [hrun]
              refine iff_of_false (fun h => h function (Warnings.mem_record.mpr (Or.inr rfl))) ?_
              simp [Bindings.contains, hfunction]

theorem fst_run_of_registered {p : Program} (h : p.Registered registry) (ws : Warnings) :
    (p.run registry scope ws).1 = p.flatMap (Segment.written registry scope) := by
  rw [fst_run, fst_evaluate_of_registered h]

theorem fst_run_of_not_registered {p : Program} (h : ¬ p.Registered registry) (ws : Warnings) :
    (p.run registry scope ws).1 = [] := by
  have hended : ∃ e, (p.evaluate registry scope ws).1 = .error e :=
    exists_error_of_not_registered h ws
  obtain ⟨e, he⟩ := hended
  rw [fst_run, he]

end Program

end Stencil
