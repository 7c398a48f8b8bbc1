import Stencil.Proofs.Program.Output

/-!
The meaning of programs.  A segment means a text and may have a defect, each by itself; a program
means what its segments mean, one after the other.  An evaluation comes as far as the first call of
a function that is not registered: up to there it writes what the program means and records the
defects in their order, each of them once.
-/

namespace Stencil

theorem Value.follow?_eq_foldlM (v : Value) (accessors : List Accessor) :
    v.follow? accessors = accessors.foldlM Value.access? v := by
  induction accessors generalizing v with
  | nil => rfl
  | cons a accessors ih =>
      rw [List.foldlM_cons, follow?]
      exact congrArg _ (funext ih)

namespace Expression

/-- The value of the variable, and from it what one accessor after the other leads to. -/
def value? (scope : Scope) (e : Expression) : Option Value :=
  (scope.get? e.name).bind fun root => e.accessors.foldlM Value.access? root

/-- The text of the value; without a value, and for a list or a map, it is empty. -/
def meaning (scope : Scope) (e : Expression) : Text :=
  match e.value? scope with
  | some v => if v.isComposite then [] else v.text
  | none => []

/-- Why the expression has no text: its variable is not bound, an accessor misses, or the value is a
list or a map. -/
def defect? (scope : Scope) (e : Expression) : Option Warning :=
  if scope.contains e.name then
    match e.value? scope with
    | some v => if v.isComposite then some (.nonScalarValue e.render) else none
    | none => some (.missingMember e.render)
  else
    some (.unboundVariable e.name)

theorem value?_eq (scope : Scope) (e : Expression) :
    e.value? scope = (scope.get? e.name).bind (·.follow? e.accessors) := by
  simp only [value?, Value.follow?_eq_foldlM]

theorem output_eq_meaning (scope : Scope) (e : Expression) : e.output scope = e.meaning scope := by
  rw [output, text, meaning, value?_eq]
  cases scope.get? e.name with
  | none => rfl
  | some root =>
      cases hfollow : root.follow? e.accessors with
      | none => simp [hfollow]
      | some v => cases hcomposite : v.isComposite <;> simp [hfollow, hcomposite]

theorem warned_eq_recordAll (scope : Scope) (e : Expression) (ws : Warnings) :
    e.warned scope ws = ws.recordAll (e.defect? scope).toList := by
  rw [warned, text, defect?, value?_eq, Bindings.contains]
  cases scope.get? e.name with
  | none => rfl
  | some root =>
      cases hfollow : root.follow? e.accessors with
      | none => simp [hfollow]
      | some v => cases hcomposite : v.isComposite <;> simp [hfollow, hcomposite]

end Expression

namespace Segment

/-- The text of a literal, and for a call what its function makes of the text of its expression. -/
def meaning (registry : Registry) (scope : Scope) : Segment → Text
  | .literal t => t
  | .call function e =>
      match registry.get? function with
      | some write => write (e.meaning scope)
      | none => []

/-- What is wrong with a segment in a scope, if something is. -/
def defect? (scope : Scope) : Segment → Option Warning
  | .literal _ => none
  | .call _ e => e.defect? scope

theorem written_eq_meaning (registry : Registry) (scope : Scope) :
    written registry scope = meaning registry scope := by
  funext s
  cases s with
  | literal t => rfl
  | call function e =>
      rw [written, meaning, e.output_eq_meaning]
      cases registry.get? function with
      | none => rfl
      | some write => rfl

end Segment

namespace Program

variable {registry : Registry} {scope : Scope}

/-- The defects of the calls, in the order of the calls. -/
def defects (scope : Scope) (p : Program) : List Warning :=
  p.filterMap (Segment.defect? scope)

theorem defects_call_cons (function : Text) (e : Expression) (p : Program) :
    defects scope (.call function e :: p) = (e.defect? scope).toList ++ p.defects scope := by
  rw [defects, List.filterMap_cons, Segment.defect?, defects]
  cases e.defect? scope with
  | none => rfl
  | some w => rfl

theorem warned_eq_recordAll (p : Program) (ws : Warnings) :
    p.warned scope ws = ws.recordAll (p.defects scope) := by
  induction p generalizing ws with
  | nil => rfl
  | cons segment p ih =>
      cases segment with
      | literal t => exact ih ws
      | call function e =>
          rw [warned, ih, e.warned_eq_recordAll, defects_call_cons, Warnings.recordAll_append]

/-- An evaluation writes what the program means and records its defects behind the warnings that are
there, each where it first occurs.  A call of a function that is not registered ends it with an
error that names the function, and the defects are those of the calls before. -/
theorem evaluate_writes_meaning {ws : Warnings} (hws : ws.Nodup) (p : Program) :
    (p.Registered registry →
      p.evaluate registry scope ws =
        (.ok (p.flatMap (Segment.meaning registry scope)),
          ws ++ ((p.defects scope).removeAll ws).eraseDups)) ∧
    (¬ p.Registered registry →
      ∃ (front : Program) (function : Text) (e : Expression) (back : Program),
        p = front ++ .call function e :: back ∧ front.Registered registry ∧
        registry.contains function = false ∧
        p.evaluate registry scope ws =
          (.error (.unknownFunction function),
            ws ++ ((front.defects scope).removeAll ws).eraseDups)) ∧
    (p.evaluate registry scope ws).2.Nodup := by
  refine ⟨?_, ?_, (records_evaluate p ws).nodup hws⟩
  · intro h
    rw [evaluate_of_registered h, warned_eq_recordAll, Warnings.recordAll_eq,
      Segment.written_eq_meaning]
  · intro h
    obtain ⟨front, function, e, back, rfl, hfront, hnone⟩ := exists_first_unregistered h
    refine ⟨front, function, e, back, rfl, hfront, by simp [Bindings.contains, hnone], ?_⟩
    rw [evaluate_append_call hfront hnone, warned_eq_recordAll, Warnings.recordAll_eq]

/-- A character of a string in a list is written; of the warnings the one that is there already and
the one about a variable that is asked for twice are not repeated. -/
theorem evaluate_chain_through_string_and_unknown_call :
    let scope : Scope := Bindings.ofList [(['l'], .list [.string "b<".toList])]
    let ws : Warnings := [.nonScalarValue "$l".toList]
    let p : Program :=
      [.literal ['a'], .call "escape_html".toList ⟨['l'], [.index 0, .key ['1']]⟩,
        .call "echo".toList ⟨['x'], []⟩, .call "echo".toList ⟨['l'], []⟩,
        .call "echo".toList ⟨['x'], [.index 0]⟩]
    let q : Program := p ++ [.call ['f'] ⟨['l'], []⟩, .call "echo".toList ⟨['y'], []⟩]
    ws.Nodup ∧ p.Registered builtins ∧ ¬ q.Registered builtins ∧
      p.evaluate builtins scope ws =
        (.ok "a&lt;".toList, [.nonScalarValue "$l".toList, .unboundVariable ['x']]) ∧
      q.evaluate builtins scope ws =
        (.error (.unknownFunction ['f']),
          [.nonScalarValue "$l".toList, .unboundVariable ['x']]) ∧
      ∃ front : Program, front.Registered builtins ∧
        (q.evaluate builtins scope ws).2 =
          ws ++ ((front.defects scope).removeAll ws).eraseDups := by
  intro scope ws p q
  have hws : ws.Nodup := by decide
  have hp : p.Registered builtins := by
    intro function e he
    simp only [p, List.mem_cons, reduceCtorEq, Segment.call.injEq, false_or, List.not_mem_nil,
      or_false] at he
    rcases he with ⟨rfl, -⟩ | ⟨rfl, -⟩ | ⟨rfl, -⟩ | ⟨rfl, -⟩
    · decide
    · decide
    · decide
    · decide
  have hq : ¬ q.Registered builtins := by
    intro h
    exact absurd (h ['f'] ⟨['l'], []⟩ (by simp [q])) (by decide)
  obtain ⟨front, _, _, _, -, hfront, -, hended⟩ := (evaluate_writes_meaning hws q).2.1 hq
  refine ⟨hws, hp, hq, ?_, rfl, front, hfront, by rw [hended]⟩
  exact ((evaluate_writes_meaning hws p).1 hp).trans rfl

end Program

end Stencil
