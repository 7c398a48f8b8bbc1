import Stencil.Proofs.Program.Staging
import Stencil.Proofs.Template.Injects
import Stencil.Proofs.Template.Warnings

namespace Stencil

theorem Program.isName_of_parse_callText {function : Text} {e : Expression}
    (h : parse (callText function e) = [.call function e]) : isName function := by
  have hdecomposes := decomposes_parse (callText function e)
  rw [h] at hdecomposes
  generalize callText function e = text at hdecomposes
  cases hdecomposes with
  | call hpiece _ =>
      cases hpiece with
      | intro hfunction _ => exact hfunction

namespace Template

theorem noUnknownFunction_evaluateInMemory_iff {t : Template} (h : t.warnings.NoUnknownFunction)
    (globals : Scope) :
    (t.evaluateInMemory globals).2.NoUnknownFunction ↔
      isKey t.config.evaluationFunction ∧ (Program.parse t.result).Registered t.outputs := by
  unfold evaluateInMemory
  split
  next hkey => exact (Program.noUnknownFunction_run_iff h).trans (and_iff_right hkey).symm
  next hkey =>
    exact iff_of_false (fun hnone => hnone _ (Warnings.mem_record.mpr (Or.inr rfl)))
      fun hknown => hkey hknown.1

theorem fst_evaluateInMemory_of_registered {t : Template} (hkey : isKey t.config.evaluationFunction)
    (h : (Program.parse t.result).Registered t.outputs) (globals : Scope) :
    (t.evaluateInMemory globals).1 =
      (Program.parse t.result).flatMap
        (Segment.written t.outputs (globals.restrict t.injects)) := by
  rw [evaluateInMemory, if_pos hkey]
  exact Program.fst_run_of_registered h t.warnings

theorem fst_evaluateInMemory_eq_nil {t : Template}
    (h : ¬ (isKey t.config.evaluationFunction ∧ (Program.parse t.result).Registered t.outputs))
    (globals : Scope) : (t.evaluateInMemory globals).1 = [] := by
  unfold evaluateInMemory
  split
  next hkey => exact Program.fst_run_of_not_registered (fun hp => h ⟨hkey, hp⟩) t.warnings
  next => rfl

variable {σ : Type} [MonadFiles (StateM σ)]

theorem noUnknownFunction_staged (t : Template) (s : σ) :
    (t.staged s).warnings.NoUnknownFunction := by
  intro name hmem
  have hpass := pass_of_mem_warnings_staged hmem
  simp [Warning.pass] at hpass

theorem eq_function_of_call_mem {t : Template} (hkey : isKey t.config.evaluationFunction) {s : σ}
    (hline : ∀ f e, .call f e ∈ Program.parse (t.staged s).result → '\n' ∉ e.render) {f : Text}
    {e : Expression} (he : .call f e ∈ Program.parse (t.staged s).result) :
    f = t.config.evaluationFunction := by
  obtain ⟨text, hresult⟩ : ∃ text, (t.staged s).result =
      stage t.config.evaluationFunction text := by
    obtain ⟨_, _, _, hload⟩ := t.exists_load_eq s
    rw [staged, hload]
    exact ⟨_, rfl⟩
  rw [hresult] at hline he
  obtain ⟨-, hplaceholders, hcalls⟩ := Program.parse_stage_eq_ofPieces_iff hkey text
  exact ((hcalls (hplaceholders.mpr hline)).1 f e he).1

/-- What a compilation leaves when it knows all functions: no warning about one, and the output of
the staged program. -/
structure KnowsFunctions (t t' : Template) (globals : Scope) : Prop where
  known : ∀ name, .unknownFunction name ∉ t'.warnings
  output : ∃ output,
    (∀ ws, ((Program.parse t'.result).evaluate t.outputs (globals.restrict t.injects) ws).1 =
      .ok output) ∧ t'.compiled = stripPlaceholders output

section Direct

variable {t : Template} (hmode : t.config.cacheMode = .direct) (globals : Scope) (fresh : Text)
  (s : σ)

include hmode

theorem noUnknownFunction_compile_iff :
    (runOn s (t.compile globals fresh : StateM σ Template)).1.warnings.NoUnknownFunction ↔
      isKey t.config.evaluationFunction ∧
        (Program.parse (t.staged s).result).Registered t.outputs := by
  have hiff := noUnknownFunction_evaluateInMemory_iff (t.noUnknownFunction_staged s) globals
  rw [config_staged, outputs_staged] at hiff
  rw [fst_compile_of_direct hmode]
  exact hiff

theorem compiled_of_registered (hkey : isKey t.config.evaluationFunction)
    (h : (Program.parse (t.staged s).result).Registered t.outputs) :
    (runOn s (t.compile globals fresh : StateM σ Template)).1.compiled =
      stripPlaceholders ((Program.parse (t.staged s).result).flatMap
        (Segment.written t.outputs (globals.restrict t.injects))) := by
  have houtput := fst_evaluateInMemory_of_registered (t := t.staged s)
    (by rwa [config_staged]) (by rwa [outputs_staged]) globals
  rw [outputs_staged, injects_staged] at houtput
  rw [← houtput, fst_compile_of_direct hmode]
  rfl

theorem compiled_of_not_registered
    (h : ¬ (isKey t.config.evaluationFunction ∧
      (Program.parse (t.staged s).result).Registered t.outputs)) :
    (runOn s (t.compile globals fresh : StateM σ Template)).1.compiled = [] := by
  have houtput := fst_evaluateInMemory_eq_nil (t := t.staged s)
    (by rwa [config_staged, outputs_staged]) globals
  rw [fst_compile_of_direct hmode]
  exact (congrArg stripPlaceholders houtput).trans (replacePlaceholders_nil _)

theorem knowsFunctions_compile_iff :
    t.KnowsFunctions (runOn s (t.compile globals fresh : StateM σ Template)).1 globals ↔
      isKey t.config.evaluationFunction ∧
        (Program.parse (t.staged s).result).Registered t.outputs := by
  have hknown := noUnknownFunction_compile_iff hmode globals fresh s
  constructor
  · intro h
    exact hknown.mp h.known
  · rintro ⟨hkey, hregistered⟩
    refine ⟨hknown.mpr ⟨hkey, hregistered⟩, _, ?_,
      compiled_of_registered hmode globals fresh s hkey hregistered⟩
    rw [result_compile]
    exact Program.fst_evaluate_of_registered hregistered

end Direct

/-- A registered function that can be called is known, and the output of the program is left,
exactly when the name is in ASCII and every call is of a registered function.  Otherwise the output
is empty and a function is reported.  With a name in ASCII all calls are of this function where each
of them stays on its line. -/
theorem registered_function_known_iff {t : Template} {function : Text}
    (hfunction : t.config.evaluationFunction = function)
    (hregistered : t.outputs.contains function)
    (hcall : Program.parse (callText function ⟨['x'], []⟩) = [.call function ⟨['x'], []⟩])
    (hmode : t.config.cacheMode = .direct) (globals : Scope) (fresh : Text) (s : σ) :
    let t' := (runOn s (t.compile globals fresh : StateM σ Template)).1
    let program := Program.parse t'.result
    (t.KnowsFunctions t' globals ↔
        (∀ c ∈ function, c.toNat < 128) ∧ program.Registered t.outputs) ∧
      (¬ t.KnowsFunctions t' globals →
        t'.compiled = [] ∧ ∃ name, .unknownFunction name ∈ t'.warnings) ∧
      ((∀ c ∈ function, c.toNat < 128) →
        (∀ f e, .call f e ∈ program → '\n' ∉ e.render) →
        (∀ f e, .call f e ∈ program → f = function) ∧ program.Registered t.outputs) := by
  intro t' program
  subst hfunction
  have hascii := isKey_iff_of_isName (Program.isName_of_parse_callText hcall)
  have hprogram : program = Program.parse (t.staged s).result :=
    congrArg Program.parse (t.result_compile globals fresh s)
  have hknows := knowsFunctions_compile_iff hmode globals fresh s
  rw [← hascii, hprogram]
  refine ⟨hknows, ?_, ?_⟩
  · intro hnot
    rw [hknows] at hnot
    refine ⟨compiled_of_not_registered hmode globals fresh s hnot, ?_⟩
    by_contra hnone
    exact hnot ((noUnknownFunction_compile_iff hmode globals fresh s).mp (not_exists.mp hnone))
  · intro hkey hline
    have hsame : ∀ f e, .call f e ∈ Program.parse (t.staged s).result →
        f = t.config.evaluationFunction := fun f e he => eq_function_of_call_mem hkey hline he
    refine ⟨hsame, fun f e he => ?_⟩
    rw [hsame f e he]
    exact hregistered

theorem function_with_digit_and_underscore_is_known :
    let function : Text := ['_', 'f', '1']
    let t : Template :=
      (({ content := "\x7b\x7b$v\x7d\x7d\x7b\x7bprint($v['\n'])\x7d\x7d".toList
          config := { evaluationFunction := function }
          injects := [['v']] } : Template).register function fun text => text ++ text)
    let globals : Scope := .ofList [(['v'], .string ['a', 'b'])]
    let fs : FileSystem := { temporary := [] }
    let t' := (runOn fs (t.compile globals [] : StateM FileSystem Template)).1
    t.outputs.contains function ∧
      Program.parse (callText function ⟨['x'], []⟩) = [.call function ⟨['x'], []⟩] ∧
      (∀ c ∈ function, c.toNat < 128) ∧ t.KnowsFunctions t' globals ∧
      t'.compiled = "abab".toList ∧ t'.warnings = [.missingMember "$v['\n']".toList] := by
  intro function t globals fs t'
  have hregistered : t.outputs.contains function := by decide +kernel
  have hcall : Program.parse (callText function ⟨['x'], []⟩) = [.call function ⟨['x'], []⟩] := by
    decide +kernel
  have hascii : ∀ c ∈ function, c.toNat < 128 := by simp [function]
  have hprogram : Program.parse t'.result =
      [.call function ⟨['v'], []⟩, .call "print".toList ⟨['v'], [.key ['\n']]⟩] := by
    decide +kernel
  have hall : (Program.parse t'.result).Registered t.outputs := by
    rw [hprogram, Program.registered_call_cons, Program.registered_call_cons]
    refine ⟨hregistered, by decide +kernel, fun _ _ he => absurd he List.not_mem_nil⟩
  have hknown := registered_function_known_iff rfl hregistered hcall rfl globals [] fs
  refine ⟨hregistered, hcall, hascii, hknown.1.mpr ⟨hascii, hall⟩, ?_, ?_⟩
  · decide +kernel
  · decide +kernel

/-- A function whose name is not in ASCII is registered and called, and yet unknown; and so is a
function that only the text calls, over the end of a line. -/
theorem callable_function_unknown :
    let function : Text := ['é']
    let foreign : Template :=
      (({ content := "\x7b\x7b$v\x7d\x7d".toList
          config := { evaluationFunction := function }
          injects := [['v']] } : Template).register function fun text => ['['] ++ text ++ [']'])
    let brought : Template := { content := "\x7b\x7bfoo($a['\n'])\x7d\x7d".toList }
    let globals : Scope := .ofList [(['v'], .string ['1'])]
    let compiled (t : Template) : Template :=
      (runOn { temporary := [] } (t.compile globals [] : StateM FileSystem Template)).1
    (foreign.outputs.contains function ∧
        Program.parse (callText function ⟨['x'], []⟩) = [.call function ⟨['x'], []⟩] ∧
        (compiled foreign).compiled = [] ∧
        (compiled foreign).warnings = [.unknownFunction function] ∧
        ¬ foreign.KnowsFunctions (compiled foreign) globals) ∧
      brought.outputs.contains "echo".toList ∧
        Program.parse (callText "echo".toList ⟨['x'], []⟩) = [.call "echo".toList ⟨['x'], []⟩] ∧
        (compiled brought).compiled = [] ∧
        (compiled brought).warnings = [.unknownFunction "foo".toList] ∧
        ¬ brought.KnowsFunctions (compiled brought) globals := by
  intro function foreign brought globals compiled
  have hforeign : (compiled foreign).warnings = [.unknownFunction function] := by decide +kernel
  have hbrought : (compiled brought).warnings = [.unknownFunction "foo".toList] := by
    decide +kernel
  refine ⟨⟨?_, ?_, ?_, hforeign, fun h => h.known function ?_⟩, ?_, ?_, ?_, hbrought,
    fun h => h.known "foo".toList ?_⟩
  · decide +kernel
  · decide +kernel
  · decide +kernel
  · exact hforeign ▸ List.mem_singleton_self _
  · decide +kernel
  · decide +kernel
  · decide +kernel
  · exact hbrought ▸ List.mem_singleton_self _

end Template

end Stencil
