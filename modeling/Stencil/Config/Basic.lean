import Stencil.Text.Basic

namespace Stencil

/-- How staged text reaches the evaluation. -/
inductive CacheMode where
  | direct
  | scratch
deriving DecidableEq, Repr

/-- The settings of a compilation with their defaults. -/
structure Config where
  evaluationFunction : Text := "echo".toList
  templateDirectory : Text := "./templates".toList
  cacheDirectory : Text := "./cache".toList
  fileExtension : Text := ".html".toList
  cacheMode : CacheMode := .direct
deriving DecidableEq, Repr

namespace Config

/-- A setting, or its default when it is empty. -/
def orDefault (setting default : Text) : Text :=
  if setting = [] then default else setting

/-- The settings with empty ones set to their defaults. -/
def normalize (c : Config) : Config :=
  let defaults : Config := {}
  { c with
    evaluationFunction := orDefault c.evaluationFunction defaults.evaluationFunction
    templateDirectory := orDefault c.templateDirectory defaults.templateDirectory
    cacheDirectory := orDefault c.cacheDirectory defaults.cacheDirectory
    fileExtension := orDefault c.fileExtension defaults.fileExtension }

/-- No setting is empty. -/
def IsNormal (c : Config) : Prop :=
  c.evaluationFunction ≠ [] ∧ c.templateDirectory ≠ [] ∧ c.cacheDirectory ≠ [] ∧
    c.fileExtension ≠ []

theorem orDefault_ne_nil {setting default : Text} (h : default ≠ []) :
    orDefault setting default ≠ [] := by
  unfold orDefault
  split
  next => exact h
  next hs => exact hs

theorem isNormal_normalize (c : Config) : c.normalize.IsNormal :=
  ⟨orDefault_ne_nil (by decide), orDefault_ne_nil (by decide), orDefault_ne_nil (by decide),
    orDefault_ne_nil (by decide)⟩

theorem normalize_of_isNormal {c : Config} (h : c.IsNormal) : c.normalize = c := by
  simp [normalize, orDefault, h.1, h.2.1, h.2.2.1, h.2.2.2]

/-- Settings given on top of others; those not given stay as they are. -/
structure Overrides where
  evaluationFunction : Option Text := none
  templateDirectory : Option Text := none
  cacheDirectory : Option Text := none
  fileExtension : Option Text := none
  cacheMode : Option CacheMode := none
deriving DecidableEq, Repr

/-- The settings with others in their place; one that is empty falls back to its default. -/
def apply (c : Config) (o : Overrides) : Config :=
  normalize
    { evaluationFunction := o.evaluationFunction.getD c.evaluationFunction
      templateDirectory := o.templateDirectory.getD c.templateDirectory
      cacheDirectory := o.cacheDirectory.getD c.cacheDirectory
      fileExtension := o.fileExtension.getD c.fileExtension
      cacheMode := o.cacheMode.getD c.cacheMode }

/-- The path of the template file of a name. -/
def templatePath (c : Config) (name : Text) : Text :=
  c.templateDirectory ++ ['/'] ++ name ++ c.fileExtension

end Config

end Stencil
