import Stencil.Number.Integer

namespace Stencil

/-- The two kinds of blocks that a template can have. -/
inductive BlockKind where
  | condition
  | loop
deriving DecidableEq, Repr

/-- The word for a kind in a tag. -/
def BlockKind.word : BlockKind → Text
  | .condition => ['i', 'f']
  | .loop => ['l', 'o', 'o', 'p']

/-- Something that a compilation left out or ignored. -/
inductive Warning where
  | missingTemplateFile (path : Text)
  | invalidKey (kind : BlockKind) (key : Text)
  | blockNotFound (kind : BlockKind) (key : Text)
  | duplicateBlock (kind : BlockKind) (key : Text) (count : Nat)
  | rejectedPlaceholder (source : Text)
  | unboundVariable (name : Text)
  | missingMember (expression : Text)
  | nonScalarValue (expression : Text)
  | unknownFunction (name : Text)
  | staleScratchFile (path : Text)
deriving DecidableEq, Repr

namespace Warning

def inQuotes (t : Text) : Text :=
  ['\''] ++ t ++ ['\'']

def blockTag (kind : BlockKind) (key : Text) : Text :=
  ['<'] ++ kind.word ++ ['.'] ++ key ++ ['>']

def message : Warning → Text
  | .missingTemplateFile path =>
      "template file ".toList ++ inQuotes path ++ " is missing or empty".toList
  | .invalidKey kind key =>
      "invalid ".toList ++ kind.word ++ " key ".toList ++ inQuotes key
  | .blockNotFound kind key =>
      "no ".toList ++ blockTag kind key ++ " block in template".toList
  | .duplicateBlock kind key count =>
      blockTag kind key ++ " occurs ".toList ++ integerText count ++
        " times; duplicate blocks are unsupported".toList
  | .rejectedPlaceholder source =>
      "removed placeholder ".toList ++ inQuotes source ++ ": not a variable reference".toList
  | .unboundVariable name =>
      "variable ".toList ++ inQuotes ('$' :: name) ++ " is not injected".toList
  | .missingMember expression =>
      inQuotes expression ++ " does not resolve to a value".toList
  | .nonScalarValue expression =>
      inQuotes expression ++ " is a list or map and has no text form".toList
  | .unknownFunction name =>
      "unknown output function ".toList ++ inQuotes name
  | .staleScratchFile path =>
      "stale scratch file ".toList ++ inQuotes path ++ " could not be removed".toList

end Warning

/-- The warnings of a compilation, in the order in which they first arose. -/
abbrev Warnings := List Warning

namespace Warnings

/-- The warnings with one more, unless it is among them. -/
def record (ws : Warnings) (w : Warning) : Warnings :=
  if w ∈ ws then ws else ws ++ [w]

/-- The warnings with several more, one after the other. -/
def recordAll (ws : Warnings) (more : List Warning) : Warnings :=
  more.foldl record ws

theorem nodup_record {ws : Warnings} (h : ws.Nodup) (w : Warning) : (ws.record w).Nodup := by
  unfold record
  split
  next => exact h
  next hw =>
    refine List.nodup_append.mpr ⟨h, by simp, fun a ha b hb hab => hw ?_⟩
    rw [← List.mem_singleton.mp hb, ← hab]
    exact ha

theorem prefix_record (ws : Warnings) (w : Warning) : ws <+: ws.record w := by
  unfold record
  split
  next => exact List.prefix_rfl
  next => exact List.prefix_append ws [w]

theorem mem_record {ws : Warnings} {v w : Warning} : v ∈ ws.record w ↔ v ∈ ws ∨ v = w := by
  unfold record
  split
  next h =>
    refine ⟨Or.inl, fun hv => hv.elim id fun he => he ▸ h⟩
  next => simp

theorem record_ne_nil (ws : Warnings) (w : Warning) : ws.record w ≠ [] := by
  intro h
  have hmem : w ∈ ws.record w := mem_record.mpr (Or.inr rfl)
  simp [h] at hmem

@[simp] theorem recordAll_nil (ws : Warnings) : ws.recordAll [] = ws := rfl

@[simp] theorem recordAll_cons (ws : Warnings) (w : Warning) (more : List Warning) :
    ws.recordAll (w :: more) = (ws.record w).recordAll more := rfl

theorem recordAll_append (ws : Warnings) (front back : List Warning) :
    ws.recordAll (front ++ back) = (ws.recordAll front).recordAll back :=
  List.foldl_append

theorem prefix_recordAll (ws : Warnings) (more : List Warning) : ws <+: ws.recordAll more := by
  induction more generalizing ws with
  | nil => exact List.prefix_rfl
  | cons w more ih => exact (prefix_record ws w).trans (ih (ws.record w))

theorem recordAll_eq_nil_iff {ws : Warnings} {more : List Warning} :
    ws.recordAll more = [] ↔ ws = [] ∧ more = [] := by
  constructor
  · intro h
    cases more with
    | nil => exact ⟨h, rfl⟩
    | cons w more =>
        have hprefix := prefix_recordAll (ws.record w) more
        rw [← recordAll_cons, h, List.prefix_nil] at hprefix
        exact absurd hprefix (record_ne_nil ws w)
  · rintro ⟨rfl, rfl⟩
    rfl

theorem nodup_recordAll {ws : Warnings} (h : ws.Nodup) (more : List Warning) :
    (ws.recordAll more).Nodup := by
  induction more generalizing ws with
  | nil => exact h
  | cons w more ih => exact ih (nodup_record h w)

end Warnings

end Stencil
