import Stencil.Key
import Stencil.Marker
import Stencil.Placeholder.Basic
import Stencil.Bindings
import Stencil.Warning

/-!
Blocks: text between `<if.key>` and `</if.key>` or between `<loop.key>` and `</loop.key>`.  A block
ends at the first closing tag of its key, so blocks of one key do not nest.  Rules resolve the
blocks of one key, and a sweep takes out those of a kind that it finds in one pass.
-/

namespace Stencil

/-- The fields of one turn of a loop, with their texts. -/
abbrev Row := Bindings Text

namespace Block

def openTag (kind : BlockKind) (key : Text) : Text :=
  '<' :: kind.word ++ '.' :: key ++ ['>']

def closeTag (kind : BlockKind) (key : Text) : Text :=
  '<' :: '/' :: kind.word ++ '.' :: key ++ ['>']

/-- What any tag that begins a block of a kind begins with. -/
def openHead (kind : BlockKind) : Text :=
  '<' :: kind.word ++ ['.']

def closeHead (kind : BlockKind) : Text :=
  '<' :: '/' :: kind.word ++ ['.']

end Block

/-- A block and the text between the block before it and its opening tag. -/
structure Block where
  before : Text
  body : Text
deriving DecidableEq, Repr

namespace Block

/-- The text that a block was cut from, up to the end of its closing tag. -/
def source (kind : BlockKind) (key : Text) (b : Block) : Text :=
  b.before ++ openTag kind key ++ b.body ++ closeTag kind key

/-- The first block of a key, and the text behind it. -/
def first? (kind : BlockKind) (key : Text) (t : Text) : Option (Block × Text) :=
  (Text.cut? (openTag kind key) t).bind fun (before, t) =>
    (Text.cut? (closeTag kind key) t).map fun (body, rest) => (⟨before, body⟩, rest)

theorem eq_of_first? {kind : BlockKind} {key t rest : Text} {b : Block}
    (h : first? kind key t = some (b, rest)) : t = b.source kind key ++ rest := by
  simp only [first?, Option.bind_eq_some_iff, Option.map_eq_some_iff, Prod.exists,
    Prod.mk.injEq] at h
  obtain ⟨before, t', ho, body, r, hc, rfl, rfl⟩ := h
  rw [Text.eq_of_cut? ho, Text.eq_of_cut? hc]
  simp [source]

theorem length_lt_of_first? {kind : BlockKind} {key t rest : Text} {b : Block}
    (h : first? kind key t = some (b, rest)) : rest.length < t.length := by
  rw [eq_of_first? h]
  simp only [source, openTag, List.length_append, List.length_cons]
  omega

/-- The blocks of a key from left to right, and the text behind the last. -/
def ofText (kind : BlockKind) (key : Text) (t : Text) : List Block × Text :=
  match _h : first? kind key t with
  | none => ([], t)
  | some (b, rest) =>
      let (blocks, tail) := ofText kind key rest
      (b :: blocks, tail)
termination_by t.length
decreasing_by exact length_lt_of_first? _h

theorem flatMap_source_ofText (kind : BlockKind) (key t : Text) :
    (ofText kind key t).1.flatMap (source kind key) ++ (ofText kind key t).2 = t := by
  fun_induction ofText kind key t with
  | case1 => rfl
  | case2 t b rest h blocks tail hr ih =>
      rw [hr] at ih
      rw [eq_of_first? h, ← ih]
      simp

/-- Takes the opening tags of the key out in one pass, and then the closing ones. -/
def dropTags (kind : BlockKind) (key : Text) (t : Text) : Text :=
  Text.replaceAll (closeTag kind key) [] (Text.replaceAll (openTag kind key) [] t)

/-- Applies the rule of a condition.  A condition that does not hold takes its blocks out; in any
case the tags of the key are then dropped and the text between them stays. -/
def resolveCondition (key : Text) (holds : Bool) (t : Text) (ws : Warnings) : Text × Warnings :=
  if isKey key then
    let (blocks, tail) := ofText .condition key t
    let ws := if blocks = [] then ws.record (.blockNotFound .condition key) else ws
    let kept := if holds then t else blocks.flatMap before ++ tail
    (dropTags .condition key kept, ws)
  else
    (t, ws.record (.invalidKey .condition key))

/-- The body of a loop for one row: each field's placeholders are replaced in turn by its text. -/
def instantiate (key : Text) (body : Text) (row : Row) : Text :=
  row.entries.foldl
    (fun t (field, value) => Text.replaceAll (delimited (key ++ ['.'] ++ field)) value t) body

/-- Applies the rule of a loop: the body is repeated for every row.  Of several blocks with the key
none is touched. -/
def resolveLoop (key : Text) (rows : List Row) (t : Text) (ws : Warnings) : Text × Warnings :=
  if isKey key then
    match ofText .loop key t with
    | ([], _) => (dropTags .loop key t, ws.record (.blockNotFound .loop key))
    | ([b], tail) =>
        (dropTags .loop key (b.before ++ rows.flatMap (instantiate key b.body) ++ tail), ws)
    | (blocks, _) => (t, ws.record (.duplicateBlock .loop key blocks.length))
  else
    (t, ws.record (.invalidKey .loop key))

/-- The text before the first block of a kind, whatever the keys in its two tags, and the text
behind that block. -/
def around? (kind : BlockKind) (t : Text) : Option (Text × Text) := do
  let (before, t) ← Text.cut? (openHead kind) t
  let (_, t) ← Text.cut? ['>'] t
  let (_, t) ← Text.cut? (closeHead kind) t
  let (_, rest) ← Text.cut? ['>'] t
  some (before, rest)

theorem length_lt_of_around? {kind : BlockKind} {t before rest : Text}
    (h : around? kind t = some (before, rest)) : rest.length < t.length := by
  simp only [around?, Option.bind_eq_bind, Option.bind_eq_some_iff, Prod.exists,
    Option.some.injEq, Prod.mk.injEq] at h
  obtain ⟨a, t₁, h₁, b, t₂, h₂, c, t₃, h₃, d, t₄, h₄, _, rfl⟩ := h
  have := Text.length_of_cut? h₁
  have := Text.length_of_cut? h₂
  have := Text.length_of_cut? h₃
  have := Text.length_of_cut? h₄
  simp only [List.length_cons, List.length_nil] at *
  omega

/-- Takes the blocks of a kind out of the text in one pass from left to right. -/
def sweep (kind : BlockKind) (t : Text) : Text :=
  match _h : around? kind t with
  | none => t
  | some (before, rest) => before ++ sweep kind rest
termination_by t.length
decreasing_by exact length_lt_of_around? _h

/-- Replaces the placeholders of a static variable by its sanitized value. -/
def substitute (key value : Text) (t : Text) : Text :=
  Text.replaceAll (delimited key) (sanitize value) t

end Block

end Stencil
