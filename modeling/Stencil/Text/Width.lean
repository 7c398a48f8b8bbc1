import Stencil.Text.Emoji
import Stencil.Text.Ligature

/-!
Columns of texts on a display with cells of one width.  A text is read from its end, since a letter
or picture may become one shape with what stands to its right; all other characters count on their
own.
-/

namespace Stencil.Text

/-- The form that a selector asks for. -/
inductive Style where
  | picture
  | sign
  | wideQuote
deriving DecidableEq, Repr

def Style.ofSelector? : Char → Option Style
  | '\ufe0f' => some picture
  | '\ufe0e' => some sign
  | '\ufe01' => some wideQuote
  | _ => none

/-- The shape that stands to the right of a character, as far as it matters to it. -/
inductive Shape where
  | plain
  | ligature (l : Ligature)
  | emoji (e : Emoji)
deriving DecidableEq, Repr

namespace Shape

/-- The shape if it goes on before a selector for the given form, else nothing special. -/
def beforeStyle : Style → Shape → Shape
  | _, .ligature l => if l.allowsStyle then .ligature l else .plain
  | .picture, .emoji e => if e.allowsStyle then .emoji e else .plain
  | _, _ => .plain

/-- The shape if a selector that finds no picture before it leaves it whole. -/
def withoutStyle : Shape → Shape
  | .emoji _ => .plain
  | shape => shape

def isJoint : Shape → Bool
  | .emoji e => e.allowsStyle
  | _ => false

end Shape

/-- What stands to the right of a character. -/
structure Sequel where
  shape : Shape
  style : Option Style
deriving DecidableEq, Repr

namespace Sequel

def plain : Sequel := ⟨.plain, none⟩

/-- A character that stands on its own: the columns that it takes and what it leaves to those before
it. -/
def alone (c : Char) : Int × Sequel :=
  match Ligature.ofChar? c with
  | some l => (charWidth c, ⟨.ligature l, none⟩)
  | none =>
      match Emoji.ofChar? c with
      | some (columns, e) => (columns, ⟨.emoji e, none⟩)
      | none => (charWidth c, plain)

/-- A character before a shape: the columns that it adds, and what the two leave to those before. -/
def beforeShape (c : Char) (shape : Shape) : Int × Sequel :=
  if c.toNat ≤ 0xA0 then
    (1, plain)
  else
    match Style.ofSelector? c, shape with
    | some style, _ => (0, ⟨shape.beforeStyle style, some style⟩)
    | none, .plain => alone c
    | none, .ligature l =>
        match l.before? c with
        | some (columns, rest) => (columns, ⟨(rest.map Shape.ligature).getD .plain, none⟩)
        | none => alone c
    | none, .emoji e =>
        match e.before? c with
        | some (columns, e) => (columns, ⟨.emoji e, none⟩)
        | none => alone c

def isQuotationMark (c : Char) : Bool :=
  inRuns [(0x2018, 0x2019), (0x201C, 0x201D)] c

/-- A character before what stands to its right: the columns that it adds, and what the two leave
to the characters before. -/
def before (c : Char) (right : Sequel) : Int × Sequel :=
  match right.style with
  | none => beforeShape c right.shape
  | some .picture =>
      if isTwoStyled c then
        (if right.shape.isJoint then 0 else 2, ⟨.emoji .picture, none⟩)
      else
        beforeShape c right.shape.withoutStyle
  | some .sign =>
      if isPlainAsText c then (1, plain) else beforeShape c right.shape
  | some .wideQuote =>
      if isQuotationMark c then (2, plain) else beforeShape c right.shape

end Sequel

/-- The columns that a text takes, and what its beginning leaves to characters before it. -/
def measure (t : Text) : Int × Sequel :=
  t.foldr
    (fun c (columns, right) =>
      let (more, left) := right.before c
      (more + columns, left))
    (0, Sequel.plain)

/-- The columns that a text takes. -/
def width (t : Text) : Nat :=
  (measure t).1.toNat

@[simp] theorem measure_nil : measure [] = (0, Sequel.plain) := rfl

@[simp] theorem measure_cons (c : Char) (t : Text) :
    measure (c :: t) =
      (((measure t).2.before c).1 + (measure t).1, ((measure t).2.before c).2) := rfl

theorem Sequel.before_plain {c : Char} (h : c.toNat ≤ 0xA0) : plain.before c = (1, plain) := by
  simp [before, beforeShape, plain, h]

theorem measure_of_basic {t : Text} (h : ∀ c ∈ t, c.toNat ≤ 0xA0) :
    measure t = ((t.length : Int), Sequel.plain) := by
  induction t with
  | nil => rfl
  | cons c t ih =>
      rw [List.forall_mem_cons] at h
      simp [ih h.2, Sequel.before_plain h.1, Int.add_comm]

theorem width_of_basic {t : Text} (h : ∀ c ∈ t, c.toNat ≤ 0xA0) : width t = t.length := by
  simp [width, measure_of_basic h]

end Stencil.Text
