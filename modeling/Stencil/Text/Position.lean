import Stencil.Text.Basic

namespace Stencil

/-- The number of bytes of a text in UTF-8. -/
def Text.utf8Size : Text → Nat
  | [] => 0
  | c :: t => c.utf8Size + utf8Size t

@[simp] theorem Text.utf8Size_nil : Text.utf8Size [] = 0 := rfl

@[simp] theorem Text.utf8Size_cons (c : Char) (t : Text) :
    Text.utf8Size (c :: t) = c.utf8Size + t.utf8Size := rfl

@[simp] theorem Text.utf8Size_append (s t : Text) :
    Text.utf8Size (s ++ t) = s.utf8Size + t.utf8Size := by
  induction s with
  | nil => simp
  | cons c s ih => simp [ih, Nat.add_assoc]

/-- A place in a text, by line and by byte within the line. -/
structure Position where
  line : Nat
  column : Nat
deriving DecidableEq, Repr

namespace Position

/-- The first line and the first column are number one. -/
def start : Position := ⟨1, 1⟩

/-- The position behind one more character; columns count bytes. -/
def advance (p : Position) (c : Char) : Position :=
  if c = '\n' then ⟨p.line + 1, 1⟩ else ⟨p.line, p.column + c.utf8Size⟩

/-- The position behind a text. -/
def behind (consumed : Text) : Position :=
  consumed.foldl advance start

@[simp] theorem behind_nil : behind [] = start := rfl

theorem behind_append_singleton (t : Text) (c : Char) :
    behind (t ++ [c]) = (behind t).advance c := by
  simp [behind]

end Position

end Stencil
