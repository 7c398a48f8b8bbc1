import Stencil.Number.Integer
import Stencil.Text.Width

namespace Stencil.Command.Table

/-- The lines of a text, which newlines stand between. -/
def lines : Text → List Text
  | [] => [[]]
  | c :: t => if c = '\n' then [] :: lines t else (lines t).modifyHead (c :: ·)

theorem lines_ne_nil (t : Text) : lines t ≠ [] := by
  induction t with
  | nil => simp [lines]
  | cons c t ih =>
      rw [lines]
      split <;> simp [ih]

theorem intercalate_lines (t : Text) : ['\n'].intercalate (lines t) = t := by
  induction t with
  | nil => rfl
  | cons c t ih =>
      obtain ⟨line, rest, h⟩ := List.exists_cons_of_ne_nil (lines_ne_nil t)
      rw [h] at ih
      rw [lines, h]
      split
      next hc => rw [List.intercalate_cons_cons, ih, hc]; rfl
      next =>
        rw [← ih, List.modifyHead_cons]
        cases rest <;> simp

/-- The columns that a cell takes, those of its widest line. -/
def cellWidth (t : Text) : Nat :=
  ((lines t).map Text.width).foldr max 0

/-- The width of each column: that of its widest cell. -/
def widths (rows : List (List Text)) : List Nat :=
  rows.foldr
    (fun row widths =>
      List.zipWithAll (fun a b => max (a.getD 0) (b.getD 0)) (row.map cellWidth) widths) []

/-- A line of a cell, filled up to the width of its column, with a blank on each side. -/
def cell (t : Text) (width : Nat) : Text :=
  [' '] ++ t ++ List.replicate (width - Text.width t) ' ' ++ [' ']

/-- A line of the table with a blank between cells. -/
def line (widths : List Nat) (row : List Text) : Text :=
  ['│'] ++ [' '].intercalate (row.zipWith cell widths) ++ ['│']

/-- The number of lines that a row takes, those of its tallest cell. -/
def height (row : List Text) : Nat :=
  (row.map fun t => (lines t).length).foldr max 0

/-- The lines of a row.  A cell with fewer lines than another is blank below them. -/
def rowLines (widths : List Nat) (row : List Text) : List Text :=
  (List.range (height row)).map fun i => line widths (row.map fun t => (lines t).getD i [])

/-- A line across the table; where columns meet it goes on as it is. -/
def rule (widths : List Nat) (left middle right : Char) : Text :=
  [left] ++ [middle].intercalate (widths.map fun width => List.replicate (width + 2) middle) ++
    [right]

/-- The table with a border around it and under its headings, and no other lines. -/
def render (headings : List Text) (rows : List (List Text)) : Text :=
  let widths := widths (headings :: rows)
  ['\n'].intercalate
    ([rule widths '┌' '─' '┐'] ++ rowLines widths headings ++ [rule widths '╞' '═' '╡'] ++
      rows.flatMap (rowLines widths) ++ [rule widths '└' '─' '┘'])

end Stencil.Command.Table
