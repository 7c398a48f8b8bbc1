import Stencil.Text.Position

/-!
Placeholders: an opening delimiter of two braces, an inner text and the first closing delimiter
after it, all on one line.  A text is read from the left as a list of pieces, each a plain character
or a placeholder; joining the sources of the pieces gives the text back.
-/

namespace Stencil

/-- A plain character, or a placeholder by its inner text. -/
inductive Piece where
  | plain (c : Char)
  | placeholder (inner : Text)
deriving DecidableEq, Repr

def opening : Text := ['{', '{']

def closing : Text := ['}', '}']

/-- The source of a placeholder. -/
def delimited (inner : Text) : Text :=
  opening ++ inner ++ closing

namespace Piece

/-- The inner text up to the first closing delimiter on this line, and what follows it. -/
def close? : Text → Option (Text × Text)
  | [] => none
  | c :: t =>
      match Text.after? closing (c :: t) with
      | some rest => some ([], rest)
      | none =>
          if c = '\n' then none else (close? t).map fun (inner, rest) => (c :: inner, rest)

/-- The inner text of the placeholder at the head of a text, and the rest. -/
def placeholder? (t : Text) : Option (Text × Text) :=
  (Text.after? opening t).bind close?

theorem eq_of_close? {t inner rest : Text} (h : close? t = some (inner, rest)) :
    t = inner ++ closing ++ rest := by
  induction t generalizing inner with
  | nil => simp [close?] at h
  | cons c t ih =>
      rw [close?] at h
      split at h
      next r hr =>
        simp only [Option.some.injEq, Prod.mk.injEq] at h
        obtain ⟨rfl, rfl⟩ := h
        simpa using Text.after?_eq_some_iff.mp hr
      next =>
        split at h
        next => simp at h
        next =>
          simp only [Option.map_eq_some_iff, Prod.mk.injEq, Prod.exists] at h
          obtain ⟨i, r, hc, rfl, rfl⟩ := h
          simp [ih hc]

theorem newline_notMem_of_close? {t inner rest : Text} (h : close? t = some (inner, rest)) :
    '\n' ∉ inner := by
  induction t generalizing inner with
  | nil => simp [close?] at h
  | cons c t ih =>
      rw [close?] at h
      split at h
      next r hr =>
        simp only [Option.some.injEq, Prod.mk.injEq] at h
        simp [← h.1]
      next =>
        split at h
        next => simp at h
        next hc =>
          simp only [Option.map_eq_some_iff, Prod.mk.injEq, Prod.exists] at h
          obtain ⟨i, r, hi, rfl, rfl⟩ := h
          simp [Ne.symm hc, ih hi]

theorem eq_of_placeholder? {t inner rest : Text} (h : placeholder? t = some (inner, rest)) :
    t = delimited inner ++ rest := by
  simp only [placeholder?, Option.bind_eq_some_iff] at h
  obtain ⟨r, hr, hc⟩ := h
  rw [Text.after?_eq_some_iff.mp hr, eq_of_close? hc]
  simp [delimited]

theorem length_lt_of_placeholder? {t inner rest : Text} (h : placeholder? t = some (inner, rest)) :
    rest.length < t.length := by
  rw [eq_of_placeholder? h]
  simp only [delimited, opening, closing, List.length_append, List.length_cons, List.length_nil]
  omega

/-- The pieces of a text, from the left; a placeholder is taken wherever one begins. -/
def ofText : Text → List Piece
  | [] => []
  | c :: t =>
      match _h : placeholder? (c :: t) with
      | some (inner, rest) => .placeholder inner :: ofText rest
      | none => .plain c :: ofText t
termination_by t => t.length
decreasing_by
  · exact length_lt_of_placeholder? _h
  · simp

/-- The text of a piece when each placeholder is written by a function of its inner text. -/
def write (replace : Text → Text) : Piece → Text
  | .plain c => [c]
  | .placeholder inner => replace inner

/-- The text that a piece was read from. -/
def source : Piece → Text :=
  write delimited

def inner? : Piece → Option Text
  | .plain _ => none
  | .placeholder inner => some inner

theorem flatMap_source_ofText (t : Text) : (ofText t).flatMap source = t := by
  fun_induction ofText t with
  | case1 => rfl
  | case2 c t inner rest h ih =>
      rw [List.flatMap_cons, ih, eq_of_placeholder? h]
      rfl
  | case3 c t h ih => simpa [source, write] using ih

end Piece

/-- A placeholder of a text: the bytes that it takes, delimiters included, and its inner text. -/
structure Placeholder where
  start : Nat
  stop : Nat
  inner : Text
deriving DecidableEq, Repr

namespace Placeholder

/-- The placeholders among pieces, with their bytes counted from an offset. -/
def ofPieces (offset : Nat) : List Piece → List Placeholder
  | [] => []
  | .plain c :: pieces => ofPieces (offset + c.utf8Size) pieces
  | .placeholder inner :: pieces =>
      let stop := offset + (delimited inner).utf8Size
      ⟨offset, stop, inner⟩ :: ofPieces stop pieces

end Placeholder

/-- The placeholders of a text, from left to right. -/
def placeholders (t : Text) : List Placeholder :=
  Placeholder.ofPieces 0 (Piece.ofText t)

/-- The inner texts of the placeholders of a text. -/
def inners (t : Text) : List Text :=
  (Piece.ofText t).filterMap Piece.inner?

/-- The text with each placeholder replaced by what its inner text gives. -/
def replacePlaceholders (replace : Text → Text) (t : Text) : Text :=
  (Piece.ofText t).flatMap (Piece.write replace)

/-- The text without its placeholders. -/
def stripPlaceholders (t : Text) : Text :=
  replacePlaceholders (fun _ => []) t

theorem Placeholder.map_inner_ofPieces (offset : Nat) (pieces : List Piece) :
    (ofPieces offset pieces).map Placeholder.inner = pieces.filterMap Piece.inner? := by
  induction pieces generalizing offset with
  | nil => rfl
  | cons piece pieces ih =>
      cases piece with
      | plain c => simpa [ofPieces, Piece.inner?, List.filterMap_cons] using ih _
      | placeholder inner => simpa [ofPieces, Piece.inner?, List.filterMap_cons] using ih _

theorem map_inner_placeholders (t : Text) :
    (placeholders t).map Placeholder.inner = inners t :=
  Placeholder.map_inner_ofPieces 0 _

theorem replacePlaceholders_delimited (t : Text) : replacePlaceholders delimited t = t :=
  Piece.flatMap_source_ofText t

end Stencil
