import Stencil.Number.Notation

namespace Stencil

/-- What variables stand for.  A map is meant to list its entries by
ascending key, and each key once. -/
inductive Value where
  | null
  | bool (b : Bool)
  | int (n : Int64)
  | float (x : Binary64)
  | string (t : Text)
  | list (items : List Value)
  | map (entries : List (Text × Value))

/-- Entries by ascending key, with one more; an entry that is there already stays. -/
def insertIfNew {α : Type} (key : Text) (a : α) : List (Text × α) → List (Text × α)
  | [] => [(key, a)]
  | (k, b) :: entries =>
      if key < k then
        (key, a) :: (k, b) :: entries
      else if key = k then
        (k, b) :: entries
      else
        (k, b) :: insertIfNew key a entries

/-- The entries of a list of pairs by ascending key; the last pair of a key counts. -/
def sortEntries {α : Type} (pairs : List (Text × α)) : List (Text × α) :=
  pairs.foldr (fun (key, a) entries => insertIfNew key a entries) []

namespace Value

/-- Lists and maps have no text form in a template. -/
def isComposite : Value → Bool
  | .list _ | .map _ => true
  | _ => false

def int? : Value → Option Int64
  | .int n => some n
  | _ => none

def string? : Value → Option Text
  | .string t => some t
  | _ => none

mutual
/-- Equality of values.  Whole and binary numbers differ, and binary numbers are compared
numerically, so that a NaN equals nothing. -/
def same : Value → Value → Bool
  | .null, .null => true
  | .bool b, .bool b' => b == b'
  | .int n, .int n' => n == n'
  | .float x, .float x' => x.same x'
  | .string t, .string t' => t == t'
  | .list items, .list items' => sameItems items items'
  | .map entries, .map entries' => sameEntries entries entries'
  | _, _ => false

def sameItems : List Value → List Value → Bool
  | [], [] => true
  | v :: items, v' :: items' => v.same v' && sameItems items items'
  | _, _ => false

def sameEntries : List (Text × Value) → List (Text × Value) → Bool
  | [], [] => true
  | (k, v) :: entries, (k', v') :: entries' => k == k' && v.same v' && sameEntries entries entries'
  | _, _ => false
end

end Value

end Stencil
