import Stencil.Number.Notation

namespace Stencil

/-- A JSON document.  Members keep their order and their repetitions. -/
inductive Json where
  | null
  | bool (b : Bool)
  | int (n : Int64)
  | float (x : Binary64)
  | string (t : Text)
  | list (items : List Json)
  | object (members : List (Text × Json))

namespace Json

mutual
/-- How many lists and objects are nested around the innermost scalar. -/
def depth : Json → Nat
  | .list items => itemsDepth items + 1
  | .object members => membersDepth members + 1
  | _ => 0

def itemsDepth : List Json → Nat
  | [] => 0
  | j :: items => max j.depth (itemsDepth items)

def membersDepth : List (Text × Json) → Nat
  | [] => 0
  | (_, j) :: members => max j.depth (membersDepth members)
end

theorem depth_list (items : List Json) : (list items).depth = itemsDepth items + 1 := rfl

theorem depth_object (members : List (Text × Json)) :
    (object members).depth = membersDepth members + 1 := rfl

theorem itemsDepth_cons (j : Json) (items : List Json) :
    itemsDepth (j :: items) = max j.depth (itemsDepth items) := rfl

theorem membersDepth_cons (key : Text) (j : Json) (members : List (Text × Json)) :
    membersDepth ((key, j) :: members) = max j.depth (membersDepth members) := rfl

end Json

end Stencil
