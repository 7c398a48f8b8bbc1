import Stencil.Proofs.Json.RoundTrip
import Stencil.Value.Document

namespace Stencil

/-- The entries stand by ascending key, and no key stands twice. -/
def Ascending {α : Type} (entries : List (Text × α)) : Prop :=
  entries.Pairwise fun e e' => e.1 < e'.1

instance {α : Type} (entries : List (Text × α)) : Decidable (Ascending entries) :=
  inferInstanceAs (Decidable (entries.Pairwise fun e e' => e.1 < e'.1))

theorem insertIfNew_of_forall_lt {α : Type} {key : Text} {entries : List (Text × α)}
    (h : ∀ e ∈ entries, key < e.1) (a : α) : insertIfNew key a entries = (key, a) :: entries := by
  cases entries with
  | nil => rfl
  | cons e entries => rw [insertIfNew, if_pos (h e (by simp))]

theorem mem_insertIfNew {α : Type} {key : Text} {a : α} {entries : List (Text × α)} {e : Text × α}
    (h : e ∈ insertIfNew key a entries) : e = (key, a) ∨ e ∈ entries := by
  fun_induction insertIfNew key a entries with
  | case1 => exact Or.inl (List.mem_singleton.mp h)
  | case2 k b entries hlt => exact List.mem_cons.mp h
  | case3 => exact Or.inr h
  | case4 k b entries hlt hne ih =>
      rcases List.mem_cons.mp h with rfl | h
      · exact Or.inr List.mem_cons_self
      · exact (ih h).imp_right (List.mem_cons_of_mem _)

theorem ascending_insertIfNew {α : Type} {entries : List (Text × α)} (h : Ascending entries)
    (key : Text) (a : α) : Ascending (insertIfNew key a entries) := by
  fun_induction insertIfNew key a entries with
  | case1 => exact List.pairwise_singleton _ _
  | case2 k b entries hlt =>
      refine List.pairwise_cons.mpr ⟨?_, h⟩
      intro e he
      rcases List.mem_cons.mp he with rfl | he
      · exact hlt
      · exact List.lt_trans hlt ((List.pairwise_cons.mp h).1 e he)
  | case3 => exact h
  | case4 k b entries hlt hne ih =>
      obtain ⟨hfirst, hrest⟩ := List.pairwise_cons.mp h
      refine List.pairwise_cons.mpr ⟨?_, ih hrest⟩
      intro e he
      rcases mem_insertIfNew he with rfl | he
      · refine Classical.byContradiction fun hnot => hne ?_
        exact List.le_antisymm (List.not_lt.mp hnot) (List.not_lt.mp hlt)
      · exact hfirst e he

namespace Value

/-- The maps of every value that is read list their entries by ascending key. -/
theorem ascending_entriesOfJson (members : List (Text × Json)) :
    Ascending (entriesOfJson members) := by
  induction members with
  | nil => exact List.Pairwise.nil
  | cons m members ih => exact ascending_insertIfNew ih m.1 _

/-- No binary number stands in the value, and its maps list their entries as maps do. -/
inductive Exact : Value → Prop
  | null : Exact .null
  | bool (b : Bool) : Exact (.bool b)
  | int (n : Int64) : Exact (.int n)
  | string (t : Text) : Exact (.string t)
  | list {items : List Value} (h : ∀ v ∈ items, Exact v) : Exact (.list items)
  | map {entries : List (Text × Value)} (hkeys : Ascending entries)
      (h : ∀ e ∈ entries, Exact e.2) : Exact (.map entries)

theorem itemsToJson_eq_map (items : List Value) : itemsToJson items = items.map toJson := by
  induction items with
  | nil => rfl
  | cons v items ih => rw [itemsToJson, ih, List.map_cons]

theorem entriesToJson_eq_map (entries : List (Text × Value)) :
    entriesToJson entries = entries.map fun e => (e.1, e.2.toJson) := by
  induction entries with
  | nil => rfl
  | cons e entries ih => rw [entriesToJson, ih, List.map_cons]

theorem Exact.toJson {v : Value} (h : v.Exact) : v.toJson.Exact := by
  induction h with
  | null => exact .null
  | bool b => exact .bool b
  | int n => exact .int n
  | string t => exact .string t
  | list _ ih =>
      rw [Value.toJson, itemsToJson_eq_map]
      exact .list (List.forall_mem_map.mpr ih)
  | map _ _ ih =>
      rw [Value.toJson, entriesToJson_eq_map]
      exact .object (List.forall_mem_map.mpr ih)

theorem itemsOfJson_itemsToJson {items : List Value} (h : ∀ v ∈ items, ofJson v.toJson = v) :
    itemsOfJson (itemsToJson items) = items := by
  induction items with
  | nil => rfl
  | cons v items ih =>
      rw [List.forall_mem_cons] at h
      rw [itemsToJson, itemsOfJson, h.1, ih h.2]

theorem entriesOfJson_entriesToJson {entries : List (Text × Value)} (hkeys : Ascending entries)
    (h : ∀ e ∈ entries, ofJson e.2.toJson = e.2) :
    entriesOfJson (entriesToJson entries) = entries := by
  induction entries with
  | nil => rfl
  | cons e entries ih =>
      obtain ⟨hfirst, hkeys⟩ := List.pairwise_cons.mp hkeys
      rw [List.forall_mem_cons] at h
      rw [entriesToJson, entriesOfJson, h.1, ih hkeys h.2, insertIfNew_of_forall_lt hfirst]

theorem Exact.ofJson_toJson {v : Value} (h : v.Exact) : ofJson v.toJson = v := by
  induction h with
  | null => rfl
  | bool b => rfl
  | int n => rfl
  | string t => rfl
  | list _ ih => rw [Value.toJson, ofJson, itemsOfJson_itemsToJson ih]
  | map hkeys _ ih => rw [Value.toJson, ofJson, entriesOfJson_entriesToJson hkeys ih]

/-- The kinds of values, in the order in which a document is tried as one. -/
inductive Kind where
  | null
  | bool
  | int
  | float
  | string
  | list
  | map

def Kind.all : List Kind :=
  [.null, .bool, .int, .float, .string, .list, .map]

mutual
/-- The document as a value of one kind.  A whole number may stand for a binary one; the items of a
list and the members of an object are themselves tried as each kind. -/
def ofKind? : Kind → Json → Option Value
  | .null, .null => some .null
  | .bool, .bool b => some (.bool b)
  | .int, .int n => some (.int n)
  | .float, .float x => some (.float x)
  | .float, .int n => some (.float (Binary64.ofDecimal (n.toInt < 0) n.toInt.natAbs 0))
  | .string, .string t => some (.string t)
  | .list, .list items => (itemsOfKinds? items).map .list
  | .map, .object members => (entriesOfKinds? members).map .map
  | _, _ => none

/-- The items of a list, each tried as every kind of value. -/
def itemsOfKinds? : List Json → Option (List Value)
  | [] => some []
  | j :: items => do
      let v ← Kind.all.findSome? fun kind => ofKind? kind j
      let items ← itemsOfKinds? items
      some (v :: items)

/-- The members of an object as entries, each value tried as every kind. -/
def entriesOfKinds? : List (Text × Json) → Option (List (Text × Value))
  | [] => some []
  | (key, j) :: members => do
      let v ← Kind.all.findSome? fun kind => ofKind? kind j
      let entries ← entriesOfKinds? members
      some (insertIfNew key v entries)
end

/-- The value of the first kind that fits the document. -/
def ofKinds? (j : Json) : Option Value :=
  Kind.all.findSome? fun kind => ofKind? kind j

mutual
theorem ofKinds?_eq_ofJson : ∀ j : Json, ofKinds? j = some (ofJson j)
  | .null => rfl
  | .bool _ => rfl
  | .int _ => rfl
  | .float _ => rfl
  | .string _ => rfl
  | .list items => by
      simp [ofKinds?, Kind.all, ofKind?, itemsOfKinds?_eq_itemsOfJson items, ofJson]
  | .object members => by
      simp [ofKinds?, Kind.all, ofKind?, entriesOfKinds?_eq_entriesOfJson members, ofJson]

theorem itemsOfKinds?_eq_itemsOfJson :
    ∀ items : List Json, itemsOfKinds? items = some (itemsOfJson items)
  | [] => rfl
  | j :: items => by
      have hfirst : Kind.all.findSome? (fun kind => ofKind? kind j) = some (ofJson j) :=
        ofKinds?_eq_ofJson j
      simp [itemsOfKinds?, hfirst, itemsOfKinds?_eq_itemsOfJson items, itemsOfJson]

theorem entriesOfKinds?_eq_entriesOfJson :
    ∀ members : List (Text × Json), entriesOfKinds? members = some (entriesOfJson members)
  | [] => rfl
  | (key, j) :: members => by
      have hfirst : Kind.all.findSome? (fun kind => ofKind? kind j) = some (ofJson j) :=
        ofKinds?_eq_ofJson j
      simp [entriesOfKinds?, hfirst, entriesOfKinds?_eq_entriesOfJson members, entriesOfJson]
end

theorem parse?_json {v : Value} (h : v.Exact) :
    parse? v.json = if v.toJson.depth ≤ Json.maxDepth then some v else none := by
  rw [parse?, json, Json.parse?_compact h.toJson]
  split
  next => rw [Option.map_some, h.ofJson_toJson]
  next => rfl

theorem text_of_isComposite {v : Value} (h : v.isComposite) : v.text = v.json := by
  cases v with
  | list | map => rfl
  | null | bool | int | float | string => exact absurd h Bool.false_ne_true

/-- A value without binary numbers is given back by its JSON text when it nests at most `maxDepth`
deep, whether the document is taken as it is or tried as each kind of value in turn.  The text of a
deeper value is refused.  Lists and maps show in a template the text that gives them back. -/
theorem value_given_back_by_its_json {v : Value} (h : v.Exact) :
    (v.toJson.depth ≤ Json.maxDepth →
      parse? v.json = some v ∧ (Json.parse? v.json).bind ofKinds? = some v ∧
        (v.isComposite → parse? v.text = some v)) ∧
    (Json.maxDepth < v.toJson.depth → parse? v.json = none) := by
  have hread := parse?_json h
  have hkinds : (Json.parse? v.json).bind ofKinds? = parse? v.json := by
    rw [parse?, Option.map_eq_bind, funext ofKinds?_eq_ofJson]
    rfl
  constructor
  · intro hdepth
    rw [if_pos hdepth] at hread
    refine ⟨hread, hkinds.trans hread, ?_⟩
    intro hcomposite
    rwa [text_of_isComposite hcomposite]
  · intro hdepth
    rwa [if_neg (Nat.not_le.mpr hdepth)] at hread

/-- The least number, an empty key, and texts with quotes, control characters and characters of any
width. -/
theorem map_with_escapes_given_back :
    let v : Value := .map [([], .int Int64.minValue), ("\x01\"\n".toList,
      .list [.string "\\/é😀\x7f".toList, .null, .bool false, .list [], .map []])]
    v.Exact ∧ v.toJson.depth = 3 ∧ parse? v.text = some v ∧
      v.text = "\x7b\"\":-9223372036854775808,\"\\u0001\\\"\\n\":".toList ++
        "[\"\\\\/é😀\x7f\",null,false,[],\x7b\x7d]\x7d".toList := by
  intro v
  have hexact : v.Exact := by
    refine .map (by decide) (List.forall_mem_cons.mpr ⟨.int _, List.forall_mem_singleton.mpr ?_⟩)
    refine .list ?_
    simp only [List.forall_mem_cons]
    exact ⟨.string _, .null, .bool _, .list (by simp), .map (by decide) (by simp), by simp⟩
  have hdepth : v.toJson.depth = 3 := rfl
  have hgiven := (value_given_back_by_its_json hexact).1 (by rw [hdepth]; decide)
  exact ⟨hexact, hdepth, hgiven.2.2 rfl, by decide +kernel⟩

end Value

end Stencil
