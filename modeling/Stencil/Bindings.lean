import Stencil.Text.Basic

namespace Stencil

/-- A list of named things in which no name occurs twice. -/
structure Bindings (α : Type) where
  entries : List (Text × α)
  nodup : (entries.map Prod.fst).Nodup

namespace Bindings

variable {α β : Type}

/-- The table in which nothing is named. -/
def empty : Bindings α :=
  ⟨[], List.nodup_nil⟩

instance : EmptyCollection (Bindings α) := ⟨empty⟩

/-- The entries with a name bound anew: at its old place, or at the end if it is not among them. -/
def put (name : Text) (a : α) : List (Text × α) → List (Text × α)
  | [] => [(name, a)]
  | (n, b) :: entries => if n = name then (n, a) :: entries else (n, b) :: put name a entries

theorem map_fst_put (name : Text) (a : α) (entries : List (Text × α)) :
    (put name a entries).map Prod.fst =
      if name ∈ entries.map Prod.fst then entries.map Prod.fst
      else entries.map Prod.fst ++ [name] := by
  induction entries with
  | nil => simp [put]
  | cons e entries ih =>
      obtain ⟨n, b⟩ := e
      by_cases h : n = name
      · simp [put, h]
      · simp only [put, if_neg h, List.map_cons, ih, List.mem_cons, Ne.symm h, false_or]
        split <;> simp

theorem nodup_put (name : Text) (a : α) {entries : List (Text × α)}
    (h : (entries.map Prod.fst).Nodup) : ((put name a entries).map Prod.fst).Nodup := by
  rw [map_fst_put]
  split
  next => exact h
  next hn =>
    refine List.nodup_append.mpr ⟨h, by simp, fun n hmem m hm he => hn ?_⟩
    rw [← List.mem_singleton.mp hm, ← he]
    exact hmem

/-- The table with a name bound anew, which changes what it stands for and not its place. -/
def insert (b : Bindings α) (name : Text) (a : α) : Bindings α :=
  ⟨put name a b.entries, nodup_put name a b.nodup⟩

/-- The pairs bound one after the other: a name keeps its first place and its last binding. -/
def ofList (pairs : List (Text × α)) : Bindings α :=
  pairs.foldl (fun b (name, a) => b.insert name a) empty

def get? (b : Bindings α) (name : Text) : Option α :=
  b.entries.lookup name

def contains (b : Bindings α) (name : Text) : Bool :=
  (b.get? name).isSome

def size (b : Bindings α) : Nat :=
  b.entries.length

def isEmpty (b : Bindings α) : Bool :=
  b.entries.isEmpty

theorem lookup_put (name n : Text) (a : α) (entries : List (Text × α)) :
    (put name a entries).lookup n = if n = name then some a else entries.lookup n := by
  induction entries with
  | nil =>
      by_cases h : n = name
      · simp [put, h]
      · have hb : (n == name) = false := by simpa using h
        simp [put, List.lookup_cons, h, hb]
  | cons e entries ih =>
      obtain ⟨m, b⟩ := e
      by_cases hm : m = name <;> by_cases h : n = m
      · simp [put, hm, h]
      · have hn : (n == name) = false := by simpa [← hm] using h
        simp [put, List.lookup_cons, hm, hn, beq_eq_false_iff_ne.mp hn]
      · simp [put, hm, h]
      · have hb : (n == m) = false := by simpa using h
        simp [put, List.lookup_cons, hm, hb, ih]

@[simp] theorem get?_insert (b : Bindings α) (name n : Text) (a : α) :
    (b.insert name a).get? n = if n = name then some a else b.get? n :=
  lookup_put name n a b.entries

@[simp] theorem get?_empty (name : Text) : (empty : Bindings α).get? name = none := rfl

end Bindings

end Stencil
