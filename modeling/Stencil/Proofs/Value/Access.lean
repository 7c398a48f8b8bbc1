import Mathlib.Data.List.Forall2
import Stencil.Proofs.Number.Integer
import Stencil.Value.Access

namespace Stencil

namespace Value

/-- What the positions in a value count: the items of a list, and the characters of a string. -/
def elements? : Value → Option (List Value)
  | .list items => some items
  | .string t => some (t.map fun c => .string [c])
  | _ => none

theorem at?_natCast {v : Value} {elements : List Value} (h : v.elements? = some elements)
    (i : Nat) : v.at? i = elements[i]? := by
  cases v with
  | list items =>
      obtain rfl := Option.some.inj h
      rfl
  | string t =>
      obtain rfl := Option.some.inj h
      exact List.getElem?_map.symm
  | null | bool | int | float | map => simp [elements?] at h

theorem at?_negSucc (v : Value) (i : Nat) : v.at? (.negSucc i) = none := by
  cases v <;> rfl

theorem at?_eq_some_iff {v w : Value} {elements : List Value} (h : v.elements? = some elements)
    {position : Int} :
    v.at? position = some w ↔ ∃ i : Nat, position = i ∧ elements[i]? = some w := by
  cases position with
  | ofNat i =>
      rw [Int.ofNat_eq_natCast, at?_natCast h]
      constructor
      · intro hw
        exact ⟨i, rfl, hw⟩
      · rintro ⟨j, hj, hw⟩
        rwa [Int.ofNat.inj hj]
  | negSucc i => simp [at?_negSucc]

theorem member?_of_elements? {v : Value} {elements : List Value}
    (h : v.elements? = some elements) (key : Text) :
    v.member? key = (readInteger? key).bind fun n => v.at? n.toInt := by
  cases v with
  | list | string => rfl
  | null | bool | int | float | map => simp [elements?] at h

theorem member?_integerText (v : Value) (n : Int64) :
    v.member? (integerText n.toInt) = v.index? n := by
  cases v with
  | map entries => rfl
  | null | bool | int | float | string | list =>
      simp only [member?, index?, readInteger?_integerText, Option.bind_some]

end Value

namespace Accessor

/-- The second accessor is the first one, or writes the position of the first one as a key. -/
inductive Respelled : Accessor → Accessor → Prop
  | same (a : Accessor) : Respelled a a
  | key (n : Int64) : Respelled (.index n) (.key (integerText n.toInt))
  | property (n : Int64) : Respelled (.index n) (.property (integerText n.toInt))

theorem Respelled.access? {a a' : Accessor} (h : Respelled a a') (v : Value) :
    v.access? a = v.access? a' := by
  cases h with
  | same => rfl
  | key n => exact (v.member?_integerText n).symm
  | property n => exact (v.member?_integerText n).symm

end Accessor

namespace Value

theorem follow?_of_respelled {accessors accessors' : List Accessor}
    (h : List.Forall₂ Accessor.Respelled accessors accessors') (v : Value) :
    v.follow? accessors = v.follow? accessors' := by
  induction h generalizing v with
  | nil => rfl
  | cons h _ ih => simp only [follow?, h.access?, ih]

/-- Positions may be written as keys or properties anywhere among the accessors; and a key leads on
from a list or a string exactly when it is read as the position of an element, and then to this
element. -/
theorem numeric_keys_address_elements :
    (∀ (v : Value) (accessors accessors' : List Accessor),
      List.Forall₂ Accessor.Respelled accessors accessors' →
        v.follow? accessors = v.follow? accessors') ∧
    ∀ (v w : Value) (elements : List Value) (key : Text), v.elements? = some elements →
      (v.access? (.key key) = some w ↔
        ∃ (n : Int64) (i : Nat) (_ : i < elements.length),
          ReadsInteger key n ∧ n.toInt = i ∧ elements[i] = w) := by
  refine ⟨fun v _ _ h => v.follow?_of_respelled h, ?_⟩
  intro v w elements key h
  rw [access?, member?_of_elements? h]
  simp only [Option.bind_eq_some_iff, readInteger?_eq_some_iff, at?_eq_some_iff h,
    List.getElem?_eq_some_iff]
  constructor
  · rintro ⟨n, hread, i, hn, hi, hw⟩
    exact ⟨n, i, hi, hread, hn, hw⟩
  · rintro ⟨n, i, hi, hread, hn, hw⟩
    exact ⟨n, hread, i, hn, hi, hw⟩

/-- The least position is the key of an entry, a sign and leading zeros do not matter, and a
position behind the end is no element. -/
theorem least_position_and_signed_key_lead_on :
    let v : Value := .map [("-9223372036854775808".toList, .list [.null, .string "aé".toList])]
    let positions : List Accessor := [.index Int64.minValue, .index 1, .index 1]
    let keys : List Accessor :=
      [.key "-9223372036854775808".toList, .property ['1'], .key ['1']]
    v.follow? positions = v.follow? keys ∧ v.follow? keys = some (.string ['é']) ∧
      (Value.string "aé".toList).access? (.key "+01".toList) = some (.string ['é']) ∧
      (Value.string "aé".toList).access? (.key ['2']) = none := by
  intro v positions keys
  have hrespelled : List.Forall₂ Accessor.Respelled positions keys :=
    .cons (.key Int64.minValue) (.cons (.property 1) (.cons (.key 1) .nil))
  have hfollow := numeric_keys_address_elements.1 v positions keys hrespelled
  have helements : (Value.string "aé".toList).elements? =
      some [.string ['a'], .string ['é']] := rfl
  refine ⟨hfollow, hfollow.symm.trans rfl, ?_, ?_⟩
  · have hread : ReadsInteger "+01".toList 1 := readInteger?_eq_some_iff.mp rfl
    exact (numeric_keys_address_elements.2 _ _ _ _ helements).mpr
      ⟨1, 1, by decide, hread, rfl, rfl⟩
  · rw [Option.eq_none_iff_forall_ne_some]
    intro w hw
    obtain ⟨n, i, hi, hread, hn, -⟩ :=
      (numeric_keys_address_elements.2 _ _ _ _ helements).mp hw
    have hvalue : readInteger? ['2'] = some n := readInteger?_eq_some_iff.mpr hread
    obtain rfl : (2 : Int64) = n := Option.some.inj hvalue
    have hi2 : i = 2 := Int.ofNat.inj hn.symm
    exact absurd hi (by rw [hi2]; decide)

end Value

end Stencil
