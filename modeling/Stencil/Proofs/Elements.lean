import Mathlib.Data.List.Basic
import Stencil.Value.Builtin
/-! Functions on lists. What they make of a value is determined by the elements that are met when the value is gone
through, whatever its shape is. So is what lists in source hold, and what is read of sequences. -/

namespace Stencil

/-! ## Functions -/

namespace Value

@[simp] theorem elements_sequenceOrNull (vs : List Value) : (sequenceOrNull vs).elements = vs := by
  cases vs <;> rfl

theorem sequenceOrNull_of_ne_nil {vs : List Value} (h : vs ≠ []) : sequenceOrNull vs = sequence vs := by
  cases vs with
  | nil => exact absurd rfl h
  | cons v vs => rfl

variable (v : Value)

theorem first_eq : v.first = v.elements.headD null := by
  cases v <;> rfl

theorem last_eq : v.last = v.elements.getLastD null := by
  cases v <;> rfl

theorem rest_eq : v.rest = sequenceOrNull v.elements.tail := by
  rw [rest, List.drop_one]
  cases v <;> rfl

theorem trunc_eq : v.trunc = sequenceOrNull v.elements.dropLast := by
  cases v <;> rfl

theorem length_eq : v.length = v.elements.length := by
  cases v with
  | map entries => simp [length, elements, Dict.keys]
  | _ => rfl

@[simp] theorem elements_reverse : v.reverse.elements = v.elements.reverse := by
  cases v <;> rfl

/-- Only sequences hold nulls that can be left out. -/
theorem elements_strip : v.strip.elements = v.elements.filter (!·.isNull) := by
  cases v with
  | map entries =>
    refine (List.filter_eq_self.mpr fun w hw => ?_).symm
    obtain ⟨key, -, rfl⟩ := List.mem_map.mp hw
    rfl
  | _ => rfl

theorem reverse_sequenceOrNull (vs : List Value) : (sequenceOrNull vs).reverse = sequenceOrNull vs.reverse := by
  by_cases h : vs = []
  · rw [h]
    rfl
  · rw [sequenceOrNull_of_ne_nil h, sequenceOrNull_of_ne_nil (List.reverse_ne_nil_iff.mpr h)]
    rfl

/-! ## Lists in source -/

/-- An item of a list in source adds its own items if it is a sequence, or else itself, without nulls. -/
theorem listItems_eq : listItems v = (Attributes.items v).filter (!·.isNull) := by
  cases v <;> rfl

theorem elements_list (items : List Value) :
    (list items).elements = (items.flatMap Attributes.items).filter (!·.isNull) := by
  rw [list, elements, List.filter_flatMap]
  exact List.flatMap_congr fun v _ => listItems_eq v

/-! ## Properties of sequences -/

variable {vs : List Value} {name : String} {index : Nat}

theorem property_index (hname : Decimal.readNat? indexLimit name = some index) (hv : vs[index]? = some v) :
    property (sequence vs) name = .ok v := by
  unfold property sequenceProperty
  rw [hname]
  dsimp only
  rw [hv]

/-- What functions on lists make of a value, told by its elements. -/
structure Listed : Prop where
  /-- Values of the same elements give the same, up to the shapes of what is given. -/
  determined : ∀ w, w.elements = v.elements → ∀ f, f.takesText = false → (apply f w).elements = (apply f v).elements
  length : apply .length v = ofNat v.elements.length
  reverse : (apply .reverse v).elements = v.elements.reverse
  strip : (apply .strip v).elements = v.elements.filter (!·.isNull)
  front : v.elements ≠ [] → v.elements = apply .first v :: (apply .rest v).elements
  back : v.elements ≠ [] → v.elements = (apply .trunc v).elements ++ [apply .last v]
  last : apply .last v = apply .first (apply .reverse v)
  trunc : apply .trunc v = apply .reverse (apply .rest (apply .reverse v))
  nothing : v.elements = [] → ∀ f ∈ [Builtin.first, .last, .rest, .trunc], apply f v = null

theorem listed : v.Listed where
  determined w h f hf := by
    cases f with
    | strlen | trim => cases hf
    | first => rw [apply, apply, first_eq, first_eq, h]
    | last => rw [apply, apply, last_eq, last_eq, h]
    | rest => rw [apply, apply, rest_eq, rest_eq, h]
    | trunc => rw [apply, apply, trunc_eq, trunc_eq, h]
    | strip => rw [apply, apply, elements_strip, elements_strip, h]
    | length => rw [apply, apply, length_eq, length_eq, h]
    | reverse => rw [apply, apply, elements_reverse, elements_reverse, h]
  length := congrArg ofNat v.length_eq
  reverse := v.elements_reverse
  strip := v.elements_strip
  front h := by
    obtain ⟨w, ws, hws⟩ := List.exists_cons_of_ne_nil h
    rw [apply, apply, first_eq, rest_eq, elements_sequenceOrNull, hws]
    rfl
  back h := by
    rw [apply, apply, last_eq, trunc_eq, elements_sequenceOrNull, List.getLastD_eq_getLast?,
      List.getLast?_eq_some_getLast h]
    exact (List.dropLast_append_getLast h).symm
  last := by
    rw [apply, apply, apply, last_eq, first_eq, elements_reverse, List.headD_eq_head?_getD, List.head?_reverse,
      List.getLastD_eq_getLast?]
  trunc := by
    rw [apply, apply, apply, apply, trunc_eq, rest_eq, elements_reverse, reverse_sequenceOrNull, List.tail_reverse,
      List.reverse_reverse]
  nothing h := by
    simp [apply, first_eq, last_eq, rest_eq, trunc_eq, h, sequenceOrNull]

/-- Functions on lists, lists in source and properties of sequences are told by the elements of the values that they are
given. An index is a number of 64 bits. -/
theorem lists_by_elements (v : Value) (items vs : List Value) : v.Listed ∧
    (list items).elements = (items.flatMap Attributes.items).filter (!·.isNull) ∧
    (∀ f ∈ [Builtin.first, .last, .rest, .length], property (sequence vs) f.name = .ok (apply f (sequence vs))) ∧
    property (sequence vs) "size" = .ok (apply .length (sequence vs)) ∧
    ∀ index v, (sequence vs).elements[index]? = some v → index ≤ indexLimit →
      property (sequence vs) (toString index) = .ok v := by
  refine ⟨v.listed, elements_list items, fun f hf => ?_, rfl, fun index v hv hi => ?_⟩
  · simp only [List.mem_cons, List.not_mem_nil, or_false] at hf
    rcases hf with rfl | rfl | rfl | rfl <;> rfl
  · exact property_index v (Decimal.readNat?_toString hi) hv

/-- Of a map, the keys are the elements, and in a list one level of sequences is taken apart. -/
theorem lists_by_elements_nested :
    let v : Value := .map [("a", .int 1), ("b", .null)]
    let inner : Value := .sequence [.null, .text "x"]
    v.elements ≠ [] ∧ v.elements = apply .first v :: (apply .rest v).elements ∧
      (list [v, .sequence [.null, inner]]).elements = [v, inner] ∧
      (sequence [.null, inner]).elements[1]? = some inner ∧ 1 ≤ indexLimit ∧
      property (sequence [.null, inner]) (toString 1) = .ok inner := by
  intro v inner
  obtain ⟨hv, hlist, -, -, hindex⟩ := lists_by_elements v [v, .sequence [.null, inner]] [.null, inner]
  have hne : v.elements ≠ [] := List.cons_ne_nil _ _
  exact ⟨hne, hv.front hne, hlist, rfl, by decide, hindex 1 inner rfl (by decide)⟩

end Value

end Stencil
