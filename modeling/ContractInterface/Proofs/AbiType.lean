import ContractInterface.AbiType
import Mathlib.Data.List.Forall2
import Mathlib.Data.List.Induction
import Mathlib.Tactic.Lemma

/-!
# The parts of a type

An ABI type is a leaf, a tuple or an array.  Almost every property of types is proved along this
division, so `AbiType.induction_on_parts` makes it an induction principle: the hypothesis at a tuple
speaks of each of its fields, and the eight kinds of leaf are one case.

* `AbiType.sameFields_iff_forall₂` reads the comparison of two lists of fields as a relation between
  their members, in order;
* `AbiType.Every p` says that `p` holds of a type and of all that it is built from;
* `AbiType.nesting` is the number of levels of tuples and arrays.
-/

namespace ContractInterface

namespace AbiType

/-! ## Induction -/

/-- Whether a type has no parts. -/
def isLeaf : AbiType → Bool
  | .tuple _ | .array .. => false
  | _ => true

/-- Induction along the parts of a type: the fields of tuples and the elements of arrays. -/
@[elab_as_elim]
theorem induction_on_parts {motive : AbiType → Prop}
    (leaf : ∀ s, s.isLeaf = true → motive s)
    (tuple : ∀ fields : List Field, (∀ field ∈ fields, motive field.2) → motive (.tuple fields))
    (array : ∀ element extent, motive element → motive (.array element extent))
    (s : AbiType) : motive s := by
  refine @AbiType.rec motive (fun fields => ∀ field ∈ fields, motive field.2)
    (fun field => motive field.2) ?_ ?_ ?_ ?_ ?_ ?_ ?_ tuple array ?_ ?_ ?_ ?_ s
  case refine_9 => simp
  case refine_10 =>
    intro field fields hfield hfields
    exact List.forall_mem_cons.mpr ⟨hfield, hfields⟩
  case refine_11 => exact fun _ _ h => h
  all_goals intros; exact leaf _ rfl

/-! ## Comparison up to names -/

/-- Two lists of fields compare equal exactly if they do so member by member. -/
lemma sameFields_iff_forall₂ {fs gs : List Field} :
    sameFields fs gs = true ↔ List.Forall₂ (fun f g => f.2.sameType g.2 = true) fs gs := by
  induction fs generalizing gs with
  | nil => cases gs <;> simp [sameFields]
  | cons f fs ih => cases gs <;> simp [sameFields, ih]

lemma sameType_tuple_left {fs : List Field} {t : AbiType} :
    (tuple fs).sameType t = true ↔
      ∃ gs, t = tuple gs ∧ List.Forall₂ (fun f g => f.2.sameType g.2 = true) fs gs := by
  cases t <;> simp [sameType, sameFields_iff_forall₂]

lemma sameType_array_left {s t : AbiType} {e : Extent} :
    (array s e).sameType t = true ↔ ∃ u, t = array u e ∧ s.sameType u = true := by
  cases t with
  | array u e' =>
      constructor
      · intro h
        obtain ⟨rfl, hsame⟩ : e = e' ∧ s.sameType u = true := by
          simpa [sameType] using h
        exact ⟨u, rfl, hsame⟩
      · rintro ⟨u', h, hsame⟩
        cases h
        simpa [sameType] using hsame
  | _ => simp [sameType]

lemma sameType_refl (s : AbiType) : s.sameType s = true := by
  induction s using induction_on_parts with
  | leaf s hs => cases s <;> simp_all [sameType, isLeaf]
  | tuple fields ih => exact sameType_tuple_left.mpr ⟨fields, rfl, List.forall₂_same.mpr ih⟩
  | array element extent ih => exact sameType_array_left.mpr ⟨element, rfl, ih⟩

/-- A leaf is the same type as nothing but itself. -/
lemma eq_of_sameType_leaf {s t : AbiType} (hs : s.isLeaf = true) (h : s.sameType t = true) :
    s = t := by
  cases s <;> cases t <;> simp_all [sameType, isLeaf]

/-! ## What holds of every part -/

mutual

/-- Whether a property holds of a type and of everything it is built from. -/
def Every (p : AbiType → Prop) : AbiType → Prop
  | .tuple fields => p (.tuple fields) ∧ EveryField p fields
  | .array element extent => p (.array element extent) ∧ element.Every p
  | s => p s

/-- Whether a property holds of every part of the types of fields. -/
def EveryField (p : AbiType → Prop) : List Field → Prop
  | [] => True
  | (_, s) :: fields => s.Every p ∧ EveryField p fields

end

lemma everyField_iff {p : AbiType → Prop} {fields : List Field} :
    EveryField p fields ↔ ∀ field ∈ fields, field.2.Every p := by
  induction fields with
  | nil => simp [EveryField]
  | cons field fields ih => simp [EveryField, ih]

lemma every_leaf {p : AbiType → Prop} {s : AbiType} (hs : s.isLeaf = true) :
    s.Every p ↔ p s := by
  cases s <;> simp_all [Every, isLeaf]

lemma every_tuple {p : AbiType → Prop} {fields : List Field} :
    (tuple fields).Every p ↔ p (.tuple fields) ∧ ∀ field ∈ fields, field.2.Every p := by
  rw [Every, everyField_iff]

lemma every_array {p : AbiType → Prop} {element : AbiType} {extent : Extent} :
    (array element extent).Every p ↔ p (.array element extent) ∧ element.Every p := by
  rw [Every]

lemma Every.imp {p q : AbiType → Prop} (hpq : ∀ s, p s → q s) {s : AbiType} (h : s.Every p) :
    s.Every q := by
  induction s using induction_on_parts with
  | leaf s hs => exact (every_leaf hs).mpr (hpq s ((every_leaf hs).mp h))
  | tuple fields ih =>
      obtain ⟨htuple, hfields⟩ := every_tuple.mp h
      exact every_tuple.mpr ⟨hpq _ htuple, fun field hf => ih field hf (hfields field hf)⟩
  | array element extent ih =>
      obtain ⟨harray, helement⟩ := every_array.mp h
      exact every_array.mpr ⟨hpq _ harray, ih helement⟩

/-! ## Levels -/

mutual

/-- The number of levels that a type nests: each array and each tuple is one. -/
def nesting : AbiType → Nat
  | .tuple fields => nestingFields fields + 1
  | .array element _ => element.nesting + 1
  | _ => 0

/-- The greatest number of levels that the types of fields nest. -/
def nestingFields : List Field → Nat
  | [] => 0
  | (_, s) :: fields => max s.nesting (nestingFields fields)

end

lemma nesting_leaf {s : AbiType} (hs : s.isLeaf = true) : s.nesting = 0 := by
  cases s <;> simp_all [nesting, isLeaf]

lemma nestingFields_le_iff {fields : List Field} {n : Nat} :
    nestingFields fields ≤ n ↔ ∀ field ∈ fields, field.2.nesting ≤ n := by
  induction fields with
  | nil => simp [nestingFields]
  | cons field fields ih => rw [nestingFields, Nat.max_le, ih, List.forall_mem_cons]

/-- A tuple keeps within a limit if there is a level left for it and its fields keep within the
limit one level further down. -/
lemma add_nesting_tuple_le_iff {depth limit : Nat} {fields : List Field} :
    depth + (tuple fields).nesting ≤ limit ↔
      depth < limit ∧ ∀ field ∈ fields, depth + 1 + field.2.nesting ≤ limit := by
  have hfields : nestingFields fields ≤ limit - (depth + 1) ↔
      ∀ field ∈ fields, field.2.nesting ≤ limit - (depth + 1) := nestingFields_le_iff
  rw [nesting]
  constructor
  · intro h
    refine ⟨by omega, fun field hfield => ?_⟩
    have hfield := hfields.mp (by omega) field hfield
    omega
  · rintro ⟨hdepth, hbelow⟩
    have hle := hfields.mpr fun field hfield => by
      have hfield := hbelow field hfield
      omega
    omega

end AbiType

end ContractInterface
