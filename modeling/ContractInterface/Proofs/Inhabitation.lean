import ContractInterface.Proofs.AbiType
import ContractInterface.Proofs.Outcome
import Mathlib.Algebra.Ring.Int.Defs
import Mathlib.Algebra.Ring.Nat

/-!
# Inhabitation of types

`Inhabits v s` says which values a type has, without reference to how values are checked: integers
by range, arrays and tuples by their items, records by their entries.  The theorem of this module is
that `AbiType.check` decides it (`check_eq_ok_iff_inhabits`).

The check never compares an integer with a power of two; it counts bits.  `bitsUsed_le_iff` turns
the count into a range for words read without sign, `bitsUsed_nonneg_le_iff` and
`bitsUsed_magnitude_le_iff` for words in two's complement, whose negative numbers are counted by
their complement.

A signed type spends one of its bits on the sign, so a signed type without bits has no values at
all.  No description can give such a type, and the check, which takes one bit from none and wraps
around, lets every integer pass there: `PositiveWidth` keeps it out of soundness.  Completeness
needs no such condition.
-/

namespace ContractInterface

/-- Which values a type has. -/
inductive Inhabits : Value → AbiType → Prop
  | unknown (v : Value) : Inhabits v .unknown
  | uint {n : BitVec 256} {bits : Nat} (hrange : n.toNat < 2 ^ bits) :
      Inhabits (.uint n) (.uint bits)
  | uintAsInt {n : BitVec 256} {bits : Nat} (hbits : 0 < bits)
      (hrange : n.toNat < 2 ^ (bits - 1)) : Inhabits (.uint n) (.int bits)
  | int {n : BitVec 256} {bits : Nat} (hbits : 0 < bits) (hlow : -2 ^ (bits - 1) ≤ n.toInt)
      (hhigh : n.toInt < 2 ^ (bits - 1)) : Inhabits (.int n) (.int bits)
  | intAsUint {n : BitVec 256} {bits : Nat} (hlow : 0 ≤ n.toInt) (hhigh : n.toInt < 2 ^ bits) :
      Inhabits (.int n) (.uint bits)
  | bool (b : Bool) : Inhabits (.bool b) .bool
  | address (a : Address) : Inhabits (.address a) .address
  | string (s : String) : Inhabits (.string s) .string
  | bytes (content : List UInt8) : Inhabits (.bytes content) .bytes
  | fixedBytes (content : List UInt8) :
      Inhabits (.fixedBytes content) (.fixedBytes content.length)
  | dynamicArray {items : List Value} {element : AbiType}
      (hitems : ∀ item ∈ items, Inhabits item element) :
      Inhabits (.array items) (.array element .dynamic)
  | fixedArray {items : List Value} {element : AbiType}
      (hitems : ∀ item ∈ items, Inhabits item element) :
      Inhabits (.array items) (.array element (.fixed items.length))
  | tuple {items : List Value} {fields : List Field} (hlength : items.length = fields.length)
      (hitems : ∀ pair ∈ items.zip fields, Inhabits pair.1 pair.2.2) :
      Inhabits (.tuple items) (.tuple fields)
  /-- Of the entries under one key the first counts. -/
  | record {entries : List (String × Value)} {fields : List Field}
      (hnamed : ∀ field ∈ fields, field.1 ≠ "")
      (hfound : ∀ field ∈ fields, ∃ v, entries.lookup field.1 = some v)
      (hfits : ∀ field ∈ fields, ∀ v, entries.lookup field.1 = some v → Inhabits v field.2)
      (hkeys : ∀ entry ∈ entries, ∃ field ∈ fields, field.1 = entry.1) :
      Inhabits (.record entries) (.tuple fields)

/-- Whether a type, if it is one of integers, has a bit at all. -/
def AbiType.PositiveWidth : AbiType → Prop
  | .uint bits | .int bits => 0 < bits
  | _ => True

/-! ## Inhabitants of compound types -/

lemma inhabits_array_iff {items : List Value} {element : AbiType} {extent : Extent} :
    Inhabits (.array items) (.array element extent) ↔
      extent.admits items.length = true ∧ ∀ item ∈ items, Inhabits item element := by
  constructor
  · intro h
    cases h with
    | dynamicArray hitems => exact ⟨rfl, hitems⟩
    | fixedArray hitems => exact ⟨by simp [Extent.admits], hitems⟩
  · rintro ⟨hextent, hitems⟩
    cases extent with
    | dynamic => exact .dynamicArray hitems
    | fixed length =>
        obtain rfl : length = items.length := by simpa [Extent.admits] using hextent
        exact .fixedArray hitems

lemma inhabits_tuple_iff {items : List Value} {fields : List Field} :
    Inhabits (.tuple items) (.tuple fields) ↔
      List.Forall₂ (fun item field => Inhabits item field.2) items fields := by
  rw [List.forall₂_iff_zip]
  constructor
  · intro h
    cases h with
    | tuple hlength hitems => exact ⟨hlength, fun hpair => hitems _ hpair⟩
  · rintro ⟨hlength, hitems⟩
    exact .tuple hlength fun pair hpair => hitems hpair

lemma inhabits_record_iff {entries : List (String × Value)} {fields : List Field} :
    Inhabits (.record entries) (.tuple fields) ↔
      (∀ field ∈ fields, field.1 ≠ "") ∧
        (∀ field ∈ fields, ∃ v, entries.lookup field.1 = some v ∧ Inhabits v field.2) ∧
        ∀ entry ∈ entries, ∃ field ∈ fields, field.1 = entry.1 := by
  constructor
  · intro h
    cases h with
    | record hnamed hfound hfits hkeys =>
        refine ⟨hnamed, fun field hfield => ?_, hkeys⟩
        obtain ⟨v, hv⟩ := hfound field hfield
        exact ⟨v, hv, hfits field hfield v hv⟩
  · rintro ⟨hnamed, hentries, hkeys⟩
    refine .record hnamed (fun field hfield => ?_) (fun field hfield v hv => ?_) hkeys
    · obtain ⟨v, hv, -⟩ := hentries field hfield
      exact ⟨v, hv⟩
    · obtain ⟨w, hw, hinhabits⟩ := hentries field hfield
      rw [hv, Option.some.injEq] at hw
      exact hw ▸ hinhabits

/-! ## Counting bits -/

lemma bitsUsed_zero : bitsUsed 0 = 0 := by
  have hclz : (0 : BitVec 256).clz = (256 : Nat) := BitVec.clz_eq_iff_eq_zero.mpr rfl
  rw [bitsUsed, hclz]
  rfl

/-- A word takes at most `k` bits exactly if it is below `2 ^ k`. -/
lemma bitsUsed_le_iff {n : BitVec 256} {k : Nat} : bitsUsed n ≤ k ↔ n.toNat < 2 ^ k := by
  constructor
  · intro h
    calc
      n.toNat < 2 ^ (256 - n.clz.toNat) := BitVec.toNat_lt_two_pow_sub_clz
      _ ≤ 2 ^ k := Nat.pow_le_pow_right (by omega) h
  · intro h
    by_cases hzero : n = 0
    · rw [hzero, bitsUsed_zero]
      exact Nat.zero_le k
    · have hlow : 2 ^ (256 - 1 - n.clz.toNat) ≤ n.toNat :=
        BitVec.two_pow_sub_clz_le_toNat_of_ne_zero (by omega) hzero
      have hexponent : 256 - 1 - n.clz.toNat < k :=
        (Nat.pow_lt_pow_iff_right (by omega)).mp (Nat.lt_of_le_of_lt hlow h)
      rw [bitsUsed]
      omega

/-- A word in two's complement takes at most `k` bits, sign not counted, exactly if it is from
`-2 ^ k` to below `2 ^ k`. -/
lemma bitsUsed_magnitude_le_iff {n : BitVec 256} {k : Nat} :
    bitsUsed (if n.msb then ~~~n else n) ≤ k ↔ -2 ^ k ≤ n.toInt ∧ n.toInt < 2 ^ k := by
  have hint := n.toInt_eq_msb_cond
  have hword := n.isLt
  have hpow : ((2 ^ k : Nat) : Int) = 2 ^ k := by push_cast; rfl
  rw [bitsUsed_le_iff]
  cases hmsb : n.msb with
  | false =>
      simp only [hmsb, Bool.false_eq_true, if_false] at hint ⊢
      omega
  | true =>
      simp only [hmsb, if_true, BitVec.toNat_not] at hint ⊢
      omega

/-- A word in two's complement has no sign and takes at most `k` bits exactly if it is from `0` to
below `2 ^ k`. -/
lemma bitsUsed_nonneg_le_iff {n : BitVec 256} {k : Nat} :
    n.msb = false ∧ bitsUsed n ≤ k ↔ 0 ≤ n.toInt ∧ n.toInt < 2 ^ k := by
  have hmsb : n.msb = false ↔ 0 ≤ n.toInt := by
    simp [BitVec.msb_eq_toInt]
  have hpow : ((2 ^ k : Nat) : Int) = 2 ^ k := by push_cast; rfl
  rw [bitsUsed_le_iff, ← hmsb]
  refine and_congr_right fun hsign => ?_
  have hint : n.toInt = n.toNat := BitVec.toInt_eq_toNat_of_msb hsign
  omega

lemma magnitudeBits_of_pos {bits : Nat} (h : 0 < bits) : magnitudeBits bits = bits - 1 :=
  if_neg (Nat.pos_iff_ne_zero.mp h)

/-! ## Leaves -/

lemma admits_of_inhabits {v : Value} {s : AbiType} (hs : s.isLeaf = true) (h : Inhabits v s) :
    s.admits v = true := by
  cases h with
  | unknown => simp [AbiType.admits]
  | uint hrange => simpa [AbiType.admits, bitsUsed_le_iff] using hrange
  | uintAsInt hbits hrange =>
      simpa [AbiType.admits, magnitudeBits_of_pos hbits, bitsUsed_le_iff] using hrange
  | int hbits hlow hhigh =>
      simpa [AbiType.admits, magnitudeBits_of_pos hbits, bitsUsed_magnitude_le_iff]
        using ⟨hlow, hhigh⟩
  | intAsUint hlow hhigh =>
      simpa [AbiType.admits] using bitsUsed_nonneg_le_iff.mpr ⟨hlow, hhigh⟩
  | bool | address | string | bytes | fixedBytes => simp [AbiType.admits]
  | dynamicArray | fixedArray | tuple | record => cases hs

lemma inhabits_of_admits {v : Value} {s : AbiType} (hwidth : s.PositiveWidth)
    (h : s.admits v = true) : Inhabits v s := by
  unfold AbiType.admits at h
  split at h
  · exact .uint (bitsUsed_le_iff.mp (of_decide_eq_true h))
  · rw [magnitudeBits_of_pos hwidth] at h
    exact .uintAsInt hwidth (bitsUsed_le_iff.mp (of_decide_eq_true h))
  · next bits n =>
      have hcount : n.msb = false ∧ bitsUsed n ≤ bits := by simpa using h
      obtain ⟨hlow, hhigh⟩ := bitsUsed_nonneg_le_iff.mp hcount
      exact .intAsUint hlow hhigh
  · rw [magnitudeBits_of_pos hwidth] at h
    obtain ⟨hlow, hhigh⟩ := bitsUsed_magnitude_le_iff.mp (of_decide_eq_true h)
    exact .int hwidth hlow hhigh
  · next length content =>
      obtain rfl : content.length = length := by simpa using h
      exact .fixedBytes content
  · exact .bytes _
  · exact .bool _
  · exact .address _
  · exact .string _
  · exact .unknown _
  · cases h

/-! ## The parts of a check -/

lemma checkedBelow_eq_ok_iff {step : Step} {outcome : Except Mismatch Unit} :
    checkedBelow step outcome = .ok () ↔ outcome = .ok () := by
  cases outcome <;> simp [checkedBelow]

lemma checkItems_eq_ok_iff {check : Value → Except Mismatch Unit} {index : Nat}
    {items : List Value} :
    checkItems check index items = .ok () ↔ ∀ item ∈ items, check item = .ok () := by
  induction items generalizing index with
  | nil => simp [checkItems]
  | cons item items ih => simp [checkItems, check_bind_eq_ok_iff, checkedBelow_eq_ok_iff, ih]

lemma any_unnamed_eq_false_iff {fields : List Field} :
    (fields.any fun field => field.1 == "") = false ↔ ∀ field ∈ fields, field.1 ≠ "" := by
  simp only [List.any_eq_false, beq_iff_eq, ne_eq]

lemma strayEntry?_eq_none_iff {fields : List Field} {entries : List (String × Value)} :
    strayEntry? fields entries = none ↔
      ∀ entry ∈ entries, ∃ field ∈ fields, field.1 = entry.1 := by
  simp [List.find?_eq_none, strayEntry?]

namespace AbiType

lemma checkComponents_eq_ok_iff {index : Nat} {fields : List Field} {items : List Value}
    (hlength : items.length = fields.length) :
    checkComponents index fields items = .ok () ↔
      List.Forall₂ (fun item field => field.2.check item = .ok ()) items fields := by
  induction items generalizing index fields with
  | nil =>
      obtain rfl : fields = [] := List.length_eq_zero_iff.mp hlength.symm
      simp [checkComponents]
  | cons item items ih =>
      cases fields with
      | nil => cases hlength
      | cons field fields =>
          have hrest := @ih (index + 1) fields (by simpa using hlength)
          simp [checkComponents, check_bind_eq_ok_iff, checkedBelow_eq_ok_iff, hrest]

lemma checkNamed_eq_ok_iff {entries : List (String × Value)} {fields : List Field} :
    checkNamed entries fields = .ok () ↔
      ∀ field ∈ fields, ∃ v, entries.lookup field.1 = some v ∧ field.2.check v = .ok () := by
  induction fields with
  | nil => simp [checkNamed]
  | cons field fields ih =>
      rw [checkNamed]
      cases hlookup : entries.lookup field.1 with
      | none => simp [hlookup]
      | some v => simp [hlookup, check_bind_eq_ok_iff, checkedBelow_eq_ok_iff, ih]

/-! ## The check of each kind of type -/

lemma check_leaf_eq_ok_iff {s : AbiType} (hs : s.isLeaf = true) {v : Value} :
    s.check v = .ok () ↔ s.admits v = true := by
  cases s <;> simp_all [check, isLeaf]

lemma check_array_eq_ok_iff {element : AbiType} {extent : Extent} {items : List Value} :
    (array element extent).check (.array items) = .ok () ↔
      extent.admits items.length = true ∧ ∀ item ∈ items, element.check item = .ok () := by
  rw [check]
  by_cases hextent : extent.admits items.length = true
  · simp [hextent, checkItems_eq_ok_iff]
  · simp [hextent]

lemma check_tuple_eq_ok_iff {fields : List Field} {items : List Value} :
    (tuple fields).check (.tuple items) = .ok () ↔
      List.Forall₂ (fun item field => field.2.check item = .ok ()) items fields := by
  rw [check]
  by_cases hlength : items.length = fields.length
  · rw [if_pos hlength, checkComponents_eq_ok_iff hlength]
  · rw [if_neg hlength]
    constructor
    · intro h
      cases h
    · intro h
      exact absurd h.length_eq hlength

lemma check_record_eq_ok_iff {fields : List Field} {entries : List (String × Value)} :
    (tuple fields).check (.record entries) = .ok () ↔
      (∀ field ∈ fields, field.1 ≠ "") ∧
        (∀ field ∈ fields, ∃ v, entries.lookup field.1 = some v ∧ field.2.check v = .ok ()) ∧
        ∀ entry ∈ entries, ∃ field ∈ fields, field.1 = entry.1 := by
  rw [check, ← any_unnamed_eq_false_iff, ← checkNamed_eq_ok_iff, ← strayEntry?_eq_none_iff]
  cases (fields.any fun field => field.1 == "") with
  | true => simp
  | false =>
      rw [if_neg (by decide), check_bind_eq_ok_iff]
      cases strayEntry? fields entries <;> simp

end AbiType

/-! ## The check decides inhabitation -/

/-- Every inhabitant of a type passes its check. -/
lemma check_eq_ok_of_inhabits {v : Value} {s : AbiType} (h : Inhabits v s) :
    s.check v = .ok () := by
  induction s using AbiType.induction_on_parts generalizing v with
  | leaf s hs => exact (AbiType.check_leaf_eq_ok_iff hs).mpr (admits_of_inhabits hs h)
  | tuple fields ih =>
      cases v with
      | tuple items =>
          obtain ⟨hlength, hitems⟩ := List.forall₂_iff_zip.mp (inhabits_tuple_iff.mp h)
          refine AbiType.check_tuple_eq_ok_iff.mpr
            (List.forall₂_iff_zip.mpr ⟨hlength, fun {item field} hpair => ?_⟩)
          exact ih field (List.of_mem_zip hpair).2 (hitems hpair)
      | record entries =>
          obtain ⟨hnamed, hentries, hkeys⟩ := inhabits_record_iff.mp h
          refine AbiType.check_record_eq_ok_iff.mpr ⟨hnamed, fun field hfield => ?_, hkeys⟩
          obtain ⟨v, hv, hinhabits⟩ := hentries field hfield
          exact ⟨v, hv, ih field hfield hinhabits⟩
      | _ => cases h
  | array element extent ih =>
      cases v with
      | array items =>
          obtain ⟨hextent, hitems⟩ := inhabits_array_iff.mp h
          exact AbiType.check_array_eq_ok_iff.mpr
            ⟨hextent, fun item hitem => ih (hitems item hitem)⟩
      | _ => cases h

/-- What passes the check of a type inhabits it. -/
lemma inhabits_of_check_eq_ok {v : Value} {s : AbiType} (hwidths : s.Every AbiType.PositiveWidth)
    (h : s.check v = .ok ()) : Inhabits v s := by
  induction s using AbiType.induction_on_parts generalizing v with
  | leaf s hs =>
      exact inhabits_of_admits ((AbiType.every_leaf hs).mp hwidths)
        ((AbiType.check_leaf_eq_ok_iff hs).mp h)
  | tuple fields ih =>
      have hfields := (AbiType.every_tuple.mp hwidths).2
      cases v with
      | tuple items =>
          obtain ⟨hlength, hitems⟩ :=
            List.forall₂_iff_zip.mp (AbiType.check_tuple_eq_ok_iff.mp h)
          refine inhabits_tuple_iff.mpr
            (List.forall₂_iff_zip.mpr ⟨hlength, fun {item field} hpair => ?_⟩)
          have hfield := (List.of_mem_zip hpair).2
          exact ih field hfield (hfields field hfield) (hitems hpair)
      | record entries =>
          obtain ⟨hnamed, hentries, hkeys⟩ := AbiType.check_record_eq_ok_iff.mp h
          refine inhabits_record_iff.mpr ⟨hnamed, fun field hfield => ?_, hkeys⟩
          obtain ⟨v, hv, hcheck⟩ := hentries field hfield
          exact ⟨v, hv, ih field hfield (hfields field hfield) hcheck⟩
      | _ => simp [AbiType.check, AbiType.admits] at h
  | array element extent ih =>
      have helement := (AbiType.every_array.mp hwidths).2
      cases v with
      | array items =>
          obtain ⟨hextent, hitems⟩ := AbiType.check_array_eq_ok_iff.mp h
          exact inhabits_array_iff.mpr
            ⟨hextent, fun item hitem => ih helement (hitems item hitem)⟩
      | _ => simp [AbiType.check, AbiType.admits] at h

/-- **The check decides inhabitation**: a value passes the check of a type whose integers all have a
bit exactly if it is a value of the type. -/
theorem check_eq_ok_iff_inhabits (v : Value) (s : AbiType)
    (hwidths : s.Every AbiType.PositiveWidth) : s.check v = .ok () ↔ Inhabits v s :=
  ⟨inhabits_of_check_eq_ok hwidths, check_eq_ok_of_inhabits⟩

/-- The least number of a signed byte inhabits the type in a record, and the number below it does
not. -/
theorem check_eq_ok_iff_inhabits_signed_byte :
    (AbiType.tuple [("low", .int 8), ("tags", .array (.fixedBytes 2) (.fixed 1))]).Every
        AbiType.PositiveWidth ∧
      Inhabits (.record [("tags", .array [.fixedBytes [1, 2]]), ("low", .int (-128))])
        (.tuple [("low", .int 8), ("tags", .array (.fixedBytes 2) (.fixed 1))]) ∧
      ¬Inhabits (.record [("tags", .array [.fixedBytes [1, 2]]), ("low", .int (-129))])
        (.tuple [("low", .int 8), ("tags", .array (.fixedBytes 2) (.fixed 1))]) := by
  have hwidths : (AbiType.tuple
      [("low", .int 8), ("tags", .array (.fixedBytes 2) (.fixed 1))]).Every
        AbiType.PositiveWidth := by
    simp [AbiType.Every, AbiType.EveryField, AbiType.PositiveWidth]
  refine ⟨hwidths, (check_eq_ok_iff_inhabits _ _ hwidths).mp (by decide +kernel), ?_⟩
  rw [← check_eq_ok_iff_inhabits _ _ hwidths]
  decide +kernel

end ContractInterface
