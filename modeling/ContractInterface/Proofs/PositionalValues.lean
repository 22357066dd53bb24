import ContractInterface.Proofs.FirstMisfit
import ContractInterface.Proofs.Nameless

/-!
# Values given by position see no names

A value that holds no record is checked component by component, so the names of components cannot
matter to it: of two types that are the same up to names, it fits both, or it fails both with the
same report, path and words included.

The way there leads over types without names.  Types that are the same up to names are equal once
the names are gone (`AbiType.nameless_eq_of_sameType`), and taking them out changes no check of such
a value (`AbiType.check_nameless`).

Nothing finer than names is lost: types whose checks agree are the same up to names
(`AbiType.sameType_iff_check_positional`).  Two values are enough for this, for no type but the
unknown one has both a Boolean and a string, and the report about a value that fails as a whole
tells the type.
-/

namespace ContractInterface

namespace AbiType

/-! ## Reports that tell the type -/

/-- A value without parts can only fail as a whole. -/
lemma eq_mismatch_of_check {s : AbiType} {v : Value} (harray : ∀ items, v ≠ .array items)
    (htuple : ∀ items, v ≠ .tuple items) (hrecord : ∀ entries, v ≠ .record entries)
    {m : Mismatch} (h : s.check v = .error m) : m = s.mismatch v := by
  cases s with
  | tuple fields =>
      rw [check_tuple_of_ne htuple hrecord] at h
      exact (Except.error.inj h).symm
  | array element extent =>
      rw [check_array_of_ne harray] at h
      exact (Except.error.inj h).symm
  | _ =>
      rw [check_leaf rfl] at h
      split_ifs at h
      exact (Except.error.inj h).symm

/-- Types that refuse a value without parts with the same report are the same up to names. -/
lemma sameType_of_check_eq_error {s t : AbiType} {v : Value} (harray : ∀ items, v ≠ .array items)
    (htuple : ∀ items, v ≠ .tuple items) (hrecord : ∀ entries, v ≠ .record entries)
    {m : Mismatch} (hs : s.check v = .error m) (ht : t.check v = .error m) :
    s.sameType t = true := by
  have hmismatch : s.mismatch v = t.mismatch v :=
    (eq_mismatch_of_check harray htuple hrecord hs).symm.trans
      (eq_mismatch_of_check harray htuple hrecord ht)
  exact canonical_eq_iff.mp (congrArg Mismatch.expected hmismatch)

/-- Only the unknown type has both Booleans and strings. -/
lemma eq_unknown_of_check {s : AbiType} (hbool : s.check (.bool true) = .ok ())
    (hstring : s.check (.string "") = .ok ()) : s = .unknown := by
  cases s with
  | unknown => rfl
  | bool => cases hstring
  | _ => cases hbool

lemma sameType_of_check_eq {s t : AbiType} (hbool : s.check (.bool true) = t.check (.bool true))
    (hstring : s.check (.string "") = t.check (.string "")) : s.sameType t = true := by
  cases hs : s.check (.bool true) with
  | error m =>
      exact sameType_of_check_eq_error (by simp) (by simp) (by simp) hs (hbool.symm.trans hs)
  | ok =>
      cases hs' : s.check (.string "") with
      | error m =>
          exact sameType_of_check_eq_error (by simp) (by simp) (by simp) hs'
            (hstring.symm.trans hs')
      | ok =>
          rw [eq_unknown_of_check hs hs',
            eq_unknown_of_check (hbool.symm.trans hs) (hstring.symm.trans hs')]
          rfl

/-- **Names do not matter for values given by position, and nothing else is passed over.**  Two
types are the same up to names exactly if every value without records is checked in the same way
against both: it fits both, or it fails both with the same path, the same expectation and the same
description of what was found. -/
theorem sameType_iff_check_positional (s t : AbiType) :
    s.sameType t = true ↔ ∀ v : Value, v.isPositional = true → s.check v = t.check v := by
  constructor
  · intro h v hv
    calc s.check v = s.nameless.check v := (check_nameless s hv).symm
      _ = t.nameless.check v := by rw [nameless_eq_of_sameType h]
      _ = t.check v := check_nameless t hv
  · intro h
    exact sameType_of_check_eq (h (.bool true) rfl) (h (.string "") rfl)

/-- The report about an item deep inside has positions in its path, whatever the names are. -/
example :
    (AbiType.array (.tuple [("to", .address), ("note", .tuple [("text", .string)])]) .dynamic).check
        (.array [.tuple [.address .zero, .tuple [.bool true]]]) =
      (AbiType.array (.tuple [("", .address), ("memo", .tuple [("", .string)])]) .dynamic).check
        (.array [.tuple [.address .zero, .tuple [.bool true]]]) := by
  decide +kernel

end AbiType

end ContractInterface
