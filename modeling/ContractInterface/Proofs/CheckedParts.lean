import ContractInterface.Proofs.Inhabitation
import Mathlib.Data.List.Nodup

/-!
# What a check has looked at

A value that passes the check of a type with nothing unknown in it should have been looked at as a
whole: every item of an array and every entry of a record has passed the check of a type of its own,
and so has every part of it.  `Covered` is this property, and values in which no record has a key
twice have it (`AbiType.covered_of_distinct_keys`).

A record with a repeated key is another matter.  Of the entries under one key the first is looked at
as a component, and none of them counts as stray, since the key does name a component; so a later
entry is not looked at at all (`AbiType.repeated_key_unchecked`).
-/

namespace ContractInterface

namespace Value

/-- Whether a value has no parts. -/
def isLeaf : Value → Bool
  | .array _ | .tuple _ | .record _ => false
  | _ => true

/-! ## Repeated keys -/

mutual

/-- Whether no record in a value has a key twice, at any depth. -/
def hasDistinctKeys : Value → Bool
  | .array items => haveDistinctKeys items
  | .tuple items => haveDistinctKeys items
  | .record entries => (entries.map Prod.fst).Nodup && entriesHaveDistinctKeys entries
  | _ => true

/-- Whether no record in a list of values has a key twice. -/
def haveDistinctKeys : List Value → Bool
  | [] => true
  | item :: rest => item.hasDistinctKeys && haveDistinctKeys rest

/-- Whether no record in the values of entries has a key twice. -/
def entriesHaveDistinctKeys : List (String × Value) → Bool
  | [] => true
  | (_, value) :: rest => value.hasDistinctKeys && entriesHaveDistinctKeys rest

end

lemma haveDistinctKeys_iff {items : List Value} :
    haveDistinctKeys items = true ↔ ∀ item ∈ items, item.hasDistinctKeys = true := by
  induction items with
  | nil => simp [haveDistinctKeys]
  | cons item items ih => rw [haveDistinctKeys, Bool.and_eq_true, ih, List.forall_mem_cons]

lemma hasDistinctKeys_record {entries : List (String × Value)} :
    (Value.record entries).hasDistinctKeys = true ↔
      (entries.map Prod.fst).Nodup ∧ ∀ entry ∈ entries, entry.2.hasDistinctKeys = true := by
  have hvalues : ∀ entries : List (String × Value), entriesHaveDistinctKeys entries = true ↔
      ∀ entry ∈ entries, entry.2.hasDistinctKeys = true := by
    intro entries
    induction entries with
    | nil => simp [entriesHaveDistinctKeys]
    | cons entry entries ih =>
        rw [entriesHaveDistinctKeys, Bool.and_eq_true, ih, List.forall_mem_cons]
  rw [hasDistinctKeys, Bool.and_eq_true, decide_eq_true_iff, hvalues]

end Value

/-- Every entry is the first under its key, if no key is there twice. -/
lemma lookup_of_mem_of_nodup {entries : List (String × Value)}
    (hkeys : (entries.map Prod.fst).Nodup) {entry : String × Value} (hentry : entry ∈ entries) :
    entries.lookup entry.1 = some entry.2 := by
  obtain ⟨before, after, rfl⟩ := List.append_of_mem hentry
  refine List.lookup_eq_some_iff.mpr ⟨before, after, rfl, fun earlier hearlier => ?_⟩
  rw [List.map_append, List.map_cons, List.nodup_append] at hkeys
  have hne : earlier.1 ≠ entry.1 :=
    hkeys.2.2 earlier.1 (List.mem_map_of_mem hearlier) entry.1 List.mem_cons_self
  simpa using hne.symm

/-! ## Values that are looked at as a whole -/

/-- Whether a value passes the check of a type, and with it every part of the value the check of a
type that the part stands under, down to parts that have no parts themselves. -/
inductive Covered : Value → AbiType → Prop
  | leaf {v : Value} {s : AbiType} (hv : v.isLeaf = true) (hcheck : s.check v = .ok ()) :
      Covered v s
  | array {items : List Value} {element : AbiType} {extent : Extent}
      (hcheck : (AbiType.array element extent).check (.array items) = .ok ())
      (hitems : ∀ item ∈ items, Covered item element) :
      Covered (.array items) (.array element extent)
  | tuple {items : List Value} {fields : List Field}
      (hcheck : (AbiType.tuple fields).check (.tuple items) = .ok ())
      (hlength : items.length = fields.length)
      (hitems : ∀ part ∈ items.zip fields, Covered part.1 part.2.2) :
      Covered (.tuple items) (.tuple fields)
  /-- The key of every entry names a component, and the entry stands under each one that it
  names. -/
  | record {entries : List (String × Value)} {fields : List Field}
      (hcheck : (AbiType.tuple fields).check (.record entries) = .ok ())
      (hnamed : ∀ entry ∈ entries, ∃ field ∈ fields, field.1 = entry.1)
      (hentries : ∀ entry ∈ entries, ∀ field ∈ fields, field.1 = entry.1 →
        Covered entry.2 field.2) :
      Covered (.record entries) (.tuple fields)

lemma Covered.check {v : Value} {s : AbiType} (h : Covered v s) : s.check v = .ok () := by
  cases h with
  | leaf hv hcheck => exact hcheck
  | array hcheck hitems => exact hcheck
  | tuple hcheck hlength hitems => exact hcheck
  | record hcheck hnamed hentries => exact hcheck

namespace AbiType

/-- Only a value without parts fits a leaf, unless nothing is known of its type. -/
lemma isLeaf_of_admits {s : AbiType} {v : Value} (hknown : s ≠ .unknown)
    (h : s.admits v = true) : v.isLeaf = true := by
  unfold admits at h
  split at h <;> first | rfl | contradiction

lemma covered_array {items : List Value} {element : AbiType} {extent : Extent}
    (hcheck : (array element extent).check (.array items) = .ok ())
    (hitems : ∀ item ∈ items, element.check item = .ok () → Covered item element) :
    Covered (.array items) (.array element extent) := by
  obtain ⟨-, hchecks⟩ := check_array_eq_ok_iff.mp hcheck
  exact .array hcheck fun item hitem => hitems item hitem (hchecks item hitem)

lemma covered_tuple {items : List Value} {fields : List Field}
    (hcheck : (tuple fields).check (.tuple items) = .ok ())
    (hitems : ∀ item ∈ items, ∀ field ∈ fields, field.2.check item = .ok () →
      Covered item field.2) : Covered (.tuple items) (.tuple fields) := by
  obtain ⟨hlength, hchecks⟩ := List.forall₂_iff_zip.mp (check_tuple_eq_ok_iff.mp hcheck)
  refine .tuple hcheck hlength fun part hpart => ?_
  obtain ⟨hitem, hfield⟩ := List.of_mem_zip hpart
  exact hitems part.1 hitem part.2 hfield (hchecks hpart)

/-- A component is looked up by its name, so each entry is looked at if it is the first under its
key. -/
lemma covered_record {entries : List (String × Value)} {fields : List Field}
    (hcheck : (tuple fields).check (.record entries) = .ok ())
    (hdistinct : (entries.map Prod.fst).Nodup)
    (hvalues : ∀ entry ∈ entries, ∀ field ∈ fields, field.2.check entry.2 = .ok () →
      Covered entry.2 field.2) : Covered (.record entries) (.tuple fields) := by
  obtain ⟨-, hcomponents, hnamed⟩ := check_record_eq_ok_iff.mp hcheck
  refine .record hcheck hnamed fun entry hentry field hfield hname => ?_
  obtain ⟨value, hfound, hvalue⟩ := hcomponents field hfield
  rw [hname, lookup_of_mem_of_nodup hdistinct hentry, Option.some.injEq] at hfound
  rw [← hfound] at hvalue
  exact hvalues entry hentry field hfield hvalue

/-- **No part of an accepted value is unchecked**, if no record in it has a key twice: each part
passes the check of a type that it stands under, as long as nothing in the type is unknown. -/
theorem covered_of_distinct_keys (v : Value) (s : AbiType) (hknown : s.Every (· ≠ .unknown))
    (hkeys : v.hasDistinctKeys = true) (hcheck : s.check v = .ok ()) : Covered v s := by
  induction s using induction_on_parts generalizing v with
  | leaf s hs =>
      have hadmits : s.admits v = true := (check_leaf_eq_ok_iff hs).mp hcheck
      exact .leaf (isLeaf_of_admits ((every_leaf hs).mp hknown) hadmits) hcheck
  | tuple fields ih =>
      have hfields := (every_tuple.mp hknown).2
      cases v with
      | tuple items =>
          rw [Value.hasDistinctKeys, Value.haveDistinctKeys_iff] at hkeys
          refine covered_tuple hcheck fun item hitem field hfield hpasses => ?_
          exact ih field hfield item (hfields field hfield) (hkeys item hitem) hpasses
      | record entries =>
          obtain ⟨hdistinct, hvalues⟩ := Value.hasDistinctKeys_record.mp hkeys
          refine covered_record hcheck hdistinct fun entry hentry field hfield hpasses => ?_
          exact ih field hfield entry.2 (hfields field hfield) (hvalues entry hentry) hpasses
      | _ => simp [check, admits] at hcheck
  | array element extent ih =>
      cases v with
      | array items =>
          rw [Value.hasDistinctKeys, Value.haveDistinctKeys_iff] at hkeys
          refine covered_array hcheck fun item hitem hpasses => ?_
          exact ih item (every_array.mp hknown).2 (hkeys item hitem) hpasses
      | _ => simp [check, admits] at hcheck

/-- A type of lists of moves, each of a piece to a place. -/
def moves : AbiType :=
  .array (.tuple [("piece", .string), ("to", .tuple [("", .uint 8), ("", .int 8)])]) .dynamic

/-- A move is given by name, in another order, and its place by position; every part is looked
at. -/
theorem covered_of_distinct_keys_moves :
    moves.Every (· ≠ .unknown) ∧
      moves.check (.array [.record [("to", .tuple [.uint 3, .int (-1)]),
        ("piece", .string "rook")]]) = .ok () ∧
      Covered (.array [.record [("to", .tuple [.uint 3, .int (-1)]),
        ("piece", .string "rook")]]) moves := by
  have hknown : moves.Every (· ≠ .unknown) := by
    simp [moves, Every, EveryField]
  have hcheck : moves.check (.array [.record [("to", .tuple [.uint 3, .int (-1)]),
      ("piece", .string "rook")]]) = .ok () := by
    decide +kernel
  exact ⟨hknown, hcheck, covered_of_distinct_keys _ _ hknown (by decide +kernel) hcheck⟩

/-! ## Repeated keys -/

/-- Whatever its value, one more entry under a key that a record has already makes no difference to
the check. -/
lemma check_record_append_repeated {entries : List (String × Value)} {fields : List Field}
    (hcheck : (tuple fields).check (.record entries) = .ok ()) (entry : String × Value)
    (hkey : ∃ earlier ∈ entries, earlier.1 = entry.1) :
    (tuple fields).check (.record (entries ++ [entry])) = .ok () := by
  obtain ⟨hnamed, hcomponents, hkeys⟩ := check_record_eq_ok_iff.mp hcheck
  refine check_record_eq_ok_iff.mpr ⟨hnamed, fun field hfield => ?_, ?_⟩
  · obtain ⟨value, hfound, hvalue⟩ := hcomponents field hfield
    refine ⟨value, ?_, hvalue⟩
    rw [List.lookup_append, hfound, Option.some_or]
  · rw [List.forall_mem_append, List.forall_mem_singleton]
    obtain ⟨earlier, hearlier, hsame⟩ := hkey
    exact ⟨hkeys, hsame ▸ hkeys earlier hearlier⟩

/-- A word is accepted where only a truth value should be, as the second entry under its key. -/
theorem repeated_key_unchecked :
    (tuple [("open", .bool)]).Every (· ≠ .unknown) ∧
      (tuple [("open", .bool)]).check
        (.record [("open", .bool true), ("open", .string "ajar")]) = .ok () ∧
      (∀ field ∈ [("open", bool)], field.1 = "open" →
        field.2.check (.string "ajar") ≠ .ok ()) ∧
      ¬Covered (.record [("open", .bool true), ("open", .string "ajar")])
        (tuple [("open", .bool)]) := by
  have hfirst : (tuple [("open", .bool)]).check (.record [("open", .bool true)]) = .ok () := by
    decide +kernel
  have haccepted := check_record_append_repeated hfirst ("open", .string "ajar")
    ⟨_, List.mem_singleton_self _, rfl⟩
  have hrefused : bool.check (.string "ajar") ≠ .ok () := by decide +kernel
  refine ⟨by simp [Every, EveryField], haccepted, ?_, ?_⟩
  · rintro field hfield -
    rw [List.mem_singleton.mp hfield]
    exact hrefused
  · intro hcovered
    cases hcovered with
    | leaf hv => cases hv
    | record _ _ hentries =>
        exact hrefused (hentries ("open", .string "ajar") (by simp) ("open", .bool) (by simp)
          rfl).check

end AbiType

end ContractInterface
