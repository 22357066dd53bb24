import ContractInterface.Proofs.CheckedParts
import ContractInterface.Proofs.FirstMisfit
import ContractInterface.Proofs.Resolution
import Mathlib.Data.List.Nodup

/-!
# Named and positional tuples

A tuple can be given by position or, as a record, by name.  The two checks have little in common: by
position, values and components are taken side by side; by name, each component looks for an entry,
and afterwards each key is compared with all the names.  Neither scan of the second check sees a
record as a rearrangement of a tuple.

It is one all the same, as long as no name and no key is there twice
(`AbiType.check_record_iff_check_tuple`): a record passes exactly if its entries can be put in the
order of the components and the values then pass as a tuple.  The order in which the entries are
given is thus without effect.

`arrange` puts entries in the order of the components.  That it loses and adds no entry is where
both scans are needed: every component has an entry, so all the names are there, and every key is a
name, so no entry is left over.
-/

namespace ContractInterface

/-- Whether entries are given in the order of the components: each one under the name of its
component, and with a value that passes the check. -/
def InOrder (entries : List (String × Value)) (fields : List Field) : Prop :=
  List.Forall₂ (fun entry field => entry.1 = field.1 ∧ field.2.check entry.2 = .ok ())
    entries fields

/-- Entries in the order of the components are a tuple with the names beside it. -/
lemma inOrder_iff {entries : List (String × Value)} {fields : List Field} :
    InOrder entries fields ↔
      entries.map Prod.fst = fields.map Prod.fst ∧
        (AbiType.tuple fields).check (.tuple (entries.map Prod.snd)) = .ok () := by
  rw [AbiType.check_tuple_eq_ok_iff, List.forall₂_map_left_iff]
  induction entries generalizing fields with
  | nil => cases fields <;> simp [InOrder]
  | cons entry entries ih =>
      cases fields with
      | nil => simp [InOrder]
      | cons field fields =>
          rw [InOrder, List.forall₂_cons, ← InOrder, ih, List.map_cons, List.map_cons,
            List.cons.injEq, List.forall₂_cons]
          exact and_and_and_comm

lemma InOrder.hasComponent {arranged entries : List (String × Value)} {fields : List Field}
    (h : InOrder arranged fields)
    (hfound : ∀ entry ∈ arranged, entries.lookup entry.1 = some entry.2) :
    ∀ field ∈ fields, HasComponent entries field := by
  intro field hfield
  obtain ⟨entry, hentry, hname, hvalue⟩ := exists_mem_of_forall₂ h hfield
  exact ⟨entry.2, hname ▸ hfound entry hentry, hvalue⟩

/-! ## Arranging entries -/

/-- For each component the first entry under its name, in the order of the components. -/
def arrange (fields : List Field) (entries : List (String × Value)) : List (String × Value) :=
  fields.filterMap fun field => (entries.lookup field.1).map fun value => (field.1, value)

lemma mem_arrange_iff {fields : List Field} {entries : List (String × Value)}
    {entry : String × Value} :
    entry ∈ arrange fields entries ↔
      entries.lookup entry.1 = some entry.2 ∧ ∃ field ∈ fields, field.1 = entry.1 := by
  obtain ⟨key, value⟩ := entry
  rw [arrange, List.mem_filterMap]
  constructor
  · rintro ⟨field, hfield, hentry⟩
    obtain ⟨found, hfound, hpair⟩ := Option.map_eq_some_iff.mp hentry
    obtain ⟨rfl, rfl⟩ := Prod.mk.inj hpair
    exact ⟨hfound, field, hfield, rfl⟩
  · rintro ⟨hfound, field, hfield, rfl⟩
    exact ⟨field, hfield, Option.map_eq_some_iff.mpr ⟨value, hfound, rfl⟩⟩

/-- If no component is without an entry, the entries found for them are in their order. -/
lemma inOrder_arrange {fields : List Field} {entries : List (String × Value)}
    (h : ∀ field ∈ fields, HasComponent entries field) :
    InOrder (arrange fields entries) fields := by
  induction fields with
  | nil => exact .nil
  | cons field fields ih =>
      obtain ⟨hfirst, hrest⟩ := List.forall_mem_cons.mp h
      obtain ⟨value, hfound, hvalue⟩ := hfirst
      have hcons : arrange (field :: fields) entries =
          (field.1, value) :: arrange fields entries := by
        simp [arrange, hfound]
      rw [hcons]
      exact .cons ⟨rfl, hvalue⟩ (ih hrest)

lemma mem_of_lookup {entries : List (String × Value)} {entry : String × Value}
    (h : entries.lookup entry.1 = some entry.2) : entry ∈ entries := by
  obtain ⟨before, after, rfl, -⟩ := List.lookup_eq_some_iff.mp h
  exact List.mem_append_cons_self

/-- Arranging loses no entry if every key is a name, and it repeats none. -/
lemma arrange_perm {fields : List Field} {entries : List (String × Value)}
    (hkeys : (entries.map Prod.fst).Nodup)
    (harranged : ((arrange fields entries).map Prod.fst).Nodup)
    (hnamed : ∀ entry ∈ entries, ∃ field ∈ fields, field.1 = entry.1) :
    (arrange fields entries).Perm entries := by
  refine (List.perm_ext_iff_of_nodup harranged.of_map hkeys.of_map).mpr fun entry => ?_
  rw [mem_arrange_iff]
  constructor
  · rintro ⟨hfound, -⟩
    exact mem_of_lookup hfound
  · intro hentry
    exact ⟨lookup_of_mem_of_nodup hkeys hentry, hnamed entry hentry⟩

namespace AbiType

/-! ## Records as tuples -/

/-- A record passes the check if some arrangement of its entries is in the order of the
components. -/
lemma check_record_of_inOrder {fields : List Field} {entries arranged : List (String × Value)}
    (hnamed : ∀ field ∈ fields, field.1 ≠ "") (hkeys : (entries.map Prod.fst).Nodup)
    (hperm : arranged.Perm entries) (horder : InOrder arranged fields) :
    (tuple fields).check (.record entries) = .ok () := by
  refine check_record_eq_ok_iff.mpr ⟨hnamed, ?_, fun entry hentry => ?_⟩
  · exact horder.hasComponent fun entry hentry =>
      lookup_of_mem_of_nodup hkeys (hperm.mem_iff.mp hentry)
  · have hname : entry.1 ∈ fields.map Prod.fst :=
      (inOrder_iff.mp horder).1 ▸ List.mem_map_of_mem (hperm.mem_iff.mpr hentry)
    exact List.mem_map.mp hname

/-- The entries of a record that passes the check can be arranged in the order of the
components. -/
lemma exists_inOrder_of_check_record {fields : List Field} {entries : List (String × Value)}
    (hnames : (fields.map Prod.fst).Nodup) (hkeys : (entries.map Prod.fst).Nodup)
    (h : (tuple fields).check (.record entries) = .ok ()) :
    ∃ arranged, arranged.Perm entries ∧ InOrder arranged fields := by
  obtain ⟨-, hcomponents, hnamed⟩ := check_record_eq_ok_iff.mp h
  have horder : InOrder (arrange fields entries) fields := inOrder_arrange hcomponents
  have harranged : ((arrange fields entries).map Prod.fst).Nodup :=
    (inOrder_iff.mp horder).1 ▸ hnames
  exact ⟨arrange fields entries, arrange_perm hkeys harranged hnamed, horder⟩

/-- **Named and positional tuples agree.**  If the components have names, no name is there twice and
no key is there twice, then a record passes the check exactly if its entries can be rearranged so
that their keys are the names in order and their values pass as a tuple.  So the order in which the
entries are given makes no difference. -/
theorem check_record_iff_check_tuple (fields : List Field) (entries : List (String × Value))
    (hnamed : ∀ field ∈ fields, field.1 ≠ "") (hnames : (fields.map Prod.fst).Nodup)
    (hkeys : (entries.map Prod.fst).Nodup) :
    ((tuple fields).check (.record entries) = .ok () ↔
        ∃ arranged : List (String × Value), arranged.Perm entries ∧
          arranged.map Prod.fst = fields.map Prod.fst ∧
          (tuple fields).check (.tuple (arranged.map Prod.snd)) = .ok ()) ∧
      ∀ reordered : List (String × Value), reordered.Perm entries →
        ((tuple fields).check (.record reordered) = .ok () ↔
          (tuple fields).check (.record entries) = .ok ()) := by
  have hrecord : ∀ given : List (String × Value), given.Perm entries →
      ((tuple fields).check (.record given) = .ok () ↔
        ∃ arranged, arranged.Perm entries ∧ InOrder arranged fields) := by
    intro given hgiven
    have hgivenKeys : (given.map Prod.fst).Nodup := (hgiven.map Prod.fst).nodup_iff.mpr hkeys
    constructor
    · intro h
      obtain ⟨arranged, hperm, horder⟩ := exists_inOrder_of_check_record hnames hgivenKeys h
      exact ⟨arranged, hperm.trans hgiven, horder⟩
    · rintro ⟨arranged, hperm, horder⟩
      exact check_record_of_inOrder hnamed hgivenKeys (hperm.trans hgiven.symm) horder
  refine ⟨?_, fun reordered hreordered => ?_⟩
  · simp only [← inOrder_iff]
    exact hrecord entries (.refl entries)
  · rw [hrecord reordered hreordered, hrecord entries (.refl entries)]

/-- The components of a purchase. -/
def purchase : List Field :=
  [("goods", .string), ("price", .tuple [("units", .uint 16), ("scale", .int 8)]),
    ("express", .bool)]

/-- A purchase by name, the last component first; the price in it is a record, too. -/
def purchaseEntries : List (String × Value) :=
  [("express", .bool true), ("price", .record [("scale", .int (-2)), ("units", .uint 250)]),
    ("goods", .string "tea")]

/-- The purchase passes, since it does in the order of the components, and in that order it passes
by name, too. -/
theorem check_record_iff_check_tuple_purchase :
    (∀ field ∈ purchase, field.1 ≠ "") ∧ (purchase.map Prod.fst).Nodup ∧
      (purchaseEntries.map Prod.fst).Nodup ∧
      (tuple purchase).check (.record purchaseEntries) = .ok () ∧
      (tuple purchase).check (.record purchaseEntries.reverse) = .ok () := by
  have hnamed : ∀ field ∈ purchase, field.1 ≠ "" := by simp [purchase]
  have hnames : (purchase.map Prod.fst).Nodup := by simp [purchase]
  have hkeys : (purchaseEntries.map Prod.fst).Nodup := by simp [purchaseEntries]
  have hperm : purchaseEntries.reverse.Perm purchaseEntries := List.reverse_perm _
  obtain ⟨hiff, hreordered⟩ :=
    check_record_iff_check_tuple purchase purchaseEntries hnamed hnames hkeys
  have hcheck : (tuple purchase).check (.record purchaseEntries) = .ok () :=
    hiff.mpr ⟨purchaseEntries.reverse, hperm, by simp [purchase, purchaseEntries],
      by decide +kernel⟩
  exact ⟨hnamed, hnames, hkeys, hcheck, (hreordered _ hperm).mpr hcheck⟩

end AbiType

end ContractInterface
