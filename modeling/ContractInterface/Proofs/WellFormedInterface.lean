import ContractInterface.Proofs.CanonicalText
import ContractInterface.Proofs.EntryTypes
import ContractInterface.Proofs.Validation

/-!
# Well-formed interfaces

An interface is well-formed if every parameter of every entry denotes a type and no two members of a
kind have the same name and inputs of the same types.  This is said without signatures and without
canonical texts (`Interface.WellFormed`), and validation decides it: an interface that is not
well-formed is refused, for what is wrong with the first entry with which it stops being so
(`Interface.validate_decides_wellFormed`).

Validation itself compares texts.  That equal texts mean equal names and types of inputs, even where
names hold parentheses and commas, is `AbiType.canonicalSignature_eq_iff`; here it is turned into
`Entry.clashes_iff`.
-/

namespace ContractInterface

/-! ## Inputs of the same types -/

/-- Whether two parameters denote types that are the same up to the names of components. -/
def Parameter.SameType (p q : Parameter) : Prop :=
  ∃ s t, p.resolve = .ok s ∧ q.resolve = .ok t ∧ s.sameType t = true

lemma forall₂_sameType_iff {ps qs : List Parameter} :
    List.Forall₂ Parameter.SameType ps qs ↔
      ∃ fs gs, resolveFields ps = .ok fs ∧ resolveFields qs = .ok gs ∧
        AbiType.sameFields fs gs = true := by
  simp only [resolveFields_eq_ok_iff, AbiType.sameFields_iff_forall₂]
  constructor
  · intro h
    induction h with
    | nil => exact ⟨[], [], .nil, .nil, .nil⟩
    | @cons p q _ _ hpq _ ih =>
        obtain ⟨s, t, hs, ht, hsame⟩ := hpq
        obtain ⟨fs, gs, hfs, hgs, hfields⟩ := ih
        exact ⟨(p.name, s) :: fs, (q.name, t) :: gs, .cons ⟨rfl, hs⟩ hfs, .cons ⟨rfl, ht⟩ hgs,
          .cons hsame hfields⟩
  · rintro ⟨fs, gs, hfs, hgs, hfields⟩
    induction hfields generalizing ps qs with
    | nil =>
        cases hfs
        cases hgs
        exact .nil
    | cons hsame _ ih =>
        obtain ⟨p, ps, hp, hps, rfl⟩ := List.forall₂_cons_right_iff.mp hfs
        obtain ⟨q, qs, hq, hqs, rfl⟩ := List.forall₂_cons_right_iff.mp hgs
        exact .cons ⟨_, _, hp.2, hq.2, hsame⟩ (ih hps hqs)

/-! ## Entries -/

namespace Entry

/-- Whether two entries are members of one kind with one name and inputs of the same types.  What
they give back does not matter, and entries without names never clash. -/
def Clashes (entry other : Entry) : Prop :=
  ∃ kind name, entry.isMember kind name = true ∧ other.isMember kind name = true ∧
    List.Forall₂ Parameter.SameType entry.inputs other.inputs

/-- What is wrong with an entry after the entries before it. -/
inductive Flaw (before : List Entry) (entry : Entry) : Fault → Prop
  /-- A parameter denotes no type. -/
  | unresolvable {fault : TypeFault} (hfault : FirstFault entry.parameters fault) :
      Flaw before entry (.unresolvableType fault)
  /-- The entry is a member that was there before. -/
  | repeated {earlier : Entry} {name : String} {inputs : List Field} (hresolves : entry.Resolves)
      (hmem : earlier ∈ before) (hclash : earlier.Clashes entry) (hname : entry.name? = some name)
      (hinputs : resolveFields entry.inputs = .ok inputs) :
      Flaw before entry (.duplicateSignature (canonicalSignature name inputs))

lemma HasCanonical.resolves {entry : Entry} {kind : MemberKind} {text : String}
    (h : entry.HasCanonical kind text) : entry.Resolves := by
  obtain ⟨-, signature, hsignature, -⟩ := h
  exact exists_signature_iff.mp ⟨signature, hsignature⟩

/-- Entries whose parameters denote types clash exactly if they are members of one kind with one
canonical text. -/
lemma clashes_iff {entry other : Entry} (hentry : entry.Resolves) (hother : other.Resolves) :
    entry.Clashes other ↔
      ∃ kind text, entry.HasCanonical kind text ∧ other.HasCanonical kind text := by
  constructor
  · rintro ⟨kind, name, hmember, hmember', hinputs⟩
    obtain ⟨hkind, hname⟩ := isMember_iff.mp hmember
    obtain ⟨hkind', hname'⟩ := isMember_iff.mp hmember'
    obtain ⟨fs, gs, hfs, hgs, hsame⟩ := forall₂_sameType_iff.mp hinputs
    have htext : canonicalSignature name fs = canonicalSignature name gs :=
      AbiType.canonicalSignature_eq_iff.mpr ⟨rfl, hsame⟩
    exact ⟨kind, canonicalSignature name fs,
      hasCanonical_iff_exists.mpr ⟨hkind, hentry.outputs, name, fs, hname, hfs, rfl⟩,
      hasCanonical_iff_exists.mpr ⟨hkind', hother.outputs, name, gs, hname', hgs, htext⟩⟩
  · rintro ⟨kind, text, hcanonical, hcanonical'⟩
    obtain ⟨hkind, -, name, fs, hname, hfs, htext⟩ := hasCanonical_iff_exists.mp hcanonical
    obtain ⟨hkind', -, name', gs, hname', hgs, htext'⟩ := hasCanonical_iff_exists.mp hcanonical'
    obtain ⟨rfl, hsame⟩ := AbiType.canonicalSignature_eq_iff.mp (htext.symm.trans htext')
    exact ⟨kind, name, isMember_iff.mpr ⟨hkind, hname⟩, isMember_iff.mpr ⟨hkind', hname'⟩,
      forall₂_sameType_iff.mpr ⟨fs, gs, hfs, hgs, hsame⟩⟩

lemma distinct_iff_not_clashes {entry other : Entry} (hentry : entry.Resolves)
    (hother : other.Resolves) : entry.Distinct other ↔ ¬entry.Clashes other := by
  rw [clashes_iff hentry hother]
  simp [Distinct]

/-- What an entry is refused for is what is wrong with it. -/
lemma refusedAfter_iff_flaw {before : List Entry} {entry : Entry} {fault : Fault}
    (hbefore : ∀ earlier ∈ before, earlier.Resolves) :
    entry.RefusedAfter (fun kind text => ∃ earlier ∈ before, earlier.HasCanonical kind text) fault ↔
      entry.Flaw before fault := by
  constructor
  · intro h
    cases h with
    | unresolvable hsignature => exact .unresolvable (signature_eq_error_iff.mp hsignature)
    | repeated hcanonical hmet =>
        obtain ⟨earlier, hmem, hearlier⟩ := hmet
        have hresolves := hcanonical.resolves
        have hclash := (clashes_iff hearlier.resolves hresolves).mpr ⟨_, _, hearlier, hcanonical⟩
        obtain ⟨-, -, name, inputs, hname, hinputs, rfl⟩ := hasCanonical_iff_exists.mp hcanonical
        exact .repeated hresolves hmem hclash hname hinputs
  · intro h
    cases h with
    | unresolvable hfault => exact .unresolvable (signature_eq_error_iff.mpr hfault)
    | repeated hresolves hmem hclash hname hinputs =>
        obtain ⟨kind, text, hearlier, hcanonical⟩ :=
          (clashes_iff (hbefore _ hmem) hresolves).mp hclash
        obtain ⟨-, -, name, inputs, hname', hinputs', rfl⟩ := hasCanonical_iff_exists.mp hcanonical
        obtain rfl := Option.some.inj (hname'.symm.trans hname)
        obtain rfl := Except.ok.inj (hinputs'.symm.trans hinputs)
        exact .repeated hcanonical ⟨_, hmem, hearlier⟩

end Entry

/-! ## Interfaces -/

namespace Interface

/-- Whether every parameter of an interface denotes a type and no two entries clash. -/
structure WellFormed (interface : Interface) : Prop where
  resolves : ∀ entry ∈ interface.entries, entry.Resolves
  distinct : interface.entries.Pairwise fun entry other => ¬entry.Clashes other

lemma validate_eq_ok_iff_wellFormed {interface : Interface} :
    interface.validate = .ok () ↔ interface.WellFormed := by
  have hdistinct : (∀ entry ∈ interface.entries, entry.Resolves) →
      (interface.entries.Pairwise Entry.Distinct ↔
        interface.entries.Pairwise fun entry other => ¬entry.Clashes other) := by
    intro h
    exact List.Pairwise.iff_of_mem fun {entry other} hentry hother =>
      Entry.distinct_iff_not_clashes (h entry hentry) (h other hother)
  simp only [validate_eq_ok_iff, Entry.exists_signature_iff]
  constructor
  · rintro ⟨hresolves, hpairwise⟩
    exact ⟨hresolves, (hdistinct hresolves).mp hpairwise⟩
  · rintro ⟨hresolves, hpairwise⟩
    exact ⟨hresolves, (hdistinct hresolves).mpr hpairwise⟩

/-- **Validation decides well-formedness.**  An interface is valid exactly if it is well-formed.  If
it is not, the fault is that of the first entry with which it stops being so: the entry's own first
parameter that denotes no type, or else the canonical text of the earlier member that it repeats. -/
theorem validate_decides_wellFormed (interface : Interface) :
    (interface.validate = .ok () ↔ interface.WellFormed) ∧
      ∀ fault, interface.validate = .error fault ↔
        ∃ before entry after, interface.entries = before ++ entry :: after ∧
          (Interface.mk before).WellFormed ∧ entry.Flaw before fault := by
  refine ⟨validate_eq_ok_iff_wellFormed, fun fault => ?_⟩
  rw [validate_eq_error_iff]
  refine exists_congr fun before => exists_congr fun entry => exists_congr fun after => ?_
  refine and_congr_right fun _ => ?_
  rw [validate_eq_ok_iff_wellFormed]
  exact and_congr_right fun hbefore => Entry.refusedAfter_iff_flaw hbefore.resolves

end Interface

end ContractInterface
