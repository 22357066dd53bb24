import ContractInterface.Lookup
import ContractInterface.Proofs.Outcome
import Mathlib.Data.List.Forall2

/-!
# What a lookup finds

Whatever way a reference is looked up, the entry that is found is one of the interface, of the kind
asked for, and the reference is its name or, blanks apart, its canonical text
(`Interface.isDenotedBy_of_lookup`).

The ways differ in what they resolve and in what they fail with, not in this: a canonical text is
compared with those of the entries of its base name, a name alone is enough if one entry has it, and
arguments pick among several.  Without arguments there are few ways to fail
(`Interface.fault_of_lookup_none`).
-/

namespace ContractInterface

namespace Entry

/-- What it is for a reference to denote an entry: it is the name of the entry or, without its
blanks, the entry's canonical text. -/
def IsDenotedBy (entry : Entry) (reference : String) : Prop :=
  entry.name? = some reference ∨
    ∃ signature, entry.signature = .ok signature ∧
      signature.canonical? = some (Text.withoutBlanks reference)

lemma isMember_iff {kind : MemberKind} {name : String} {entry : Entry} :
    entry.isMember kind name = true ↔ entry.memberKind? = some kind ∧ entry.name? = some name := by
  simp [isMember]

end Entry

/-! ## Canonical texts -/

/-- Whether an entry is a member of the given kind with the given canonical text. -/
def Entry.HasCanonical (entry : Entry) (kind : MemberKind) (text : String) : Prop :=
  entry.memberKind? = some kind ∧
    ∃ signature, entry.signature = .ok signature ∧ signature.canonical? = some text

/-- An entry is found at the head of the list, or after a head that is passed over because it is
another member or has another canonical text. -/
lemma findCanonical?_cons_eq_ok_some_iff {kind : MemberKind} {base canonical : String}
    {first entry : Entry} {rest : List Entry} :
    findCanonical? kind base canonical (first :: rest) = .ok (some entry) ↔
      (first = entry ∧ entry.name? = some base ∧ entry.HasCanonical kind canonical) ∨
        ((first.isMember kind base = true →
            ∃ signature, first.signature = .ok signature ∧
              signature.canonical? ≠ some canonical) ∧
          findCanonical? kind base canonical rest = .ok (some entry)) := by
  rw [findCanonical?]
  by_cases hmember : first.isMember kind base = true
  · obtain ⟨hkind, hname⟩ := Entry.isMember_iff.mp hmember
    rw [if_pos hmember, bind_eq_ok_iff]
    constructor
    · rintro ⟨signature, hsignature, hfound⟩
      by_cases hcanonical : signature.canonical? = some canonical
      · rw [if_pos hcanonical] at hfound
        cases hfound
        exact .inl ⟨rfl, hname, hkind, signature, hsignature, hcanonical⟩
      · rw [if_neg hcanonical] at hfound
        exact .inr ⟨fun _ => ⟨signature, hsignature, hcanonical⟩, hfound⟩
    · rintro (⟨rfl, -, -, signature, hsignature, hcanonical⟩ | ⟨hpassed, hfound⟩)
      · refine ⟨signature, hsignature, ?_⟩
        rw [if_pos hcanonical]
        rfl
      · obtain ⟨signature, hsignature, hcanonical⟩ := hpassed hmember
        refine ⟨signature, hsignature, ?_⟩
        rw [if_neg hcanonical]
        exact hfound
  · rw [if_neg hmember]
    constructor
    · intro hfound
      exact .inr ⟨fun h => absurd h hmember, hfound⟩
    · rintro (⟨rfl, hname, hkind, -⟩ | ⟨-, hfound⟩)
      · exact absurd (Entry.isMember_iff.mpr ⟨hkind, hname⟩) hmember
      · exact hfound

/-- The entry that is found has the base name and the canonical text, and the entries of that base
name before it have other canonical texts. -/
lemma findCanonical?_eq_ok_some_iff {kind : MemberKind} {base canonical : String}
    {entries : List Entry} {entry : Entry} :
    findCanonical? kind base canonical entries = .ok (some entry) ↔
      ∃ before after, entries = before ++ entry :: after ∧ entry.name? = some base ∧
        entry.HasCanonical kind canonical ∧
        ∀ earlier ∈ before, earlier.isMember kind base = true →
          ∃ signature, earlier.signature = .ok signature ∧
            signature.canonical? ≠ some canonical := by
  induction entries with
  | nil => simp [findCanonical?]
  | cons first rest ih =>
      rw [findCanonical?_cons_eq_ok_some_iff, ih]
      constructor
      · rintro (⟨rfl, hname, hcanonical⟩ |
          ⟨hpassed, before, after, rfl, hname, hcanonical, hbefore⟩)
        · exact ⟨[], rest, rfl, hname, hcanonical, by simp⟩
        · exact ⟨first :: before, after, rfl, hname, hcanonical,
            List.forall_mem_cons.mpr ⟨hpassed, hbefore⟩⟩
      · rintro ⟨before, after, hentries, hname, hcanonical, hbefore⟩
        cases before with
        | nil =>
            cases hentries
            exact .inl ⟨rfl, hname, hcanonical⟩
        | cons _ before =>
            cases hentries
            obtain ⟨hpassed, hothers⟩ := List.forall_mem_cons.mp hbefore
            exact .inr ⟨hpassed, before, after, rfl, hname, hcanonical, hothers⟩

/-- Entries that have signatures are searched to the end, or to the one that is found. -/
lemma exists_findCanonical?_of_signatures {kind : MemberKind} {base canonical : String}
    {entries : List Entry} (h : ∀ entry ∈ entries, ∃ signature, entry.signature = .ok signature) :
    ∃ found, findCanonical? kind base canonical entries = .ok found := by
  induction entries with
  | nil => exact ⟨none, rfl⟩
  | cons entry entries ih =>
      obtain ⟨⟨signature, hsignature⟩, hothers⟩ := List.forall_mem_cons.mp h
      obtain ⟨found, hfound⟩ := ih hothers
      by_cases hmember : entry.isMember kind base = true
      · by_cases hcanonical : signature.canonical? = some canonical
        · exact ⟨some entry, by simp [findCanonical?, hmember, hsignature, hcanonical, bind,
            Except.bind, pure, Except.pure]⟩
        · exact ⟨found, by simp [findCanonical?, hmember, hsignature, hcanonical, hfound, bind,
            Except.bind]⟩
      · exact ⟨found, by simp [findCanonical?, hmember, hfound]⟩

/-- The canonical text of an entry; empty if it has none. -/
def Entry.canonicalText (entry : Entry) : String :=
  (entry.signature.toOption.bind Signature.canonical?).getD ""

/-- Canonical texts are listed if all entries have signatures. -/
lemma canonicalTexts_eq_ok_iff {entries : List Entry} {texts : List String} :
    canonicalTexts entries = .ok texts ↔
      (∀ entry ∈ entries, ∃ signature, entry.signature = .ok signature) ∧
        texts = entries.map Entry.canonicalText := by
  induction entries generalizing texts with
  | nil => simp [canonicalTexts, eq_comm]
  | cons entry entries ih =>
      rw [canonicalTexts, bind_eq_ok_iff, List.forall_mem_cons, List.map_cons]
      have htext : ∀ {signature}, entry.signature = .ok signature →
          signature.canonical?.getD "" = entry.canonicalText := by
        intro signature hsignature
        rw [Entry.canonicalText, hsignature]
        rfl
      constructor
      · rintro ⟨signature, hsignature, hrest⟩
        obtain ⟨rest, htexts, hresult⟩ := bind_eq_ok_iff.mp hrest
        obtain ⟨hothers, rfl⟩ := ih.mp htexts
        cases hresult
        exact ⟨⟨⟨signature, hsignature⟩, hothers⟩, by rw [htext hsignature]⟩
      · rintro ⟨⟨⟨signature, hsignature⟩, hothers⟩, rfl⟩
        refine ⟨signature, hsignature, bind_eq_ok_iff.mpr ⟨_, ih.mpr ⟨hothers, rfl⟩, ?_⟩⟩
        rw [htext hsignature]
        rfl

namespace Interface

/-- Lookup by canonical text finds the first entry with that text among those of its base name. -/
lemma lookupQualified_eq_ok_iff {interface : Interface} {kind : MemberKind} {reference : String}
    {entry : Entry} :
    (interface.lookupQualified kind reference).outcome = .ok entry ↔
      findCanonical? kind (Reference.baseName (Text.withoutBlanks reference))
        (Text.withoutBlanks reference) interface.entries = .ok (some entry) := by
  rw [lookupQualified, Traced.outcome_bind_eq_ok_iff]
  constructor
  · rintro ⟨found, hfound, hentry⟩
    cases found with
    | none => cases hentry
    | some member =>
        cases hentry
        exact asFault_eq_ok_iff.mp hfound
  · intro h
    exact ⟨some entry, asFault_eq_ok_iff.mpr h, rfl⟩

/-- Lookup by canonical text finds an entry with that text. -/
lemma canonical_of_lookupQualified {interface : Interface} {kind : MemberKind} {reference : String}
    {entry : Entry} (h : (interface.lookupQualified kind reference).outcome = .ok entry) :
    entry ∈ interface.entries ∧ entry.memberKind? = some kind ∧
      ∃ signature, entry.signature = .ok signature ∧
        signature.canonical? = some (Text.withoutBlanks reference) := by
  obtain ⟨before, after, hentries, -, hcanonical, -⟩ :=
    findCanonical?_eq_ok_some_iff.mp (lookupQualified_eq_ok_iff.mp h)
  exact ⟨by simp [hentries], hcanonical⟩

end Interface

/-! ## Names and arguments -/

/-- Whether the inputs of an entry have types and the arguments fit them. -/
def Entry.Accepts (entry : Entry) (args : List Value) : Prop :=
  ∃ inputs, resolveFields entry.inputs = .ok inputs ∧
    List.Forall₂ (fun arg input => input.2.check arg = .ok ()) args inputs

lemma AbiType.fits_iff {s : AbiType} {v : Value} : s.fits v = true ↔ s.check v = .ok () := by
  rw [AbiType.fits]
  cases s.check v <;> simp [Except.isOk, Except.toBool]

/-- Arguments are accepted exactly if they are as many as the fields and each passes the check of
its own. -/
lemma accepts_iff_forall₂ {fields : List Field} {args : List Value} :
    accepts fields args = true ↔
      List.Forall₂ (fun arg field => field.2.check arg = .ok ()) args fields := by
  induction args generalizing fields with
  | nil => cases fields <;> simp [accepts]
  | cons arg args ih => cases fields <;> simp [accepts, AbiType.fits_iff, ih]

lemma Entry.accepts_iff_of_inputs {entry : Entry} {inputs : List Field} {args : List Value}
    (h : resolveFields entry.inputs = .ok inputs) :
    entry.Accepts args ↔ accepts inputs args = true := by
  rw [accepts_iff_forall₂, Entry.Accepts, h]
  simp

instance (entry : Entry) (args : List Value) : Decidable (entry.Accepts args) :=
  decidable_of_iff ((resolveFields entry.inputs).toOption.any (accepts · args) = true) (by
    cases hinputs : resolveFields entry.inputs with
    | error fault => simp [Except.toOption, Entry.Accepts, hinputs]
    | ok inputs => simp [Except.toOption, Entry.accepts_iff_of_inputs hinputs])

/-- If the inputs of all entries have types, the compatible ones are those that accept the
arguments, in order. -/
lemma compatibleEntries_eq_ok_iff {args : List Value} {entries compatible : List Entry} :
    compatibleEntries args entries = .ok compatible ↔
      (∀ entry ∈ entries, ∃ inputs, resolveFields entry.inputs = .ok inputs) ∧
        compatible = entries.filter fun entry => entry.Accepts args := by
  induction entries generalizing compatible with
  | nil => simp [compatibleEntries, eq_comm]
  | cons entry entries ih =>
      -- What the head adds to the compatible entries, once its inputs are known.
      have hhead : ∀ {inputs}, resolveFields entry.inputs = .ok inputs → ∀ rest : List Entry,
          (if accepts inputs args then entry :: rest else rest) =
            if entry.Accepts args then entry :: rest else rest := by
        intro inputs hinputs rest
        simp only [Entry.accepts_iff_of_inputs hinputs]
      rw [compatibleEntries, bind_eq_ok_iff, List.forall_mem_cons, List.filter_cons]
      constructor
      · rintro ⟨inputs, hinputs, hrest⟩
        obtain ⟨rest, hcompatible, hresult⟩ := bind_eq_ok_iff.mp hrest
        obtain ⟨hothers, rfl⟩ := ih.mp hcompatible
        cases hresult
        exact ⟨⟨⟨inputs, hinputs⟩, hothers⟩, by simpa using hhead hinputs _⟩
      · rintro ⟨⟨⟨inputs, hinputs⟩, hothers⟩, rfl⟩
        refine ⟨inputs, hinputs, bind_eq_ok_iff.mpr ⟨_, ih.mpr ⟨hothers, rfl⟩, ?_⟩⟩
        rw [hhead hinputs]
        simp [pure, Except.pure]

/-- The compatible entries are those that accept the arguments. -/
lemma mem_compatibleEntries_iff {args : List Value} {entries compatible : List Entry}
    (h : compatibleEntries args entries = .ok compatible) {entry : Entry} :
    entry ∈ compatible ↔ entry ∈ entries ∧ entry.Accepts args := by
  obtain ⟨-, rfl⟩ := compatibleEntries_eq_ok_iff.mp h
  rw [List.mem_filter, decide_eq_true_iff]

namespace Interface

/-- Arguments pick one of the compatible candidates. -/
lemma exists_compatible_of_disambiguate {name : String} {candidates : List Entry}
    {args : List Value} {settings : Settings} {entry : Entry}
    (h : (disambiguate name candidates args settings).outcome = .ok entry) :
    ∃ compatible, compatibleEntries args candidates = .ok compatible ∧ entry ∈ compatible := by
  rw [disambiguate] at h
  obtain ⟨compatible, hcompatible, hnext⟩ := Traced.outcome_bind_eq_ok_iff.mp h
  obtain ⟨_, -, hpicked⟩ := Traced.outcome_bind_eq_ok_iff.mp hnext
  refine ⟨compatible, asFault_eq_ok_iff.mp hcompatible, ?_⟩
  split at hpicked
  · obtain ⟨_, -, hfail⟩ := Traced.outcome_bind_eq_ok_iff.mp hpicked
    cases hfail
  · cases hpicked
    simp
  · cases hpicked
    simp
  · obtain ⟨_, -, hfail⟩ := Traced.outcome_bind_eq_ok_iff.mp hpicked
    cases hfail

lemma mem_of_disambiguate {name : String} {candidates : List Entry} {args : List Value}
    {settings : Settings} {entry : Entry}
    (h : (disambiguate name candidates args settings).outcome = .ok entry) :
    entry ∈ candidates := by
  obtain ⟨compatible, hcompatible, hmem⟩ := exists_compatible_of_disambiguate h
  exact ((mem_compatibleEntries_iff hcompatible).mp hmem).1

lemma mem_of_lookupPlain {interface : Interface} {kind : MemberKind} {name : String}
    {args : Option (List Value)} {settings : Settings} {entry : Entry}
    (h : (interface.lookupPlain kind name args settings).outcome = .ok entry) :
    entry ∈ interface.members kind name := by
  unfold lookupPlain at h
  obtain ⟨_, -, hpicked⟩ := Traced.outcome_bind_eq_ok_iff.mp h
  clear h
  split at hpicked
  · cases hpicked
  · next hmembers =>
      cases hpicked
      simp [hmembers]
  · obtain ⟨_, -, hfail⟩ := Traced.outcome_bind_eq_ok_iff.mp hpicked
    cases hfail
  · exact mem_of_disambiguate hpicked

/-- **Lookup finds what the reference denotes.** -/
lemma isDenotedBy_of_lookup {interface : Interface} {kind : MemberKind} {reference : String}
    {args : Option (List Value)} {settings : Settings} {entry : Entry}
    (h : (interface.lookup kind reference args settings).outcome = .ok entry) :
    entry ∈ interface.entries ∧ entry.memberKind? = some kind ∧ entry.IsDenotedBy reference := by
  rw [lookup] at h
  by_cases hqualified : Reference.isQualified reference = true
  · rw [if_pos hqualified] at h
    obtain ⟨hmem, hkind, hcanonical⟩ := canonical_of_lookupQualified h
    exact ⟨hmem, hkind, .inr hcanonical⟩
  · rw [if_neg hqualified] at h
    obtain ⟨hmem, hmember⟩ := List.mem_filter.mp (mem_of_lookupPlain h)
    obtain ⟨hkind, hname⟩ := Entry.isMember_iff.mp hmember
    exact ⟨hmem, hkind, .inl hname⟩

/-! ## Faults of a lookup without arguments -/

/-- Without arguments, a lookup fails because a type is missing, no member is found, or several
are. -/
lemma fault_of_lookup_none {interface : Interface} {kind : MemberKind}
    {reference : String} {settings : Settings} {fault : Fault}
    (h : (interface.lookup kind reference none settings).outcome = .error fault) :
    (∃ cause, fault = .unresolvableType cause) ∨ fault = .memberNotFound reference kind ∨
      ∃ texts, fault = .ambiguousMember reference texts := by
  rw [lookup] at h
  by_cases hqualified : Reference.isQualified reference = true
  · rw [if_pos hqualified, lookupQualified] at h
    rcases Traced.outcome_bind_eq_error_iff.mp h with htype | ⟨found, -, hnext⟩
    · obtain ⟨cause, -, hcause⟩ := asFault_eq_error_iff.mp htype
      exact .inl ⟨cause, hcause⟩
    · cases found with
      | none =>
          cases hnext
          exact .inr (.inl rfl)
      | some entry => cases hnext
  · rw [if_neg hqualified] at h
    unfold lookupPlain at h
    rcases Traced.outcome_bind_eq_error_iff.mp h with hemit | ⟨_, -, hpicked⟩
    · cases hemit
    clear h
    split at hpicked
    · cases hpicked
      exact .inr (.inl rfl)
    · cases hpicked
    · rcases Traced.outcome_bind_eq_error_iff.mp hpicked with htype | ⟨texts, -, hnext⟩
      · obtain ⟨cause, -, hcause⟩ := asFault_eq_error_iff.mp htype
        exact .inl ⟨cause, hcause⟩
      · cases hnext
        exact .inr (.inr ⟨texts, rfl⟩)
    · contradiction

end Interface

end ContractInterface
