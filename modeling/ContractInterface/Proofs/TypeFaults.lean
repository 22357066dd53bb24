import ContractInterface.Proofs.ArgumentBinding
import ContractInterface.Proofs.Declaration
import ContractInterface.Proofs.LookupByName
import ContractInterface.Proofs.QualifiedLookup
import ContractInterface.Proofs.WellFormedInterface
import ContractInterface.Session

/-!
# Valid interfaces and faults of types

The types of an interface are resolved again and again: to tell overloads apart, to list candidates,
to compare canonical texts, to bind arguments, to deliver events.  Once the interface has been
validated none of this can fail any more, whatever is asked of it
(`Interface.no_type_fault_of_validate`).

`NoTypeFault` is what is proved of every outcome.  It passes through sequences of steps
(`NoTypeFault.bind`), so all that is left to show is that the steps which do resolve types are given
entries of the interface, and these resolve because they did so for validation.
-/

namespace ContractInterface

/-- Whether a fault is that of a type, if only as the reason why a call of a batch cannot be
prepared. -/
def Fault.IsOfType : Fault → Prop
  | .unresolvableType _ => True
  | .batch _ source => source.IsOfType
  | _ => False

/-- Whether an outcome is no fault of a type. -/
def NoTypeFault (outcome : Except Fault α) : Prop :=
  ∀ fault, outcome = .error fault → ¬fault.IsOfType

/-! ## Sequences of steps -/

lemma noTypeFault_ok (a : α) : NoTypeFault (.ok a) := nofun

lemma noTypeFault_error {fault : Fault} (h : ¬fault.IsOfType) :
    NoTypeFault (.error fault : Except Fault α) := by
  rintro _ ⟨⟩
  exact h

lemma NoTypeFault.bind {step : Except Fault α} {next : α → Except Fault β} (h : NoTypeFault step)
    (hnext : ∀ a, step = .ok a → NoTypeFault (next a)) : NoTypeFault (step.bind next) := by
  cases step with
  | error fault => exact noTypeFault_error (h fault rfl)
  | ok a => exact hnext a rfl

lemma noTypeFault_asFault {x : Except TypeFault α} (h : ∃ a, x = .ok a) :
    NoTypeFault (asFault x) := by
  obtain ⟨a, rfl⟩ := h
  exact noTypeFault_ok a

lemma noTypeFault_requireAccess (name : String) (mutability : Mutability) (access : Access) :
    NoTypeFault (requireAccess name mutability access) := by
  unfold requireAccess
  split_ifs
  · exact noTypeFault_ok ()
  · exact noTypeFault_error id

lemma noTypeFault_bindArguments (name : String) (inputs : List Field) (args : List Value) :
    NoTypeFault (bindArguments name inputs args) := by
  intro fault h
  rcases bindArguments_eq_error_iff.mp h with ⟨-, rfl⟩ | ⟨-, index, mismatch, -, rfl⟩
  · exact id
  · exact id

/-! ## Lookup -/

namespace Interface

/-- How a lookup by name ends among members that resolve is no fault of a type. -/
lemma Answers.noTypeFault {members : List Entry} {kind : MemberKind} {name : String}
    {settings : Settings} {args : Option (List Value)} {outcome : Except Fault Entry}
    (h : Answers members kind name settings args outcome)
    (hresolves : ∀ entry ∈ members, entry.Resolves) : NoTypeFault outcome := by
  cases h with
  | missing => exact noTypeFault_error id
  | only | picked => exact noTypeFault_ok _
  | untyped _ hinputs => exact absurd hinputs (not_firstFault_of_resolves hresolves)
  | ambiguous | noneAccepts =>
      rw [refuse_of_resolves hresolves]
      exact noTypeFault_error id
  | tied _ _ haccept =>
      rw [refuse_of_filter hresolves haccept]
      exact noTypeFault_error id

/-- Lookup among entries that resolve is not stopped by a type. -/
lemma noTypeFault_lookup {interface : Interface}
    (h : ∀ entry ∈ interface.entries, entry.Resolves) (kind : MemberKind) (reference : String)
    (args : Option (List Value)) (settings : Settings) :
    NoTypeFault (interface.lookup kind reference args settings).outcome := by
  by_cases hqualified : Reference.isQualified reference = true
  · rcases lookup_qualified_cases h kind hqualified args settings with ⟨entry, hfound⟩ | hnone
    · rw [hfound]
      exact noTypeFault_ok entry
    · rw [hnone]
      exact noTypeFault_error id
  · have hname : Reference.isQualified reference = false := by simpa using hqualified
    have hmembers : ∀ entry ∈ interface.members kind reference, entry.Resolves :=
      fun entry hmem => h entry (List.mem_of_mem_filter hmem)
    exact (interface.answers_lookup kind hname args settings).noTypeFault hmembers

end Interface

/-! ## Calls, subscriptions and declared functions -/

namespace Call

lemma noTypeFault_requireFunction (reference : String) (entry : Entry) :
    NoTypeFault (requireFunction reference entry) := by
  cases entry with
  | function f => exact noTypeFault_ok f
  | _ => exact noTypeFault_error id

lemma noTypeFault_ofFunction {f : Function} (h : (Entry.function f).Resolves) (access : Access)
    (args : List Value) : NoTypeFault (ofFunction f access args) := by
  refine (noTypeFault_requireAccess f.name f.mutability access).bind fun _ _ => ?_
  have hsignature : ∃ signature, f.signature = .ok signature :=
    exists_ok_of_map (Entry.exists_signature_iff.mpr h)
  refine (noTypeFault_asFault hsignature).bind fun signature _ => ?_
  refine (noTypeFault_bindArguments signature.name signature.inputs args).bind fun _ _ => ?_
  exact noTypeFault_ok _

lemma noTypeFault_prepare {interface : Interface}
    (h : ∀ entry ∈ interface.entries, entry.Resolves) (reference : String) (access : Access)
    (args : Option (List Value)) (settings : Settings) :
    NoTypeFault (prepare (.literal interface) reference access args settings).outcome := by
  rw [outcome_prepare_literal]
  refine (Interface.noTypeFault_lookup h .function reference args settings).bind ?_
  intro entry hlookup
  refine (noTypeFault_requireFunction reference entry).bind fun f hf => ?_
  have hmem : entry ∈ interface.entries := (Interface.isDenotedBy_of_lookup hlookup).1
  rw [eq_of_requireFunction hf] at hmem
  exact noTypeFault_ofFunction (h _ hmem) access (args.getD [])

end Call

namespace Subscription

lemma noTypeFault_resolve {interface : Interface}
    (h : ∀ entry ∈ interface.entries, entry.Resolves) (reference : String) (settings : Settings) :
    NoTypeFault (resolve (.literal interface) reference settings).outcome := by
  rw [resolve, Traced.outcome_bind]
  refine (Interface.noTypeFault_lookup h .event reference none settings).bind ?_
  intro entry hlookup
  have hmem : entry ∈ interface.entries := (Interface.isDenotedBy_of_lookup hlookup).1
  cases entry with
  | event e =>
      have hsignature : ∃ signature, e.signature = .ok signature :=
        exists_ok_of_map (Entry.exists_signature_iff.mpr (h _ hmem))
      exact noTypeFault_asFault hsignature
  | _ => exact noTypeFault_error id

lemma noTypeFault_prepare {interface : Interface}
    (h : ∀ entry ∈ interface.entries, entry.Resolves) (reference : String) (arity : Nat)
    (settings : Settings) :
    NoTypeFault (prepare (.literal interface) reference arity settings).outcome := by
  rw [prepare, Traced.outcome_onFault, Traced.outcome_bind]
  refine (noTypeFault_resolve h reference settings).bind fun signature _ => ?_
  rw [Traced.outcome_bind, Traced.outcome_ofExcept, requireArity]
  split_ifs
  · exact noTypeFault_ok signature
  · exact noTypeFault_error id

end Subscription

namespace Declaration

lemma noTypeFault_verify {interface : Interface}
    (h : ∀ entry ∈ interface.entries, entry.Resolves) (declaration : Declaration) :
    NoTypeFault (declaration.verify interface).outcome := by
  rw [verify, Traced.outcome_bind]
  refine (Interface.noTypeFault_lookup h .function declaration.signature none {}).bind ?_
  intro entry hlookup
  refine (Call.noTypeFault_requireFunction declaration.signature entry).bind fun f hf => ?_
  have hmem : entry ∈ interface.entries := (Interface.isDenotedBy_of_lookup hlookup).1
  rw [Call.eq_of_requireFunction hf] at hmem
  refine (noTypeFault_requireAccess f.name f.mutability declaration.access).bind fun _ _ => ?_
  have hsignature : ∃ signature, f.signature = .ok signature :=
    exists_ok_of_map (Entry.exists_signature_iff.mpr (h _ hmem))
  refine (noTypeFault_asFault hsignature).bind fun signature _ => ?_
  split_ifs
  · exact noTypeFault_ok signature
  · exact noTypeFault_error id

lemma noTypeFault_prepare {interface : Interface}
    (h : ∀ entry ∈ interface.entries, entry.Resolves) (declaration : Declaration)
    (args : StaticType.Carriers declaration.arguments) :
    NoTypeFault (declaration.prepare (.literal interface) args).outcome := by
  rw [outcome_prepare_literal]
  refine (noTypeFault_verify h declaration).bind fun _ _ => ?_
  refine (Call.noTypeFault_prepare h _ _ _ _).bind fun call _ => ?_
  rw [narrow]
  split
  · exact noTypeFault_ok _
  · exact noTypeFault_error id

end Declaration

/-! ## Batches -/

namespace Session

/-- A batch fails because of the first of its reads that does, and says which. -/
lemma first_fault_of_prepareReadsFrom {settings : Settings} {index : Nat}
    {reads : List ReadRequest} {fault : Fault}
    (h : (prepareReadsFrom settings index reads).outcome = .error fault) :
    ∃ offset read source, reads[offset]? = some read ∧ fault = .batch (index + offset) source ∧
      (Call.prepare read.description read.reference .read read.args settings).outcome =
        .error source ∧
      ∀ earlier ∈ reads.take offset, ∃ call,
        (Call.prepare earlier.description earlier.reference .read earlier.args settings).outcome =
          .ok call := by
  induction reads generalizing index with
  | nil => cases h
  | cons read reads ih =>
      rw [prepareReadsFrom] at h
      rcases Traced.outcome_bind_eq_error_iff.mp h with hread | ⟨call, hcall, hrest⟩
      · obtain ⟨source, hsource, rfl⟩ := Traced.outcome_mapFault_eq_error_iff.mp hread
        exact ⟨0, read, source, rfl, rfl, hsource, nofun⟩
      · rcases Traced.outcome_bind_eq_error_iff.mp hrest with hreads | ⟨calls, -, hpure⟩
        · obtain ⟨offset, later, source, hlater, rfl, hsource, hearlier⟩ := ih hreads
          refine ⟨offset + 1, later, source, hlater, ?_, hsource, ?_⟩
          · rw [Nat.add_right_comm, Nat.add_assoc]
          · rw [List.take_succ_cons, List.forall_mem_cons]
            exact ⟨⟨call, Traced.outcome_mapFault_eq_ok_iff.mp hcall⟩, hearlier⟩
        · cases hpure

lemma fault_of_prepareReadsFrom {settings : Settings} {index : Nat} {reads : List ReadRequest}
    {fault : Fault} (h : (prepareReadsFrom settings index reads).outcome = .error fault) :
    ∃ offset read source, reads[offset]? = some read ∧ fault = .batch (index + offset) source ∧
      (Call.prepare read.description read.reference .read read.args settings).outcome =
        .error source := by
  obtain ⟨offset, read, source, hread, hfault, hsource, -⟩ := first_fault_of_prepareReadsFrom h
  exact ⟨offset, read, source, hread, hfault, hsource⟩

end Session

/-! ## Everything that can be asked -/

namespace Interface

/-- **A valid interface has no faults of types.**  Neither looking up a member, nor preparing a call
or a subscription, nor verifying a declared function or preparing a call of it ends with a type that
cannot be resolved, whatever is asked.  A batch of reads ends with a fault of one of its reads, and
if that is a read by the interface, it is no such fault either. -/
theorem no_type_fault_of_validate (interface : Interface) (hvalid : interface.validate = .ok ()) :
    (∀ kind reference args settings,
        NoTypeFault (interface.lookup kind reference args settings).outcome) ∧
      (∀ reference access args settings,
        NoTypeFault (Call.prepare (.literal interface) reference access args settings).outcome) ∧
      (∀ reference arity settings,
        NoTypeFault (Subscription.prepare (.literal interface) reference arity settings).outcome) ∧
      (∀ declaration : Declaration, NoTypeFault (declaration.verify interface).outcome) ∧
      (∀ (declaration : Declaration) (args : StaticType.Carriers declaration.arguments),
        NoTypeFault (declaration.prepare (.literal interface) args).outcome) ∧
      ∀ settings reads fault, (Session.prepareReads settings reads).outcome = .error fault →
        ∃ index read source, reads[index]? = some read ∧ fault = .batch index source ∧
          (read.description = .literal interface → ¬source.IsOfType) := by
  have hresolves := (validate_eq_ok_iff_wellFormed.mp hvalid).resolves
  refine ⟨noTypeFault_lookup hresolves, Call.noTypeFault_prepare hresolves,
    Subscription.noTypeFault_prepare hresolves, Declaration.noTypeFault_verify hresolves,
    Declaration.noTypeFault_prepare hresolves, fun settings reads fault hfault => ?_⟩
  obtain ⟨index, read, source, hread, rfl, hsource⟩ := Session.fault_of_prepareReadsFrom hfault
  refine ⟨index, read, source, hread, by rw [Nat.zero_add], fun hdescription => ?_⟩
  rw [hdescription] at hsource
  exact Call.noTypeFault_prepare hresolves _ _ _ _ source hsource

/-- An interface with two functions of one name and an event that takes an array of tuples. -/
def registry : Interface :=
  ⟨[.function ⟨"owner", [⟨"node", "bytes32", none, none⟩], [⟨"", "address", none, none⟩], .view⟩,
    .function ⟨"owner", [⟨"names", "string[]", none, none⟩], [⟨"", "address", none, none⟩], .view⟩,
    .event ⟨"moved", [⟨⟨"moves", "tuple[2]",
      some [⟨"node", "bytes32", none, none⟩, ⟨"to", "address", none, none⟩], none⟩, false⟩],
      false⟩]⟩

/-- Two reads by that interface, of which the second does not say which function it is for. -/
def registryReads : List ReadRequest :=
  [⟨.literal registry, "owner", some [.array [.string "alice"]]⟩,
    ⟨.literal registry, "owner", none⟩]

/-- The batch fails, and a handler of the wrong arity is refused, but not for a type. -/
theorem no_type_fault_of_validate_registry :
    registry.validate = .ok () ∧
      (∃ fault, (Subscription.prepare (.literal registry) "moved((bytes32,address)[2])" 2
        {}).outcome = .error fault ∧ ¬fault.IsOfType) ∧
      ∃ index source, (Session.prepareReads {} registryReads).outcome =
        .error (.batch index source) ∧ ¬source.IsOfType := by
  have hvalid : registry.validate = .ok () := by decide +kernel
  obtain ⟨-, -, hsubscription, -, -, hreads⟩ := no_type_fault_of_validate registry hvalid
  have hrefused : (Subscription.prepare (.literal registry) "moved((bytes32,address)[2])" 2
      {}).outcome.isOk = false := by
    decide +kernel
  have hfails : (Session.prepareReads {} registryReads).outcome.isOk = false := by decide +kernel
  obtain ⟨fault, hfault⟩ := exists_error_of_isOk_eq_false hrefused
  obtain ⟨batch, hbatch⟩ := exists_error_of_isOk_eq_false hfails
  obtain ⟨index, read, source, hread, rfl, hsource⟩ := hreads {} registryReads batch hbatch
  have hdescription : read.description = .literal registry := by
    have hmem : read ∈ registryReads := List.mem_of_getElem? hread
    simp only [registryReads, List.mem_cons, List.not_mem_nil, or_false] at hmem
    rcases hmem with rfl | rfl <;> rfl
  exact ⟨hvalid, ⟨fault, hfault, hsubscription _ _ _ fault hfault⟩, index, source, hbatch,
    hsource hdescription⟩

end Interface

end ContractInterface
