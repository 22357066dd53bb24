import ContractInterface.Proofs.LookupByName
import ContractInterface.Proofs.PreparedCall

/-!
# Calls of overloaded functions

Among several functions of one name, the arguments pick the one that accepts them.  Later they are
bound to its inputs, by checks of their own and against types that are resolved once more.  The two
agree, so a call of an overloaded function is never refused for its arguments once the function is
picked (`Call.prepare_overloaded`).
-/

namespace ContractInterface

/-! ## Picking by arguments -/

namespace Interface

/-- Arguments cannot tell overloads apart if a type is missing, no overload accepts them, or, under
the strict policy, several do. -/
lemma fault_of_disambiguate {name : String} {candidates : List Entry} {args : List Value}
    {settings : Settings} {fault : Fault}
    (h : (disambiguate name candidates args settings).outcome = .error fault) :
    (∃ cause, fault = .unresolvableType cause) ∨
      (∃ texts, fault = .noMatchingOverload name texts) ∨
      ∃ texts, fault = .ambiguousMember name texts := by
  -- Both lists of candidates that a fault may carry have to be resolved first.
  have htexts : ∀ {entries : List Entry} {f : List String → Fault},
      (do
        let texts ← Traced.ofExcept (asFault (canonicalTexts entries))
        Traced.fail (f texts) : Traced Entry).outcome = .error fault →
      (∃ cause, fault = .unresolvableType cause) ∨ ∃ texts, fault = f texts := by
    intro entries f hfail
    rcases Traced.outcome_bind_eq_error_iff.mp hfail with htype | ⟨texts, -, hfault⟩
    · obtain ⟨cause, -, hcause⟩ := asFault_eq_error_iff.mp htype
      exact .inl ⟨cause, hcause⟩
    · cases hfault
      exact .inr ⟨texts, rfl⟩
  rw [disambiguate] at h
  rcases Traced.outcome_bind_eq_error_iff.mp h with htype | ⟨compatible, -, hnext⟩
  · obtain ⟨cause, -, hcause⟩ := asFault_eq_error_iff.mp htype
    exact .inl ⟨cause, hcause⟩
  · rcases Traced.outcome_bind_eq_error_iff.mp hnext with hemit | ⟨_, -, hpicked⟩
    · cases hemit
    · split at hpicked
      · exact (htexts hpicked).imp_right .inl
      · cases hpicked
      · cases hpicked
      · exact (htexts hpicked).imp_right .inr

/-- The overload that the arguments pick accepts them. -/
lemma accepts_of_disambiguate {name : String} {candidates : List Entry} {args : List Value}
    {settings : Settings} {entry : Entry}
    (h : (disambiguate name candidates args settings).outcome = .ok entry) :
    entry.Accepts args := by
  obtain ⟨compatible, hcompatible, hmem⟩ := exists_compatible_of_disambiguate h
  exact ((mem_compatibleEntries_iff hcompatible).mp hmem).2

end Interface

lemma Entry.exists_function {entry : Entry} (h : entry.memberKind? = some .function) :
    ∃ f, entry = .function f := by
  cases entry <;> simp_all [Entry.memberKind?]

namespace Call

/-! ## Binding accepted arguments -/

/-- A function that accepts the arguments can be called unless it does not serve the access or its
outputs have no types. -/
lemma fault_of_ofFunction {f : Function} {access : Access} {args : List Value} {fault : Fault}
    (haccepts : (Entry.function f).Accepts args) (h : ofFunction f access args = .error fault) :
    (f.mutability.access ≠ access ∧ fault = .wrongAccess f.name access f.mutability) ∨
      ∃ cause, resolveFields f.outputs = .error cause ∧ fault = .unresolvableType cause := by
  by_cases haccess : f.mutability.access = access
  · obtain ⟨inputs, hinputs, hargs⟩ := haccepts
    cases houtputs : resolveFields f.outputs with
    | error cause =>
        have hsignature : f.signature = .error cause := by
          rw [Function.signature, bind_eq_error_iff]
          exact .inr ⟨inputs, hinputs, bind_eq_error_iff.mpr (.inl houtputs)⟩
        rw [ofFunction, requireAccess_eq_ok_iff.mpr haccess, hsignature] at h
        cases h
        exact .inr ⟨cause, rfl, rfl⟩
    | ok outputs =>
        have hsignature :=
          Function.signature_eq_ok_iff.mpr ⟨inputs, outputs, hinputs, houtputs, rfl⟩
        have hcall := ofFunction_eq_ok_iff.mpr ⟨haccess, _, hsignature, hargs, rfl⟩
        rw [hcall] at h
        cases h
  · rw [ofFunction_of_access_ne haccess] at h
    cases h
    exact .inl ⟨haccess, rfl⟩

/-- Once the arguments have picked a function, its call is refused only for its access or for its
outputs. -/
lemma fault_of_picked {interface : Interface} {name : String} {access : Access} {args : List Value}
    {settings : Settings} {entry : Entry} (hname : Reference.isQualified name = false)
    (hshared : 2 ≤ (interface.members .function name).length)
    (hlookup : (interface.lookup .function name (some args) settings).outcome = .ok entry) :
    ∃ f, entry = .function f ∧ ∀ fault,
      (prepare (.literal interface) name access (some args) settings).outcome = .error fault →
        (f.mutability.access ≠ access ∧ fault = .wrongAccess f.name access f.mutability) ∨
          ∃ cause, resolveFields f.outputs = .error cause ∧ fault = .unresolvableType cause := by
  obtain ⟨-, hkind, -⟩ := Interface.isDenotedBy_of_lookup hlookup
  obtain ⟨f, rfl⟩ := Entry.exists_function hkind
  refine ⟨f, rfl, fun fault hfault => ?_⟩
  rw [outcome_prepare_literal, hlookup] at hfault
  rw [Interface.lookup_overloaded hname hshared] at hlookup
  exact fault_of_ofFunction (Interface.accepts_of_disambiguate hlookup) hfault

/-- **Picking by arguments and binding them agree.**  A call by a name that several functions share
is never refused for the number or the types of its arguments; and once a function is picked, the
call is refused only because the function does not serve the access, or because one of its outputs
has no type. -/
theorem prepare_overloaded (interface : Interface) (name : String) (access : Access)
    (args : List Value) (settings : Settings) (hname : Reference.isQualified name = false)
    (hshared : 2 ≤ (interface.members .function name).length) :
    (∀ fault,
        (prepare (.literal interface) name access (some args) settings).outcome = .error fault →
          (∀ callee expected supplied, fault ≠ .argumentCount callee expected supplied) ∧
            ∀ callee index mismatch, fault ≠ .argumentType callee index mismatch) ∧
      ∀ entry, (interface.lookup .function name (some args) settings).outcome = .ok entry →
        ∃ f, entry = .function f ∧ ∀ fault,
          (prepare (.literal interface) name access (some args) settings).outcome = .error fault →
            (f.mutability.access ≠ access ∧ fault = .wrongAccess f.name access f.mutability) ∨
              ∃ cause, resolveFields f.outputs = .error cause ∧
                fault = .unresolvableType cause := by
  refine ⟨fun fault hfault => ?_, fun entry hlookup => fault_of_picked hname hshared hlookup⟩
  cases hlookup : (interface.lookup .function name (some args) settings).outcome with
  | error cause =>
      -- The lookup itself knows nothing of faults of arguments.
      rw [outcome_prepare_literal, hlookup] at hfault
      cases hfault
      rw [Interface.lookup_overloaded hname hshared] at hlookup
      rcases Interface.fault_of_disambiguate hlookup with ⟨_, rfl⟩ | ⟨_, rfl⟩ | ⟨_, rfl⟩ <;> simp
  | ok entry =>
      obtain ⟨f, -, hfaults⟩ := fault_of_picked hname hshared hlookup
      rcases hfaults fault hfault with ⟨-, rfl⟩ | ⟨_, -, rfl⟩ <;> simp

end Call

/-- An interface with two functions of one name, of which the second has an output without a
type. -/
def Interface.vault : Interface :=
  ⟨[.function ⟨"take", [⟨"amount", "uint8", none, none⟩], [], .nonpayable⟩,
    .function ⟨"take", [⟨"amount", "uint16", none, none⟩], [⟨"left", "uint7", none, none⟩],
      .nonpayable⟩]⟩

/-- A number that only the second function takes picks it, and its call is refused for its output
alone. -/
theorem Call.prepare_overloaded_vault :
    Reference.isQualified "take" = false ∧ 2 ≤ (Interface.vault.members .function "take").length ∧
      ∃ f fault,
        (Interface.vault.lookup .function "take" (some [.uint 300]) {}).outcome =
            .ok (.function f) ∧
          (Call.prepare (.literal .vault) "take" .write (some [.uint 300]) {}).outcome =
            .error fault ∧
          (∀ callee expected supplied, fault ≠ .argumentCount callee expected supplied) ∧
          ((f.mutability.access ≠ .write ∧ fault = .wrongAccess f.name .write f.mutability) ∨
            ∃ cause, resolveFields f.outputs = .error cause ∧ fault = .unresolvableType cause) := by
  have hname : Reference.isQualified "take" = false := by decide +kernel
  have hshared : 2 ≤ (Interface.vault.members .function "take").length := by decide +kernel
  have hpicked : (Interface.vault.lookup .function "take" (some [.uint 300]) {}).outcome.isOk =
      true := by
    decide +kernel
  have hrefused : (Call.prepare (.literal .vault) "take" .write
      (some [.uint 300]) {}).outcome.isOk = false := by
    decide +kernel
  obtain ⟨hfaults, hfault⟩ :=
    Call.prepare_overloaded .vault "take" .write [.uint 300] {} hname hshared
  cases hlookup : (Interface.vault.lookup .function "take" (some [.uint 300]) {}).outcome with
  | error fault =>
      rw [hlookup] at hpicked
      cases hpicked
  | ok entry =>
      cases houtcome : (Call.prepare (.literal .vault) "take" .write
          (some [.uint 300]) {}).outcome with
      | ok call =>
          rw [houtcome] at hrefused
          cases hrefused
      | error fault =>
          obtain ⟨f, rfl, hcauses⟩ := hfault entry hlookup
          exact ⟨hname, hshared, f, fault, rfl, rfl, (hfaults fault houtcome).1,
            hcauses fault houtcome⟩

end ContractInterface
