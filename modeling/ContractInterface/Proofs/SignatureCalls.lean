import ContractInterface.Proofs.PreparedCall
import ContractInterface.Proofs.QualifiedLookup
import ContractInterface.Proofs.UnrelatedEntries

/-!
# Calls by signature

In a valid interface a function is found by its own canonical text, so a call by that text is the
call of that function and of no other (`Call.prepare_by_signature`).  Hence the signature of a
prepared call is a handle for it.  However the function was referred to and picked, preparing by the
signature and the arguments of the call gives the call again (`Call.prepare_by_signature_of_call`).

Blanks are removed from a reference, so the name of the function must have none.
-/

namespace ContractInterface

/-! ## References to functions by their own text -/

lemma Text.withoutBlanks_eq_self {s : String} (h : ∀ c ∈ s.toList, Text.isBlank c = false) :
    Text.withoutBlanks s = s := by
  have hfilter : s.toList.filter (fun c => !Text.isBlank c) = s.toList := by
    refine List.filter_eq_self.mpr fun c hc => ?_
    simp [h c hc]
  rw [Text.withoutBlanks, hfilter, String.ofList_toList]

/-- One pass over a text tells that it has no blanks. -/
lemma Text.isBlank_of_any_eq_false {s : String} (h : s.toList.any Text.isBlank = false) (c : Char)
    (hc : c ∈ s.toList) : Text.isBlank c = false := by
  simpa using List.any_eq_false.mp h c hc

/-- No reference asks for a name with a parenthesis. -/
lemma Reference.not_mem_memberName (reference : String) :
    '(' ∉ (Reference.memberName reference).toList := by
  rw [Reference.memberName]
  by_cases hqualified : Reference.isQualified reference = true
  · rw [if_pos hqualified]
    exact Reference.not_mem_baseName _
  · rw [if_neg hqualified]
    intro hmem
    exact hqualified (List.contains_iff_mem.mpr hmem)

lemma Function.hasCanonical {f : Function} {signature : FunctionSignature}
    (h : f.signature = .ok signature) :
    (Entry.function f).HasCanonical .function signature.canonical := by
  have hentry : (Entry.function f).signature = .ok (.function signature) := by
    rw [Entry.signature, h]
    rfl
  exact ⟨rfl, _, hentry, rfl⟩

namespace Call

/-- In a valid interface, a call by the canonical text of a function is a call of that function. -/
lemma prepare_by_signature {interface : Interface} (hvalid : interface.validate = .ok ())
    {f : Function} (hmem : Entry.function f ∈ interface.entries) (hparen : '(' ∉ f.name.toList)
    (hblank : ∀ c ∈ f.name.toList, Text.isBlank c = false) {signature : FunctionSignature}
    (hsignature : f.signature = .ok signature) (access : Access) (args : List Value)
    (settings : Settings) :
    (prepare (.literal interface) signature.canonical access (some args) settings).outcome =
      ofFunction f access args := by
  have hname : signature.name = f.name := by
    obtain ⟨inputs, outputs, -, -, rfl⟩ := Function.signature_eq_ok_iff.mp hsignature
    rfl
  have htext : Text.withoutBlanks signature.canonical = signature.canonical := by
    rw [FunctionSignature.canonical, AbiType.withoutBlanks_canonicalSignature, hname,
      Text.withoutBlanks_eq_self hblank]
  have hcanonical : (Entry.function f).HasCanonical .function
      (Text.withoutBlanks signature.canonical) := by
    rw [htext]
    exact Function.hasCanonical hsignature
  have hlookup : (interface.lookup .function signature.canonical (some args) settings).outcome =
      .ok (.function f) :=
    Interface.lookup_of_hasCanonical hvalid hmem rfl hparen hcanonical
  rw [outcome_prepare_literal, hlookup]
  rfl

/-! ## The signature of a call -/

/-- A prepared call is that of a function of the interface whose name was asked for, and tells of
it. -/
lemma exists_function_of_prepare {interface : Interface} {reference : String} {access : Access}
    {args : Option (List Value)} {settings : Settings} {call : Call}
    (h : (prepare (.literal interface) reference access args settings).outcome = .ok call) :
    ∃ f, Entry.function f ∈ interface.related .function reference ∧
      ofFunction f access (args.getD []) = .ok call ∧ call.IsFor f reference access args := by
  rw [outcome_prepare_literal] at h
  obtain ⟨entry, hlookup, hrest⟩ := bind_eq_ok_iff.mp h
  obtain ⟨f, hrequire, hcall⟩ := bind_eq_ok_iff.mp hrest
  obtain rfl := eq_of_requireFunction hrequire
  obtain ⟨-, -, hdenoted⟩ := Interface.isDenotedBy_of_lookup hlookup
  exact ⟨f, Interface.mem_related_of_lookup hlookup, hcall, isFor_of_ofFunction hdenoted hcall⟩

/-- **The signature of a call is a faithful handle.**  In a valid interface, a call that was
prepared by any reference, for a function without blanks in its name, is prepared again from its
signature and its arguments: the same call, whatever the settings are this time. -/
theorem prepare_by_signature_of_call (interface : Interface) (hvalid : interface.validate = .ok ())
    (reference : String) (access : Access) (args : Option (List Value)) (settings : Settings)
    (call : Call)
    (hcall : (prepare (.literal interface) reference access args settings).outcome = .ok call)
    (hblank : ∀ c ∈ call.name.toList, Text.isBlank c = false) :
    ∃ signature, call.signature = some signature ∧ ∀ settings' : Settings,
      (prepare (.literal interface) signature access (some call.args) settings').outcome =
        .ok call := by
  obtain ⟨f, hrelated, hfunction, -⟩ := exists_function_of_prepare hcall
  obtain ⟨hmem, hmember⟩ := List.mem_filter.mp hrelated
  have hname : f.name = Reference.memberName reference :=
    Option.some.inj (Entry.isMember_iff.mp hmember).2
  have hparen : '(' ∉ f.name.toList := hname ▸ Reference.not_mem_memberName reference
  obtain ⟨-, signature, hsignature, -, hdata⟩ := ofFunction_eq_ok_iff.mp hfunction
  obtain ⟨inputs, outputs, -, -, rfl⟩ := Function.signature_eq_ok_iff.mp hsignature
  subst hdata
  refine ⟨_, rfl, fun settings' => ?_⟩
  rw [prepare_by_signature hvalid hmem hparen hblank hsignature]
  exact hfunction

/-- A call of an overload that its arguments picked is prepared again by its signature, also where
the policy is stricter; an event has the same signature. -/
theorem prepare_by_signature_of_call_exchange :
    Interface.exchange.validate = .ok () ∧
      ∃ call, (prepare (.literal .exchange) "swap" .write
          (some [.array [.record [("exact", .bool true), ("pool", .uint 3)]], .address .zero])
            {}).outcome = .ok call ∧
        (∀ c ∈ call.name.toList, Text.isBlank c = false) ∧
        ∃ signature, call.signature = some signature ∧
          (prepare (.literal .exchange) signature .write (some call.args) ⟨.strict⟩).outcome =
            .ok call := by
  have hvalid : Interface.exchange.validate = .ok () := by decide +kernel
  obtain ⟨call, hcall⟩ := exists_ok_of_isOk (x := (prepare (.literal .exchange) "swap" .write
    (some [.array [.record [("exact", .bool true), ("pool", .uint 3)]], .address .zero])
      {}).outcome) (by decide +kernel)
  obtain ⟨f, hrelated, -, hfor⟩ := exists_function_of_prepare hcall
  have hname : call.name = "swap" := by
    obtain ⟨-, hmember⟩ := List.mem_filter.mp hrelated
    exact hfor.name.trans (Option.some.inj (Entry.isMember_iff.mp hmember).2)
  have hblank : ∀ c ∈ call.name.toList, Text.isBlank c = false := by
    rw [hname]
    exact Text.isBlank_of_any_eq_false (by decide +kernel)
  obtain ⟨signature, hsignature, hagain⟩ := prepare_by_signature_of_call .exchange hvalid "swap"
    .write _ {} call hcall hblank
  exact ⟨hvalid, call, hcall, hblank, signature, hsignature, hagain ⟨.strict⟩⟩

end Call

end ContractInterface
