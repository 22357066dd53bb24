import ContractInterface.Proofs.EntryTypes
import ContractInterface.Proofs.Nameless
import ContractInterface.Proofs.PreparedCall

/-!
# Calls do not depend on the names of parameters

Two interfaces that differ only in the names and internal types of parameters, outputs and
components are interchangeable for calls whose arguments hold no records: a request is refused for
the same fault, or comes to calls that differ in names only (`Call.prepare_ignores_names`).

The two are not compared with each other.  Each is compared with what is left of it without names
(`Interface.nameless`), and this is the same for both.  Taking names out commutes with every stage
of a preparation: with signatures, with lookup, with binding and with the call that is made.
-/

namespace ContractInterface

/-! ## Entries without names -/

/-- The parameter of an event without names. -/
def EventParameter.nameless (p : EventParameter) : EventParameter :=
  ⟨p.parameter.nameless, p.indexed⟩

/-- The function without the names of its parameters. -/
def Function.nameless (f : Function) : Function :=
  ⟨f.name, f.inputs.map Parameter.nameless, f.outputs.map Parameter.nameless, f.mutability⟩

/-- The event without the names of its parameters. -/
def Event.nameless (e : Event) : Event :=
  ⟨e.name, e.inputs.map EventParameter.nameless, e.anonymous⟩

namespace Entry

/-- The entry without the names of its parameters; its own name stays. -/
def nameless : Entry → Entry
  | .function f => .function f.nameless
  | .event e => .event e.nameless
  | .constructor inputs mutability => .constructor (inputs.map Parameter.nameless) mutability
  | .fallback mutability => .fallback mutability
  | .receive => .receive
  | .error name inputs => .error name (inputs.map Parameter.nameless)

@[simp] lemma memberKind?_nameless (entry : Entry) :
    entry.nameless.memberKind? = entry.memberKind? := by
  cases entry <;> rfl

@[simp] lemma name?_nameless (entry : Entry) : entry.nameless.name? = entry.name? := by
  cases entry <;> rfl

@[simp] lemma isMember_nameless (entry : Entry) (kind : MemberKind) (name : String) :
    entry.nameless.isMember kind name = entry.isMember kind name := by
  simp [isMember]

lemma inputs_nameless (entry : Entry) :
    entry.nameless.inputs = entry.inputs.map Parameter.nameless := by
  cases entry with
  | event e =>
      simp only [nameless, Event.nameless, inputs, List.map_map]
      rfl
  | _ => rfl

lemma outputs_nameless (entry : Entry) :
    entry.nameless.outputs = entry.outputs.map Parameter.nameless := by
  cases entry <;> rfl

/-- The canonical text is made of types, so names do not show in it. -/
lemma map_canonical?_signature_nameless (entry : Entry) :
    Signature.canonical? <$> entry.nameless.signature =
      Signature.canonical? <$> entry.signature := by
  rw [map_canonical?_signature, map_canonical?_signature, inputs_nameless, outputs_nameless,
    resolveFields_nameless, resolveFields_nameless, name?_nameless]
  cases resolveFields entry.inputs with
  | error fault => rfl
  | ok inputs =>
      cases resolveFields entry.outputs with
      | error fault => rfl
      | ok outputs =>
          simp [bind, Except.bind, Functor.map, Except.map, canonicalSignature_nameless]

/-- An entry without names has a signature if the entry has, with the same canonical text, and
otherwise it is at fault in the same way. -/
lemma signature_nameless_cases (entry : Entry) :
    (∃ fault, entry.nameless.signature = .error fault ∧ entry.signature = .error fault) ∨
      ∃ signature' signature, entry.nameless.signature = .ok signature' ∧
        entry.signature = .ok signature ∧ signature'.canonical? = signature.canonical? :=
  cases_of_map_eq_map entry.map_canonical?_signature_nameless

end Entry

/-! ## Lookup -/

lemma findCanonical?_nameless (kind : MemberKind) (base canonical : String)
    (entries : List Entry) :
    findCanonical? kind base canonical (entries.map Entry.nameless) =
      Option.map Entry.nameless <$> findCanonical? kind base canonical entries := by
  induction entries with
  | nil => rfl
  | cons entry entries ih =>
      rw [List.map_cons, findCanonical?, findCanonical?, Entry.isMember_nameless, ih]
      by_cases hmember : entry.isMember kind base = true
      · rw [if_pos hmember, if_pos hmember]
        rcases entry.signature_nameless_cases with
          ⟨fault, hfault', hfault⟩ | ⟨signature', signature, hok', hok, hcanonical⟩
        · rw [hfault, hfault']
          rfl
        · rw [hok, hok']
          simp only [bind, Except.bind, hcanonical]
          split_ifs <;> rfl
      · rw [if_neg hmember, if_neg hmember]

lemma canonicalTexts_nameless (entries : List Entry) :
    canonicalTexts (entries.map Entry.nameless) = canonicalTexts entries := by
  induction entries with
  | nil => rfl
  | cons entry entries ih =>
      rw [List.map_cons, canonicalTexts, canonicalTexts, ih]
      rcases entry.signature_nameless_cases with
        ⟨fault, hfault', hfault⟩ | ⟨signature', signature, hok', hok, hcanonical⟩
      · rw [hfault, hfault']
      · rw [hok, hok']
        simp only [bind, Except.bind, hcanonical]

/-- A fault that lists candidates is the same without names, because their texts are. -/
lemma outcome_listing_nameless (entries : List Entry) (f : List String → Fault) :
    (do
      let texts ← Traced.ofExcept (asFault (canonicalTexts (entries.map Entry.nameless)))
      Traced.fail (f texts) : Traced Entry).outcome =
      Entry.nameless <$> (do
        let texts ← Traced.ofExcept (asFault (canonicalTexts entries))
        Traced.fail (f texts) : Traced Entry).outcome := by
  rw [canonicalTexts_nameless, Traced.outcome_bind]
  cases canonicalTexts entries <;> rfl

section Positional

variable {args : List Value} (hargs : ∀ arg ∈ args, arg.isPositional = true)
include hargs

lemma accepts_nameless (fields : List Field) :
    accepts (AbiType.namelessFields fields) args = accepts fields args := by
  induction fields generalizing args with
  | nil => rfl
  | cons field fields ih =>
      cases args with
      | nil => rfl
      | cons arg args =>
          obtain ⟨harg, hargs⟩ := List.forall_mem_cons.mp hargs
          rw [AbiType.namelessFields, accepts, accepts, AbiType.fits, AbiType.fits,
            AbiType.check_nameless _ harg, ih hargs]

lemma compatibleEntries_nameless (entries : List Entry) :
    compatibleEntries args (entries.map Entry.nameless) =
      List.map Entry.nameless <$> compatibleEntries args entries := by
  induction entries with
  | nil => rfl
  | cons entry entries ih =>
      rw [List.map_cons, compatibleEntries, compatibleEntries, Entry.inputs_nameless,
        resolveFields_nameless, ih]
      cases resolveFields entry.inputs with
      | error fault => rfl
      | ok inputs =>
          cases compatibleEntries args entries with
          | error fault => rfl
          | ok compatible =>
              simp only [bind, Except.bind, Functor.map, Except.map, accepts_nameless hargs,
                pure, Except.pure]
              split_ifs <;> rfl

lemma Interface.disambiguate_nameless (name : String) (candidates : List Entry)
    (settings : Settings) :
    (disambiguate name (candidates.map Entry.nameless) args settings).outcome =
      Entry.nameless <$> (disambiguate name candidates args settings).outcome := by
  rw [disambiguate, disambiguate, Traced.outcome_bind, Traced.outcome_bind,
    Traced.outcome_ofExcept, Traced.outcome_ofExcept, compatibleEntries_nameless hargs]
  cases compatibleEntries args candidates with
  | error fault => rfl
  | ok compatible =>
      rcases compatible with _ | ⟨first, _ | ⟨second, others⟩⟩
      · exact outcome_listing_nameless candidates (.noMatchingOverload name)
      · cases hpolicy : settings.overloads <;> rfl
      · cases hpolicy : settings.overloads with
        | firstDeclared => rfl
        | strict =>
            exact outcome_listing_nameless (first :: second :: others) (.ambiguousMember name)

end Positional

namespace Interface

/-- The interface without the names of parameters. -/
def nameless (interface : Interface) : Interface := ⟨interface.entries.map Entry.nameless⟩

lemma members_nameless (interface : Interface) (kind : MemberKind) (name : String) :
    interface.nameless.members kind name = (interface.members kind name).map Entry.nameless := by
  have hmember : Entry.isMember kind name ∘ Entry.nameless = Entry.isMember kind name := by
    funext entry
    exact entry.isMember_nameless kind name
  rw [members, members, nameless, List.filter_map, hmember]

lemma lookupQualified_nameless (interface : Interface) (kind : MemberKind) (reference : String) :
    (interface.nameless.lookupQualified kind reference).outcome =
      Entry.nameless <$> (interface.lookupQualified kind reference).outcome := by
  rw [lookupQualified, lookupQualified, Traced.outcome_bind, Traced.outcome_bind,
    Traced.outcome_ofExcept, Traced.outcome_ofExcept, nameless, findCanonical?_nameless]
  cases findCanonical? kind (Reference.baseName (Text.withoutBlanks reference))
      (Text.withoutBlanks reference) interface.entries with
  | error fault => rfl
  | ok found => cases found <;> rfl

lemma lookupPlain_nameless (interface : Interface) (kind : MemberKind) (name : String)
    {args : Option (List Value)} (hargs : ∀ arg ∈ args.getD [], arg.isPositional = true)
    (settings : Settings) :
    (interface.nameless.lookupPlain kind name args settings).outcome =
      Entry.nameless <$> (interface.lookupPlain kind name args settings).outcome := by
  unfold lookupPlain
  rw [Traced.outcome_bind, Traced.outcome_bind, members_nameless]
  rcases interface.members kind name with _ | ⟨first, _ | ⟨second, rest⟩⟩
  · rfl
  · rfl
  · cases args with
    | none => exact outcome_listing_nameless (first :: second :: rest) (.ambiguousMember name)
    | some args => exact disambiguate_nameless hargs name (first :: second :: rest) settings

/-- Lookup in an interface without names finds what is left of the entry that lookup finds in the
interface. -/
lemma lookup_nameless (interface : Interface) (kind : MemberKind) (reference : String)
    {args : Option (List Value)} (hargs : ∀ arg ∈ args.getD [], arg.isPositional = true)
    (settings : Settings) :
    (interface.nameless.lookup kind reference args settings).outcome =
      Entry.nameless <$> (interface.lookup kind reference args settings).outcome := by
  rw [lookup, lookup]
  split_ifs
  · exact interface.lookupQualified_nameless kind reference
  · exact interface.lookupPlain_nameless kind reference hargs settings

end Interface

/-! ## Binding -/

section Positional

variable {args : List Value} (hargs : ∀ arg ∈ args, arg.isPositional = true)
include hargs

lemma bindFrom_nameless (name : String) (index : Nat) (fields : List Field) :
    bindFrom name index (AbiType.namelessFields fields) args = bindFrom name index fields args := by
  induction fields generalizing index args with
  | nil => rfl
  | cons field fields ih =>
      cases args with
      | nil => rfl
      | cons arg args =>
          obtain ⟨harg, hargs⟩ := List.forall_mem_cons.mp hargs
          rw [AbiType.namelessFields, bindFrom, bindFrom, AbiType.check_nameless _ harg,
            ih hargs (index + 1)]

lemma bindArguments_nameless (name : String) (inputs : List Field) :
    bindArguments name (AbiType.namelessFields inputs) args = bindArguments name inputs args := by
  rw [bindArguments, bindArguments, AbiType.length_namelessFields, bindFrom_nameless hargs]

end Positional

/-! ## Calls -/

lemma Output.ofFields_nameless (fields : List Field) :
    Output.ofFields (AbiType.namelessFields fields) = (Output.ofFields fields).nameless := by
  rcases fields with _ | ⟨first, _ | ⟨second, rest⟩⟩ <;> rfl

/-- The signature of a function without names. -/
def FunctionSignature.nameless (signature : FunctionSignature) : FunctionSignature :=
  ⟨signature.name, AbiType.namelessFields signature.inputs,
    AbiType.namelessFields signature.outputs, signature.mutability⟩

lemma Function.signature_nameless (f : Function) :
    f.nameless.signature = FunctionSignature.nameless <$> f.signature := by
  rw [Function.signature, Function.signature, nameless, resolveFields_nameless,
    resolveFields_nameless]
  cases resolveFields f.inputs with
  | error fault => rfl
  | ok inputs => cases resolveFields f.outputs <;> rfl

namespace Call

/-- The call without the names of its inputs and outputs. -/
def nameless (call : Call) : Call :=
  { call with inputs := AbiType.namelessFields call.inputs, output := call.output.nameless }

lemma ofFunction_nameless (f : Function) (access : Access) {args : List Value}
    (hargs : ∀ arg ∈ args, arg.isPositional = true) :
    ofFunction f.nameless access args = nameless <$> ofFunction f access args := by
  rw [ofFunction, ofFunction, Function.signature_nameless]
  show (requireAccess f.name f.mutability access).bind _ =
    nameless <$> (requireAccess f.name f.mutability access).bind _
  cases requireAccess f.name f.mutability access with
  | error fault => rfl
  | ok _ =>
      cases f.signature with
      | error fault => rfl
      | ok signature =>
          have hbinding : bindArguments signature.name signature.nameless.inputs args =
              bindArguments signature.name signature.inputs args :=
            bindArguments_nameless hargs signature.name signature.inputs
          show (bindArguments signature.name signature.nameless.inputs args).bind _ =
            nameless <$> (bindArguments signature.name signature.inputs args).bind _
          rw [hbinding]
          cases bindArguments signature.name signature.inputs args with
          | error fault => rfl
          | ok _ =>
              have hcanonical : signature.nameless.canonical = signature.canonical :=
                canonicalSignature_nameless signature.name signature.inputs
              have houtput : signature.nameless.output = signature.output.nameless :=
                Output.ofFields_nameless signature.outputs
              show Except.ok _ = Except.ok _
              rw [hcanonical, houtput]
              rfl

lemma requireFunction_nameless (reference : String) (entry : Entry) :
    requireFunction reference entry.nameless =
      Function.nameless <$> requireFunction reference entry := by
  cases entry <;> rfl

/-- **Preparation without names.**  What is prepared by an interface without names is what is left
of the call that is prepared by the interface. -/
lemma prepare_nameless (interface : Interface) (reference : String) (access : Access)
    {args : Option (List Value)} (hargs : ∀ arg ∈ args.getD [], arg.isPositional = true)
    (settings : Settings) :
    (prepare (.literal interface.nameless) reference access args settings).outcome =
      nameless <$> (prepare (.literal interface) reference access args settings).outcome := by
  rw [outcome_prepare_literal, outcome_prepare_literal,
    interface.lookup_nameless .function reference hargs settings]
  cases (interface.lookup .function reference args settings).outcome with
  | error fault => rfl
  | ok entry =>
      show (requireFunction reference entry.nameless).bind _ =
        nameless <$> (requireFunction reference entry).bind _
      rw [requireFunction_nameless]
      cases requireFunction reference entry with
      | error fault => rfl
      | ok f => exact ofFunction_nameless f access hargs

/-! ## Noninterference -/

/-- Whether two calls are the same but for the names of their inputs and outputs. -/
structure SameUpToNames (call call' : Call) : Prop where
  name : call.name = call'.name
  signature : call.signature = call'.signature
  access : call.access = call'.access
  mutability : call.mutability = call'.mutability
  args : call.args = call'.args
  inputs : List.Forall₂ (fun input input' => input.2.sameType input'.2 = true)
    call.inputs call'.inputs
  output : call.output.sameType call'.output = true

lemma sameUpToNames_of_nameless_eq {call call' : Call} (h : call.nameless = call'.nameless) :
    call.SameUpToNames call' := by
  simp only [nameless, Call.mk.injEq] at h
  obtain ⟨hname, hsignature, haccess, hmutability, hinputs, houtput, hargs⟩ := h
  have hfields := AbiType.sameFields_of_nameless_eq hinputs
  exact ⟨hname, hsignature, haccess, hmutability, hargs,
    AbiType.sameFields_iff_forall₂.mp hfields, Output.sameType_of_nameless_eq houtput⟩

/-- **The names of parameters do not matter for arguments given by position.**  By two interfaces
that are the same but for the names and internal types of parameters, outputs and components, a
request whose arguments hold no record is refused for exactly the same fault, or comes to calls that
are the same but for names. -/
theorem prepare_ignores_names (interface interface' : Interface)
    (hnames : interface.nameless = interface'.nameless) (reference : String) (access : Access)
    (args : Option (List Value)) (hargs : ∀ arg ∈ args.getD [], arg.isPositional = true)
    (settings : Settings) :
    (∃ fault,
        (prepare (.literal interface) reference access args settings).outcome = .error fault ∧
          (prepare (.literal interface') reference access args settings).outcome =
            .error fault) ∨
      ∃ call call',
        (prepare (.literal interface) reference access args settings).outcome = .ok call ∧
          (prepare (.literal interface') reference access args settings).outcome = .ok call' ∧
          call.SameUpToNames call' := by
  have hleft := prepare_nameless interface reference access hargs settings
  have hright := prepare_nameless interface' reference access hargs settings
  rw [hnames, hright] at hleft
  rcases cases_of_map_eq_map hleft.symm with hfault | ⟨call, call', hcall, hcall', hnameless⟩
  · exact .inl hfault
  · exact .inr ⟨call, call', hcall, hcall', sameUpToNames_of_nameless_eq hnameless⟩

end Call

/-- An interface with two functions of one name, the first of which takes an array of offers; what
the parameters are called is left open. -/
def Interface.auction (offers price final : String) (internalType : Option String) : Interface :=
  ⟨[.function ⟨"settle",
      [⟨offers, "tuple[]", some [⟨price, "uint8", none, none⟩, ⟨final, "bool", none, none⟩],
        internalType⟩],
      [⟨price, "uint16", none, none⟩, ⟨final, "bool", none, none⟩], .nonpayable⟩,
    .function ⟨"settle", [⟨offers, "string", none, none⟩], [], .nonpayable⟩]⟩

/-- Under names that trade places or are shared, an array of one offer picks the same function, and
a price that does not fit is refused in the same words. -/
theorem Call.prepare_ignores_names_auction :
    let named := Interface.auction "offers" "price" "final" (some "struct Offer[]")
    let renamed := Interface.auction "price" "" "price" none
    let offer := fun price : BitVec 256 =>
      some [Value.array [.tuple [.uint price, .bool true]]]
    let settle := fun (interface : Interface) (reference : String) (price : BitVec 256) =>
      (prepare (.literal interface) reference .write (offer price) {}).outcome
    named.nameless = renamed.nameless ∧
      (∃ call call', settle named "settle" 5 = .ok call ∧ settle renamed "settle" 5 = .ok call' ∧
        call.SameUpToNames call') ∧
      ∃ fault, settle named "settle((uint8,bool)[])" 300 = .error fault ∧
        settle renamed "settle((uint8,bool)[])" 300 = .error fault := by
  intro named renamed offer settle
  have hnames : named.nameless = renamed.nameless := rfl
  have hoffer : ∀ price, ∀ arg ∈ (offer price).getD [], arg.isPositional = true := by
    simp [offer, Value.isPositional, Value.arePositional]
  have hsettle := fun reference price =>
    prepare_ignores_names named renamed hnames reference .write (offer price) (hoffer price) {}
  have hprepared : (settle named "settle" 5).isOk = true := by decide +kernel
  have hrefused : (settle named "settle((uint8,bool)[])" 300).isOk = false := by decide +kernel
  refine ⟨hnames, ?_, ?_⟩
  · rcases hsettle "settle" 5 with ⟨fault, hfault, -⟩ | hcalls
    · rw [show settle named "settle" 5 = .error fault from hfault] at hprepared
      cases hprepared
    · exact hcalls
  · rcases hsettle "settle((uint8,bool)[])" 300 with hfault | ⟨call, call', hcall, -⟩
    · exact hfault
    · rw [show settle named "settle((uint8,bool)[])" 300 = .ok call from hcall] at hrefused
      cases hrefused

end ContractInterface
