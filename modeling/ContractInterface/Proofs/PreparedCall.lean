import ContractInterface.Call
import ContractInterface.Proofs.CanonicalText
import ContractInterface.Proofs.Inhabitation
import ContractInterface.Proofs.Lookup
import ContractInterface.Proofs.Resolution

/-!
# What a prepared call says

A call that was prepared by a literal description can be relied upon: it is for a function of the
interface that the reference denotes and that serves the access asked for, it lists the function's
inputs and outputs as they are described, and its arguments are values of the types of its inputs.
`Call.IsFor` is the list of these facts, and `Call.prepare_literal_sound` the theorem.

`Call.outcome_prepare_literal` cuts a preparation into its two halves, the lookup and what is done
with the function found, of which `Call.ofFunction_eq_ok_iff` says when it succeeds.
-/

namespace ContractInterface

/-! ## Outputs -/

/-- How an output stands for the fields a function gives back: by their number. -/
inductive Output.Gathers : Output → List Field → Prop
  | void : Gathers .void []
  | single (field : Field) : Gathers (.single field.2) [field]
  | record {fields : List Field} (hlength : 2 ≤ fields.length) : Gathers (.record fields) fields

lemma Output.gathers_ofFields (fields : List Field) : (Output.ofFields fields).Gathers fields := by
  match fields with
  | [] => exact .void
  | [field] => exact .single field
  | first :: second :: rest => exact .record (by simp)

/-! ## Binding arguments -/

lemma bindFrom_eq_ok_iff {name : String} {index : Nat} {fields : List Field} {args : List Value}
    (hlength : fields.length = args.length) :
    bindFrom name index fields args = .ok () ↔
      List.Forall₂ (fun arg field => field.2.check arg = .ok ()) args fields := by
  induction args generalizing index fields with
  | nil =>
      obtain rfl : fields = [] := List.length_eq_zero_iff.mp hlength
      simp [bindFrom]
  | cons arg args ih =>
      cases fields with
      | nil => cases hlength
      | cons field fields =>
          have hrest := @ih (index + 1) fields (by simpa using hlength)
          rw [bindFrom, List.forall₂_cons, ← hrest]
          cases field.2.check arg <;> simp

/-- Arguments can be bound exactly if they are as many as the inputs and each passes the check of
its own. -/
lemma bindArguments_eq_ok_iff {name : String} {inputs : List Field} {args : List Value} :
    bindArguments name inputs args = .ok () ↔
      List.Forall₂ (fun arg field => field.2.check arg = .ok ()) args inputs := by
  rw [bindArguments]
  by_cases hlength : inputs.length = args.length
  · rw [if_pos hlength, bindFrom_eq_ok_iff hlength]
  · rw [if_neg hlength]
    constructor
    · intro h
      cases h
    · intro h
      exact absurd h.length_eq.symm hlength

lemma AbiType.positiveWidth_of_regularHead {s : AbiType} (h : s.RegularHead) : s.PositiveWidth := by
  cases s <;> simp_all [AbiType.RegularHead, AbiType.PositiveWidth]

/-- Arguments that pass the checks of resolved inputs are values of their types. -/
lemma inhabits_of_check_inputs {parameters : List Parameter} {inputs : List Field}
    (hinputs : List.Forall₂ Parameter.Denotes parameters inputs) {args : List Value}
    (hargs : List.Forall₂ (fun arg input => input.2.check arg = .ok ()) args inputs) :
    List.Forall₂ (fun arg input => Inhabits arg input.2) args inputs := by
  obtain ⟨hlength, hcheck⟩ := List.forall₂_iff_zip.mp hargs
  refine List.forall₂_iff_zip.mpr ⟨hlength, fun {arg input} hpair => ?_⟩
  obtain ⟨p, -, hdenotes⟩ := exists_mem_of_forall₂ hinputs (List.of_mem_zip hpair).2
  have hregular : input.2.Every AbiType.RegularHead := Parameter.regular_of_resolveBelow hdenotes.2
  have hwidths := hregular.imp fun s => AbiType.positiveWidth_of_regularHead
  exact inhabits_of_check_eq_ok hwidths (hcheck hpair)

/-! ## Access -/

lemma requireAccess_eq_ok_iff {name : String} {mutability : Mutability} {access : Access} :
    requireAccess name mutability access = .ok () ↔ mutability.access = access := by
  rw [requireAccess]
  split_ifs with h <;> simp [h]

namespace Call

/-! ## The halves of a preparation -/

/-- A preparation looks a function up and prepares its call. -/
lemma outcome_prepare_literal (interface : Interface) (reference : String) (access : Access)
    (args : Option (List Value)) (settings : Settings) :
    (prepare (.literal interface) reference access args settings).outcome =
      (interface.lookup .function reference args settings).outcome.bind fun entry =>
        (requireFunction reference entry).bind fun f => ofFunction f access (args.getD []) := by
  rw [prepare, Traced.outcome_onFault, prepareLiteral, Traced.outcome_bind]
  congr 1
  funext entry
  rw [Traced.outcome_bind, Traced.outcome_ofExcept]
  cases requireFunction reference entry with
  | error fault => rfl
  | ok f =>
      -- What is left after the call is made is to tell so and to return it.
      show (ofFunction f access (args.getD [])).bind _ = ofFunction f access (args.getD [])
      cases ofFunction f access (args.getD []) <;> rfl

lemma eq_of_requireFunction {reference : String} {entry : Entry} {f : Function}
    (h : requireFunction reference entry = .ok f) : entry = .function f := by
  cases entry <;> simp_all [requireFunction]

/-- A call of a function is prepared exactly if the function serves the access, its types resolve
and the arguments can be bound. -/
lemma ofFunction_eq_ok_iff {f : Function} {access : Access} {args : List Value} {call : Call} :
    ofFunction f access args = .ok call ↔
      f.mutability.access = access ∧ ∃ signature, f.signature = .ok signature ∧
        List.Forall₂ (fun arg field => field.2.check arg = .ok ()) args signature.inputs ∧
        call = ⟨signature.name, some signature.canonical, access, some signature.mutability,
          signature.inputs, signature.output, args⟩ := by
  rw [ofFunction, check_bind_eq_ok_iff, requireAccess_eq_ok_iff, bind_eq_ok_iff]
  refine and_congr_right fun _ => exists_congr fun signature => ?_
  rw [asFault_eq_ok_iff, check_bind_eq_ok_iff, bindArguments_eq_ok_iff]
  refine and_congr_right fun _ => and_congr_right fun _ => ?_
  constructor
  · rintro ⟨⟩
    rfl
  · rintro rfl
    rfl

/-- A function that does not serve the access is refused before its types or the arguments are
looked at. -/
lemma ofFunction_of_access_ne {f : Function} {access : Access} (h : f.mutability.access ≠ access)
    (args : List Value) :
    ofFunction f access args = .error (.wrongAccess f.name access f.mutability) := by
  rw [ofFunction, requireAccess, if_neg h]
  rfl

/-! ## Soundness -/

/-- What a prepared call says: of the function that it is for, and of the request. -/
structure IsFor (call : Call) (f : Function) (reference : String) (access : Access)
    (args : Option (List Value)) : Prop where
  name : call.name = f.name
  /-- The function is the one referred to, by its name or by its canonical text. -/
  reference : reference = f.name ∨ call.signature = some (Text.withoutBlanks reference)
  /-- The access is the one asked for, and the function serves it. -/
  access : call.access = access ∧ f.mutability.access = access
  mutability : call.mutability = some f.mutability
  inputs : List.Forall₂ Parameter.Denotes f.inputs call.inputs
  /-- The signature is the name with the texts of the inputs' types. -/
  signature : call.signature = some (f.name ++ "(" ++
    String.intercalate "," (call.inputs.map fun input => input.2.canonical) ++ ")")
  output : ∃ outputs, List.Forall₂ Parameter.Denotes f.outputs outputs ∧
    call.output.Gathers outputs
  args : call.args = args.getD []
  /-- There are as many arguments as inputs, and each is a value of the type of its own. -/
  inhabits : List.Forall₂ (fun arg input => Inhabits arg input.2) call.args call.inputs

/-- The reference by which a function was found, told in terms of its signature. -/
lemma reference_of_isDenotedBy {f : Function} {reference : String} {signature : FunctionSignature}
    (hdenoted : (Entry.function f).IsDenotedBy reference)
    (hsignature : f.signature = .ok signature) :
    reference = f.name ∨ signature.canonical = Text.withoutBlanks reference := by
  rcases hdenoted with hname | ⟨found, hfound, hcanonical⟩
  · exact .inl (Option.some.inj hname).symm
  · rw [Entry.signature, hsignature] at hfound
    cases hfound
    exact .inr (Option.some.inj hcanonical)

lemma isFor_of_ofFunction {f : Function} {reference : String} {access : Access}
    {args : Option (List Value)} {call : Call}
    (hdenoted : (Entry.function f).IsDenotedBy reference)
    (h : ofFunction f access (args.getD []) = .ok call) : call.IsFor f reference access args := by
  obtain ⟨haccess, signature, hsignature, hargs, rfl⟩ := ofFunction_eq_ok_iff.mp h
  obtain ⟨inputs, outputs, hinputs, houtputs, rfl⟩ := Function.signature_eq_ok_iff.mp hsignature
  have hdenotes := resolveFields_eq_ok_iff.mp hinputs
  exact {
    name := rfl
    reference := (reference_of_isDenotedBy hdenoted hsignature).imp_right (congrArg some)
    access := ⟨rfl, haccess⟩
    mutability := rfl
    inputs := hdenotes
    signature := congrArg some (AbiType.canonicalSignature_eq_intercalate f.name inputs)
    output := ⟨outputs, resolveFields_eq_ok_iff.mp houtputs, Output.gathers_ofFields outputs⟩
    args := rfl
    inhabits := inhabits_of_check_inputs hdenotes hargs }

/-- **A prepared call is sound.**  It is for a function of the interface that the reference denotes,
and says of it what its description says, with arguments of the types of its inputs.  Moreover, a
function that does not serve the access asked for is refused for that reason alone, whatever the
arguments and whether or not its types resolve. -/
theorem prepare_literal_sound (interface : Interface) (reference : String) (access : Access)
    (args : Option (List Value)) (settings : Settings) :
    (∀ call, (prepare (.literal interface) reference access args settings).outcome = .ok call →
        ∃ f, Entry.function f ∈ interface.entries ∧ call.IsFor f reference access args) ∧
      ∀ f, (interface.lookup .function reference args settings).outcome = .ok (.function f) →
        f.mutability.access ≠ access →
          (prepare (.literal interface) reference access args settings).outcome =
            .error (.wrongAccess f.name access f.mutability) := by
  rw [outcome_prepare_literal]
  constructor
  · intro call hcall
    obtain ⟨entry, hlookup, hfunction⟩ := bind_eq_ok_iff.mp hcall
    obtain ⟨f, hrequire, hcall⟩ := bind_eq_ok_iff.mp hfunction
    obtain ⟨hmem, -, hdenoted⟩ := Interface.isDenotedBy_of_lookup hlookup
    obtain rfl : entry = .function f := by
      cases entry <;> simp_all [requireFunction]
    exact ⟨f, hmem, isFor_of_ofFunction hdenoted hcall⟩
  · intro f hlookup haccess
    rw [hlookup]
    exact ofFunction_of_access_ne haccess _

end Call

/-- An interface with two functions of one name, one of which takes a list of tuples, and a function
whose input denotes no type. -/
def Interface.ledger : Interface :=
  ⟨[.function ⟨"send", [⟨"to", "address", none, none⟩], [], .nonpayable⟩,
    .function ⟨"send", [⟨"to", "address", none, none⟩,
      ⟨"notes", "tuple[]", some [⟨"level", "int8", none, none⟩], none⟩],
      [⟨"", "bool", none, none⟩], .nonpayable⟩,
    .function ⟨"burn", [⟨"amount", "uint7", none, none⟩], [], .payable⟩]⟩

/-- A call of one of two overloads by its canonical text, with blanks in it, and a read of a
function that is written and has no signature. -/
theorem Call.prepare_literal_sound_ledger :
    (∃ call, (Call.prepare (.literal .ledger) "send( address, (int8)[] )" .write
        (some [.address .zero, .array [.record [("level", .int (-128))]]]) {}).outcome = .ok call ∧
      ∃ f, Entry.function f ∈ Interface.ledger.entries ∧
        call.IsFor f "send( address, (int8)[] )" .write
          (some [.address .zero, .array [.record [("level", .int (-128))]]])) ∧
      (Interface.ledger.lookup .function "burn" none {}).outcome =
        .ok (.function ⟨"burn", [⟨"amount", "uint7", none, none⟩], [], .payable⟩) ∧
      (Call.prepare (.literal .ledger) "burn" .read none {}).outcome =
        .error (.wrongAccess "burn" .read .payable) := by
  have hok : (Call.prepare (.literal .ledger) "send( address, (int8)[] )" .write
      (some [.address .zero, .array [.record [("level", .int (-128))]]]) {}).outcome.isOk =
        true := by
    decide +kernel
  have hlookup : (Interface.ledger.lookup .function "burn" none {}).outcome =
      .ok (.function ⟨"burn", [⟨"amount", "uint7", none, none⟩], [], .payable⟩) := rfl
  refine ⟨?_, hlookup, (Call.prepare_literal_sound _ _ _ _ _).2 _ hlookup (by decide)⟩
  cases hcall : (Call.prepare (.literal .ledger) "send( address, (int8)[] )" .write
      (some [.address .zero, .array [.record [("level", .int (-128))]]]) {}).outcome with
  | error fault =>
      rw [hcall] at hok
      cases hok
  | ok call => exact ⟨call, rfl, (Call.prepare_literal_sound _ _ _ _ _).1 call hcall⟩

end ContractInterface
