import ContractInterface.Declaration
import ContractInterface.Proofs.Nameless
import ContractInterface.Proofs.PreparedCall

/-!
# Declared functions agree with the interface

A declaration compares texts and outputs: it looks its function up by canonical text and compares
what the function gives back with what is declared.  From this alone it follows that every call with
arguments of the declared types can be prepared, and that it is the same call that would be prepared
from the arguments' values without the declaration (`Declaration.prepare_agrees`).

The argument is short once the parts are there.  The canonical text identifies the types of the
inputs up to names; an element of a static type is a value of every type that is the same up to
names (`StaticType.inhabits_toValue`), because it holds no records; so the arguments are bound, and
the output, which compares equal in the one direction, is narrowed in the other.
-/

namespace ContractInterface

/-! ## Outputs -/

/-- Narrowing to an output of the same type changes nothing. -/
lemma Output.narrow_of_sameType {output expected : Output} (h : output.sameType expected = true) :
    output.narrow expected = some output := by
  cases output with
  | unknown => cases expected <;> simp_all [sameType, narrow]
  | _ => simp [narrow, h]

/-! ## Elements of static types as values -/

lemma Width.bits_pos (width : Width) : 0 < width.bits := by
  cases width <;> decide

lemma Width.bits_le (width : Width) : width.bits ≤ 256 := by
  cases width <;> decide

namespace StaticType

lemma inhabits_uint {width : Width} (n : BitVec width.bits) :
    Inhabits (.uint (n.setWidth 256)) (.uint width.bits) := by
  refine .uint ?_
  rw [BitVec.toNat_setWidth_of_le width.bits_le]
  exact n.isLt

lemma inhabits_int {width : Width} (n : BitVec width.bits) :
    Inhabits (.int (n.signExtend 256)) (.int width.bits) := by
  have hint : (n.signExtend 256).toInt = n.toInt := BitVec.toInt_signExtend_of_le width.bits_le
  refine .int width.bits_pos ?_ ?_
  · rw [hint]
    exact n.le_toInt
  · rw [hint]
    exact BitVec.toInt_lt

mutual

/-- An element of a static type is a value of every type that is the same as its own up to
names. -/
theorem inhabits_toValue : ∀ (type : StaticType) (x : type.Carrier) {s : AbiType},
    type.abiType.sameType s = true → Inhabits (type.toValue x) s
  | .bool, b, s, h => by
      obtain rfl := AbiType.eq_of_sameType_leaf rfl h
      exact .bool b
  | .string, text, s, h => by
      obtain rfl := AbiType.eq_of_sameType_leaf rfl h
      exact .string text
  | .address, a, s, h => by
      obtain rfl := AbiType.eq_of_sameType_leaf rfl h
      exact .address a
  | .bytes, content, s, h => by
      obtain rfl := AbiType.eq_of_sameType_leaf rfl h
      exact .bytes content
  | .fixedBytes length, content, s, h => by
      obtain rfl := AbiType.eq_of_sameType_leaf rfl h
      have hlength : content.toList.length = length := content.length_toList
      have hinhabits := Inhabits.fixedBytes content.toList
      rwa [hlength] at hinhabits
  | .uint width, n, s, h => by
      obtain rfl := AbiType.eq_of_sameType_leaf rfl h
      exact inhabits_uint n
  | .int width, n, s, h => by
      obtain rfl := AbiType.eq_of_sameType_leaf rfl h
      exact inhabits_int n
  | .array element length, items, s, h => by
      obtain ⟨t, rfl, helement⟩ := AbiType.sameType_array_left.mp h
      have hlength : items.toList.length = length := items.length_toList
      refine inhabits_array_iff.mpr ⟨?_, fun v hv => ?_⟩
      · simp [Extent.admits, hlength]
      · obtain ⟨item, -, rfl⟩ := List.mem_map.mp hv
        exact inhabits_toValue element item helement
  | .list element, items, s, h => by
      obtain ⟨t, rfl, helement⟩ := AbiType.sameType_array_left.mp h
      refine inhabits_array_iff.mpr ⟨rfl, fun v hv => ?_⟩
      obtain ⟨item, -, rfl⟩ := List.mem_map.mp hv
      exact inhabits_toValue element item helement
  | .tuple components, items, s, h => by
      obtain ⟨gs, rfl, hfields⟩ := AbiType.sameType_tuple_left.mp h
      exact inhabits_tuple_iff.mpr
        (inhabits_toValues components items (AbiType.sameFields_iff_forall₂.mpr hfields))

/-- Elements of static types are values of fields of the same types. -/
theorem inhabits_toValues : ∀ (types : List StaticType) (xs : Carriers types) {fs : List Field},
    AbiType.sameFields (fields types) fs = true →
      List.Forall₂ (fun v field => Inhabits v field.2) (toValues types xs) fs
  | [], (), [], _ => .nil
  | [], (), _ :: _, h => by cases h
  | _ :: _, (_, _), [], h => by cases h
  | type :: types, (x, xs), f :: fs, h => by
      obtain ⟨hfirst, hrest⟩ : type.abiType.sameType f.2 = true ∧
          AbiType.sameFields (fields types) fs = true := by
        simpa [fields, AbiType.sameFields] using h
      exact .cons (inhabits_toValue type x hfirst) (inhabits_toValues types xs hrest)

end

end StaticType

namespace Declaration

/-! ## Looking a declared function up -/

lemma isQualified_signature (declaration : Declaration) :
    Reference.isQualified declaration.signature = true := by
  simp [Reference.isQualified, signature, AbiType.toList_canonicalSignature, AbiType.text_tuple]

/-- A declared function is found by its canonical text, so neither arguments nor settings matter. -/
lemma lookup_signature (declaration : Declaration) (interface : Interface)
    (args : Option (List Value)) (settings : Settings) :
    interface.lookup .function declaration.signature args settings =
      interface.lookupQualified .function declaration.signature := by
  rw [Interface.lookup, if_pos declaration.isQualified_signature]

/-- The inputs of a function that was found for a declaration have the declared types. -/
lemma sameFields_inputs {declaration : Declaration} {interface : Interface} {f : Function}
    {signature : FunctionSignature}
    (hlookup : (interface.lookupQualified .function declaration.signature).outcome =
      .ok (.function f))
    (hsignature : f.signature = .ok signature) :
    AbiType.sameFields (StaticType.fields declaration.arguments) signature.inputs = true := by
  obtain ⟨-, -, found, hfound, hcanonical⟩ := Interface.canonical_of_lookupQualified hlookup
  rw [Entry.signature, hsignature] at hfound
  cases hfound
  have htext : canonicalSignature signature.name signature.inputs =
      canonicalSignature (Text.withoutBlanks declaration.name)
        (StaticType.fields declaration.arguments) := by
    rw [← AbiType.withoutBlanks_canonicalSignature]
    exact Option.some.inj hcanonical
  exact AbiType.sameFields_symm (AbiType.canonicalSignature_eq_iff.mp htext).2

/-! ## Verifying and preparing -/

/-- A function is as declared exactly if it serves the access, its types resolve and it gives back
what is declared. -/
lemma verifyFunction_eq_ok_iff {declaration : Declaration} {f : Function}
    {signature : FunctionSignature} :
    declaration.verifyFunction f = .ok signature ↔
      f.mutability.access = declaration.access ∧ f.signature = .ok signature ∧
        declaration.output.sameType signature.output = true := by
  rw [verifyFunction, check_bind_eq_ok_iff, requireAccess_eq_ok_iff]
  refine and_congr_right fun _ => ?_
  constructor
  · intro h
    obtain ⟨resolved, hresolved, hsame⟩ := bind_eq_ok_iff.mp h
    split_ifs at hsame with houtput
    cases hsame
    exact ⟨asFault_eq_ok_iff.mp hresolved, houtput⟩
  · rintro ⟨hsignature, houtput⟩
    refine bind_eq_ok_iff.mpr ⟨signature, asFault_eq_ok_iff.mpr hsignature, ?_⟩
    rw [if_pos houtput]
    rfl

/-- A declaration that is verified has found a function that is as declared. -/
lemma verify_eq_ok {declaration : Declaration} {interface : Interface}
    {signature : FunctionSignature} (h : (declaration.verify interface).outcome = .ok signature) :
    ∃ f, (interface.lookupQualified .function declaration.signature).outcome =
        .ok (.function f) ∧ declaration.verifyFunction f = .ok signature := by
  rw [verify, lookup_signature] at h
  obtain ⟨entry, hlookup, hverify⟩ := Traced.outcome_bind_eq_ok_iff.mp h
  obtain ⟨f, hrequire, hfunction⟩ := bind_eq_ok_iff.mp hverify
  obtain rfl := Call.eq_of_requireFunction hrequire
  exact ⟨f, hlookup, hfunction⟩

/-- A preparation verifies, prepares the call as it would be without the declaration, and narrows
it. -/
lemma outcome_prepare_literal (declaration : Declaration) (interface : Interface)
    (args : StaticType.Carriers declaration.arguments) :
    (declaration.prepare (.literal interface) args).outcome =
      (declaration.verify interface).outcome.bind fun _ =>
        (Call.prepare (.literal interface) declaration.signature declaration.access
          (some (StaticType.toValues declaration.arguments args)) {}).outcome.bind
            declaration.narrow := by
  rw [prepare, verifyDescription, Traced.outcome_bind, Traced.outcome_bind]
  cases (declaration.verify interface).outcome with
  | error fault => rfl
  | ok signature => exact Traced.outcome_bind _ _

/-- The arguments of a verified declaration can be bound, whatever they are. -/
lemma prepare_verified {declaration : Declaration} {interface : Interface}
    {signature : FunctionSignature}
    (hverify : (declaration.verify interface).outcome = .ok signature)
    (args : StaticType.Carriers declaration.arguments) :
    ∃ call, (Call.prepare (.literal interface) declaration.signature declaration.access
        (some (StaticType.toValues declaration.arguments args)) {}).outcome = .ok call ∧
      call.output = signature.output := by
  obtain ⟨f, hlookup, hfunction⟩ := verify_eq_ok hverify
  obtain ⟨haccess, hsignature, -⟩ := verifyFunction_eq_ok_iff.mp hfunction
  have hinhabits := StaticType.inhabits_toValues declaration.arguments args
    (sameFields_inputs hlookup hsignature)
  have hchecks := hinhabits.imp fun arg input => check_eq_ok_of_inhabits
  have hcall := Call.ofFunction_eq_ok_iff.mpr ⟨haccess, signature, hsignature, hchecks, rfl⟩
  have houtcome := Call.outcome_prepare_literal interface declaration.signature declaration.access
    (some (StaticType.toValues declaration.arguments args)) {}
  rw [lookup_signature, hlookup] at houtcome
  exact ⟨_, houtcome.trans hcall, rfl⟩

/-- **Declared functions agree with the interface.**  If a declaration is verified, then for all
arguments of the declared types a call is prepared, and it is the very call that is prepared from
their values without the declaration.  If it is not verified, preparation fails for the same
reason. -/
theorem prepare_agrees (declaration : Declaration) (interface : Interface) :
    (∀ signature, (declaration.verify interface).outcome = .ok signature →
        ∀ args : StaticType.Carriers declaration.arguments, ∃ call,
          (declaration.prepare (.literal interface) args).outcome = .ok call ∧
            (Call.prepare (.literal interface) declaration.signature declaration.access
              (some (StaticType.toValues declaration.arguments args)) {}).outcome = .ok call) ∧
      ∀ fault, (declaration.verify interface).outcome = .error fault →
        ∀ args : StaticType.Carriers declaration.arguments,
          (declaration.prepare (.literal interface) args).outcome = .error fault := by
  constructor
  · intro signature hverify args
    obtain ⟨call, hcall, houtput⟩ := prepare_verified hverify args
    obtain ⟨f, -, hfunction⟩ := verify_eq_ok hverify
    have hsame : declaration.output.sameType call.output = true := by
      rw [houtput]
      exact (verifyFunction_eq_ok_iff.mp hfunction).2.2
    have hnarrow : declaration.narrow call = .ok call := by
      rw [narrow, Output.narrow_of_sameType (Output.sameType_symm hsame)]
    refine ⟨call, ?_, hcall⟩
    rw [outcome_prepare_literal, hverify, Except.bind, hcall, Except.bind, hnarrow]
  · intro fault hverify args
    rw [outcome_prepare_literal, hverify, Except.bind]

/-- A declaration for the second function of `Interface.ledger`, which gives back a Boolean. -/
def send (result : DeclaredOutput) : Declaration :=
  ⟨"send", .write, [.address, .list (.tuple [.int .w8])], result⟩

theorem prepare_agrees_ledger :
    ((send (.single .bool)).verify .ledger).outcome = .ok
        ⟨"send", [("to", .address), ("notes", .array (.tuple [("level", .int 8)]) .dynamic)],
          [("", .bool)], .nonpayable⟩ ∧
      (∀ args, ∃ call, ((send (.single .bool)).prepare (.literal .ledger) args).outcome = .ok call ∧
        (Call.prepare (.literal .ledger) (send (.single .bool)).signature .write
          (some (StaticType.toValues _ args)) {}).outcome = .ok call) ∧
      ((send .void).verify .ledger).outcome =
        .error (.declarationMismatch "send(address,(int8)[])" "()" "bool") ∧
      ∀ args, ((send .void).prepare (.literal .ledger) args).outcome =
        .error (.declarationMismatch "send(address,(int8)[])" "()" "bool") := by
  have hverified : ((send (.single .bool)).verify .ledger).outcome = .ok
      ⟨"send", [("to", .address), ("notes", .array (.tuple [("level", .int 8)]) .dynamic)],
        [("", .bool)], .nonpayable⟩ := by
    decide +kernel
  have hrefused : ((send .void).verify .ledger).outcome =
      .error (.declarationMismatch "send(address,(int8)[])" "()" "bool") := by
    decide +kernel
  exact ⟨hverified, (prepare_agrees _ _).1 _ hverified, hrefused, (prepare_agrees _ _).2 _ hrefused⟩

end Declaration

end ContractInterface
