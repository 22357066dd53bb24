import ContractInterface.Proofs.Declaration

/-!
# What a mismatch of outputs shows

A declared function that gives back something else than declared is refused with two texts, that of
the declared output and that of the function's.  Outputs are compared with what they are, but their
texts do not show it: nothing, several results and one result that is a tuple are all written as a
list in parentheses.

So the two texts of a mismatch need not differ.  `Output.text_eq_iff` says when they do not: an
output is written as a type (`Output.asType`), and by its canonical text only this type can be told.
The rest is `Declaration.mismatch_shows_difference`: both texts are the same exactly if both outputs
are lists of the same types.
-/

namespace ContractInterface

/-! ## Texts of outputs -/

namespace Output

/-- The type that an output is written as. -/
def asType : Output → AbiType
  | .void => .tuple []
  | .single type => type
  | .record fields => .tuple fields
  | .unknown => .unknown

lemma text_eq_canonical (output : Output) : output.text = output.asType.canonical := by
  cases output <;> rfl

lemma text_eq_iff {output output' : Output} :
    output.text = output'.text ↔ output.asType.sameType output'.asType = true := by
  rw [text_eq_canonical, text_eq_canonical, AbiType.canonical_eq_iff]

/-- Whether two outputs are written as lists of the same types, be it as nothing, as one tuple or as
several results. -/
def ListsAlike (output output' : Output) : Prop :=
  ∃ fs gs, output.asType = .tuple fs ∧ output'.asType = .tuple gs ∧
    AbiType.sameFields fs gs = true

lemma isUnknown_ofFields (fields : List Field) : (ofFields fields).isUnknown = false := by
  rcases fields with _ | ⟨field, _ | ⟨second, rest⟩⟩ <;> rfl

/-- A known output that is not one value is a list. -/
lemma exists_asType_eq_tuple {output : Output} (hknown : output.isUnknown = false)
    (hsingle : ∀ type, output ≠ .single type) : ∃ fields, output.asType = .tuple fields := by
  cases output with
  | void => exact ⟨[], rfl⟩
  | single type => exact absurd rfl (hsingle type)
  | record fields => exact ⟨fields, rfl⟩
  | unknown => cases hknown

/-- Known outputs that are not the same are written alike exactly if they are lists of the same
types. -/
lemma text_eq_iff_listsAlike {output output' : Output} (hknown : output.isUnknown = false)
    (hknown' : output'.isUnknown = false) (hdiffer : output.sameType output' = false) :
    output.text = output'.text ↔ output.ListsAlike output' := by
  rw [text_eq_iff]
  constructor
  · intro h
    by_cases hsingle : ∀ type, output ≠ .single type
    · obtain ⟨fs, hfs⟩ := exists_asType_eq_tuple hknown hsingle
      rw [hfs] at h
      obtain ⟨gs, hgs, hsame⟩ := AbiType.sameType_tuple_left.mp h
      exact ⟨fs, gs, hfs, hgs, AbiType.sameFields_iff_forall₂.mpr hsame⟩
    · push Not at hsingle
      obtain ⟨type, rfl⟩ := hsingle
      -- Two single values of the same type are the same, so the other output is a list.
      have hsingle' : ∀ type', output' ≠ .single type' := by
        rintro type' rfl
        exact Bool.false_ne_true (hdiffer.symm.trans h)
      obtain ⟨gs, hgs⟩ := exists_asType_eq_tuple hknown' hsingle'
      rw [hgs] at h
      obtain ⟨fs, hfs, hsame⟩ := AbiType.sameType_tuple_left.mp (AbiType.sameType_symm h)
      exact ⟨fs, gs, hfs, hgs, AbiType.sameFields_symm (AbiType.sameFields_iff_forall₂.mpr hsame)⟩
  · rintro ⟨fs, gs, hfs, hgs, hsame⟩
    rw [hfs, hgs]
    exact hsame

end Output

lemma DeclaredOutput.isUnknown_output (result : DeclaredOutput) :
    result.output.isUnknown = false := by
  cases result <;> rfl

namespace Declaration

/-! ## Where a mismatch comes from -/

/-- A function is refused for its output if nothing else is wrong with it. -/
lemma verifyFunction_eq_mismatch_iff {declaration : Declaration} {f : Function}
    {name declared resolved : String} :
    declaration.verifyFunction f = .error (.declarationMismatch name declared resolved) ↔
      f.mutability.access = declaration.access ∧ ∃ signature, f.signature = .ok signature ∧
        declaration.output.sameType signature.output = false ∧ name = declaration.signature ∧
          declared = declaration.output.text ∧ resolved = signature.output.text := by
  have haccess : requireAccess f.name f.mutability declaration.access ≠
      .error (.declarationMismatch name declared resolved) := by
    rw [requireAccess]
    split_ifs <;> simp
  have htypes : asFault f.signature ≠ .error (.declarationMismatch name declared resolved) := by
    simp [asFault_eq_error_iff]
  rw [verifyFunction, check_bind_eq_error_iff, or_iff_right haccess, requireAccess_eq_ok_iff,
    bind_eq_error_iff, or_iff_right htypes]
  refine and_congr_right fun _ => exists_congr fun signature => ?_
  rw [asFault_eq_ok_iff]
  refine and_congr_right fun _ => ?_
  cases declaration.output.sameType signature.output <;> simp [pure, Except.pure, eq_comm]

/-- A mismatch is reported about the function that has the declared canonical text. -/
lemma verify_eq_mismatch {declaration : Declaration} {interface : Interface}
    {name declared resolved : String}
    (h : (declaration.verify interface).outcome =
      .error (.declarationMismatch name declared resolved)) :
    ∃ f, (interface.lookup .function declaration.signature none {}).outcome = .ok (.function f) ∧
      declaration.verifyFunction f = .error (.declarationMismatch name declared resolved) := by
  rw [verify] at h
  rcases Traced.outcome_bind_eq_error_iff.mp h with hlookup | ⟨entry, hlookup, hverify⟩
  · rcases Interface.fault_of_lookup_none hlookup with ⟨_, hfault⟩ | hfault | ⟨_, hfault⟩ <;>
      cases hfault
  · rcases bind_eq_error_iff.mp hverify with hrequire | ⟨f, hrequire, hfunction⟩
    · cases entry <;> cases hrequire
    · obtain rfl := Call.eq_of_requireFunction hrequire
      exact ⟨f, hlookup, hfunction⟩

/-- **What a mismatch shows.**  If a declaration is refused for its output, then a function with the
declared canonical text is found that serves the declared access, and the texts are those of the
declared output and of the function's, which are not the same output.  The texts differ unless both
outputs are lists of the same types, as a tuple and results of the types of its components are. -/
theorem mismatch_shows_difference (declaration : Declaration) (interface : Interface)
    (name declared resolved : String)
    (h : (declaration.verify interface).outcome =
      .error (.declarationMismatch name declared resolved)) :
    ∃ f signature,
      (interface.lookup .function declaration.signature none {}).outcome = .ok (.function f) ∧
      f.mutability.access = declaration.access ∧ f.signature = .ok signature ∧
      name = declaration.signature ∧ declared = declaration.output.text ∧
      resolved = signature.output.text ∧
      declaration.output.sameType signature.output = false ∧
      (declared = resolved ↔ declaration.output.ListsAlike signature.output) := by
  obtain ⟨f, hlookup, hfunction⟩ := verify_eq_mismatch h
  obtain ⟨haccess, signature, hsignature, hdiffer, hname, rfl, rfl⟩ :=
    verifyFunction_eq_mismatch_iff.mp hfunction
  exact ⟨f, signature, hlookup, haccess, hsignature, hname, rfl, rfl, hdiffer,
    Output.text_eq_iff_listsAlike declaration.result.isUnknown_output
      (Output.isUnknown_ofFields signature.outputs) hdiffer⟩

/-- A declaration of a function that is read and takes no arguments. -/
def pair (result : DeclaredOutput) : Declaration := ⟨"pair", .read, [], result⟩

end Declaration

/-- An interface with a function that gives back one tuple. -/
def Interface.pairing : Interface :=
  ⟨[.function ⟨"pair", [], [⟨"t", "tuple", some [⟨"a", "uint256", none, none⟩,
    ⟨"b", "bool", none, none⟩], none⟩], .view⟩]⟩

namespace Declaration

/-- A declaration of one number is told apart from the tuple, and one of two results is not. -/
theorem mismatch_shows_difference_pairing :
    ((pair (.single (.uint .w256))).verify .pairing).outcome =
        .error (.declarationMismatch "pair()" "uint256" "(uint256,bool)") ∧
      ((pair (.record [.uint .w256, .bool])).verify .pairing).outcome =
        .error (.declarationMismatch "pair()" "(uint256,bool)" "(uint256,bool)") ∧
      ∃ f signature, (Interface.pairing.lookup .function "pair()" none {}).outcome =
          .ok (.function f) ∧ f.signature = .ok signature ∧
        (pair (.record [.uint .w256, .bool])).output.sameType signature.output = false ∧
        (pair (.record [.uint .w256, .bool])).output.ListsAlike signature.output := by
  have hnumber : ((pair (.single (.uint .w256))).verify .pairing).outcome =
      .error (.declarationMismatch "pair()" "uint256" "(uint256,bool)") := by
    decide +kernel
  have hresults : ((pair (.record [.uint .w256, .bool])).verify .pairing).outcome =
      .error (.declarationMismatch "pair()" "(uint256,bool)" "(uint256,bool)") := by
    decide +kernel
  have hsignature : (pair (.record [.uint .w256, .bool])).signature = "pair()" := by decide +kernel
  obtain ⟨f, signature, hlookup, -, hresolved, -, -, -, hdiffer, halike⟩ :=
    mismatch_shows_difference _ _ _ _ _ hresults
  rw [hsignature] at hlookup
  exact ⟨hnumber, hresults, f, signature, hlookup, hresolved, hdiffer, halike.mp rfl⟩

/-- The texts of a mismatch can be the same. -/
theorem mismatch_of_equal_texts :
    ∃ (declaration : Declaration) (interface : Interface) (name text : String),
      (declaration.verify interface).outcome =
        .error (.declarationMismatch name text text) :=
  ⟨pair (.record [.uint .w256, .bool]), .pairing, "pair()", "(uint256,bool)", by decide +kernel⟩

end Declaration

end ContractInterface
