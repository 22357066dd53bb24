import ContractInterface.Proofs.Lookup
import ContractInterface.Proofs.PreparedCall

/-!
# Binding arguments

Arguments are held against the inputs of a function in two places.  `accepts` is asked while an
overload is looked for and only says yes or no; `bindArguments` is asked once the function is known
and says what is wrong.  Both go through inputs and arguments side by side, and both would go wrong
on lists of different lengths if they did not look at the lengths: the shorter list would decide.

`bindArguments_reports_first_misfit` says that the two agree, and that a fault of the binding is the
first there is: the number of the arguments if it is wrong, and otherwise the mismatch of the first
argument that does not fit.  `MisfitsFirstAt` is that argument, by its index; how the arguments are
gone through does not come into it.
-/

namespace ContractInterface

/-- Whether the argument at an index fails the check of its input, and with which mismatch, and no
argument before it does. -/
structure MisfitsFirstAt (inputs : List Field) (args : List Value) (index : Nat)
    (mismatch : Mismatch) : Prop where
  misfit : ∃ input arg, inputs[index]? = some input ∧ args[index]? = some arg ∧
    input.2.check arg = .error mismatch
  earlier : ∀ before < index, ∀ input arg, inputs[before]? = some input →
    args[before]? = some arg → input.2.check arg = .ok ()

/-! ## The first argument and the others -/

lemma not_misfitsFirstAt_nil {args : List Value} {index : Nat} {mismatch : Mismatch} :
    ¬MisfitsFirstAt [] args index mismatch := by
  rintro ⟨⟨input, arg, hinput, -⟩, -⟩
  cases hinput

lemma not_misfitsFirstAt_no_args {inputs : List Field} {index : Nat} {mismatch : Mismatch} :
    ¬MisfitsFirstAt inputs [] index mismatch := by
  rintro ⟨⟨input, arg, -, harg, -⟩, -⟩
  cases harg

lemma misfitsFirstAt_zero_iff {input : Field} {inputs : List Field} {arg : Value}
    {args : List Value} {mismatch : Mismatch} :
    MisfitsFirstAt (input :: inputs) (arg :: args) 0 mismatch ↔
      input.2.check arg = .error mismatch := by
  constructor
  · rintro ⟨⟨_, _, hinput, harg, hmisfit⟩, -⟩
    obtain rfl := Option.some.inj hinput
    obtain rfl := Option.some.inj harg
    exact hmisfit
  · intro hmisfit
    refine ⟨⟨input, arg, rfl, rfl, hmisfit⟩, fun before hbefore => ?_⟩
    exact absurd hbefore (Nat.not_lt_zero before)

lemma misfitsFirstAt_succ_iff {input : Field} {inputs : List Field} {arg : Value}
    {args : List Value} {index : Nat} {mismatch : Mismatch} :
    MisfitsFirstAt (input :: inputs) (arg :: args) (index + 1) mismatch ↔
      input.2.check arg = .ok () ∧ MisfitsFirstAt inputs args index mismatch := by
  constructor
  · rintro ⟨hmisfit, hearlier⟩
    refine ⟨hearlier 0 (Nat.succ_pos index) input arg rfl rfl, hmisfit, fun before hbefore => ?_⟩
    exact hearlier (before + 1) (Nat.succ_lt_succ hbefore)
  · rintro ⟨hfirst, hmisfit, hearlier⟩
    refine ⟨hmisfit, fun before hbefore => ?_⟩
    cases before with
    | zero =>
        rintro _ _ hinput harg
        obtain rfl := Option.some.inj hinput
        obtain rfl := Option.some.inj harg
        exact hfirst
    | succ before => exact hearlier before (Nat.lt_of_succ_lt_succ hbefore)

/-! ## The fault of a binding -/

/-- Going through inputs and arguments side by side stops at the first misfit. -/
lemma bindFrom_eq_error_iff {name : String} {start : Nat} {inputs : List Field}
    {args : List Value} {fault : Fault} :
    bindFrom name start inputs args = .error fault ↔
      ∃ index mismatch, MisfitsFirstAt inputs args index mismatch ∧
        fault = .argumentType name (start + index) mismatch := by
  induction inputs generalizing start args with
  | nil => simp [bindFrom, not_misfitsFirstAt_nil]
  | cons input inputs ih =>
      cases args with
      | nil => simp [bindFrom, not_misfitsFirstAt_no_args]
      | cons arg args =>
          -- The first misfit is at the first argument, or one further on than among the others.
          rw [bindFrom, ← Nat.or_exists_add_one]
          simp only [misfitsFirstAt_zero_iff, misfitsFirstAt_succ_iff]
          cases hcheck : input.2.check arg with
          | error mismatch => simp [eq_comm]
          | ok _ => simp [ih, Nat.add_assoc, Nat.add_comm 1]

lemma bindArguments_eq_error_iff {name : String} {inputs : List Field} {args : List Value}
    {fault : Fault} :
    bindArguments name inputs args = .error fault ↔
      (inputs.length ≠ args.length ∧
          fault = .argumentCount name inputs.length args.length) ∨
        inputs.length = args.length ∧
          ∃ index mismatch, MisfitsFirstAt inputs args index mismatch ∧
            fault = .argumentType name index mismatch := by
  rw [bindArguments]
  by_cases hlength : inputs.length = args.length
  · rw [if_pos hlength, bindFrom_eq_error_iff]
    simp [hlength]
  · rw [if_neg hlength]
    simp [hlength, eq_comm]

/-- Only the types of the inputs matter to whether arguments are accepted. -/
lemma accepts_iff_types {fields : List Field} {args : List Value} :
    accepts fields args = true ↔
      List.Forall₂ (fun arg type => type.check arg = .ok ()) args (fields.map Prod.snd) := by
  rw [accepts_iff_forall₂, List.forall₂_map_right_iff]

/-- **Binding agrees with acceptance and reports the first misfit.**  Arguments can be bound exactly
if the types of the inputs accept them.  The fault is their number exactly if it is wrong, and it is
the mismatch of an argument exactly if their number is right and the argument is the first to fail
the check of its input; there is no other fault. -/
theorem bindArguments_reports_first_misfit (name : String) (inputs : List Field)
    (args : List Value) :
    (∀ fields : List Field, fields.map Prod.snd = inputs.map Prod.snd →
        (bindArguments name inputs args = .ok () ↔ accepts fields args = true)) ∧
      (bindArguments name inputs args =
          .error (.argumentCount name inputs.length args.length) ↔
        inputs.length ≠ args.length) ∧
      (∀ index mismatch,
        bindArguments name inputs args = .error (.argumentType name index mismatch) ↔
          inputs.length = args.length ∧ MisfitsFirstAt inputs args index mismatch) ∧
      ∀ fault, bindArguments name inputs args = .error fault →
        fault = .argumentCount name inputs.length args.length ∨
          ∃ index mismatch, fault = .argumentType name index mismatch := by
  refine ⟨fun fields htypes => ?_, ?_, fun index mismatch => ?_, fun fault h => ?_⟩
  · rw [accepts_iff_types, htypes, ← accepts_iff_types, accepts_iff_forall₂,
      bindArguments_eq_ok_iff]
  · simp [bindArguments_eq_error_iff]
  · simp [bindArguments_eq_error_iff]
  · rcases bindArguments_eq_error_iff.mp h with ⟨-, rfl⟩ | ⟨-, index, mismatch, -, rfl⟩
    · exact .inl rfl
    · exact .inr ⟨index, mismatch, rfl⟩

/-- The inputs of a payment. -/
def payment : List Field :=
  [("to", .address), ("coins", .array (.uint 8) .dynamic), ("note", .string)]

/-- Arguments for a payment, of which the coins and the note do not fit. -/
def overpayment : List Value :=
  [.address .zero, .array [.uint 255, .uint 256], .bool true]

/-- The second coin is reported; and the inputs do not accept the arguments, even if their names are
left out. -/
theorem bindArguments_reports_first_misfit_payment :
    (payment.map fun input => ("", input.2)).map Prod.snd = payment.map Prod.snd ∧
      accepts (payment.map fun input => ("", input.2)) overpayment = false ∧
      MisfitsFirstAt payment overpayment 1 ⟨[.item 1], "uint8", "unsigned integer 256"⟩ := by
  have htypes : (payment.map fun input => ("", input.2)).map Prod.snd = payment.map Prod.snd := rfl
  have hbind : bindArguments "pay" payment overpayment =
      .error (.argumentType "pay" 1 ⟨[.item 1], "uint8", "unsigned integer 256"⟩) := by
    decide +kernel
  obtain ⟨haccepts, -, hmisfit, -⟩ :=
    bindArguments_reports_first_misfit "pay" payment overpayment
  refine ⟨htypes, ?_, ((hmisfit 1 _).mp hbind).2⟩
  rw [← Bool.not_eq_true, ← haccepts _ htypes, hbind]
  rintro ⟨⟩

end ContractInterface
