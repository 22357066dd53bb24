import ContractInterface.Proofs.WidenedCalls

/-!
# Arguments of calls by a widened description

A call that is prepared by loose records takes its arguments as they are.  Each of them fits the
input at its place, since nothing is known of the input's type, and the access is the one that the
mutability asks for, if the record declares one.  Whether there are as many arguments as inputs is
another matter: a record with that number of inputs is preferred, but if there is none the first of
the name is taken all the same (`Call.prepare_widened_fits`).  `Call.widened_args_exceed_inputs` is
a call with an argument for a function that takes none.
-/

namespace ContractInterface

/-! ## The number of inputs of the record that is found -/

namespace LooseRecord

/-- A record with the given number of inputs is found, or there is none and the first candidate
is. -/
lemma cases_of_find?_with_count {records : List Json} {kind : MemberKind} {reference : String}
    {count : Nat} {record : LooseRecord}
    (h : find? records kind reference (some count) = some record) :
    (record ∈ candidates records kind reference ∧ record.inputCount = count) ∨
      (∀ other ∈ candidates records kind reference, other.inputCount ≠ count) ∧
        (candidates records kind reference).head? = some record := by
  rw [find?_with_count, Option.or_eq_some_iff] at h
  rcases h with hfound | ⟨hnone, hhead⟩
  · have hcount := List.find?_some hfound
    exact .inl ⟨List.mem_of_find?_eq_some hfound, by simpa using hcount⟩
  · refine .inr ⟨fun other hother => ?_, hhead⟩
    simpa using List.find?_eq_none.mp hnone other hother

lemma length_fields (record : LooseRecord) : record.fields.length = record.inputCount := by
  rw [fields, inputNames, List.length_map, List.length_map, inputCount]

lemma type_of_mem_fields {record : LooseRecord} {input : Field} (h : input ∈ record.fields) :
    input.2 = .unknown := by
  obtain ⟨name, -, rfl⟩ := List.mem_map.mp h
  rfl

end LooseRecord

/-- Nothing is asked of a value of unknown type. -/
lemma AbiType.check_unknown (value : Value) : AbiType.unknown.check value = .ok () := by
  cases value <;> rfl

/-! ## Preparing calls -/

namespace Call

/-- A call that is prepared is that of the record that is found, which has the access asked for or
none. -/
lemma exists_record_of_prepare_widened {records : List Json} {reference : String} {access : Access}
    {args : Option (List Value)} {settings : Settings} {call : Call}
    (h : (prepare (.widened records) reference access args settings).outcome = .ok call) :
    ∃ record, LooseRecord.find? records .function reference (some (args.getD []).length) =
        some record ∧
      (∀ m, record.mutability? = some m → m.access = access) ∧
      call = ⟨record.name, none, access, record.mutability?, record.fields, .unknown,
        args.getD []⟩ := by
  cases hfound : LooseRecord.find? records .function reference (some (args.getD []).length) with
  | none =>
      rw [prepare, Traced.outcome_onFault] at h
      simp only [prepareWidened, hfound, Traced.outcome_fail, reduceCtorEq] at h
  | some record =>
      have haccess : ∀ m, record.mutability? = some m → m.access = access := by
        intro m hm
        rw [prepare, Traced.outcome_onFault] at h
        simp only [prepareWidened, hfound] at h
        obtain ⟨prepared, hprepared, -⟩ := Traced.outcome_bind_eq_ok_iff.mp h
        rw [Traced.outcome_ofExcept, ofRecord, hm] at hprepared
        exact requireAccess_eq_ok_iff.mp (check_bind_eq_ok_iff.mp hprepared).1
      have hcall := outcome_prepare_widened hfound haccess settings
      exact ⟨record, rfl, haccess, Except.ok.inj (h.symm.trans hcall)⟩

/-- **What the arguments of a widened call fit.**  A call that is prepared by loose records has the
arguments that were supplied, and each of them passes the check of the input at its place, whose
type is unknown.  If a mutability is known, it asks for the access of the call.  There are as many
arguments as inputs exactly if a record for a function of the name has that number of inputs; if
there is none, the inputs are those of the first record for a function of the name. -/
theorem prepare_widened_fits (records : List Json) (reference : String) (access : Access)
    (args : Option (List Value)) (settings : Settings) (call : Call)
    (hcall : (prepare (.widened records) reference access args settings).outcome = .ok call) :
    call.access = access ∧ call.args = args.getD [] ∧
      (call.args.length = call.inputs.length ↔
        ∃ record ∈ LooseRecord.candidates records .function reference,
          record.inputCount = call.args.length) ∧
      ((∀ record ∈ LooseRecord.candidates records .function reference,
          record.inputCount ≠ call.args.length) →
        ∃ first, (LooseRecord.candidates records .function reference).head? = some first ∧
          call.inputs = first.fields) ∧
      (∀ (index : Nat) (arg : Value) (input : Field), call.args[index]? = some arg →
        call.inputs[index]? = some input →
        input.2 = .unknown ∧ input.2.check arg = .ok ()) ∧
      ∀ m, call.mutability = some m → m.access = call.access := by
  obtain ⟨record, hfound, haccess, rfl⟩ := exists_record_of_prepare_widened hcall
  have hcases := LooseRecord.cases_of_find?_with_count hfound
  refine ⟨rfl, rfl, ?_, ?_, ?_, haccess⟩
  · rw [record.length_fields]
    constructor
    · intro hlength
      rcases hcases with ⟨hrecord, hcount⟩ | ⟨hnone, hhead⟩
      · exact ⟨record, hrecord, hcount⟩
      · exact absurd hlength.symm (hnone record (List.mem_of_head? hhead))
    · rintro ⟨other, hother, hcount⟩
      rcases hcases with ⟨-, hfoundCount⟩ | ⟨hnone, -⟩
      · exact hfoundCount.symm
      · exact absurd hcount (hnone other hother)
  · intro hnone
    rcases hcases with ⟨hrecord, hcount⟩ | ⟨-, hhead⟩
    · exact absurd hcount (hnone record hrecord)
    · exact ⟨record, hhead, rfl⟩
  · intro index arg input _ hinput
    have htype : input.2 = .unknown := LooseRecord.type_of_mem_fields (List.mem_of_getElem? hinput)
    refine ⟨htype, ?_⟩
    rw [htype]
    exact AbiType.check_unknown arg

/-- Of two functions of one name, the call is for the one that takes as many arguments; with three
arguments, which neither takes, it is for the first. -/
theorem prepare_widened_fits_abacus :
    (∃ call, (prepare (.widened LooseRecord.abacus) "sum" .read (some [.bool true]) {}).outcome =
        .ok call ∧
      call.args.length = call.inputs.length ∧
      ∀ m, call.mutability = some m → m.access = call.access) ∧
    ∃ call first, (prepare (.widened LooseRecord.abacus) "sum" .read
        (some [.bool true, .bool true, .bool true]) {}).outcome = .ok call ∧
      (LooseRecord.candidates LooseRecord.abacus .function "sum").head? = some first ∧
      call.inputs = first.fields ∧ call.args.length ≠ call.inputs.length := by
  constructor
  · obtain ⟨call, hcall⟩ := exists_ok_of_isOk
      (x := (prepare (.widened LooseRecord.abacus) "sum" .read (some [.bool true]) {}).outcome)
      (by decide +kernel)
    obtain ⟨-, hargs, hlength, -, -, hmutability⟩ :=
      prepare_widened_fits LooseRecord.abacus "sum" .read (some [.bool true]) {} call hcall
    refine ⟨call, hcall, hlength.mpr ?_, hmutability⟩
    rw [hargs]
    exact ⟨_, List.mem_cons_of_mem _ List.mem_cons_self, rfl⟩
  · obtain ⟨call, hcall⟩ := exists_ok_of_isOk
      (x := (prepare (.widened LooseRecord.abacus) "sum" .read
        (some [.bool true, .bool true, .bool true]) {}).outcome) (by decide +kernel)
    obtain ⟨-, hargs, hlength, hfallback, -, -⟩ :=
      prepare_widened_fits LooseRecord.abacus "sum" .read _ {} call hcall
    have hnone : ∀ record ∈ LooseRecord.candidates LooseRecord.abacus .function "sum",
        record.inputCount ≠ call.args.length := by
      rw [hargs]
      decide +kernel
    obtain ⟨first, hfirst, hinputs⟩ := hfallback hnone
    refine ⟨call, first, hcall, hfirst, hinputs, fun hsame => ?_⟩
    obtain ⟨record, hrecord, hcount⟩ := hlength.mp hsame
    exact hnone record hrecord hcount

/-- A call with an argument for a function whose only record has no inputs. -/
theorem widened_args_exceed_inputs :
    ∃ call, (prepare (.widened [.object [("type", .string "function"), ("name", .string "mint"),
        ("stateMutability", .string "payable"), ("inputs", .array [])]]) "mint" .write
        (some [.uint 1]) {}).outcome = .ok call ∧
      call.args.length = 1 ∧ call.inputs.length = 0 :=
  ⟨_, rfl, rfl, rfl⟩

end Call

end ContractInterface
