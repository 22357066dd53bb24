import ContractInterface.Proofs.SignatureCalls

/-!
# Room for arguments

In a valid interface every function can be called by its canonical text, with arguments as many as
its inputs and no others, if there is room for them (`Call.every_function_callable`).  Arguments
exist because every type that a parameter can denote has a value; `AbiType.sample` is one.

How many values it consists of is told by the type (`AbiType.demand`): an array of a fixed length
needs that many items, and the lengths of nested arrays multiply.  This is also the least number
(`AbiType.demand_le_size`), if no record can do with one entry for several components.  So a
description can ask for more than any memory has room for (`Call.census_exceeds_memory`).
-/

namespace ContractInterface

/-! ## A value of every type -/

namespace AbiType

mutual

/-- A value of the type: zero, empty, or made of such values. -/
def sample : AbiType → Value
  | .uint _ => .uint 0
  | .int _ => .int 0
  | .fixedBytes length => .fixedBytes (List.replicate length 0)
  | .bytes => .bytes []
  | .bool => .bool false
  | .address => .address .zero
  | .string => .string ""
  | .tuple fields => .tuple (sampleFields fields)
  | .array _ .dynamic => .array []
  | .array element (.fixed length) => .array (List.replicate length element.sample)
  | .unknown => .bool false

/-- A value for each of some fields. -/
def sampleFields : List Field → List Value
  | [] => []
  | (_, type) :: fields => type.sample :: sampleFields fields

end

lemma inhabits_sampleFields {fields : List Field}
    (h : ∀ field ∈ fields, Inhabits field.2.sample field.2) :
    List.Forall₂ (fun arg field => Inhabits arg field.2) (sampleFields fields) fields := by
  induction fields with
  | nil => exact .nil
  | cons field fields ih =>
      obtain ⟨hfield, hfields⟩ := List.forall_mem_cons.mp h
      exact .cons hfield (ih hfields)

lemma inhabits_sample_leaf {s : AbiType} (hs : s.isLeaf = true) (hwidth : s.PositiveWidth) :
    Inhabits s.sample s := by
  cases s with
  | uint bits => exact .uint (Nat.two_pow_pos bits)
  | int bits =>
      have hbits : bitsUsed (if (0 : BitVec 256).msb then ~~~0 else 0) ≤ bits - 1 := by
        rw [if_neg (by decide), bitsUsed_zero]
        exact Nat.zero_le _
      obtain ⟨hlow, hhigh⟩ := bitsUsed_magnitude_le_iff.mp hbits
      exact .int hwidth hlow hhigh
  | fixedBytes length => simpa [sample] using Inhabits.fixedBytes (List.replicate length 0)
  | bytes => exact .bytes []
  | bool => exact .bool false
  | address => exact .address .zero
  | string => exact .string ""
  | unknown => exact .unknown _
  | tuple | array => cases hs

/-- **Every type has a value**, provided that its integers all have a bit. -/
lemma inhabits_sample {s : AbiType} (hwidths : s.Every PositiveWidth) : Inhabits s.sample s := by
  induction s using induction_on_parts with
  | leaf s hs => exact inhabits_sample_leaf hs ((every_leaf hs).mp hwidths)
  | tuple fields ih =>
      obtain ⟨-, hfields⟩ := every_tuple.mp hwidths
      refine inhabits_tuple_iff.mpr (inhabits_sampleFields fun field hfield => ?_)
      exact ih field hfield (hfields field hfield)
  | array element extent ih =>
      obtain ⟨-, helement⟩ := every_array.mp hwidths
      cases extent with
      | dynamic => exact .dynamicArray (by simp)
      | fixed length =>
          refine inhabits_array_iff.mpr ⟨by simp [Extent.admits], fun item hitem => ?_⟩
          obtain ⟨-, rfl⟩ := List.mem_replicate.mp hitem
          exact ih helement

end AbiType

/-- What a parameter denotes has a value. -/
lemma Parameter.Denotes.inhabits_sample {p : Parameter} {field : Field} (h : p.Denotes field) :
    Inhabits field.2.sample field.2 := by
  have hregular : field.2.Every AbiType.RegularHead := Parameter.regular_of_resolveBelow h.2
  exact AbiType.inhabits_sample (hregular.imp fun s => AbiType.positiveWidth_of_regularHead)

/-! ## The size of a value -/

namespace Value

mutual

/-- The number of values that a value consists of, itself among them. -/
def size : Value → Nat
  | .array items | .tuple items => totalSize items + 1
  | .record entries => entriesSize entries + 1
  | _ => 1

/-- The number of values that some values consist of. -/
def totalSize : List Value → Nat
  | [] => 0
  | value :: values => value.size + totalSize values

/-- The number of values that the entries of a record consist of. -/
def entriesSize : List (String × Value) → Nat
  | [] => 0
  | (_, value) :: entries => value.size + entriesSize entries

end

lemma size_pos (value : Value) : 0 < value.size := by
  cases value <;> simp [size]

lemma totalSize_replicate (length : Nat) (value : Value) :
    totalSize (List.replicate length value) = length * value.size := by
  induction length with
  | zero => simp [totalSize]
  | succ length ih => rw [List.replicate_succ, totalSize, ih, Nat.succ_mul, Nat.add_comm]

lemma mul_le_totalSize {least : Nat} {values : List Value}
    (h : ∀ value ∈ values, least ≤ value.size) : values.length * least ≤ totalSize values := by
  induction values with
  | nil => simp
  | cons value values ih =>
      obtain ⟨hvalue, hvalues⟩ := List.forall_mem_cons.mp h
      have hrest := ih hvalues
      rw [totalSize, List.length_cons, Nat.succ_mul]
      omega

lemma entriesSize_filter_le (keep : String × Value → Bool) (entries : List (String × Value)) :
    entriesSize (entries.filter keep) ≤ entriesSize entries := by
  induction entries with
  | nil => exact Nat.le_refl _
  | cons entry entries ih =>
      rw [List.filter_cons, entriesSize]
      split_ifs
      · rw [entriesSize]
        omega
      · omega

/-- The entry that a key finds, and the entries under other keys, are different entries. -/
lemma add_entriesSize_filter_le {entries : List (String × Value)} {key : String} {value : Value}
    (h : entries.lookup key = some value) :
    value.size + entriesSize (entries.filter fun entry => entry.1 != key) ≤
      entriesSize entries := by
  induction entries with
  | nil => cases h
  | cons entry entries ih =>
      obtain ⟨name, first⟩ := entry
      rw [List.filter_cons, entriesSize]
      by_cases hkey : name = key
      · have hfirst : first = value := by simpa [List.lookup_cons, hkey] using h
        have hrest := entriesSize_filter_le (fun entry => entry.1 != key) entries
        simp only [hkey, bne_self_eq_false, Bool.false_eq_true, if_false, hfirst]
        omega
      · have hlookup : entries.lookup key = some value := by
          simpa [List.lookup_cons, beq_false_of_ne (Ne.symm hkey)] using h
        have hrest := ih hlookup
        simp only [bne_iff_ne, ne_eq, hkey, not_false_eq_true, if_true, entriesSize]
        omega

end Value

lemma lookup_filter_of_ne {entries : List (String × Value)} {key other : String}
    (h : other ≠ key) :
    (entries.filter fun entry => entry.1 != key).lookup other = entries.lookup other := by
  induction entries with
  | nil => rfl
  | cons entry entries ih =>
      obtain ⟨name, value⟩ := entry
      rw [List.filter_cons, List.lookup_cons]
      by_cases hkey : name = key
      · simp [hkey, ih, beq_false_of_ne h]
      · simp [hkey, List.lookup_cons, ih]

namespace AbiType

mutual

/-- The number of values in a value of the type whose arrays of no fixed length are empty. -/
def demand : AbiType → Nat
  | .tuple fields => totalDemand fields + 1
  | .array element (.fixed length) => length * element.demand + 1
  | _ => 1

/-- The number of values in such values of some fields. -/
def totalDemand : List Field → Nat
  | [] => 0
  | (_, type) :: fields => type.demand + totalDemand fields

end

lemma totalSize_sampleFields {fields : List Field}
    (h : ∀ field ∈ fields, field.2.sample.size = field.2.demand) :
    Value.totalSize (sampleFields fields) = totalDemand fields := by
  induction fields with
  | nil => rfl
  | cons field fields ih =>
      obtain ⟨hfield, hfields⟩ := List.forall_mem_cons.mp h
      rw [sampleFields, Value.totalSize, totalDemand, hfield, ih hfields]

lemma size_sample (s : AbiType) : s.sample.size = s.demand := by
  induction s using induction_on_parts with
  | leaf s hs => cases s <;> first | rfl | cases hs
  | tuple fields ih => rw [sample, Value.size, demand, totalSize_sampleFields ih]
  | array element extent ih =>
      cases extent with
      | dynamic => rfl
      | fixed length => rw [sample, Value.size, demand, Value.totalSize_replicate, ih]

/-! ## The least size of a value of a type -/

/-- Whether a type, if it is a tuple that can be given as a record, names each component in its own
way.  An entry of a record could stand for several components of one name. -/
def DistinctNames : AbiType → Prop
  | .tuple fields => (∀ field ∈ fields, field.1 ≠ "") → (fields.map Prod.fst).Nodup
  | _ => True

lemma totalDemand_le_totalSize {fields : List Field} {values : List Value}
    (h : List.Forall₂ (fun value field => field.2.demand ≤ value.size) values fields) :
    totalDemand fields ≤ Value.totalSize values := by
  induction h with
  | nil => exact Nat.le_refl _
  | cons hfirst _ ih =>
      rw [totalDemand, Value.totalSize]
      omega

lemma totalDemand_le_entriesSize {fields : List Field} {entries : List (String × Value)}
    (hnames : (fields.map Prod.fst).Nodup)
    (h : ∀ field ∈ fields, ∃ v, entries.lookup field.1 = some v ∧ field.2.demand ≤ v.size) :
    totalDemand fields ≤ Value.entriesSize entries := by
  -- The entry of the first component is taken out; the others are found among what is left.
  induction fields generalizing entries with
  | nil => exact Nat.zero_le _
  | cons field fields ih =>
      obtain ⟨hnew, hrest⟩ := List.nodup_cons.mp hnames
      obtain ⟨⟨v, hv, hsize⟩, hfields⟩ := List.forall_mem_cons.mp h
      have hothers := @ih (entries.filter fun entry => entry.1 != field.1) hrest
        fun other hother => by
          have hne : other.1 ≠ field.1 := fun hsame => hnew (hsame ▸ List.mem_map_of_mem hother)
          rw [lookup_filter_of_ne hne]
          exact hfields other hother
      have hparts := Value.add_entriesSize_filter_le hv
      rw [totalDemand]
      omega

/-- **No value of a type is smaller than the type demands.** -/
lemma demand_le_size {v : Value} {s : AbiType} (h : Inhabits v s)
    (hnames : s.Every DistinctNames) : s.demand ≤ v.size := by
  induction h with
  | fixedArray hitems ih =>
      rw [demand, Value.size]
      exact Nat.succ_le_succ
        (Value.mul_le_totalSize fun item hitem => ih item hitem (every_array.mp hnames).2)
  | @tuple items fields hlength hitems ih =>
      rw [demand, Value.size]
      refine Nat.succ_le_succ (totalDemand_le_totalSize ?_)
      refine List.forall₂_iff_zip.mpr ⟨hlength, fun {item field} hpair => ?_⟩
      exact ih (item, field) hpair ((every_tuple.mp hnames).2 field (List.of_mem_zip hpair).2)
  | @record entries fields hnamed hfound hfits hkeys ih =>
      obtain ⟨hdistinct, hfields⟩ := every_tuple.mp hnames
      rw [demand, Value.size]
      refine Nat.succ_le_succ (totalDemand_le_entriesSize (hdistinct hnamed) fun field hfield => ?_)
      obtain ⟨v, hv⟩ := hfound field hfield
      exact ⟨v, hv, ih field hfield v hv (hfields field hfield)⟩
  | unknown v => exact v.size_pos
  | _ => exact Value.size_pos _

end AbiType

/-! ## Calling every function -/

namespace Call

/-- A function that serves the access and whose types resolve is refused for the number of arguments
if there are not as many as inputs. -/
lemma ofFunction_of_length_ne {f : Function} {signature : FunctionSignature}
    (hsignature : f.signature = .ok signature) {args : List Value}
    (hlength : args.length ≠ f.inputs.length) :
    ofFunction f f.mutability.access args =
      .error (.argumentCount f.name f.inputs.length args.length) := by
  have haccess : requireAccess f.name f.mutability f.mutability.access = .ok () :=
    requireAccess_eq_ok_iff.mpr rfl
  obtain ⟨inputs, outputs, hinputs, -, hparts⟩ := Function.signature_eq_ok_iff.mp hsignature
  have hcount : inputs.length = f.inputs.length :=
    (resolveFields_eq_ok_iff.mp hinputs).length_eq.symm
  have hbind : bindArguments f.name inputs args =
      .error (.argumentCount f.name f.inputs.length args.length) := by
    rw [bindArguments, hcount, if_neg hlength.symm]
  rw [ofFunction, haccess, hsignature, hparts]
  simp [asFault, hbind, bind, Except.bind]

/-- Arguments that a function takes are not smaller than its inputs demand. -/
lemma totalDemand_le_of_ofFunction {f : Function} {signature : FunctionSignature}
    (hsignature : f.signature = .ok signature)
    (hnames : ∀ input ∈ signature.inputs, input.2.Every AbiType.DistinctNames) {access : Access}
    {args : List Value} {call : Call} (h : ofFunction f access args = .ok call) :
    AbiType.totalDemand signature.inputs ≤ Value.totalSize args := by
  obtain ⟨-, found, hfound, hchecks, -⟩ := ofFunction_eq_ok_iff.mp h
  obtain rfl : signature = found := Except.ok.inj (hsignature.symm.trans hfound)
  obtain ⟨inputs, outputs, hinputs, -, rfl⟩ := Function.signature_eq_ok_iff.mp hsignature
  have hargs := inhabits_of_check_inputs (resolveFields_eq_ok_iff.mp hinputs) hchecks
  obtain ⟨hlength, hinhabits⟩ := List.forall₂_iff_zip.mp hargs
  refine AbiType.totalDemand_le_totalSize (List.forall₂_iff_zip.mpr ⟨hlength, ?_⟩)
  intro arg input hpair
  exact AbiType.demand_le_size (hinhabits hpair) (hnames input (List.of_mem_zip hpair).2)

/-- **Every function of a valid interface can be called, with the right number of arguments only.**
Take a function whose name has neither parentheses nor blanks.  If there is room for as many values
as its inputs demand, there are arguments within that room, values of the types of its inputs, with
which it is called by its canonical text.  With less room there are none, unless a record can do
with one entry for several components.  With any other number of arguments the call is refused for
that number, and for nothing else. -/
theorem every_function_callable (interface : Interface) (hvalid : interface.validate = .ok ())
    (f : Function) (hmem : Entry.function f ∈ interface.entries) (hparen : '(' ∉ f.name.toList)
    (hblank : ∀ c ∈ f.name.toList, Text.isBlank c = false) (settings : Settings) :
    ∃ signature, f.signature = .ok signature ∧
      (∀ room, AbiType.totalDemand signature.inputs ≤ room →
        ∃ args call, List.Forall₂ (fun arg input => Inhabits arg input.2) args signature.inputs ∧
          Value.totalSize args ≤ room ∧
          (prepare (.literal interface) signature.canonical f.mutability.access (some args)
            settings).outcome = .ok call) ∧
      ((∀ input ∈ signature.inputs, input.2.Every AbiType.DistinctNames) → ∀ args call,
        (prepare (.literal interface) signature.canonical f.mutability.access (some args)
          settings).outcome = .ok call →
          AbiType.totalDemand signature.inputs ≤ Value.totalSize args) ∧
      ∀ args : List Value, args.length ≠ f.inputs.length →
        (prepare (.literal interface) signature.canonical f.mutability.access (some args)
          settings).outcome = .error (.argumentCount f.name f.inputs.length args.length) := by
  obtain ⟨hsignatures, -⟩ := Interface.validate_eq_ok_iff.mp hvalid
  obtain ⟨signature, hsignature⟩ : ∃ signature, f.signature = .ok signature :=
    exists_ok_of_map (hsignatures _ hmem)
  have hprepare := prepare_by_signature hvalid hmem hparen hblank hsignature
  refine ⟨signature, hsignature, fun room hroom => ?_, fun hnames args call hcall => ?_,
    fun args hlength => ?_⟩
  · obtain ⟨inputs, outputs, hinputs, -, rfl⟩ := Function.signature_eq_ok_iff.mp hsignature
    have hargs := AbiType.inhabits_sampleFields fun input hinput => by
      obtain ⟨p, -, hdenotes⟩ := exists_mem_of_forall₂ (resolveFields_eq_ok_iff.mp hinputs) hinput
      exact hdenotes.inhabits_sample
    have hsize : Value.totalSize (AbiType.sampleFields inputs) = AbiType.totalDemand inputs :=
      AbiType.totalSize_sampleFields fun input _ => input.2.size_sample
    have hchecks := hargs.imp fun arg input => check_eq_ok_of_inhabits
    have hcall := ofFunction_eq_ok_iff.mpr ⟨rfl, _, hsignature, hchecks, rfl⟩
    exact ⟨_, _, hargs, hsize.trans_le hroom, (hprepare _ _ settings).trans hcall⟩
  · rw [hprepare] at hcall
    exact totalDemand_le_of_ofFunction hsignature hnames hcall
  · rw [hprepare]
    exact ofFunction_of_length_ne hsignature hlength

end Call

/-- A function that takes as many numbers as are given, and a list of pairs of tuples. -/
def Function.census (length : String) : Function :=
  ⟨"census", [⟨"counts", "uint8[" ++ length ++ "]", none, none⟩,
    ⟨"ranges", "tuple[2][]", some [⟨"low", "int16", none, none⟩, ⟨"", "bytes4", none, none⟩],
      none⟩], [], .view⟩

/-- The signature of the function. -/
def FunctionSignature.census (length : Nat) : FunctionSignature :=
  ⟨"census", [("counts", .array (.uint 8) (.fixed length)),
    ("ranges", .array (.array (.tuple [("low", .int 16), ("", .fixedBytes 4)]) (.fixed 2))
      .dynamic)], [], .view⟩

lemma FunctionSignature.distinctNames_census (length : Nat) :
    ∀ input ∈ (FunctionSignature.census length).inputs, input.2.Every AbiType.DistinctNames := by
  simp [census, AbiType.Every, AbiType.EveryField, AbiType.DistinctNames]

lemma FunctionSignature.totalDemand_census (length : Nat) :
    AbiType.totalDemand (FunctionSignature.census length).inputs = length + 2 := by
  simp [census, AbiType.totalDemand, AbiType.demand]

/-- An interface with two functions of one name. -/
def Interface.registrar (length : String) : Interface :=
  ⟨[.function ⟨"census", [⟨"year", "uint", none, none⟩], [], .nonpayable⟩,
    .function (.census length)]⟩

/-- Twelve numbers take room for fourteen values and no less; and a call with one argument, as the
other function takes it, is refused. -/
theorem Call.every_function_callable_registrar :
    (Interface.registrar "12").validate = .ok () ∧
      Entry.function (.census "12") ∈ (Interface.registrar "12").entries ∧
      '(' ∉ (Function.census "12").name.toList ∧
      (∀ c ∈ (Function.census "12").name.toList, Text.isBlank c = false) ∧
      ∃ signature, (Function.census "12").signature = .ok signature ∧
        (∃ args call, Value.totalSize args ≤ 14 ∧
          (prepare (.literal (.registrar "12")) signature.canonical .read (some args)
            {}).outcome = .ok call) ∧
        (∀ args call, (prepare (.literal (.registrar "12")) signature.canonical .read (some args)
          {}).outcome = .ok call → 14 ≤ Value.totalSize args) ∧
        (prepare (.literal (.registrar "12")) signature.canonical .read (some [.uint 1950])
          {}).outcome = .error (.argumentCount "census" 2 1) := by
  have hvalid : (Interface.registrar "12").validate = .ok () := by decide +kernel
  have hmem : Entry.function (.census "12") ∈ (Interface.registrar "12").entries := by
    simp [Interface.registrar]
  have hparen : '(' ∉ (Function.census "12").name.toList := by decide +kernel
  have hblank : ∀ c ∈ (Function.census "12").name.toList, Text.isBlank c = false :=
    Text.isBlank_of_any_eq_false (by decide +kernel)
  obtain ⟨signature, hsignature, hroom, hleast, hcount⟩ :=
    Call.every_function_callable (.registrar "12") hvalid (.census "12") hmem hparen hblank {}
  have hcensus : (Function.census "12").signature = .ok (.census 12) := by decide +kernel
  obtain rfl : .census 12 = signature := Except.ok.inj (hcensus.symm.trans hsignature)
  rw [FunctionSignature.totalDemand_census] at hroom hleast
  obtain ⟨args, call, -, hargs, hcall⟩ := hroom 14 (Nat.le_refl _)
  exact ⟨hvalid, hmem, hparen, hblank, _, hsignature, ⟨args, call, hargs, hcall⟩,
    hleast (FunctionSignature.distinctNames_census 12), hcount [.uint 1950] (by decide)⟩

/-- **A function may ask for more than there is room for.**  A type can name lengths of up to
`2 ^ 64 - 1`.  If an input has that length, arguments that are taken consist of more than `2 ^ 64`
values; so none are taken if there are no more addresses than that. -/
theorem Call.census_exceeds_memory :
    (Interface.registrar "18446744073709551615").validate = .ok () ∧
      Entry.function (.census "18446744073709551615") ∈
        (Interface.registrar "18446744073709551615").entries ∧
      '(' ∉ (Function.census "18446744073709551615").name.toList ∧
      (∀ c ∈ (Function.census "18446744073709551615").name.toList, Text.isBlank c = false) ∧
      ∃ signature, (Function.census "18446744073709551615").signature = .ok signature ∧
        ∀ settings args call, Value.totalSize args ≤ 18446744073709551616 →
          (prepare (.literal (.registrar "18446744073709551615")) signature.canonical .read
            (some args) settings).outcome ≠ .ok call := by
  have hvalid : (Interface.registrar "18446744073709551615").validate = .ok () := by
    decide +kernel
  have hmem : Entry.function (.census "18446744073709551615") ∈
      (Interface.registrar "18446744073709551615").entries := by
    simp [Interface.registrar]
  have hparen : '(' ∉ (Function.census "18446744073709551615").name.toList := by decide +kernel
  have hblank : ∀ c ∈ (Function.census "18446744073709551615").name.toList,
      Text.isBlank c = false :=
    Text.isBlank_of_any_eq_false (by decide +kernel)
  have hcensus : (Function.census "18446744073709551615").signature =
      .ok (.census 18446744073709551615) := by
    decide +kernel
  refine ⟨hvalid, hmem, hparen, hblank, _, hcensus, fun settings args call hroom hcall => ?_⟩
  rw [prepare_by_signature hvalid hmem hparen hblank hcensus] at hcall
  have hleast :=
    totalDemand_le_of_ofFunction hcensus (FunctionSignature.distinctNames_census _) hcall
  rw [FunctionSignature.totalDemand_census] at hleast
  exact absurd (hleast.trans hroom) (by decide)

end ContractInterface
