import ContractInterface.Proofs.LooseRecords
import ContractInterface.Proofs.SignatureCalls
import Mathlib.Data.List.Pairwise

/-!
# Calls by a widened description

A widened description knows less than the literal one that the same JSON gives: names, numbers of
inputs and, mostly, mutabilities.  Where a call can be prepared by the literal description, it can
also be prepared by the widened one, and tells the same as far as names and numbers go
(`Call.prepare_widened_of_literal`).

The two ways part at the choice among functions of one name.  One looks at the types of the inputs,
or at a canonical text; the other only counts the arguments.  So the statement is about interfaces
in which functions of one name differ in their numbers of inputs, and about references without
blanks, which only one of the ways removes.
-/

namespace ContractInterface

open Json (Fragment Document)

/-! ## An interface and records of the same JSON -/

/-- Whether an interface and loose records are given by the same JSON, parsed or as a text. -/
inductive SameSource (interface : Interface) (records : List Json) : Prop
  | json {json : Json} (hliteral : Interface.ofJson json = .ok interface)
      (hwidened : Description.widenedOfJson json = .ok (.widened records))
  | text {text : String} (hliteral : Interface.ofText text = .ok interface)
      (hwidened : Description.widenedOfText text = .ok (.widened records))

namespace SameSource

variable {interface : Interface} {records : List Json}

/-- What both are read from is a fragment of the records. -/
lemma exists_fragment (h : SameSource interface records) :
    ∃ fragment : Fragment, fragment.IsOf (.array records) ∧
      Interface.decode fragment = .ok interface := by
  cases h with
  | @json json hliteral hwidened =>
      obtain rfl : json = .array records := by
        cases json <;> simp_all [Description.widenedOfJson, Json.array?]
      exact ⟨_, .inl rfl, hliteral⟩
  | @text text hliteral hwidened =>
      rw [Interface.ofText] at hliteral
      obtain ⟨found, hdecode, hended⟩ := bind_eq_ok_iff.mp hliteral
      split_ifs at hended with hisEnded
      cases hended
      have hread : Json.parse? text = some (.array records) := by
        rw [Description.widenedOfText] at hwidened
        split at hwidened
        · next found hfound =>
          cases hwidened
          obtain ⟨json, hparse, hlist⟩ := Option.bind_eq_some_iff.mp hfound
          cases json <;> simp_all [Json.array?]
        · split at hwidened <;> cases hwidened
      rw [Json.parse?, Document.value?, if_pos hisEnded] at hread
      exact ⟨_, .inr hread, hdecode⟩

/-- Each entry is decoded from a fragment of its record. -/
lemma forall₂_decode (h : SameSource interface records) :
    List.Forall₂ (fun record entry =>
      ∃ fragment : Fragment, fragment.IsOf record ∧ Entry.decode fragment = .ok entry)
      records interface.entries := by
  obtain ⟨fragment, hof, hdecode⟩ := h.exists_fragment
  obtain ⟨entries, hentries, hresult⟩ := bind_eq_ok_iff.mp hdecode
  cases hresult
  obtain ⟨items, hitems, hdecoded⟩ := hof.forall₂_of_decodeList hentries
  cases hitems
  exact hdecoded

lemma describes (h : SameSource interface records) {members : List (String × Json)} {entry : Entry}
    (hpair : (Json.object members, entry) ∈ records.zip interface.entries) :
    (LooseRecord.mk members).Describes entry := by
  obtain ⟨fragment, hof, hdecode⟩ := List.forall₂_zip h.forall₂_decode hpair
  exact LooseRecord.describes_of_decode hof hdecode

lemma exists_record (h : SameSource interface records) {entry : Entry}
    (hentry : entry ∈ interface.entries) :
    ∃ record, (record, entry) ∈ records.zip interface.entries := by
  have hlength := h.forall₂_decode.length_eq
  rw [← List.map_snd_zip hlength.ge] at hentry
  obtain ⟨⟨record, entry⟩, hpair, rfl⟩ := List.mem_map.mp hentry
  exact ⟨record, hpair⟩

lemma exists_entry (h : SameSource interface records) {record : Json} (hrecord : record ∈ records) :
    ∃ entry, (record, entry) ∈ records.zip interface.entries := by
  have hlength := h.forall₂_decode.length_eq
  rw [← List.map_fst_zip hlength.le] at hrecord
  obtain ⟨⟨record, entry⟩, hpair, rfl⟩ := List.mem_map.mp hrecord
  exact ⟨entry, hpair⟩

end SameSource

/-! ## Finding records -/

/-- Without blanks, both ways see the same name in a reference. -/
lemma Reference.baseName_eq_memberName {reference : String}
    (hblank : ∀ c ∈ reference.toList, Text.isBlank c = false) :
    baseName reference = memberName reference := by
  rw [memberName]
  by_cases hqualified : isQualified reference = true
  · rw [if_pos hqualified, Text.withoutBlanks_eq_self hblank]
  · have hparen : ∀ c ∈ reference.toList, (c != '(') = true := by
      intro c hc
      rw [bne_iff_ne]
      rintro rfl
      exact hqualified (List.contains_iff_mem.mpr hc)
    rw [if_neg hqualified, baseName, List.takeWhile_eq_self_iff.mpr hparen, String.ofList_toList]

namespace LooseRecord

lemma mem_filterMap_ofJson?_iff {records : List Json} {record : LooseRecord} :
    record ∈ records.filterMap ofJson? ↔ Json.object record.members ∈ records := by
  rw [List.mem_filterMap]
  constructor
  · rintro ⟨json, hmem, hrecord⟩
    cases json with
    | object members =>
        cases hrecord
        exact hmem
    | _ => cases hrecord
  · exact fun hmem => ⟨_, hmem, rfl⟩

/-- The records for the member that a reference names, in order. -/
def candidates (records : List Json) (kind : MemberKind) (reference : String) : List LooseRecord :=
  (records.filterMap ofJson?).filter (isMember kind (Reference.baseName reference))

lemma mem_candidates_iff {records : List Json} {kind : MemberKind} {reference : String}
    {record : LooseRecord} :
    record ∈ candidates records kind reference ↔
      Json.object record.members ∈ records ∧
        record.isMember kind (Reference.baseName reference) = true := by
  rw [candidates, List.mem_filter, mem_filterMap_ofJson?_iff]

/-- Without a number of inputs, the first candidate is found. -/
lemma find?_without_count (records : List Json) (kind : MemberKind) (reference : String) :
    find? records kind reference none = (candidates records kind reference).head? := rfl

/-- With a number of inputs, the first candidate with that number is found, or else the first. -/
lemma find?_with_count (records : List Json) (kind : MemberKind) (reference : String)
    (count : Nat) :
    find? records kind reference (some count) =
      ((candidates records kind reference).find? fun record => record.inputCount == count).or
        (candidates records kind reference).head? := rfl

/-- If there is a record of the name with the given number of inputs, such a record is found. -/
lemma exists_find?_of_count {records : List Json} {kind : MemberKind} {reference : String}
    {record : LooseRecord} (hcandidate : record ∈ candidates records kind reference) :
    ∃ found, find? records kind reference (some record.inputCount) = some found ∧
      found ∈ candidates records kind reference ∧ found.inputCount = record.inputCount := by
  obtain ⟨found, hfound⟩ : ∃ found, (candidates records kind reference).find?
      (fun candidate => candidate.inputCount == record.inputCount) = some found := by
    rw [← Option.isSome_iff_exists, List.find?_isSome]
    exact ⟨record, hcandidate, beq_self_eq_true _⟩
  have hcount := List.find?_some hfound
  refine ⟨found, ?_, List.mem_of_find?_eq_some hfound, by simpa using hcount⟩
  rw [find?_with_count, hfound, Option.some_or]

end LooseRecord

/-! ## Preparing calls -/

namespace Call

/-- What is left of a call if no more is known than a record tells: names, and the mutability if it
is declared. -/
structure Degrades (call widened : Call) (record : LooseRecord) : Prop where
  name : widened.name = call.name
  access : widened.access = call.access
  args : widened.args = call.args
  inputs : widened.inputs = call.inputs.map fun input => (input.1, .unknown)
  signature : widened.signature = none
  output : widened.output = .unknown
  mutability : widened.mutability = call.mutability ∨
    widened.mutability = none ∧
      ∀ json, record.get? "stateMutability" = some json → json = .null

/-- A call is prepared by the record that is found, unless that has another access. -/
lemma outcome_prepare_widened {records : List Json} {reference : String} {access : Access}
    {args : Option (List Value)} {record : LooseRecord}
    (hfound : LooseRecord.find? records .function reference (some (args.getD []).length) =
      some record)
    (haccess : ∀ m, record.mutability? = some m → m.access = access) (settings : Settings) :
    (prepare (.widened records) reference access args settings).outcome =
      .ok ⟨record.name, none, access, record.mutability?, record.fields, .unknown,
        args.getD []⟩ := by
  have hrecord : ofRecord record access (args.getD []) =
      .ok ⟨record.name, none, access, record.mutability?, record.fields, .unknown,
        args.getD []⟩ := by
    rw [ofRecord]
    cases hmutability : record.mutability? with
    | none => rfl
    | some m =>
        rw [check_bind_eq_ok_iff, requireAccess_eq_ok_iff]
        exact ⟨haccess m hmutability, rfl⟩
  rw [prepare, Traced.outcome_onFault]
  simp only [prepareWidened, hfound, Traced.outcome_bind, Traced.outcome_ofExcept, hrecord]
  rfl

lemma IsFor.names_inputs {call : Call} {f : Function} {reference : String} {access : Access}
    {args : Option (List Value)} (h : call.IsFor f reference access args) :
    call.inputs.map Prod.fst = f.inputs.map Parameter.name := by
  rw [← List.forall₂_eq_eq_eq, List.forall₂_map_left_iff, List.forall₂_map_right_iff]
  exact h.inputs.flip.imp fun input p hdenotes => hdenotes.1

/-- A call of a function can be prepared by a record that describes the function. -/
lemma IsFor.degrades {call : Call} {f : Function} {reference : String} {access : Access}
    {args : Option (List Value)} (h : call.IsFor f reference access args) {record : LooseRecord}
    (hdescribes : record.DescribesFunction f) :
    (∀ m, record.mutability? = some m → m.access = access) ∧
      call.Degrades ⟨record.name, none, access, record.mutability?, record.fields, .unknown,
        args.getD []⟩ record := by
  have hfields : record.fields = call.inputs.map fun input => (input.1, .unknown) := by
    rw [LooseRecord.fields, hdescribes.inputNames, ← h.names_inputs, List.map_map]
    rfl
  refine ⟨fun m hm => ?_, ?_⟩
  · rcases hdescribes.mutability with hdeclared | ⟨hnone, -⟩
    · obtain rfl : f.mutability = m := Option.some.inj (hdeclared.symm.trans hm)
      exact h.access.2
    · cases hnone.symm.trans hm
  · exact {
      name := hdescribes.name.trans h.name.symm
      access := h.access.1.symm
      args := h.args.symm
      inputs := hfields
      signature := rfl
      output := rfl
      mutability := hdescribes.mutability.imp_left fun hdeclared =>
        hdeclared.trans h.mutability.symm }

end Call

namespace Interface

/-- Whether functions of the same name differ in their numbers of inputs. -/
def CountsDiffer (interface : Interface) : Prop :=
  interface.functions.Pairwise fun f g => f.name = g.name → f.inputs.length ≠ g.inputs.length

lemma mem_functions_iff {interface : Interface} {f : Function} :
    f ∈ interface.functions ↔ Entry.function f ∈ interface.entries := by
  rw [functions, List.mem_filterMap]
  constructor
  · rintro ⟨entry, hmem, hf⟩
    cases entry with
    | function g =>
        cases hf
        exact hmem
    | _ => cases hf
  · exact fun hmem => ⟨_, hmem, rfl⟩

lemma CountsDiffer.eq {interface : Interface} (h : interface.CountsDiffer) {f g : Function}
    (hf : Entry.function f ∈ interface.entries) (hg : Entry.function g ∈ interface.entries)
    (hname : f.name = g.name) (hcount : f.inputs.length = g.inputs.length) : f = g := by
  by_contra hne
  have hsymm : Std.Symm fun f g : Function => f.name = g.name → f.inputs.length ≠ g.inputs.length :=
    ⟨fun f g h hname => (h hname.symm).symm⟩
  exact h.forall (mem_functions_iff.mpr hf) (mem_functions_iff.mpr hg) hne hname hcount

end Interface

namespace SameSource

variable {interface : Interface} {records : List Json}

/-- A member has a record among the candidates for its name. -/
lemma exists_candidate (h : SameSource interface records)
    (hobjects : ∀ record ∈ records, ∃ members, record = .object members) {kind : MemberKind}
    {reference : String} {entry : Entry}
    (hentry : entry ∈ interface.members kind (Reference.baseName reference)) :
    ∃ record ∈ LooseRecord.candidates records kind reference, record.Describes entry := by
  obtain ⟨hmem, hmember⟩ := List.mem_filter.mp hentry
  obtain ⟨record, hpair⟩ := h.exists_record hmem
  obtain ⟨members, rfl⟩ := hobjects record (List.of_mem_zip hpair).1
  have hdescribes := h.describes hpair
  exact ⟨⟨members⟩, LooseRecord.mem_candidates_iff.mpr
    ⟨(List.of_mem_zip hpair).1, (hdescribes.isMember _ _).trans hmember⟩, hdescribes⟩

/-- A candidate for a name is the record of a member of that name. -/
lemma exists_member (h : SameSource interface records) {kind : MemberKind} {reference : String}
    {record : LooseRecord} (hrecord : record ∈ LooseRecord.candidates records kind reference) :
    ∃ entry ∈ interface.members kind (Reference.baseName reference),
      (Json.object record.members, entry) ∈ records.zip interface.entries := by
  obtain ⟨hmem, hmember⟩ := LooseRecord.mem_candidates_iff.mp hrecord
  obtain ⟨entry, hpair⟩ := h.exists_entry hmem
  rw [(h.describes hpair).isMember] at hmember
  exact ⟨entry, List.mem_filter.mpr ⟨(List.of_mem_zip hpair).2, hmember⟩, hpair⟩

/-- The record that is found for a function is the one that the function was read from. -/
lemma exists_find? (h : SameSource interface records)
    (hobjects : ∀ record ∈ records, ∃ members, record = .object members)
    (hcounts : interface.CountsDiffer) {f : Function} {reference : String}
    (hmem : Entry.function f ∈ interface.entries)
    (hmember : (Entry.function f).isMember .function (Reference.baseName reference) = true) :
    ∃ found, LooseRecord.find? records .function reference (some f.inputs.length) = some found ∧
      (Json.object found.members, Entry.function f) ∈ records.zip interface.entries := by
  obtain ⟨record, hrecord, hdescribes⟩ :=
    h.exists_candidate hobjects (List.mem_filter.mpr ⟨hmem, hmember⟩)
  have hcount := (hdescribes.function f rfl).inputCount
  obtain ⟨found, hfound, hcandidate, hfoundCount⟩ := LooseRecord.exists_find?_of_count hrecord
  -- What is found has the name and the number of inputs of the function, so it is for no other.
  obtain ⟨entry, hentry, hpair⟩ := h.exists_member hcandidate
  obtain ⟨hmem', hmember'⟩ := List.mem_filter.mp hentry
  obtain ⟨hkind, hname⟩ := Entry.isMember_iff.mp hmember'
  cases entry with
  | function g =>
      have hnames : g.name = f.name :=
        Option.some.inj (hname.trans (Entry.isMember_iff.mp hmember).2.symm)
      have hcounts' : g.inputs.length = f.inputs.length := by
        rw [← ((h.describes hpair).function g rfl).inputCount, hfoundCount, hcount]
      obtain rfl : g = f := hcounts.eq hmem' hmem hnames hcounts'
      rw [hcount] at hfound
      exact ⟨found, hfound, hpair⟩
  | _ => cases hkind

end SameSource

namespace Call

/-- **A widened description degrades instead of failing.**  Let a list of JSON objects be read to an
interface in which functions of the same name differ in their numbers of inputs.  A call that can be
prepared by the interface, with a reference without blanks, can be prepared by the objects
themselves.  It has the same name, access, arguments and input names, and neither signature nor
types; the mutability is missing only if the object for the function declares none. -/
theorem prepare_widened_of_literal (interface : Interface) (records : List Json)
    (hsource : SameSource interface records)
    (hobjects : ∀ record ∈ records, ∃ members, record = .object members)
    (hcounts : interface.CountsDiffer) (reference : String)
    (hblank : ∀ c ∈ reference.toList, Text.isBlank c = false) (access : Access)
    (args : Option (List Value)) (settings : Settings) (call : Call)
    (hcall : (prepare (.literal interface) reference access args settings).outcome = .ok call) :
    ∃ widened, (prepare (.widened records) reference access args settings).outcome = .ok widened ∧
      ∃ members f, (Json.object members, Entry.function f) ∈ records.zip interface.entries ∧
        call.IsFor f reference access args ∧ call.Degrades widened ⟨members⟩ := by
  obtain ⟨f, hrelated, -, hfor⟩ := exists_function_of_prepare hcall
  obtain ⟨hmem, hmember⟩ := List.mem_filter.mp hrelated
  rw [← Reference.baseName_eq_memberName hblank] at hmember
  have hargs : (args.getD []).length = f.inputs.length := by
    rw [← hfor.args, hfor.inhabits.length_eq, hfor.inputs.length_eq]
  obtain ⟨found, hfound, hpair⟩ := hsource.exists_find? hobjects hcounts hmem hmember
  obtain ⟨haccess, hdegrades⟩ := hfor.degrades ((hsource.describes hpair).function f rfl)
  rw [← hargs] at hfound
  exact ⟨_, outcome_prepare_widened hfound haccess settings, found.members, f, hpair, hfor,
    hdegrades⟩

end Call

/-- JSON objects for two functions of one name, the first of which has an older flag for its
mutability and null for the newer word, and for an event of that name. -/
def LooseRecord.abacus : List Json :=
  [.object [("type", .null), ("name", .string "sum"), ("stateMutability", .null),
      ("inputs", .array [.object [("type", .string "uint8"), ("name", .string "first")],
        .object [("name", .string ""), ("type", .string "int16[2]")]]),
      ("constant", .bool true)],
    .object [("type", .string "event"), ("name", .string "sum")],
    .object [("name", .string "sum"), ("type", .string "function"),
      ("stateMutability", .string "view"),
      ("inputs", .array [.object [("name", .string "all"), ("type", .string "uint8[]")]])]]

/-- The interface that they are read to. -/
def Interface.abacus : Interface :=
  ⟨[.function ⟨"sum", [⟨"first", "uint8", none, none⟩, ⟨"", "int16[2]", none, none⟩], [], .view⟩,
    .event ⟨"sum", [], false⟩,
    .function ⟨"sum", [⟨"all", "uint8[]", none, none⟩], [], .view⟩]⟩

/-- A call of the function with the older flag, by its canonical text. -/
theorem Call.prepare_widened_of_literal_abacus :
    SameSource .abacus LooseRecord.abacus ∧
      (∀ record ∈ LooseRecord.abacus, ∃ members, record = .object members) ∧
      Interface.abacus.CountsDiffer ∧
      (∀ c ∈ "sum(uint8,int16[2])".toList, Text.isBlank c = false) ∧
      ∃ call, (prepare (.literal .abacus) "sum(uint8,int16[2])" .read
          (some [.uint 7, .array [.int (-3), .int 300]]) {}).outcome = .ok call ∧
        ∃ widened, (prepare (.widened LooseRecord.abacus) "sum(uint8,int16[2])" .read
            (some [.uint 7, .array [.int (-3), .int 300]]) {}).outcome = .ok widened ∧
          ∃ members f, (Json.object members, Entry.function f) ∈
              LooseRecord.abacus.zip Interface.abacus.entries ∧
            call.IsFor f "sum(uint8,int16[2])" .read
              (some [.uint 7, .array [.int (-3), .int 300]]) ∧
            call.Degrades widened ⟨members⟩ := by
  have hsource : SameSource .abacus LooseRecord.abacus :=
    @SameSource.json _ _ (.array LooseRecord.abacus) rfl rfl
  have hobjects : ∀ record ∈ LooseRecord.abacus, ∃ members, record = .object members := by
    simp [LooseRecord.abacus]
  have hcounts : Interface.abacus.CountsDiffer := by
    simp [Interface.CountsDiffer, Interface.functions, Interface.abacus]
  have hblank : ∀ c ∈ "sum(uint8,int16[2])".toList, Text.isBlank c = false :=
    Text.isBlank_of_any_eq_false (by decide +kernel)
  obtain ⟨call, hcall⟩ := exists_ok_of_isOk (x := (prepare (.literal .abacus) "sum(uint8,int16[2])"
    .read (some [.uint 7, .array [.int (-3), .int 300]]) {}).outcome) (by decide +kernel)
  exact ⟨hsource, hobjects, hcounts, hblank, call, hcall, prepare_widened_of_literal _ _ hsource
    hobjects hcounts _ hblank _ _ _ call hcall⟩

end ContractInterface
