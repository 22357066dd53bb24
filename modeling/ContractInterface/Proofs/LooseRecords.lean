import ContractInterface.Description
import ContractInterface.Proofs.RecordDecoding

/-!
# Records and the entries they describe

A JSON object of an interface description is read in two ways.  Strictly, it is decoded to an entry:
its members are visited one by one, each known key fills a slot of a draft, and the draft is judged
as a whole.  Loosely, it is a record, of which single keys are looked up when they are needed.

Whenever the strict reading succeeds, the loose one agrees with it
(`LooseRecord.describes_of_decode`): the record is for the same kind of member and the same name,
and has as many inputs with the same names.  Of a function it declares the same mutability; the one
thing that it cannot tell is a mutability that is not declared as such, for which the decoder goes
by older flags.  Of an event it tells which inputs are indexed and whether it is anonymous.
-/

namespace ContractInterface

open Json (Fragment Ending)

/-! ## What slots hold -/

namespace Holds

lemma string {json? : Option Json} {slot : Option String}
    (h : Holds Fragment.decodeString json? slot) : json?.bind Json.string? = slot := by
  cases h with
  | absent => rfl
  | @present fragment json a hof hdecode =>
      cases fragment with
      | string s =>
          cases hdecode
          rw [hof.eq_string]
          rfl
      | _ => cases hdecode

lemma bool {json? : Option Json} {slot : Option Bool} (h : Holds Fragment.decodeBool json? slot) :
    json?.bind Json.bool? = slot := by
  cases h with
  | absent => rfl
  | @present fragment json a hof hdecode =>
      cases fragment with
      | bool b =>
          cases hdecode
          rw [hof.eq_bool]
          rfl
      | _ => cases hdecode

/-- A value that may be null is as good as absent if it is. -/
lemma optionalString {json? : Option Json} {slot : Option (Option String)}
    (h : Holds (Fragment.decodeOptional Fragment.decodeString) json? slot) :
    json?.bind Json.string? = slot.getD none := by
  cases h with
  | absent => rfl
  | @present fragment json a hof hdecode =>
      cases fragment with
      | null =>
          cases hdecode
          rw [hof.eq_null]
          rfl
      | string s =>
          cases hdecode
          rw [hof.eq_string]
          rfl
      | _ => cases hdecode

end Holds

/-- A word is decoded alike from any fragment of a value. -/
lemma Mutability.decode_ofJson {fragment : Fragment} {json : Json} {m : Mutability}
    (hof : fragment.IsOf json) (h : Mutability.decode fragment = .ok m) :
    Mutability.decode (.ofJson json) = .ok m := by
  rcases hof with rfl | hread
  · exact h
  cases Fragment.shape_of_value? hread with
  | leaf _ hsame =>
      rw [← hsame]
      exact h
  | array => cases h
  | object hending hmembers =>
      obtain ⟨word, hone, hname⟩ := (Fragment.decodeWord_object_eq_ok_iff hending).mp h
      obtain rfl := (Fragment.eq_singleton_null_iff hmembers).mp hone
      exact (Fragment.decodeWord_object_eq_ok_iff rfl).mpr ⟨word, rfl, hname⟩

lemma Holds.mutability {json? : Option Json} {slot : Option (Option Mutability)}
    (h : Holds (Fragment.decodeOptional Mutability.decode) json? slot) :
    (json?.bind fun json => (Mutability.decode (.ofJson json)).toOption) = slot.getD none ∧
      (slot.getD none = none → ∀ json, json? = some json → json = .null) := by
  cases h with
  | absent => exact ⟨rfl, fun _ => nofun⟩
  | @present fragment json a hof hdecode =>
      unfold Fragment.decodeOptional at hdecode
      split at hdecode
      · cases hdecode
        obtain rfl := hof.eq_null
        refine ⟨rfl, ?_⟩
        rintro - json ⟨⟩
        rfl
      · obtain ⟨m, hm, rfl⟩ := map_eq_ok_iff.mp hdecode
        rw [Option.bind_some, Mutability.decode_ofJson hof hm]
        exact ⟨rfl, nofun⟩

/-! ## Inputs -/

/-- A list that is decoded from an array has a value for each item, decoded from a fragment of
it. -/
lemma Json.Fragment.IsOf.forall₂_of_decodeList {decode : Fragment → Decoded α} {fragment : Fragment}
    {json : Json} {values : List α} (hof : fragment.IsOf json)
    (h : fragment.decodeList decode = .ok values) :
    ∃ items, json = .array items ∧
      List.Forall₂ (fun item value => ∃ part : Fragment, part.IsOf item ∧ decode part = .ok value)
        items values := by
  cases fragment with
  | array parts ending =>
      obtain ⟨decoded, hdecoded, hrest⟩ := bind_eq_ok_iff.mp h
      obtain ⟨-, hresult⟩ := check_bind_eq_ok_iff.mp hrest
      cases hresult
      have hvalues := mapM_eq_ok_iff.mp hdecoded
      obtain ⟨items, rfl, hitems⟩ := hof.exists_items
      refine ⟨items, rfl, ?_⟩
      clear h hdecoded hrest hof
      induction hvalues generalizing items with
      | nil =>
          rw [List.forall₂_nil_left_iff.mp hitems]
          exact .nil
      | cons hvalue _ ih =>
          obtain ⟨item, rest, hitem, hrest, rfl⟩ := List.forall₂_cons_left_iff.mp hitems
          exact .cons ⟨_, hitem, hvalue⟩ (ih rest hrest)
  | _ => cases h

/-- An input has the name and the flag that are decoded of it. -/
lemma LooseRecord.input_of_decode {fragment : Fragment} {json : Json} {p : EventParameter}
    (hof : fragment.IsOf json) (h : EventParameter.decode fragment = .ok p) :
    inputName json = p.parameter.name ∧ inputIndexed json = p.indexed := by
  cases fragment with
  | object members ending =>
      obtain ⟨indexed, hindexed, hrest⟩ := bind_eq_ok_iff.mp h
      obtain ⟨-, hrest⟩ := check_bind_eq_ok_iff.mp hrest
      obtain ⟨draft, hdraft, hrest⟩ := bind_eq_ok_iff.mp hrest
      obtain ⟨parameter, hparameter, hresult⟩ := bind_eq_ok_iff.mp hrest
      cases hresult
      rw [EventParameter.decodeIndexed_eq_foldlM] at hindexed
      rw [Parameter.decodeMembers_eq_foldlM] at hdraft
      obtain ⟨hflag, -⟩ := List.forall_mem_cons.mp (EventParameter.layout.holds hindexed hof)
      obtain ⟨hname, -⟩ := List.forall_mem_cons.mp ((Parameter.layout true).holds hdraft hof)
      rw [inputName, inputIndexed, hname.string, hflag.bool]
      rw [Parameter.Draft.finish] at hparameter
      split at hparameter <;> cases hparameter
      exact ⟨rfl, rfl⟩
  | _ => cases h

/-- The inputs are as many as those that are decoded, with the same names and flags. -/
lemma Holds.inputs {json? : Option Json} {slot : Option (List EventParameter)}
    (h : Holds (Fragment.decodeList EventParameter.decode) json? slot) :
    List.Forall₂ (fun input p => LooseRecord.inputName input = p.parameter.name ∧
        LooseRecord.inputIndexed input = p.indexed)
      ((json?.bind Json.array?).getD []) (slot.getD []) := by
  cases h with
  | absent => exact .nil
  | @present fragment json inputs hof hdecode =>
      obtain ⟨items, rfl, hitems⟩ := hof.forall₂_of_decodeList hdecode
      refine hitems.imp fun item p hdecoded => ?_
      obtain ⟨part, hpart, hp⟩ := hdecoded
      exact LooseRecord.input_of_decode hpart hp

/-! ## Entries as judged -/

namespace Entry.Draft

lemma eq_of_requireName {draft : Draft} {type name : String}
    (h : draft.requireName type = .ok name) : name = draft.name.getD "" := by
  rw [requireName] at h
  split_ifs at h
  exact (Except.ok.inj h).symm

/-- A finished entry is the member of a kind and name exactly if the draft has that word for its
type and that name. -/
lemma isMember_of_finish {draft : Draft} {entry : Entry} (h : draft.finish = .ok entry)
    (kind : MemberKind) (name : String) :
    entry.isMember kind name =
      ((draft.type.getD none).getD "function" == kind.name && draft.name.getD "" == name) := by
  unfold finish at h
  split at h
  case h_1 htype | h_2 htype | h_3 htype =>
    obtain ⟨found, hfound, hentry⟩ := bind_eq_ok_iff.mp h
    obtain rfl := eq_of_requireName hfound
    cases hentry
    rw [htype]
    cases kind <;> simp [isMember, memberKind?, name?, MemberKind.name]
  case h_4 htype | h_5 htype | h_6 htype =>
    cases h
    rw [htype]
    cases kind <;> simp [isMember, memberKind?, MemberKind.name]
  case h_7 => cases h

/-- A finished function has the name and the inputs of the draft, and its mutability. -/
lemma function_of_finish {draft : Draft} {f : Function} (h : draft.finish = .ok (.function f)) :
    f.name = draft.name.getD "" ∧ f.inputs = draft.plainInputs ∧
      f.mutability = draft.mutability := by
  unfold finish at h
  split at h
  case h_1 =>
    obtain ⟨found, hfound, hentry⟩ := bind_eq_ok_iff.mp h
    cases hentry
    exact ⟨eq_of_requireName hfound, rfl, rfl⟩
  case h_2 | h_3 =>
    obtain ⟨found, -, hentry⟩ := bind_eq_ok_iff.mp h
    cases hentry
  case h_4 | h_5 | h_6 | h_7 => cases h

/-- A finished event has the name, the inputs and the flag of the draft. -/
lemma event_of_finish {draft : Draft} {e : Event} (h : draft.finish = .ok (.event e)) :
    e.name = draft.name.getD "" ∧ e.inputs = draft.inputs.getD [] ∧
      e.anonymous = draft.anonymous.getD false := by
  unfold finish at h
  split at h
  case h_2 =>
    obtain ⟨found, hfound, hentry⟩ := bind_eq_ok_iff.mp h
    cases hentry
    exact ⟨eq_of_requireName hfound, rfl, rfl⟩
  case h_1 | h_3 =>
    obtain ⟨found, -, hentry⟩ := bind_eq_ok_iff.mp h
    cases hentry
  case h_4 | h_5 | h_6 | h_7 => cases h

/-- A mutability that is declared is the one that counts. -/
lemma mutability_of_declared {draft : Draft} {m : Mutability}
    (h : draft.stateMutability.getD none = some m) : draft.mutability = m := by
  rw [mutability]
  cases hdeclared : draft.stateMutability with
  | none => simp [hdeclared] at h
  | some declared =>
      rw [hdeclared] at h
      obtain rfl : declared = some m := h
      rfl

end Entry.Draft

/-! ## Records -/

namespace LooseRecord

/-- What a record tells of a function that it is for. -/
structure DescribesFunction (record : LooseRecord) (f : Function) : Prop where
  name : record.name = f.name
  inputNames : record.inputNames = f.inputs.map Parameter.name
  /-- The mutability is the function's, unless it is not declared or null. -/
  mutability : record.mutability? = some f.mutability ∨
    record.mutability? = none ∧ ∀ json, record.get? "stateMutability" = some json → json = .null

lemma DescribesFunction.inputCount {record : LooseRecord} {f : Function}
    (h : record.DescribesFunction f) : record.inputCount = f.inputs.length := by
  have hlengths := congrArg List.length h.inputNames
  simpa [LooseRecord.inputNames, LooseRecord.inputCount] using hlengths

/-- What a record tells of an event that it is for: everything but the types. -/
structure DescribesEvent (record : LooseRecord) (e : Event) : Prop where
  name : record.name = e.name
  inputs : List.Forall₂ (fun input p => inputName input = p.parameter.name ∧
    inputIndexed input = p.indexed) record.inputs e.inputs
  anonymous : record.anonymous = e.anonymous

/-- Whether a record is for the same member as an entry, and tells what it can if that is a function
or an event. -/
structure Describes (record : LooseRecord) (entry : Entry) : Prop where
  isMember : ∀ kind name, record.isMember kind name = entry.isMember kind name
  function : ∀ f, entry = .function f → record.DescribesFunction f
  event : ∀ e, entry = .event e → record.DescribesEvent e

/-- **The two readings of an object agree.** -/
lemma describes_of_decode {fragment : Fragment} {members : List (String × Json)} {entry : Entry}
    (hof : fragment.IsOf (.object members)) (h : Entry.decode fragment = .ok entry) :
    (LooseRecord.mk members).Describes entry := by
  cases fragment with
  | object fields ending =>
      obtain ⟨draft, hdraft, hrest⟩ := bind_eq_ok_iff.mp h
      obtain ⟨-, hfinish⟩ := check_bind_eq_ok_iff.mp hrest
      rw [Entry.Draft.visitMembers_eq_foldlM] at hdraft
      have hslots := Entry.layout.holds hdraft hof
      simp only [Entry.layout, List.forall_mem_cons] at hslots
      obtain ⟨htype, hname, hinputs, -, hmutability, -, -, hanonymous, -⟩ := hslots
      replace htype := htype.optionalString
      replace hname := hname.string
      replace hinputs := hinputs.inputs
      replace hanonymous := hanonymous.bool
      obtain ⟨hmutability, hundeclared⟩ := hmutability.mutability
      refine ⟨fun kind name => ?_, ?_, ?_⟩
      · rw [Entry.Draft.isMember_of_finish hfinish, isMember, type, LooseRecord.name, get?, get?,
          htype, hname]
      · rintro f rfl
        obtain ⟨hfname, hfinputs, hfmutability⟩ := Entry.Draft.function_of_finish hfinish
        refine ⟨?_, ?_, ?_⟩
        · rw [LooseRecord.name, get?, hname, hfname]
        · rw [hfinputs, Entry.Draft.plainInputs, List.map_map, inputNames, ← List.forall₂_eq_eq_eq,
            List.forall₂_map_left_iff, List.forall₂_map_right_iff]
          exact hinputs.imp fun input p hinput => hinput.1
        · rw [mutability?, get?, hmutability, hfmutability]
          cases hdeclared : draft.stateMutability.getD none with
          | none => exact .inr ⟨rfl, hundeclared hdeclared⟩
          | some m => exact .inl (by rw [Entry.Draft.mutability_of_declared hdeclared])
      · rintro e rfl
        obtain ⟨hename, heinputs, heanonymous⟩ := Entry.Draft.event_of_finish hfinish
        refine ⟨?_, ?_, ?_⟩
        · rw [LooseRecord.name, get?, hname, hename]
        · rw [heinputs]
          exact hinputs
        · rw [LooseRecord.anonymous, get?, hanonymous, heanonymous]
  | array items ending =>
      obtain ⟨values, hvalues, -⟩ := hof.exists_items
      cases hvalues
  | _ => cases h

end LooseRecord

end ContractInterface
