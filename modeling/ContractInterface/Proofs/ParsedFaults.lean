import ContractInterface.Interface
import ContractInterface.Proofs.RecordDecoding

/-!
# Faults of parsed values

A text may come to an end, or go on with something that is no JSON, before a decoder has found what
is wrong with the value that it writes.  A parsed value is there as a whole.  So whatever is wrong
with it is told in terms of the value: what was found where something else was expected, a key, a
word, or a number of items.  That something cannot be read is never its fault
(`Interface.ofJson_ne_unreadable`).
-/

namespace ContractInterface

open Json (Fragment Ending)

/-! ## Steps of decoders -/

lemma ok_ne_unreadable (a : α) : (.ok a : Decoded α) ≠ .error .unreadable := by
  rintro ⟨⟩

lemma bind_ne_unreadable {x : Decoded α} {next : α → Decoded β} (hx : x ≠ .error .unreadable)
    (hnext : ∀ a, next a ≠ .error .unreadable) : x >>= next ≠ .error .unreadable := by
  intro h
  rcases bind_eq_error_iff.mp h with hfault | ⟨a, -, hfault⟩
  · exact hx hfault
  · exact hnext a hfault

lemma map_ne_unreadable {x : Decoded α} (hx : x ≠ .error .unreadable) (f : α → β) :
    f <$> x ≠ .error .unreadable :=
  fun h => hx (map_eq_error_iff.mp h)

lemma mapM_ne_unreadable {decode : Fragment → Decoded α} {items : List Fragment}
    (h : ∀ item ∈ items, decode item ≠ .error .unreadable) :
    items.mapM decode ≠ .error .unreadable := by
  induction items with
  | nil => rintro ⟨⟩
  | cons item items ih =>
      obtain ⟨hitem, hitems⟩ := List.forall_mem_cons.mp h
      rw [List.mapM_cons]
      exact bind_ne_unreadable hitem fun _ =>
        bind_ne_unreadable (ih hitems) fun _ => ok_ne_unreadable _

lemma foldlM_ne_unreadable {step : δ → String × Fragment → Decoded δ}
    {members : List (String × Fragment)}
    (h : ∀ member ∈ members, ∀ draft, step draft member ≠ .error .unreadable) (draft : δ) :
    members.foldlM step draft ≠ .error .unreadable := by
  induction members generalizing draft with
  | nil => rintro ⟨⟩
  | cons member members ih =>
      obtain ⟨hmember, hmembers⟩ := List.forall_mem_cons.mp h
      rw [List.foldlM_cons]
      exact bind_ne_unreadable (hmember draft) (ih hmembers)

/-! ## Decoders of parts -/

namespace Json.Fragment

/-- Whether a decoder finds nothing in a parsed value that cannot be read. -/
def Tells (decode : Fragment → Decoded α) (json : Json) : Prop :=
  decode (.ofJson json) ≠ .error .unreadable

lemma tells_decodeString (json : Json) : Tells decodeString json := by
  cases json <;> simp [Tells, ofJson, decodeString, unexpected, outline?]

lemma tells_decodeBool (json : Json) : Tells decodeBool json := by
  cases json <;> simp [Tells, ofJson, decodeBool, unexpected, outline?]

lemma tells_requireNull (json : Json) : Tells requireNull json := by
  cases json <;> simp [Tells, ofJson, requireNull, unexpected, outline?]

lemma Tells.optional {decode : Fragment → Decoded α} {json : Json} (h : Tells decode json) :
    Tells (decodeOptional decode) json := by
  cases json with
  | null => rintro ⟨⟩
  | _ => exact map_ne_unreadable h some

lemma tells_decodeList {decode : Fragment → Decoded α} {values : List Json}
    (h : ∀ value ∈ values, Tells decode value) : Tells (decodeList decode) (.array values) := by
  have hitems : ∀ item ∈ ofItems values, decode item ≠ .error .unreadable := by
    rw [ofItems_eq_map]
    exact List.forall_mem_map.mpr h
  rw [Tells, ofJson, decodeList]
  exact bind_ne_unreadable (mapM_ne_unreadable hitems) fun _ => ok_ne_unreadable _

lemma tells_decodeList_of_forall {decode : Fragment → Decoded α} (h : ∀ json, Tells decode json)
    (json : Json) : Tells (decodeList decode) json := by
  cases json with
  | array values => exact tells_decodeList fun value _ => h value
  | _ => rintro ⟨⟩

lemma tells_decodeWord (ofName? : String → Option α) (known : List String) (json : Json) :
    Tells (decodeWord ofName? known) json := by
  cases json with
  | object values =>
      rw [Tells, ofJson]
      cases hmembers : ofMembers values with
      | nil => rintro ⟨⟩
      | cons member rest =>
          obtain ⟨value, -, rfl⟩ := exists_mem_of_mem_ofMembers (hmembers ▸ List.mem_cons_self)
          rw [decodeWord]
          by_cases hrest : rest = []
          · rw [if_neg fun hcounted => hcounted.2 hrest]
            split
            · rintro ⟨⟩
            · refine bind_ne_unreadable (tells_requireNull value.2) fun _ => ?_
              rw [if_pos hrest]
              rintro ⟨⟩
          · rw [if_pos ⟨rfl, hrest⟩]
            rintro ⟨⟩
  | string s =>
      rw [Tells, ofJson, decodeWord]
      split <;> rintro ⟨⟩
  | _ => rintro ⟨⟩

end Json.Fragment

/-! ## Decoders of records -/

namespace Layout

variable {layout : Layout δ}

lemma step_ne_unreadable {json : Json} (h : ∀ slot ∈ layout.slots, Fragment.Tells slot.decode json)
    (key : String) (draft : δ) :
    layout.step draft (key, .ofJson json) ≠ .error .unreadable := by
  rcases layout.step_cases key with ⟨slot, hslot, -, hstep⟩ | ⟨-, hstep⟩
  · rw [hstep, Slot.fill]
    refine bind_ne_unreadable ?_ fun _ => ok_ne_unreadable _
    cases slot.get draft with
    | some _ => rintro ⟨⟩
    | none => exact map_ne_unreadable (h slot hslot) some
  · obtain ⟨value, hvalue⟩ := Fragment.exists_value?_ofJson json
    rw [hstep, layout.passes hvalue]
    rintro ⟨⟩

lemma decodeObject_ne_unreadable {values : List (String × Json)}
    (h : ∀ value ∈ values, ∀ slot ∈ layout.slots, Fragment.Tells slot.decode value.2) :
    layout.decodeObject (Fragment.ofMembers values) .counted ≠ .error .unreadable := by
  refine bind_ne_unreadable (foldlM_ne_unreadable ?_ layout.empty) fun _ => ok_ne_unreadable _
  intro member hmember draft
  obtain ⟨value, hvalue, rfl⟩ := Fragment.exists_mem_of_mem_ofMembers hmember
  exact step_ne_unreadable (h value hvalue) value.1 draft

lemma decodeArray_ne_unreadable {values : List Json}
    (h : ∀ value ∈ values, ∀ slot ∈ layout.slots, Fragment.Tells slot.decode value) :
    layout.decodeArray (Fragment.ofItems values) .counted ≠ .error .unreadable := by
  refine bind_ne_unreadable (foldlM_ne_unreadable ?_ layout.empty) fun draft => ?_
  · intro member hmember draft
    rw [Fragment.ofItems_eq_map] at hmember
    obtain ⟨value, hvalue, hitem⟩ := List.mem_map.mp (List.of_mem_zip hmember).2
    obtain ⟨key, item⟩ := member
    obtain rfl : Fragment.ofJson value = item := hitem
    exact step_ne_unreadable (h value hvalue) key draft
  · -- Items in excess are counted, buffered or not.
    split_ifs
    · rintro ⟨⟩
    · rw [Ending.surplus, if_pos rfl]
      split_ifs <;> rintro ⟨⟩

end Layout

namespace Parameter

lemma layout_tells {buffered : Bool} {json : Json}
    (h : Fragment.Tells (Fragment.decodeList (decode buffered)) json) :
    ∀ slot ∈ (layout buffered).slots, Fragment.Tells slot.decode json := by
  have hstring := Fragment.tells_decodeString json
  simp only [layout, List.forall_mem_cons]
  exact ⟨hstring, hstring, h.optional, hstring.optional, List.forall_mem_nil _⟩

lemma Draft.finish_ne_unreadable {missing : DecodeFault} (h : missing ≠ .unreadable)
    (draft : Draft) : draft.finish missing ≠ .error .unreadable := by
  rw [finish]
  split
  · exact fun hfault => h (Except.error.inj hfault)
  · rintro ⟨⟩

lemma tells (buffered : Bool) (json : Json) :
    Fragment.Tells (decode buffered) json ∧
      Fragment.Tells (Fragment.decodeList (decode buffered)) json := by
  -- Components are a list under a key: the second half is what a record needs of its parts.
  induction json using Json.induction_on_parts with
  | leaf json hleaf =>
      cases json with
      | array | object => cases hleaf
      | _ =>
          simp [Fragment.Tells, Fragment.ofJson, decode, Fragment.decodeList, Fragment.unexpected,
            Fragment.outline?]
  | array values ih =>
      refine ⟨?_, Fragment.tells_decodeList fun value hvalue => (ih value hvalue).1⟩
      have hlayout := Layout.decodeArray_ne_unreadable fun value hvalue =>
        layout_tells (ih value hvalue).2
      rw [Fragment.Tells, Fragment.ofJson, decode_array]
      exact bind_ne_unreadable hlayout (Draft.finish_ne_unreadable (by simp))
  | object values ih =>
      refine ⟨?_, by rintro ⟨⟩⟩
      have hlayout := Layout.decodeObject_ne_unreadable fun value hvalue =>
        layout_tells (ih value hvalue).2
      rw [Fragment.Tells, Fragment.ofJson, decode_object]
      exact bind_ne_unreadable hlayout (Draft.finish_ne_unreadable (by simp))

end Parameter

lemma EventParameter.tells (json : Json) : Fragment.Tells decode json := by
  cases json with
  | object values =>
      have hflag : layout.decodeObject (Fragment.ofMembers values) .counted ≠ .error .unreadable :=
        Layout.decodeObject_ne_unreadable fun value _ =>
          List.forall_mem_singleton.mpr (Fragment.tells_decodeBool value.2)
      have hparameter := (Parameter.tells true (.object values)).1
      rw [Fragment.Tells, Fragment.ofJson] at hparameter ⊢
      rw [decode_object]
      exact bind_ne_unreadable hflag fun _ =>
        bind_ne_unreadable hparameter fun _ => ok_ne_unreadable _
  | _ => rintro ⟨⟩

namespace Entry

lemma layout_tells (json : Json) : ∀ slot ∈ layout.slots, Fragment.Tells slot.decode json := by
  have hstring := Fragment.tells_decodeString json
  have hbool := Fragment.tells_decodeBool json
  have hinputs := Fragment.tells_decodeList_of_forall EventParameter.tells json
  have houtputs := (Parameter.tells false json).2
  have hmutability : Fragment.Tells Mutability.decode json := Fragment.tells_decodeWord _ _ json
  simp only [layout, List.forall_mem_cons]
  exact ⟨hstring.optional, hstring, hinputs, houtputs, hmutability.optional, hbool.optional,
    hbool.optional, hbool, List.forall_mem_nil _⟩

lemma Draft.requireName_ne_unreadable (draft : Draft) (type : String) :
    draft.requireName type ≠ .error .unreadable := by
  rw [requireName]
  split_ifs <;> rintro ⟨⟩

lemma Draft.finish_ne_unreadable (draft : Draft) : draft.finish ≠ .error .unreadable := by
  rw [finish]
  split
  · exact bind_ne_unreadable (draft.requireName_ne_unreadable _) fun _ => ok_ne_unreadable _
  · exact bind_ne_unreadable (draft.requireName_ne_unreadable _) fun _ => ok_ne_unreadable _
  · exact bind_ne_unreadable (draft.requireName_ne_unreadable _) fun _ => ok_ne_unreadable _
  all_goals rintro ⟨⟩

lemma tells (json : Json) : Fragment.Tells decode json := by
  cases json with
  | array values =>
      rw [Fragment.Tells, Fragment.ofJson, decode_array]
      exact bind_ne_unreadable (Layout.decodeArray_ne_unreadable fun value _ => layout_tells value)
        Draft.finish_ne_unreadable
  | object values =>
      rw [Fragment.Tells, Fragment.ofJson, decode_object]
      exact bind_ne_unreadable
        (Layout.decodeObject_ne_unreadable fun value _ => layout_tells value.2)
        Draft.finish_ne_unreadable
  | _ => rintro ⟨⟩

end Entry

/-! ## Interfaces -/

/-- **A fault of a parsed value tells what is wrong with it.**  That it cannot be read is never the
fault. -/
theorem Interface.ofJson_ne_unreadable (json : Json) : ofJson json ≠ .error .unreadable :=
  bind_ne_unreadable (Fragment.tells_decodeList_of_forall Entry.tells json) fun _ =>
    ok_ne_unreadable _

end ContractInterface
