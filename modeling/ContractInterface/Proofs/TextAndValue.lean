import ContractInterface.Interface
import ContractInterface.Proofs.RecordDecoding
import Mathlib.Logic.Relation

/-!
# Texts and the values that they write

An interface can be read from a text, or from the value that the text writes.  The decoder sees the
two differently: the members of an object come as the text lists them, or in the order of their
keys, and only of a parsed object is their number known beforehand.  So the first fault that is met
may be another one.  The interface is not: in whatever order a text lists members, it describes an
interface exactly if the value that it writes does, and then the same one
(`Interface.ofText_eq_ok_iff_ofJson`).  No object of the text may repeat a key, since a text that
repeats a known key is refused, while of a value the last member with a key counts.

A decoder *reads a value alike* if it has the same result, if any, with the parsed value and with a
fragment of a text that writes it (`Fragment.ReadsAlike`).  Records are read alike if the values in
them are, since their slots can be filled in any order (`Layout.foldlM_perm`).
-/

namespace ContractInterface

open Json (Fragment Ending Document)

namespace Json

/-! ## Keys that do not repeat -/

mutual

/-- Whether no object of a value repeats a key. -/
def hasDistinctKeys : Json → Bool
  | .array items => haveDistinctKeys items
  | .object members => (members.map Prod.fst).Nodup && valuesHaveDistinctKeys members
  | _ => true

/-- Whether no object of a list of values repeats a key. -/
def haveDistinctKeys : List Json → Bool
  | [] => true
  | item :: rest => item.hasDistinctKeys && haveDistinctKeys rest

/-- Whether no object of the values of members repeats a key. -/
def valuesHaveDistinctKeys : List (String × Json) → Bool
  | [] => true
  | (_, value) :: rest => value.hasDistinctKeys && valuesHaveDistinctKeys rest

end

lemma hasDistinctKeys_array {items : List Json} :
    (Json.array items).hasDistinctKeys = true ↔ ∀ item ∈ items, item.hasDistinctKeys = true := by
  rw [hasDistinctKeys]
  induction items with
  | nil => simp [haveDistinctKeys]
  | cons item items ih => rw [haveDistinctKeys, Bool.and_eq_true, ih, List.forall_mem_cons]

lemma hasDistinctKeys_object {members : List (String × Json)} :
    (Json.object members).hasDistinctKeys = true ↔ (members.map Prod.fst).Nodup ∧
      ∀ member ∈ members, member.2.hasDistinctKeys = true := by
  have hvalues : ∀ members : List (String × Json), valuesHaveDistinctKeys members = true ↔
      ∀ member ∈ members, member.2.hasDistinctKeys = true := by
    intro members
    induction members with
    | nil => simp [valuesHaveDistinctKeys]
    | cons member members ih =>
        rw [valuesHaveDistinctKeys, Bool.and_eq_true, ih, List.forall_mem_cons]
  rw [hasDistinctKeys, Bool.and_eq_true, decide_eq_true_iff, hvalues]

/-! ## The order of members -/

/-- Another order of the members of one object, which is the value or a part of it. -/
inductive Reorders : Json → Json → Prop
  | here {members members' : List (String × Json)} (hperm : members.Perm members') :
      Reorders (.object members) (.object members')
  | item {before after : List Json} {json json' : Json} (hreorders : Reorders json json') :
      Reorders (.array (before ++ json :: after)) (.array (before ++ json' :: after))
  | member {before after : List (String × Json)} {key : String} {json json' : Json}
      (hreorders : Reorders json json') :
      Reorders (.object (before ++ (key, json) :: after))
        (.object (before ++ (key, json') :: after))

namespace Fragment

/-- The order of members means nothing for a parsed value in which no key repeats. -/
lemma ofMembers_eq_of_perm {values values' : List (String × Json)} (hperm : values.Perm values')
    (hkeys : (values.map Prod.fst).Nodup) : ofMembers values' = ofMembers values := by
  have hkeys' : (values'.map Prod.fst).Nodup := (hperm.map Prod.fst).nodup_iff.mp hkeys
  have hmembers : (ofMembers values').Perm (ofMembers values) :=
    (ofMembers_perm hkeys').trans ((hperm.symm.map _).trans (ofMembers_perm hkeys).symm)
  refine hmembers.eq_of_pairwise (fun member other _ _ hless hgreater => ?_)
    (keysIncrease_ofMembers values') (keysIncrease_ofMembers values)
  exact absurd (String.lt_trans hless hgreater) (String.lt_irrefl _)

/-- Values that are parsed alike can be exchanged. -/
lemma ofMembers_congr {json json' : Json} (h : ofJson json' = ofJson json) (key : String)
    (before after : List (String × Json)) :
    ofMembers (before ++ (key, json') :: after) = ofMembers (before ++ (key, json) :: after) := by
  induction before with
  | nil => rw [List.nil_append, List.nil_append, ofMembers, ofMembers, h]
  | cons first before ih => rw [List.cons_append, List.cons_append, ofMembers, ofMembers, ih]

end Fragment

namespace Reorders

/-- Another order repeats no key either. -/
lemma hasDistinctKeys {json json' : Json} (h : Reorders json json')
    (hkeys : json.hasDistinctKeys = true) : json'.hasDistinctKeys = true := by
  induction h with
  | here hperm =>
      rw [hasDistinctKeys_object] at hkeys ⊢
      refine ⟨(hperm.map Prod.fst).nodup_iff.mp hkeys.1, fun member hmember => ?_⟩
      exact hkeys.2 member (hperm.mem_iff.mpr hmember)
  | item _ ih =>
      rw [hasDistinctKeys_array, List.forall_mem_append, List.forall_mem_cons] at hkeys ⊢
      exact ⟨hkeys.1, ih hkeys.2.1, hkeys.2.2⟩
  | member _ ih =>
      rw [hasDistinctKeys_object, List.forall_mem_append, List.forall_mem_cons] at hkeys ⊢
      obtain ⟨hnodup, hbefore, hmember, hafter⟩ := hkeys
      refine ⟨?_, hbefore, ih hmember, hafter⟩
      simpa using hnodup

/-- **The order of members means nothing for a parsed value** in which no key repeats. -/
lemma ofJson_eq {json json' : Json} (h : Reorders json json')
    (hkeys : json.hasDistinctKeys = true) : Fragment.ofJson json' = .ofJson json := by
  induction h with
  | here hperm =>
      rw [Fragment.ofJson, Fragment.ofJson,
        Fragment.ofMembers_eq_of_perm hperm (hasDistinctKeys_object.mp hkeys).1]
  | item _ ih =>
      have hitem :=
        ih (hasDistinctKeys_array.mp hkeys _ (List.mem_append_right _ List.mem_cons_self))
      simp only [Fragment.ofJson, Fragment.ofItems_eq_map, List.map_append, List.map_cons, hitem]
  | member _ ih =>
      have hmember :=
        (hasDistinctKeys_object.mp hkeys).2 _ (List.mem_append_right _ List.mem_cons_self)
      rw [Fragment.ofJson, Fragment.ofJson, Fragment.ofMembers_congr (ih hmember)]

end Reorders

/-! ## Decoders of parts -/

namespace Fragment

/-- Whether a decoder has the same result, if any, with a value as parsed and as read from a
text. -/
def ReadsAlike (decode : Fragment → Decoded α) (json : Json) : Prop :=
  ∀ fragment : Fragment, fragment.value? = some json → ∀ a,
    decode fragment = .ok a ↔ decode (.ofJson json) = .ok a

/-- For a value without parts there is one fragment only. -/
lemma readsAlike_of_isLeaf {json : Json} (h : json.isLeaf = true) (decode : Fragment → Decoded α) :
    ReadsAlike decode json := by
  intro fragment hread a
  cases shape_of_value? hread with
  | leaf _ hsame => rw [hsame]
  | array | object => cases h

lemma readsAlike_array {decode : Fragment → Decoded α} {values : List Json}
    (h : ∀ items ending, ending.isReadable = true →
      List.Forall₂ (fun item value => item.value? = some value) items values → ∀ a,
        decode (.array items ending) = .ok a ↔ decode (.ofJson (.array values)) = .ok a) :
    ReadsAlike decode (.array values) := by
  intro fragment hread a
  cases shape_of_value? hread with
  | leaf hleaf => cases hleaf
  | array hending hitems => exact h _ _ hending hitems a

lemma readsAlike_object {decode : Fragment → Decoded α} {values : List (String × Json)}
    (h : ∀ members ending, ending.isReadable = true →
      List.Forall₂ MemberReads members values → ∀ a,
        decode (.object members ending) = .ok a ↔ decode (.ofJson (.object values)) = .ok a) :
    ReadsAlike decode (.object values) := by
  intro fragment hread a
  cases shape_of_value? hread with
  | leaf hleaf => cases hleaf
  | object hending hmembers => exact h _ _ hending hmembers a

/-- What refuses all containers reads all values alike. -/
lemma readsAlike_of_refuses {decode : Fragment → Decoded α} {fault fault' : DecodeFault}
    (harray : ∀ items ending, decode (.array items ending) = .error fault)
    (hobject : ∀ members ending, decode (.object members ending) = .error fault') (json : Json) :
    ReadsAlike decode json := by
  cases json with
  | array values =>
      refine readsAlike_array fun items ending _ _ a => ?_
      rw [ofJson, harray, harray]
  | object values =>
      refine readsAlike_object fun members ending _ _ a => ?_
      rw [ofJson, hobject, hobject]
  | _ => exact readsAlike_of_isLeaf rfl _

lemma readsAlike_decodeString (json : Json) : ReadsAlike decodeString json :=
  readsAlike_of_refuses (fun _ _ => rfl) (fun _ _ => rfl) json

lemma readsAlike_decodeBool (json : Json) : ReadsAlike decodeBool json :=
  readsAlike_of_refuses (fun _ _ => rfl) (fun _ _ => rfl) json

lemma ReadsAlike.optional {decode : Fragment → Decoded α} {json : Json}
    (h : ReadsAlike decode json) : ReadsAlike (decodeOptional decode) json := by
  intro fragment hread a
  have halike : (some <$> decode fragment) = .ok a ↔ (some <$> decode (.ofJson json)) = .ok a := by
    simp only [map_eq_ok_iff, h fragment hread]
  cases shape_of_value? hread with
  | leaf _ hsame => rw [hsame]
  | array | object => exact halike

/-- The end of a container that can be read makes no difference. -/
lemma bind_require {ending : Ending} (h : ending.isReadable = true) (x : Decoded α) :
    (do
      let a ← x
      ending.require
      return a) = x := by
  rw [Ending.require, if_pos h]
  exact bind_pure x

lemma readsAlike_decodeList {decode : Fragment → Decoded α} {values : List Json}
    (h : ∀ value ∈ values, ReadsAlike decode value) :
    ReadsAlike (decodeList decode) (.array values) := by
  refine readsAlike_array fun items ending hending hitems as => ?_
  rw [ofJson, decodeList, decodeList, bind_require hending, bind_require rfl, mapM_eq_ok_iff,
    mapM_eq_ok_iff]
  induction hitems generalizing as with
  | nil => exact Iff.rfl
  | cons hitem _ ih =>
      obtain ⟨hvalue, hvalues⟩ := List.forall_mem_cons.mp h
      rw [ofItems, List.forall₂_cons_left_iff, List.forall₂_cons_left_iff]
      simp only [hvalue _ hitem, ih hvalues]

/-- Lists are read alike if what they consist of is. -/
lemma ReadsAlike.list {decode : Fragment → Decoded α}
    (h : ∀ {json : Json}, json.hasDistinctKeys = true → ReadsAlike decode json) {json : Json}
    (hkeys : json.hasDistinctKeys = true) : ReadsAlike (decodeList decode) json := by
  cases json with
  | array values =>
      exact readsAlike_decodeList fun value hvalue =>
        h (hasDistinctKeys_array.mp hkeys value hvalue)
  | object values => exact readsAlike_object fun _ _ _ _ _ => Iff.rfl
  | _ => exact readsAlike_of_isLeaf rfl _

/-- An object as parsed has null as its only member exactly if the value has. -/
lemma ofMembers_eq_singleton_null_iff {values : List (String × Json)}
    (hkeys : (values.map Prod.fst).Nodup) {word : String} :
    ofMembers values = [(word, .null)] ↔ values = [(word, .null)] := by
  constructor
  · intro hone
    have hperm := ofMembers_perm hkeys
    rw [hone, List.singleton_perm] at hperm
    obtain ⟨⟨_, json⟩, rfl, hmember⟩ := List.map_eq_singleton_iff.mp hperm.symm
    obtain ⟨rfl, hnull⟩ := Prod.mk.inj hmember
    obtain rfl := IsOf.eq_null (.inl hnull.symm)
    rfl
  · rintro rfl
    rfl

end Fragment

end Json

/-! ## Decoders of records -/

namespace Layout

variable {layout : Layout δ}

/-- A step comes to the same with a value as parsed and as read from a text. -/
lemma step_alike {json : Json} (h : ∀ slot ∈ layout.slots, Fragment.ReadsAlike slot.decode json)
    {fragment : Fragment} (hread : fragment.value? = some json) (key : String) (draft draft' : δ) :
    layout.step draft (key, fragment) = .ok draft' ↔
      layout.step draft (key, .ofJson json) = .ok draft' := by
  rcases layout.step_cases key with ⟨slot, hslot, -, hstep⟩ | ⟨-, hstep⟩
  · rw [hstep, hstep, Slot.fill, Slot.fill, fillOnce_bind_eq_ok_iff, fillOnce_bind_eq_ok_iff]
    simp only [h slot hslot fragment hread]
  · obtain ⟨value, hvalue⟩ := Fragment.exists_value?_ofJson json
    rw [hstep, hstep, layout.passes hread, layout.passes hvalue]

/-- So does a run with the same keys in the same order. -/
lemma foldlM_alike {members : List (String × Fragment)} {values : List (String × Json)}
    (hmembers : List.Forall₂ Fragment.MemberReads members values)
    (h : ∀ value ∈ values, ∀ slot ∈ layout.slots, Fragment.ReadsAlike slot.decode value.2)
    (draft draft' : δ) :
    members.foldlM layout.step draft = .ok draft' ↔
      (values.map fun value => (value.1, Fragment.ofJson value.2)).foldlM layout.step draft =
        .ok draft' := by
  induction hmembers generalizing draft with
  | nil => exact Iff.rfl
  | @cons member value members values hmember _ ih =>
      obtain ⟨key, fragment⟩ := member
      obtain ⟨rfl, hread⟩ := hmember
      obtain ⟨hvalue, hvalues⟩ := List.forall_mem_cons.mp h
      rw [List.map_cons, List.foldlM_cons, List.foldlM_cons, bind_eq_ok_iff, bind_eq_ok_iff]
      simp only [step_alike hvalue hread, ih hvalues]

/-- An object in which no key repeats comes to the same, in whatever order a text lists its
members. -/
lemma decodeObject_alike {members : List (String × Fragment)} {values : List (String × Json)}
    {ending : Ending} (hending : ending.isReadable = true)
    (hmembers : List.Forall₂ Fragment.MemberReads members values)
    (hkeys : (values.map Prod.fst).Nodup)
    (h : ∀ value ∈ values, ∀ slot ∈ layout.slots, Fragment.ReadsAlike slot.decode value.2)
    (draft : δ) :
    layout.decodeObject members ending = .ok draft ↔
      layout.decodeObject (Fragment.ofMembers values) .counted = .ok draft := by
  have hperm := Fragment.ofMembers_perm hkeys
  have hkeys' : ((Fragment.ofMembers values).map Prod.fst).Nodup := by
    rw [(hperm.map Prod.fst).nodup_iff, List.map_map]
    exact hkeys
  rw [decodeObject, decodeObject, Fragment.bind_require hending, Fragment.bind_require rfl,
    foldlM_alike hmembers h]
  exact ⟨foldlM_perm hperm.symm ((hperm.map Prod.fst).nodup_iff.mp hkeys'),
    foldlM_perm hperm hkeys'⟩

/-- An array of values for the keys in order comes to the same. -/
lemma decodeArray_alike {items : List Fragment} {values : List Json} {ending : Ending}
    (hending : ending.isReadable = true)
    (hitems : List.Forall₂ (fun item value => item.value? = some value) items values)
    (h : ∀ value ∈ values, ∀ slot ∈ layout.slots, Fragment.ReadsAlike slot.decode value)
    (draft : δ) :
    layout.decodeArray items ending = .ok draft ↔
      layout.decodeArray (Fragment.ofItems values) .counted = .ok draft := by
  have hmembers : List.Forall₂ Fragment.MemberReads (layout.keys.zip items)
      (layout.keys.zip values) := by
    clear h
    generalize layout.keys = keys
    induction hitems generalizing keys with
    | nil => simp
    | cons hitem _ ih =>
        cases keys with
        | nil => exact .nil
        | cons key keys => exact .cons ⟨rfl, hitem⟩ (ih keys)
  have hzip : ∀ member ∈ layout.keys.zip values, ∀ slot ∈ layout.slots,
      Fragment.ReadsAlike slot.decode member.2 :=
    fun member hmember => h member.2 (List.of_mem_zip hmember).2
  have hrun := foldlM_alike hmembers hzip layout.empty
  rw [Fragment.ofItems_eq_map, decodeArray, decodeArray, List.length_map, hitems.length_eq]
  split_ifs with hlength
  · rw [Fragment.bind_require hending, Fragment.bind_require rfl, hrun, List.zip_map_right]
    rfl
  · simp [bind_eq_ok_iff]

end Layout

lemma Mutability.readsAlike {json : Json} (h : json.hasDistinctKeys = true) :
    Fragment.ReadsAlike decode json := by
  cases json with
  | array values => exact Fragment.readsAlike_array fun _ _ _ _ _ => Iff.rfl
  | object values =>
      refine Fragment.readsAlike_object fun members ending hending hmembers m => ?_
      rw [Fragment.ofJson, decode, Fragment.decodeWord_object_eq_ok_iff hending,
        Fragment.decodeWord_object_eq_ok_iff rfl]
      simp only [Fragment.eq_singleton_null_iff hmembers,
        Fragment.ofMembers_eq_singleton_null_iff (Json.hasDistinctKeys_object.mp h).1]
  | _ => exact Fragment.readsAlike_of_isLeaf rfl _

/-! ### Parameters -/

namespace Parameter

lemma layout_alike {buffered : Bool} {json : Json}
    (h : Fragment.ReadsAlike (Fragment.decodeList (decode buffered)) json) :
    ∀ slot ∈ (layout buffered).slots, Fragment.ReadsAlike slot.decode json := by
  have hstring := Fragment.readsAlike_decodeString json
  simp only [layout, List.forall_mem_cons]
  exact ⟨hstring, hstring, h.optional, hstring.optional, List.forall_mem_nil _⟩

/-- Parameters are read alike, and so are lists of them. -/
lemma readsAlike (buffered : Bool) {json : Json} (h : json.hasDistinctKeys = true) :
    Fragment.ReadsAlike (decode buffered) json ∧
      Fragment.ReadsAlike (Fragment.decodeList (decode buffered)) json := by
  -- Components are a list under a key: the second half is what the object case needs of its parts.
  induction json using Json.induction_on_parts with
  | leaf json hleaf =>
      exact ⟨Fragment.readsAlike_of_isLeaf hleaf _, Fragment.readsAlike_of_isLeaf hleaf _⟩
  | array values ih =>
      have hvalues := fun value hvalue =>
        ih value hvalue (Json.hasDistinctKeys_array.mp h value hvalue)
      refine ⟨Fragment.readsAlike_array fun items ending hending hitems p => ?_,
        Fragment.readsAlike_decodeList fun value hvalue => (hvalues value hvalue).1⟩
      have hlayout := Layout.decodeArray_alike hending hitems fun value hvalue =>
        layout_alike (hvalues value hvalue).2
      rw [Fragment.ofJson, decode_array, decode_array, bind_eq_ok_iff, bind_eq_ok_iff]
      simp only [hlayout]
  | object values ih =>
      obtain ⟨hkeys, hdistinct⟩ := Json.hasDistinctKeys_object.mp h
      refine ⟨Fragment.readsAlike_object fun members ending hending hmembers p => ?_,
        Fragment.readsAlike_object fun _ _ _ _ _ => Iff.rfl⟩
      have hlayout := Layout.decodeObject_alike hending hmembers hkeys fun value hvalue =>
        layout_alike (ih value hvalue (hdistinct value hvalue)).2
      rw [Fragment.ofJson, decode_object, decode_object, bind_eq_ok_iff, bind_eq_ok_iff]
      simp only [hlayout]

end Parameter

/-! ### Inputs of entries -/

namespace EventParameter

lemma readsAlike {json : Json} (h : json.hasDistinctKeys = true) :
    Fragment.ReadsAlike decode json := by
  intro fragment hread p
  cases Fragment.shape_of_value? hread with
  | leaf _ hsame => rw [hsame]
  | array => exact Iff.rfl
  | object hending hmembers =>
      have hparameter := (Parameter.readsAlike true h).1 _ hread
      have hflag := layout.decodeObject_alike hending hmembers (Json.hasDistinctKeys_object.mp h).1
        fun value _ => List.forall_mem_singleton.mpr (Fragment.readsAlike_decodeBool value.2)
      rw [Fragment.ofJson] at hparameter ⊢
      rw [decode_object, decode_object, bind_eq_ok_iff, bind_eq_ok_iff]
      simp only [hflag, bind_eq_ok_iff, hparameter]

end EventParameter

/-! ### Entries -/

namespace Entry

lemma layout_alike {json : Json} (h : json.hasDistinctKeys = true) :
    ∀ slot ∈ layout.slots, Fragment.ReadsAlike slot.decode json := by
  have hstring := Fragment.readsAlike_decodeString json
  have hbool := Fragment.readsAlike_decodeBool json
  have hinputs := Fragment.ReadsAlike.list EventParameter.readsAlike h
  have houtputs := (Parameter.readsAlike false h).2
  have hmutability := (Mutability.readsAlike h).optional
  simp only [layout, List.forall_mem_cons]
  exact ⟨hstring.optional, hstring, hinputs, houtputs, hmutability, hbool.optional, hbool.optional,
    hbool, List.forall_mem_nil _⟩

lemma readsAlike {json : Json} (h : json.hasDistinctKeys = true) :
    Fragment.ReadsAlike decode json := by
  cases json with
  | array values =>
      refine Fragment.readsAlike_array fun items ending hending hitems entry => ?_
      have hlayout := Layout.decodeArray_alike hending hitems fun value hvalue =>
        layout_alike (Json.hasDistinctKeys_array.mp h value hvalue)
      rw [Fragment.ofJson, decode_array, decode_array, bind_eq_ok_iff, bind_eq_ok_iff]
      simp only [hlayout]
  | object values =>
      obtain ⟨hkeys, hdistinct⟩ := Json.hasDistinctKeys_object.mp h
      refine Fragment.readsAlike_object fun members ending hending hmembers entry => ?_
      have hlayout := Layout.decodeObject_alike hending hmembers hkeys fun value hvalue =>
        layout_alike (hdistinct value hvalue)
      rw [Fragment.ofJson, decode_object, decode_object, bind_eq_ok_iff, bind_eq_ok_iff]
      simp only [hlayout]
  | _ => exact Fragment.readsAlike_of_isLeaf rfl _

end Entry

/-! ## Interfaces -/

namespace Interface

lemma readsAlike {json : Json} (h : json.hasDistinctKeys = true) :
    Fragment.ReadsAlike decode json := by
  intro fragment hread interface
  have hentries := Fragment.ReadsAlike.list Entry.readsAlike h fragment hread
  rw [decode, decode, bind_eq_ok_iff, bind_eq_ok_iff]
  simp only [hentries]

/-- **A text and the value that it writes describe the same interface.**  If a text can be read as
JSON and no object in it repeats a key, it describes an interface exactly if its value does, with
the members of objects in whatever order, and it is the same one. -/
theorem ofText_eq_ok_iff_ofJson (text : String) (written value : Json)
    (hparse : Json.parse? text = some written) (hkeys : written.hasDistinctKeys = true)
    (horder : Relation.ReflTransGen Json.Reorders written value) (interface : Interface) :
    ofText text = .ok interface ↔ ofJson value = .ok interface := by
  -- Other orders of the value are the same to the decoder; so only the text as written is left.
  have hsame : value.hasDistinctKeys = true ∧ Fragment.ofJson value = .ofJson written := by
    induction horder with
    | refl => exact ⟨hkeys, rfl⟩
    | tail _ hreorders ih =>
        exact ⟨hreorders.hasDistinctKeys ih.1, (hreorders.ofJson_eq ih.1).trans ih.2⟩
  rw [Json.parse?, Document.value?] at hparse
  split_ifs at hparse with hended
  have hroot := readsAlike hkeys (Document.read text).root hparse interface
  rw [ofJson, hsame.2, ← hroot, ofText]
  simp only [hended, if_true, bind_pure]

/-- A text of one event, in which the keys of the entry and of its input are against their order. -/
def beaconText : String :=
  "[\x7b\"type\": \"event\", \"name\": \"Lit\", " ++
    "\"inputs\": [\x7b\"type\": \"bool\", \"indexed\": true\x7d]\x7d]"

/-- Whether a value is a list of one object that has the given keys in this order. -/
def listsKeys (keys : List String) : Json → Bool
  | .array [.object members] => members.map Prod.fst == keys
  | _ => false

/-- An event that a text describes is also described by the value with its keys in order. -/
theorem ofText_eq_ok_iff_ofJson_beacon :
    ∃ members, Json.parse? beaconText = some (.array [.object members]) ∧
      members.map Prod.fst = ["type", "name", "inputs"] ∧
      (Json.array [.object members]).hasDistinctKeys = true ∧
      Relation.ReflTransGen Json.Reorders (.array [.object members])
        (.array [.object members.reverse]) ∧
      ∃ interface, ofText beaconText = .ok interface ∧
        ofJson (.array [.object members.reverse]) = .ok interface := by
  have hread : (Json.parse? beaconText).any (fun written =>
      written.hasDistinctKeys && listsKeys ["type", "name", "inputs"] written) = true := by
    decide +kernel
  obtain ⟨written, hparse, hwritten⟩ := (Option.any_eq_true _ _).mp hread
  obtain ⟨hkeys, hlists⟩ := Bool.and_eq_true_iff.mp hwritten
  unfold listsKeys at hlists
  split at hlists
  · next members =>
      have horder : Relation.ReflTransGen Json.Reorders (.array [.object members])
          (.array [.object members.reverse]) :=
        .single (@Json.Reorders.item [] [] _ _ (.here (List.reverse_perm members).symm))
      obtain ⟨interface, hinterface⟩ :=
        exists_ok_of_isOk (x := ofText beaconText) (by decide +kernel)
      exact ⟨members, hparse, by simpa using hlists, hkeys, horder, interface, hinterface,
        (ofText_eq_ok_iff_ofJson _ _ _ hparse hkeys horder interface).mp hinterface⟩
  · cases hlists

end Interface

end ContractInterface
