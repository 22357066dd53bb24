import ContractInterface.Proofs.ParsedFaults
import Mathlib.Logic.Relation

/-!
# Keys without a meaning

A description may say more than is known here: the objects of entries, of their inputs and of
parameters may have keys of any other name, with any values.  Which keys are known depends on the
kind of object; `indexed`, for one, means something for an input of an entry and nothing for a
component of its type.

One key more, at any depth, changes nothing of what a parsed value is decoded to, be it an interface
or the fault that is met first (`Interface.ofJson_of_gainsKey`); so any number of them does not
either (`Interface.ofJson_ignores_unknown_keys`).  The values under such keys are passed over, and
the members that are left are met in the same order, since that is the order of their keys
(`Fragment.filter_ofMembers`).
-/

namespace ContractInterface

open Json (Fragment Ending)

/-! ## One key more -/

/-- One key more in a parameter: in its object, or in one of its components, whether these stand in
an object or in an array form. -/
inductive Parameter.GainsKey : Json → Json → Prop
  | here {before after : List (String × Json)} {key : String} {value : Json}
      (hkey : key ∉ Parameter.keys) :
      GainsKey (.object (before ++ after)) (.object (before ++ (key, value) :: after))
  | component {before after : List (String × Json)} {items rest : List Json} {json json' : Json}
      (hgains : GainsKey json json') :
      GainsKey (.object (before ++ ("components", .array (items ++ json :: rest)) :: after))
        (.object (before ++ ("components", .array (items ++ json' :: rest)) :: after))
  | componentAt {name type : Json} {after items rest : List Json} {json json' : Json}
      (hgains : GainsKey json json') :
      GainsKey (.array (name :: type :: .array (items ++ json :: rest) :: after))
        (.array (name :: type :: .array (items ++ json' :: rest) :: after))

/-- One key more in an input of an entry: in its object, or in one of its components. -/
inductive EventParameter.GainsKey : Json → Json → Prop
  | here {before after : List (String × Json)} {key : String} {value : Json}
      (hkey : key ∉ "indexed" :: Parameter.keys) :
      GainsKey (.object (before ++ after)) (.object (before ++ (key, value) :: after))
  | component {before after : List (String × Json)} {items rest : List Json} {json json' : Json}
      (hgains : Parameter.GainsKey json json') :
      GainsKey (.object (before ++ ("components", .array (items ++ json :: rest)) :: after))
        (.object (before ++ ("components", .array (items ++ json' :: rest)) :: after))

/-- One key more in an entry: in its object, or in one of its inputs or outputs, whether these stand
in an object or in an array form. -/
inductive Entry.GainsKey : Json → Json → Prop
  | here {before after : List (String × Json)} {key : String} {value : Json}
      (hkey : key ∉ Entry.keys) :
      GainsKey (.object (before ++ after)) (.object (before ++ (key, value) :: after))
  | input {before after : List (String × Json)} {items rest : List Json} {json json' : Json}
      (hgains : EventParameter.GainsKey json json') :
      GainsKey (.object (before ++ ("inputs", .array (items ++ json :: rest)) :: after))
        (.object (before ++ ("inputs", .array (items ++ json' :: rest)) :: after))
  | output {before after : List (String × Json)} {items rest : List Json} {json json' : Json}
      (hgains : Parameter.GainsKey json json') :
      GainsKey (.object (before ++ ("outputs", .array (items ++ json :: rest)) :: after))
        (.object (before ++ ("outputs", .array (items ++ json' :: rest)) :: after))
  | inputAt {type name : Json} {after items rest : List Json} {json json' : Json}
      (hgains : EventParameter.GainsKey json json') :
      GainsKey (.array (type :: name :: .array (items ++ json :: rest) :: after))
        (.array (type :: name :: .array (items ++ json' :: rest) :: after))
  | outputAt {type name inputs : Json} {after items rest : List Json} {json json' : Json}
      (hgains : Parameter.GainsKey json json') :
      GainsKey (.array (type :: name :: inputs :: .array (items ++ json :: rest) :: after))
        (.array (type :: name :: inputs :: .array (items ++ json' :: rest) :: after))

/-- One key more in an interface: in one of its entries. -/
inductive Interface.GainsKey : Json → Json → Prop
  | entry {before after : List Json} {json json' : Json} (hgains : Entry.GainsKey json json') :
      GainsKey (.array (before ++ json :: after)) (.array (before ++ json' :: after))

/-! ## The members of a parsed object -/

namespace Json.Fragment

lemma insertMember_of_lt {key : String} {members : List (String × Fragment)}
    (h : ∀ member ∈ members, key < member.1) (value : Fragment) :
    insertMember key value members = (key, value) :: members := by
  cases members with
  | nil => rfl
  | cons first rest => rw [insertMember, if_pos (h first List.mem_cons_self)]

/-- Inserting a member and keeping some keys can be done in either order. -/
lemma filter_insertMember (keep : String → Bool) {members : List (String × Fragment)}
    (h : KeysIncrease members) (key : String) (value : Fragment) :
    (insertMember key value members).filter (fun member => keep member.1) =
      if keep key then insertMember key value (members.filter fun member => keep member.1)
      else members.filter fun member => keep member.1 := by
  induction members with
  | nil => by_cases hkeep : keep key <;> simp [insertMember, hkeep]
  | cons first rest ih =>
      obtain ⟨hfirst, hrest⟩ := List.pairwise_cons.mp h
      rw [insertMember]
      by_cases hless : key < first.1
      · -- The key comes before all others, those that are kept included.
        have hall : ∀ member ∈ (first :: rest).filter (fun member => keep member.1),
            key < member.1 := by
          intro member hmember
          rcases List.mem_cons.mp (List.mem_of_mem_filter hmember) with rfl | hmem
          · exact hless
          · exact String.lt_trans hless (hfirst member hmem)
        rw [if_pos hless, insertMember_of_lt hall, List.filter_cons]
      · rw [if_neg hless]
        by_cases hsame : key = first.1
        · rw [if_pos hsame, List.filter_cons, hsame]
          by_cases hkeep : keep first.1 = true
          · rw [if_pos hkeep, if_pos hkeep, insertMember, if_neg (String.lt_irrefl _), if_pos rfl]
          · rw [if_neg hkeep, if_neg hkeep]
        · rw [if_neg hsame, List.filter_cons, List.filter_cons, ih hrest]
          by_cases hkeep : keep first.1 = true
          · rw [if_pos hkeep, if_pos hkeep, insertMember, if_neg hless, if_neg hsame]
            split_ifs <;> rfl
          · rw [if_neg hkeep, if_neg hkeep]

/-- The known members of a parsed object are those of the object with its known keys only. -/
lemma filter_ofMembers (keep : String → Bool) (values : List (String × Json)) :
    (ofMembers values).filter (fun member => keep member.1) =
      ofMembers (values.filter fun value => keep value.1) := by
  induction values with
  | nil => rfl
  | cons value values ih =>
      rw [ofMembers, filter_insertMember keep (keysIncrease_ofMembers values), ih,
        List.filter_cons]
      split_ifs <;> rfl

/-- Related members stay related if two more are inserted that are. -/
lemma forall₂_insertMember {R : String × Fragment → String × Fragment → Prop}
    (hkeys : ∀ {member member'}, R member member' → member.1 = member'.1)
    {members members' : List (String × Fragment)} (h : List.Forall₂ R members members')
    {key : String} {value value' : Fragment} (hnew : R (key, value) (key, value')) :
    List.Forall₂ R (insertMember key value members) (insertMember key value' members') := by
  induction h with
  | nil => exact .cons hnew .nil
  | @cons first first' rest rest' hfirst hrest ih =>
      obtain ⟨name, fragment⟩ := first
      obtain ⟨name', fragment'⟩ := first'
      obtain rfl : name = name' := hkeys hfirst
      rw [insertMember, insertMember]
      split_ifs
      · exact .cons hnew (.cons hfirst hrest)
      · exact .cons hfirst hrest
      · exact .cons hfirst ih

end Json.Fragment

/-! ## Decoding the members of a parsed object -/

lemma foldlM_filter {step : δ → String × Fragment → Decoded δ} {keep : String → Bool}
    {members : List (String × Fragment)}
    (h : ∀ member ∈ members, keep member.1 = false → ∀ draft, step draft member = .ok draft)
    (draft : δ) :
    members.foldlM step draft =
      (members.filter fun member => keep member.1).foldlM step draft := by
  induction members generalizing draft with
  | nil => rfl
  | cons member members ih =>
      obtain ⟨hmember, hmembers⟩ := List.forall_mem_cons.mp h
      rw [List.foldlM_cons, List.filter_cons]
      by_cases hkeep : keep member.1 = true
      · rw [if_pos hkeep, List.foldlM_cons]
        exact congrArg _ (funext (ih hmembers))
      · rw [if_neg hkeep, hmember (by simpa using hkeep)]
        exact ih hmembers draft

/-- Lists of members with which every step comes to the same give the same result. -/
lemma foldlM_of_forall₂ {step : δ → String × Fragment → Decoded δ}
    {members members' : List (String × Fragment)}
    (h : List.Forall₂ (fun member member' => ∀ draft, step draft member = step draft member')
      members members') (draft : δ) : members.foldlM step draft = members'.foldlM step draft := by
  induction h generalizing draft with
  | nil => rfl
  | cons hfirst _ ih =>
      rw [List.foldlM_cons, List.foldlM_cons, hfirst]
      exact congrArg _ (funext ih)

namespace Layout

variable {layout : Layout δ}

/-- A member without a slot does not count. -/
lemma decodeObject_of_unknown {key : String} (hkey : key ∉ layout.keys) (value : Json)
    (before after : List (String × Json)) (ending : Ending) :
    layout.decodeObject (Fragment.ofMembers (before ++ (key, value) :: after)) ending =
      layout.decodeObject (Fragment.ofMembers (before ++ after)) ending := by
  have hknown : ∀ values : List (String × Json),
      (Fragment.ofMembers values).foldlM layout.step layout.empty =
        (Fragment.ofMembers (values.filter fun value => layout.keys.contains value.1)).foldlM
          layout.step layout.empty := by
    intro values
    rw [← Fragment.filter_ofMembers]
    refine foldlM_filter (fun member hmember hunknown draft => ?_) layout.empty
    obtain ⟨other, -, rfl⟩ := Fragment.exists_mem_of_mem_ofMembers hmember
    exact step_of_unknown (by simpa using hunknown) other.2 draft
  rw [decodeObject, decodeObject, hknown, hknown (before ++ after), List.filter_append,
    List.filter_append, List.filter_cons, if_neg (by simp [hkey])]

/-- Values under a key with which every step comes to the same can be exchanged. -/
lemma decodeObject_congr {key : String} {value value' : Json}
    (h : ∀ draft, layout.step draft (key, .ofJson value') = layout.step draft (key, .ofJson value))
    (before after : List (String × Json)) (ending : Ending) :
    layout.decodeObject (Fragment.ofMembers (before ++ (key, value') :: after)) ending =
      layout.decodeObject (Fragment.ofMembers (before ++ (key, value) :: after)) ending := by
  have halike : List.Forall₂ (fun member member' => member.1 = member'.1 ∧
        ∀ draft, layout.step draft member = layout.step draft member')
      (Fragment.ofMembers (before ++ (key, value') :: after))
      (Fragment.ofMembers (before ++ (key, value) :: after)) := by
    induction before with
    | nil =>
        refine Fragment.forall₂_insertMember And.left ?_ ⟨rfl, h⟩
        exact List.forall₂_same.mpr fun _ _ => ⟨rfl, fun _ => rfl⟩
    | cons first before ih => exact Fragment.forall₂_insertMember And.left ih ⟨rfl, fun _ => rfl⟩
  rw [decodeObject, decodeObject, foldlM_of_forall₂ (halike.imp fun _ _ => And.right)]

/-- Values at the place of a key with which every step comes to the same can be exchanged. -/
lemma decodeArray_congr (before : List Json) {key : String}
    (hkey : layout.keys[before.length]? = some key) {value value' : Json}
    (h : ∀ draft, layout.step draft (key, .ofJson value') = layout.step draft (key, .ofJson value))
    (after : List Json) (ending : Ending) :
    layout.decodeArray (Fragment.ofItems (before ++ value' :: after)) ending =
      layout.decodeArray (Fragment.ofItems (before ++ value :: after)) ending := by
  have halike : List.Forall₂ (fun member member' =>
        ∀ draft, layout.step draft member = layout.step draft member')
      (layout.keys.zip (Fragment.ofItems (before ++ value' :: after)))
      (layout.keys.zip (Fragment.ofItems (before ++ value :: after))) := by
    generalize layout.keys = keys at hkey
    induction before generalizing keys with
    | nil =>
        obtain ⟨rest, rfl⟩ := List.head?_eq_some_iff.mp (List.head?_eq_getElem?.trans hkey)
        exact .cons h (List.forall₂_same.mpr fun _ _ _ => rfl)
    | cons first before ih =>
        cases keys with
        | nil => cases hkey
        | cons _ keys => exact .cons (fun _ => rfl) (ih keys hkey)
  have hlength : (Fragment.ofItems (before ++ value' :: after)).length =
      (Fragment.ofItems (before ++ value :: after)).length := by
    simp [Fragment.ofItems_eq_map]
  rw [decodeArray, decodeArray, foldlM_of_forall₂ halike, hlength]

end Layout

/-- Items that are decoded alike can be exchanged. -/
lemma decodeList_congr {decode : Fragment → Decoded α} {json json' : Json}
    (h : decode (.ofJson json') = decode (.ofJson json)) (items rest : List Json) :
    (Fragment.ofJson (.array (items ++ json' :: rest))).decodeList decode =
      (Fragment.ofJson (.array (items ++ json :: rest))).decodeList decode := by
  simp only [Fragment.ofJson, Fragment.decodeList, Fragment.ofItems_eq_map, List.map_append,
    List.map_cons, List.mapM_append, List.mapM_cons, h]

/-! ## Parameters -/

namespace Parameter

/-- Components that are decoded alike can be exchanged. -/
lemma step_components_congr {buffered : Bool} {json json' : Json}
    (h : decode buffered (.ofJson json') = decode buffered (.ofJson json))
    (items rest : List Json) (draft : Draft) :
    (layout buffered).step draft ("components", .ofJson (.array (items ++ json' :: rest))) =
      (layout buffered).step draft ("components", .ofJson (.array (items ++ json :: rest))) := by
  have hlist := decodeList_congr h items rest
  have hkey : "components" ∈ keys := by decide
  refine Layout.step_congr hkey ?_ draft
  simpa [layout, Fragment.ofJson, Fragment.decodeOptional] using congrArg (some <$> ·) hlist

/-- A parameter with one key more is decoded alike. -/
lemma decode_of_gainsKey (buffered : Bool) {json json' : Json} (h : GainsKey json json') :
    decode buffered (.ofJson json') = decode buffered (.ofJson json) := by
  induction h with
  | here hkey =>
      rw [Fragment.ofJson, Fragment.ofJson, decode_object, decode_object,
        Layout.decodeObject_of_unknown hkey]
  | component _ ih =>
      rw [Fragment.ofJson, Fragment.ofJson, decode_object, decode_object,
        Layout.decodeObject_congr (step_components_congr ih _ _)]
  | componentAt _ ih =>
      rw [Fragment.ofJson, Fragment.ofJson, decode_array, decode_array]
      exact congrArg (· >>= _)
        (Layout.decodeArray_congr [_, _] rfl (step_components_congr ih _ _) _ _)

end Parameter

/-! ## Inputs of entries -/

namespace EventParameter

/-- What is one key more in an input is so in the parameter that it is. -/
lemma GainsKey.parameter {json json' : Json} (h : GainsKey json json') :
    Parameter.GainsKey json json' := by
  cases h with
  | here hkey => exact .here fun hmem => hkey (List.mem_cons_of_mem _ hmem)
  | component hgains => exact .component hgains

/-- An input with one key more is decoded alike, for the flag and as a parameter. -/
lemma decode_of_gainsKey {json json' : Json} (h : GainsKey json json') :
    decode (.ofJson json') = decode (.ofJson json) := by
  have hparameter := Parameter.decode_of_gainsKey true h.parameter
  cases h with
  | here hkey =>
      have hunknown : _ ∉ layout.keys := fun hmem => hkey (List.mem_append_left Parameter.keys hmem)
      rw [Fragment.ofJson, Fragment.ofJson] at hparameter ⊢
      rw [decode_object, decode_object, hparameter, Layout.decodeObject_of_unknown hunknown]
  | component hgains =>
      have hflag : ∀ (json json' : Json) indexed,
          layout.step indexed ("components", .ofJson json') =
            layout.step indexed ("components", .ofJson json) := by
        intro json json' indexed
        rw [Layout.step_of_unknown (by decide), Layout.step_of_unknown (by decide)]
      rw [Fragment.ofJson, Fragment.ofJson] at hparameter ⊢
      rw [decode_object, decode_object, hparameter, Layout.decodeObject_congr (hflag _ _)]

end EventParameter

/-! ## Entries -/

namespace Entry

/-- Inputs that are decoded alike can be exchanged. -/
lemma step_inputs_congr {json json' : Json}
    (h : EventParameter.decode (.ofJson json') = EventParameter.decode (.ofJson json))
    (items rest : List Json) (draft : Draft) :
    layout.step draft ("inputs", .ofJson (.array (items ++ json' :: rest))) =
      layout.step draft ("inputs", .ofJson (.array (items ++ json :: rest))) := by
  refine Layout.step_congr (by decide) ?_ draft
  simpa [layout] using decodeList_congr h items rest

/-- Outputs that are decoded alike can be exchanged. -/
lemma step_outputs_congr {json json' : Json}
    (h : Parameter.decode false (.ofJson json') = Parameter.decode false (.ofJson json))
    (items rest : List Json) (draft : Draft) :
    layout.step draft ("outputs", .ofJson (.array (items ++ json' :: rest))) =
      layout.step draft ("outputs", .ofJson (.array (items ++ json :: rest))) := by
  refine Layout.step_congr (by decide) ?_ draft
  simpa [layout] using decodeList_congr h items rest

/-- An entry with one key more is decoded alike. -/
lemma decode_of_gainsKey {json json' : Json} (h : GainsKey json json') :
    decode (.ofJson json') = decode (.ofJson json) := by
  cases h with
  | here hkey =>
      rw [Fragment.ofJson, Fragment.ofJson, decode_object, decode_object,
        Layout.decodeObject_of_unknown hkey]
  | input hgains =>
      have hinputs := step_inputs_congr (EventParameter.decode_of_gainsKey hgains)
      rw [Fragment.ofJson, Fragment.ofJson, decode_object, decode_object,
        Layout.decodeObject_congr (hinputs _ _)]
  | output hgains =>
      have houtputs := step_outputs_congr (Parameter.decode_of_gainsKey false hgains)
      rw [Fragment.ofJson, Fragment.ofJson, decode_object, decode_object,
        Layout.decodeObject_congr (houtputs _ _)]
  | inputAt hgains =>
      have hinputs := step_inputs_congr (EventParameter.decode_of_gainsKey hgains)
      rw [Fragment.ofJson, Fragment.ofJson, decode_array, decode_array]
      exact congrArg (· >>= _) (Layout.decodeArray_congr [_, _] rfl (hinputs _ _) _ _)
  | outputAt hgains =>
      have houtputs := step_outputs_congr (Parameter.decode_of_gainsKey false hgains)
      rw [Fragment.ofJson, Fragment.ofJson, decode_array, decode_array]
      exact congrArg (· >>= _) (Layout.decodeArray_congr [_, _, _] rfl (houtputs _ _) _ _)

end Entry

/-! ## Interfaces -/

namespace Interface

/-- One key more in an interface changes nothing. -/
lemma ofJson_of_gainsKey {json json' : Json} (h : GainsKey json json') :
    ofJson json' = ofJson json := by
  cases h with
  | entry hgains =>
      rw [ofJson, ofJson, decode, decode, decodeList_congr (Entry.decode_of_gainsKey hgains)]

/-- **Decoding ignores keys that it does not know.**  A parsed value, and one that comes from it by
adding any number of keys to the objects of entries, of their inputs and of parameters at any
depth, each key unknown for the kind of object that it is added to and with any value, describe the
same interface or have the same fault.  The fault is that of a place in the value: the same thing is
found where the same was expected, or the same key, word or number of items is wrong. -/
theorem ofJson_ignores_unknown_keys (json json' : Json)
    (h : Relation.ReflTransGen GainsKey json json') :
    ofJson json' = ofJson json ∧ ofJson json ≠ .error .unreadable := by
  refine ⟨?_, ofJson_ne_unreadable json⟩
  induction h with
  | refl => rfl
  | tail _ hgains ih => rw [ofJson_of_gainsKey hgains, ih]

/-- A function `relay` of a tuple `order` with one component, whose type is given, and with further
members for the entry, for its input and for the component. -/
def relay (type : Json) (entry input component : List (String × Json)) : Json :=
  .array [.object ([("type", .string "function"), ("name", .string "relay"),
    ("inputs", .array [.object ([("name", .string "order"), ("type", .string "tuple"),
      ("components", .array [.object ([("name", .string "id"), ("type", type)]
        ++ component)])] ++ input)])] ++ entry)]

/-- With a flag `indexed` on the component, a note on the input and an amount of gas on the
entry. -/
def relayAnnotated (type : Json) : Json :=
  relay type [("gas", .number "21000")] [("note", .null)] [("indexed", .string "no")]

/-- These mean nothing, be the type of the component fine or not. -/
theorem ofJson_ignores_unknown_keys_relay :
    (∀ type, Relation.ReflTransGen GainsKey (relay type [] [] []) (relayAnnotated type)) ∧
      (ofJson (relay (.string "uint256") [] [] [])).isOk = true ∧
      ofJson (relayAnnotated (.string "uint256")) = ofJson (relay (.string "uint256") [] [] []) ∧
      ofJson (relayAnnotated (.number "7")) = .error (.unexpected (.number "7") .string) := by
  have hcomponent : ∀ type, GainsKey (relay type [] [] [])
      (relay type [] [] [("indexed", .string "no")]) := fun type =>
    @GainsKey.entry [] [] _ _ (@Entry.GainsKey.input
      [("type", .string "function"), ("name", .string "relay")] [] [] [] _ _
      (@EventParameter.GainsKey.component
        [("name", .string "order"), ("type", .string "tuple")] [] [] [] _ _
        (@Parameter.GainsKey.here [("name", .string "id"), ("type", type)] []
          "indexed" (.string "no") (by decide))))
  have hinput : ∀ type, GainsKey (relay type [] [] [("indexed", .string "no")])
      (relay type [] [("note", .null)] [("indexed", .string "no")]) := fun type =>
    @GainsKey.entry [] [] _ _ (@Entry.GainsKey.input
      [("type", .string "function"), ("name", .string "relay")] [] [] [] _ _
      (@EventParameter.GainsKey.here [("name", .string "order"), ("type", .string "tuple"), _] []
        "note" .null (by decide)))
  have hentry : ∀ type, GainsKey (relay type [] [("note", .null)] [("indexed", .string "no")])
      (relayAnnotated type) := fun type =>
    @GainsKey.entry [] [] _ _ (@Entry.GainsKey.here
      [("type", .string "function"), ("name", .string "relay"), _] [] "gas" (.number "21000")
      (by decide))
  have hgains := fun type =>
    ((Relation.ReflTransGen.single (hcomponent type)).tail (hinput type)).tail (hentry type)
  refine ⟨hgains, by decide +kernel, (ofJson_ignores_unknown_keys _ _ (hgains _)).1, ?_⟩
  rw [(ofJson_ignores_unknown_keys _ _ (hgains _)).1]
  rfl

end Interface

end ContractInterface
