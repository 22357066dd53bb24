import ContractInterface.Decoding
import ContractInterface.Json.Reader
import ContractInterface.Proofs.Outcome
import Mathlib.Data.List.Forall2

/-!
# Members of JSON objects, as decoders see them

A decoder walks a fragment: that of a parsed value, or that of a text which writes the value
(`Fragment.IsOf`).  In the first the members are in the order of their keys and each key is there
once; in the second they are as written, and a key may be there several times.

A decoder of an object keeps a slot for each key that it knows, and refuses a key for which the
slot is filled (`FillsSlot`).  So if it succeeds, there was at most one value under the key, and
order and repetition make no difference: the slot holds what the JSON value under the key is
decoded to, or nothing if there is none (`FillsSlot.holds`).
-/

namespace ContractInterface

/-! ## Values under a key -/

/-- The values under a key, in order. -/
def valuesUnder (key : String) (members : List (String × α)) : List α :=
  (members.filter fun member => member.1 == key).map Prod.snd

lemma valuesUnder_cons_self (key : String) (value : α) (members : List (String × α)) :
    valuesUnder key ((key, value) :: members) = value :: valuesUnder key members := by
  simp [valuesUnder]

lemma valuesUnder_cons_of_ne {key other : String} (h : other ≠ key) (value : α)
    (members : List (String × α)) :
    valuesUnder key ((other, value) :: members) = valuesUnder key members := by
  simp [valuesUnder, h]

lemma valuesUnder_eq_nil_of_forall_ne {key : String} {members : List (String × α)}
    (h : ∀ member ∈ members, member.1 ≠ key) : valuesUnder key members = [] := by
  simpa [valuesUnder] using h

namespace Json

/-- The member of an object with a key is the last one with that key. -/
lemma member?_object (key : String) (members : List (String × Json)) :
    (Json.object members).member? key = (valuesUnder key members).getLast? := by
  induction members with
  | nil => rfl
  | cons member members ih =>
      obtain ⟨other, value⟩ := member
      have hcons : (Json.object ((other, value) :: members)).member? key =
          ((Json.object members).member? key).or ([(other, value)].lookup key) := by
        rw [member?, member?, List.reverse_cons, List.lookup_append]
      rw [hcons, ih]
      by_cases hkey : other = key
      · subst hkey
        rw [valuesUnder_cons_self, List.getLast?_cons, List.lookup_cons_self]
        cases (valuesUnder other members).getLast? <;> rfl
      · have hne : (key == other) = false := by simpa using Ne.symm hkey
        rw [valuesUnder_cons_of_ne hkey]
        simp [List.lookup_cons, hne]

namespace Fragment

/-- Whether a fragment is of a JSON value: the value was parsed before, or the fragment can be read
to its end and is the value then. -/
def IsOf (fragment : Fragment) (json : Json) : Prop :=
  fragment = ofJson json ∨ fragment.value? = some json

/-! ## Fragments of values without parts -/

lemma IsOf.eq_null {json : Json} (h : Fragment.null.IsOf json) : json = .null := by
  rcases h with hparsed | hread
  · cases json <;> simp_all [ofJson]
  · exact (Option.some.inj hread).symm

lemma IsOf.eq_string {s : String} {json : Json} (h : (Fragment.string s).IsOf json) :
    json = .string s := by
  rcases h with hparsed | hread
  · cases json <;> simp_all [ofJson]
  · exact (Option.some.inj hread).symm

lemma IsOf.eq_bool {b : Bool} {json : Json} (h : (Fragment.bool b).IsOf json) :
    json = .bool b := by
  rcases h with hparsed | hread
  · cases json <;> simp_all [ofJson]
  · exact (Option.some.inj hread).symm

/-! ## Fragments of arrays -/

lemma values?_eq_some_iff {items : List Fragment} {values : List Json} :
    values? items = some values ↔
      List.Forall₂ (fun item value => item.value? = some value) items values := by
  induction items generalizing values with
  | nil => simp [values?, eq_comm]
  | cons item items ih =>
      rw [values?, List.forall₂_cons_left_iff]
      simp only [Option.bind_eq_bind, Option.bind_eq_some_iff, ih, Option.pure_def,
        Option.some.injEq]
      constructor
      · rintro ⟨value, hvalue, rest, hrest, rfl⟩
        exact ⟨value, rest, hvalue, hrest, rfl⟩
      · rintro ⟨value, rest, hvalue, hrest, rfl⟩
        exact ⟨value, hvalue, rest, hrest, rfl⟩

lemma forall₂_isOf_ofItems (values : List Json) : List.Forall₂ IsOf (ofItems values) values := by
  induction values with
  | nil => exact .nil
  | cons value values ih => exact .cons (.inl rfl) ih

/-- The items of a fragment of an array are fragments of its items. -/
lemma IsOf.exists_items {items : List Fragment} {ending : Ending} {json : Json}
    (h : (Fragment.array items ending).IsOf json) :
    ∃ values, json = .array values ∧ List.Forall₂ IsOf items values := by
  rcases h with hparsed | hread
  · cases json with
    | array values =>
        obtain ⟨rfl, -⟩ := Fragment.array.inj hparsed
        exact ⟨values, rfl, forall₂_isOf_ofItems values⟩
    | _ => simp [ofJson] at hparsed
  · rw [value?, Option.bind_eq_bind, Option.bind_eq_some_iff] at hread
    obtain ⟨values, hvalues, hjson⟩ := hread
    split_ifs at hjson
    cases hjson
    exact ⟨values, rfl, (values?_eq_some_iff.mp hvalues).imp fun _ _ => .inr⟩

/-! ## Fragments of objects -/

lemma memberValues?_valuesUnder {members : List (String × Fragment)}
    {values : List (String × Json)} (h : memberValues? members = some values) (key : String) :
    List.Forall₂ (fun fragment value => fragment.value? = some value) (valuesUnder key members)
      (valuesUnder key values) := by
  induction members generalizing values with
  | nil =>
      cases h
      exact .nil
  | cons member members ih =>
      obtain ⟨other, fragment⟩ := member
      rw [memberValues?, Option.bind_eq_bind, Option.bind_eq_some_iff] at h
      obtain ⟨value, hvalue, hrest⟩ := h
      rw [Option.bind_eq_bind, Option.bind_eq_some_iff] at hrest
      obtain ⟨rest, hmembers, hresult⟩ := hrest
      cases hresult
      by_cases hkey : other = key
      · subst hkey
        rw [valuesUnder_cons_self, valuesUnder_cons_self]
        exact .cons hvalue (ih hmembers)
      · rw [valuesUnder_cons_of_ne hkey, valuesUnder_cons_of_ne hkey]
        exact ih hmembers

/-- Whether the keys of a list of members increase. -/
def KeysIncrease (members : List (String × Fragment)) : Prop :=
  members.Pairwise fun member other => member.1 < other.1

lemma mem_insertMember {key : String} {value : Fragment} {members : List (String × Fragment)}
    {member : String × Fragment} (h : member ∈ insertMember key value members) :
    member = (key, value) ∨ member ∈ members := by
  induction members with
  | nil => exact .inl (List.mem_singleton.mp h)
  | cons first rest ih =>
      rw [insertMember] at h
      split_ifs at h with hless hsame
      · exact List.mem_cons.mp h
      · exact .inr h
      · rcases List.mem_cons.mp h with rfl | hrest
        · exact .inr List.mem_cons_self
        · exact (ih hrest).imp_right (List.mem_cons_of_mem first)

lemma KeysIncrease.insertMember {members : List (String × Fragment)} (h : KeysIncrease members)
    (key : String) (value : Fragment) : KeysIncrease (insertMember key value members) := by
  induction members with
  | nil => exact List.pairwise_singleton _ _
  | cons first rest ih =>
      obtain ⟨hfirst, hrest⟩ := List.pairwise_cons.mp h
      rw [Fragment.insertMember]
      split_ifs with hless hsame
      · refine List.pairwise_cons.mpr ⟨fun member hmem => ?_, h⟩
        rcases List.mem_cons.mp hmem with rfl | hmem
        · exact hless
        · exact String.lt_trans hless (hfirst member hmem)
      · exact h
      · refine List.pairwise_cons.mpr ⟨fun member hmem => ?_, ih hrest⟩
        have hgreater : first.1 < key :=
          ((Std.lt_trichotomy key first.1).resolve_left hless).resolve_left hsame
        rcases mem_insertMember hmem with rfl | hmem
        · exact hgreater
        · exact hfirst member hmem

lemma keysIncrease_ofMembers (values : List (String × Json)) :
    KeysIncrease (ofMembers values) := by
  induction values with
  | nil => exact .nil
  | cons member values ih => exact ih.insertMember _ _

/-- A member is inserted only if there is none with its key. -/
lemma valuesUnder_insertMember {members : List (String × Fragment)} (h : KeysIncrease members)
    (key other : String) (value : Fragment) :
    valuesUnder key (insertMember other value members) =
      if other = key ∧ valuesUnder key members = [] then [value] else valuesUnder key members := by
  induction members with
  | nil => by_cases hkey : other = key <;> simp [insertMember, valuesUnder, hkey]
  | cons first rest ih =>
      obtain ⟨hfirst, hrest⟩ := List.pairwise_cons.mp h
      obtain ⟨name, fragment⟩ := first
      rw [insertMember]
      by_cases hless : other < name
      · -- All keys are greater than the one that is inserted at the front.
        have hne : ∀ {greater : String}, other < greater → greater ≠ other := by
          rintro greater hlt rfl
          exact String.lt_irrefl _ hlt
        have hnone : valuesUnder other ((name, fragment) :: rest) = [] := by
          refine valuesUnder_eq_nil_of_forall_ne fun member hmem => ?_
          rcases List.mem_cons.mp hmem with rfl | hmem
          · exact hne hless
          · exact hne (String.lt_trans hless (hfirst member hmem))
        rw [if_pos hless]
        by_cases hkey : other = key
        · subst hkey
          rw [valuesUnder_cons_self, hnone, if_pos ⟨rfl, rfl⟩]
        · rw [valuesUnder_cons_of_ne hkey, if_neg fun h => hkey h.1]
      · rw [if_neg hless]
        by_cases hsame : other = name
        · subst hsame
          rw [if_pos rfl]
          by_cases hkey : other = key
          · subst hkey
            simp [valuesUnder_cons_self]
          · rw [if_neg fun h => hkey h.1]
        · rw [if_neg hsame]
          by_cases hname : name = key
          · subst hname
            rw [valuesUnder_cons_self, valuesUnder_cons_self, ih hrest, if_neg fun h => hsame h.1,
              if_neg fun h => hsame h.1]
          · rw [valuesUnder_cons_of_ne hname, valuesUnder_cons_of_ne hname, ih hrest]

/-- A parsed value shows the value that counts under each key, and no other. -/
lemma valuesUnder_ofMembers (key : String) (values : List (String × Json)) :
    valuesUnder key (ofMembers values) =
      (((Json.object values).member? key).map ofJson).toList := by
  rw [member?_object]
  induction values with
  | nil => rfl
  | cons member values ih =>
      obtain ⟨other, value⟩ := member
      rw [ofMembers, valuesUnder_insertMember (keysIncrease_ofMembers values), ih]
      by_cases hkey : other = key
      · subst hkey
        rw [valuesUnder_cons_self, List.getLast?_cons]
        cases (valuesUnder other values).getLast? <;> simp
      · rw [valuesUnder_cons_of_ne hkey, if_neg fun h => hkey h.1]

/-- **What a fragment of an object shows under a key.**  It is a fragment of an object, and where it
shows at most one value under a key, it is a fragment of the one that counts. -/
lemma IsOf.exists_members {members : List (String × Fragment)} {ending : Ending} {json : Json}
    (h : (Fragment.object members ending).IsOf json) :
    ∃ values, json = .object values ∧ ∀ key,
      (valuesUnder key members = [] → json.member? key = none) ∧
        ∀ fragment, valuesUnder key members = [fragment] →
          ∃ value, json.member? key = some value ∧ fragment.IsOf value := by
  rcases h with hparsed | hread
  · cases json with
    | object values =>
        obtain ⟨rfl, -⟩ := Fragment.object.inj hparsed
        refine ⟨values, rfl, fun key => ?_⟩
        rw [valuesUnder_ofMembers]
        cases (Json.object values).member? key with
        | none => simp
        | some value =>
            refine ⟨by simp, fun fragment hone => ?_⟩
            obtain rfl : ofJson value = fragment := by simpa using hone
            exact ⟨value, rfl, .inl rfl⟩
    | _ => simp [ofJson] at hparsed
  · rw [value?, Option.bind_eq_bind, Option.bind_eq_some_iff] at hread
    obtain ⟨values, hvalues, hjson⟩ := hread
    split_ifs at hjson
    cases hjson
    refine ⟨values, rfl, fun key => ?_⟩
    have hunder := memberValues?_valuesUnder hvalues key
    rw [member?_object]
    constructor
    · intro hnone
      rw [hnone, List.forall₂_nil_left_iff] at hunder
      rw [hunder]
      rfl
    · intro fragment hone
      rw [hone] at hunder
      obtain ⟨value, rest, hvalue, hrest, hlist⟩ := List.forall₂_cons_left_iff.mp hunder
      rw [List.forall₂_nil_left_iff.mp hrest] at hlist
      rw [hlist]
      exact ⟨value, rfl, .inr hvalue⟩

end Fragment

end Json

/-! ## Slots -/

open Json (Fragment Ending)

/-- A slot can be filled exactly if it is empty and the value is fine. -/
lemma fillOnce_bind_eq_ok_iff {key : String} {slot : Option α} {value : Decoded α}
    {set : Option α → β} {b : β} :
    (fillOnce key slot value >>= fun filled => pure (set filled)) = .ok b ↔
      slot = none ∧ ∃ a, value = .ok a ∧ set (some a) = b := by
  cases slot with
  | some a => simp [fillOnce, bind, Except.bind]
  | none =>
      rw [fillOnce, bind_eq_ok_iff]
      simp [map_eq_ok_iff, pure, Except.pure]

/-- Whether the steps of a decoder fill a slot with the value under a key, once, and leave it alone
under other keys. -/
structure FillsSlot (step : δ → String × Fragment → Decoded δ) (key : String)
    (decode : Fragment → Decoded α) (slot : δ → Option α) : Prop where
  fills : ∀ {draft draft' value}, step draft (key, value) = .ok draft' →
    slot draft = none ∧ ∃ a, decode value = .ok a ∧ slot draft' = some a
  keeps : ∀ {draft draft' other value}, other ≠ key → step draft (other, value) = .ok draft' →
    slot draft' = slot draft

/-- What a slot holds for a JSON value that may be absent: nothing, or what a fragment of the value
is decoded to. -/
inductive Holds (decode : Fragment → Decoded α) : Option Json → Option α → Prop
  | absent : Holds decode none none
  | present {fragment : Fragment} {json : Json} {a : α} (hof : fragment.IsOf json)
      (hdecode : decode fragment = .ok a) : Holds decode (some json) (some a)

namespace FillsSlot

variable {step : δ → String × Fragment → Decoded δ} {key : String}
  {decode : Fragment → Decoded α} {slot : δ → Option α} {draft draft' : δ}
  {members : List (String × Fragment)}

/-- A slot that is filled stays as it is, and its key does not occur again. -/
lemma of_filled (h : FillsSlot step key decode slot) {a : α} (hslot : slot draft = some a)
    (hrun : members.foldlM step draft = .ok draft') :
    valuesUnder key members = [] ∧ slot draft' = some a := by
  induction members generalizing draft with
  | nil =>
      cases hrun
      exact ⟨rfl, hslot⟩
  | cons member members ih =>
      obtain ⟨other, value⟩ := member
      rw [List.foldlM_cons] at hrun
      obtain ⟨next, hstep, hrest⟩ := bind_eq_ok_iff.mp hrun
      by_cases hkey : other = key
      · subst hkey
        have hempty := (h.fills hstep).1
        rw [hslot] at hempty
        cases hempty
      · have hnext : slot next = some a := (h.keeps hkey hstep).trans hslot
        rw [valuesUnder_cons_of_ne hkey]
        exact ih hnext hrest

/-- A slot that is empty stays so if its key does not occur; otherwise the key occurs once and the
slot is filled. -/
lemma of_empty (h : FillsSlot step key decode slot) (hslot : slot draft = none)
    (hrun : members.foldlM step draft = .ok draft') :
    (valuesUnder key members = [] ∧ slot draft' = none) ∨
      ∃ value a, valuesUnder key members = [value] ∧ decode value = .ok a ∧
        slot draft' = some a := by
  induction members generalizing draft with
  | nil =>
      cases hrun
      exact .inl ⟨rfl, hslot⟩
  | cons member members ih =>
      obtain ⟨other, value⟩ := member
      rw [List.foldlM_cons] at hrun
      obtain ⟨next, hstep, hrest⟩ := bind_eq_ok_iff.mp hrun
      by_cases hkey : other = key
      · subst hkey
        obtain ⟨-, a, hdecode, hnext⟩ := h.fills hstep
        obtain ⟨hothers, hfilled⟩ := h.of_filled hnext hrest
        rw [valuesUnder_cons_self, hothers]
        exact .inr ⟨value, a, rfl, hdecode, hfilled⟩
      · have hnext : slot next = none := (h.keeps hkey hstep).trans hslot
        rw [valuesUnder_cons_of_ne hkey]
        exact ih hnext hrest

/-- **A slot holds what the JSON value under its key is decoded to.** -/
lemma holds (h : FillsSlot step key decode slot) (hslot : slot draft = none)
    (hrun : members.foldlM step draft = .ok draft') {ending : Ending} {json : Json}
    (hof : (Fragment.object members ending).IsOf json) :
    Holds decode (json.member? key) (slot draft') := by
  obtain ⟨values, -, hmembers⟩ := hof.exists_members
  obtain ⟨hnone, hone⟩ := hmembers key
  rcases h.of_empty hslot hrun with ⟨hunder, hempty⟩ | ⟨fragment, a, hunder, hdecode, hfilled⟩
  · rw [hnone hunder, hempty]
    exact .absent
  · obtain ⟨value, hvalue, hfragment⟩ := hone fragment hunder
    rw [hvalue, hfilled]
    exact .present hfragment hdecode

end FillsSlot

end ContractInterface
