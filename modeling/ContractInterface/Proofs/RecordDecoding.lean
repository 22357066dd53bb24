import ContractInterface.Entry.Decoding
import ContractInterface.Proofs.ReadableJson
import Mathlib.Data.List.Pairwise
import Mathlib.Tactic.MkIffOfInductiveProp

/-!
# Decoding records

Entries and parameters are decoded alike: the known keys of an object have decoders of their own,
whose results go into slots of a draft, and the values under other keys are passed over.  A
`Layout` says which slots there are; the decoders of records are those of their layouts
(`Parameter.decode_object` and the like).

Slots do not depend on one another.  So each is filled by the value under its key alone
(`Layout.holds`); steps with members of different keys can change places if both succeed
(`Layout.step_swap`), and the order of the members of an object means nothing if no key repeats
(`Layout.foldlM_perm`).
-/

namespace ContractInterface

open Json (Fragment Ending)

/-! ## Slots of drafts -/

/-- A slot of a draft: the key that it is for, the decoder of the values under this key, and the
place in the draft. -/
structure Slot (δ : Type) where
  {α : Type}
  key : String
  decode : Fragment → Decoded α
  get : δ → Option α
  set : δ → Option α → δ
  get_set : ∀ draft a, get (set draft a) = a

namespace Slot

/-- Fills a slot with the value of a member; it may be filled once only. -/
def fill (slot : Slot δ) (draft : δ) (member : String × Fragment) : Decoded δ := do
  let filled ← fillOnce member.1 (slot.get draft) (slot.decode member.2)
  return slot.set draft filled

/-- Whether two slots have different keys and places. -/
@[mk_iff]
structure Independent (slot other : Slot δ) : Prop where
  key_ne : slot.key ≠ other.key
  get_set : ∀ draft b, slot.get (other.set draft b) = slot.get draft
  get_set' : ∀ draft a, other.get (slot.set draft a) = other.get draft
  set_set : ∀ draft a b, other.set (slot.set draft a) b = slot.set (other.set draft b) a

instance : Std.Symm (@Independent δ) where
  symm _ _ h :=
    ⟨h.key_ne.symm, h.get_set', h.get_set, fun draft a b => (h.set_set draft b a).symm⟩

/-- Independent slots can be filled in either order. -/
lemma fill_swap {slot other : Slot δ} (h : slot.Independent other)
    {first second : String × Fragment} {draft draft' : δ}
    (hrun : (slot.fill draft first >>= fun next => other.fill next second) = .ok draft') :
    (other.fill draft second >>= fun next => slot.fill next first) = .ok draft' := by
  obtain ⟨next, hfirst, hsecond⟩ := bind_eq_ok_iff.mp hrun
  obtain ⟨hempty, a, ha, rfl⟩ := fillOnce_bind_eq_ok_iff.mp hfirst
  obtain ⟨hempty', b, hb, rfl⟩ := fillOnce_bind_eq_ok_iff.mp hsecond
  rw [h.get_set'] at hempty'
  have hother : other.fill draft second = .ok (other.set draft (some b)) :=
    fillOnce_bind_eq_ok_iff.mpr ⟨hempty', b, hb, rfl⟩
  refine bind_eq_ok_iff.mpr ⟨_, hother, fillOnce_bind_eq_ok_iff.mpr ⟨?_, a, ha, ?_⟩⟩
  · rw [h.get_set, hempty]
  · rw [h.set_set]

end Slot

/-- How a record is decoded to a draft: the slots that its keys go to, which do not depend on one
another, and what becomes of the values under other keys. -/
structure Layout (δ : Type) where
  /-- Whether the record has been read to its end before it is decoded. -/
  buffered : Bool
  empty : δ
  slots : List (Slot δ)
  /-- Passes over a value. -/
  pass : Fragment → Decoded Unit
  independent : slots.Pairwise Slot.Independent
  get_empty : ∀ slot ∈ slots, slot.get empty = none
  /-- What can be read can be passed over. -/
  passes : ∀ {fragment json}, fragment.value? = some json → pass fragment = .ok ()

namespace Layout

variable {layout : Layout δ}

/-- The keys that have slots. -/
def keys (layout : Layout δ) : List String := layout.slots.map Slot.key

/-- One step over the given slots. -/
def stepOver (pass : Fragment → Decoded Unit) :
    List (Slot δ) → δ → String × Fragment → Decoded δ
  | [], draft, member => do
    pass member.2
    return draft
  | slot :: slots, draft, member =>
    if member.1 = slot.key then slot.fill draft member else stepOver pass slots draft member

/-- One step of decoding a record. -/
def step (layout : Layout δ) : δ → String × Fragment → Decoded δ :=
  stepOver layout.pass layout.slots

/-- Decodes an object. -/
def decodeObject (layout : Layout δ) (members : List (String × Fragment)) (ending : Ending) :
    Decoded δ := do
  let draft ← members.foldlM layout.step layout.empty
  ending.require
  return draft

/-- Decodes an array of values for the keys in order. -/
def decodeArray (layout : Layout δ) (items : List Fragment) (ending : Ending) : Decoded δ := do
  let draft ← (layout.keys.zip items).foldlM layout.step layout.empty
  if items.length ≤ layout.keys.length then do
    ending.require
    return draft
  else .error (ending.surplus layout.buffered layout.keys.length items.length)

/-- A step fills the slot of its key, or there is none and it passes over the value. -/
lemma step_cases (layout : Layout δ) (key : String) :
    (∃ slot ∈ layout.slots, slot.key = key ∧
        ∀ draft value, layout.step draft (key, value) = slot.fill draft (key, value)) ∨
      key ∉ layout.keys ∧
        ∀ draft value,
          layout.step draft (key, value) = layout.pass value >>= fun _ => pure draft := by
  rw [keys, step]
  induction layout.slots with
  | nil => exact .inr ⟨List.not_mem_nil, fun _ _ => rfl⟩
  | cons slot slots ih =>
      by_cases hkey : key = slot.key
      · exact .inl ⟨slot, List.mem_cons_self, hkey.symm, fun _ _ => if_pos hkey⟩
      · rcases ih with ⟨other, hother, hsame, hstep⟩ | ⟨hunknown, hstep⟩
        · refine .inl ⟨other, List.mem_cons_of_mem _ hother, hsame, fun draft value => ?_⟩
          rw [stepOver, if_neg hkey, hstep]
        · refine .inr ⟨?_, fun draft value => ?_⟩
          · rw [List.map_cons, List.mem_cons, not_or]
            exact ⟨hkey, hunknown⟩
          · rw [stepOver, if_neg hkey, hstep]

lemma independent_of_ne {slot other : Slot δ} (hslot : slot ∈ layout.slots)
    (hother : other ∈ layout.slots) (hne : slot.key ≠ other.key) : slot.Independent other :=
  layout.independent.forall hslot hother fun hsame => hne (congrArg Slot.key hsame)

/-- There is one slot for a key. -/
lemma eq_of_key_eq {slot other : Slot δ} (hslot : slot ∈ layout.slots)
    (hother : other ∈ layout.slots) (hkey : slot.key = other.key) : slot = other := by
  by_contra hne
  exact (layout.independent.forall hslot hother hne).key_ne hkey

/-- A slot is filled by the value under its key, once, and by nothing else. -/
lemma fillsSlot {slot : Slot δ} (hslot : slot ∈ layout.slots) :
    FillsSlot layout.step slot.key slot.decode slot.get where
  fills := by
    intro draft draft' value h
    rcases layout.step_cases slot.key with ⟨other, hother, hkey, hstep⟩ | ⟨hunknown, -⟩
    · obtain rfl := eq_of_key_eq hother hslot hkey
      rw [hstep] at h
      obtain ⟨hempty, a, hvalue, rfl⟩ := fillOnce_bind_eq_ok_iff.mp h
      exact ⟨hempty, a, hvalue, other.get_set draft (some a)⟩
    · exact absurd (List.mem_map_of_mem hslot) hunknown
  keeps := by
    intro draft draft' key value hne h
    rcases layout.step_cases key with ⟨other, hother, rfl, hstep⟩ | ⟨-, hstep⟩
    · rw [hstep] at h
      obtain ⟨-, a, -, rfl⟩ := fillOnce_bind_eq_ok_iff.mp h
      exact (independent_of_ne hslot hother hne.symm).get_set draft (some a)
    · rw [hstep] at h
      obtain ⟨-, hsame⟩ := check_bind_eq_ok_iff.mp h
      rw [← Except.ok.inj hsame]

/-- After a run over the members of an object, each slot holds what the JSON value under its key is
decoded to. -/
lemma holds {members : List (String × Fragment)} {draft : δ}
    (hrun : members.foldlM layout.step layout.empty = .ok draft) {ending : Ending} {json : Json}
    (hof : (Fragment.object members ending).IsOf json) :
    ∀ slot ∈ layout.slots, Holds slot.decode (json.member? slot.key) (slot.get draft) :=
  fun slot hslot => (fillsSlot hslot).holds (layout.get_empty slot hslot) hrun hof

/-- A key without a slot is passed over. -/
lemma step_of_unknown {key : String} (hkey : key ∉ layout.keys) (json : Json) (draft : δ) :
    layout.step draft (key, .ofJson json) = .ok draft := by
  rcases layout.step_cases key with ⟨slot, hslot, rfl, -⟩ | ⟨-, hstep⟩
  · exact absurd (List.mem_map_of_mem hslot) hkey
  · obtain ⟨value, hvalue⟩ := Fragment.exists_value?_ofJson json
    rw [hstep, layout.passes hvalue]
    rfl

/-- Values that are decoded alike for the slot of a key can be exchanged. -/
lemma step_congr {key : String} (hkey : key ∈ layout.keys) {value value' : Fragment}
    (h : ∀ slot ∈ layout.slots, slot.key = key → slot.decode value' = slot.decode value)
    (draft : δ) : layout.step draft (key, value') = layout.step draft (key, value) := by
  rcases layout.step_cases key with ⟨slot, hslot, hsame, hstep⟩ | ⟨hunknown, -⟩
  · rw [hstep, hstep, Slot.fill, Slot.fill, h slot hslot hsame]
  · exact absurd hkey hunknown

/-- Successful steps with different keys can change places. -/
lemma step_swap {first second : String × Fragment} (hkeys : first.1 ≠ second.1) {draft draft' : δ}
    (hrun : (layout.step draft first >>= fun next => layout.step next second) = .ok draft') :
    (layout.step draft second >>= fun next => layout.step next first) = .ok draft' := by
  obtain ⟨key, value⟩ := first
  obtain ⟨key', value'⟩ := second
  rcases layout.step_cases key with ⟨slot, hslot, hkey, hfirst⟩ | ⟨-, hfirst⟩
  · rcases layout.step_cases key' with ⟨other, hother, hkey', hsecond⟩ | ⟨-, hsecond⟩
    · have hindependent : slot.Independent other :=
        independent_of_ne hslot hother fun hsame => hkeys (hkey.symm.trans (hsame.trans hkey'))
      simp only [hfirst, hsecond] at hrun ⊢
      exact Slot.fill_swap hindependent hrun
    · -- A value that is passed over leaves the draft as it is.
      simp only [hfirst, hsecond] at hrun ⊢
      obtain ⟨next, hnext, hrest⟩ := bind_eq_ok_iff.mp hrun
      obtain ⟨hpass, hsame⟩ := check_bind_eq_ok_iff.mp hrest
      cases hsame
      rw [hpass]
      exact hnext
  · simp only [hfirst] at hrun ⊢
    rw [bind_assoc, check_bind_eq_ok_iff] at hrun
    rw [hrun.1]
    exact bind_eq_ok_iff.mpr ⟨draft', hrun.2, rfl⟩

/-- The order of members with different keys means nothing for a run that succeeds. -/
lemma foldlM_perm {members members' : List (String × Fragment)} (hperm : members.Perm members')
    (hkeys : (members.map Prod.fst).Nodup) {draft draft' : δ}
    (hrun : members.foldlM layout.step draft = .ok draft') :
    members'.foldlM layout.step draft = .ok draft' := by
  induction hperm generalizing draft with
  | nil => exact hrun
  | cons member _ ih =>
      rw [List.foldlM_cons] at hrun ⊢
      obtain ⟨next, hstep, hrest⟩ := bind_eq_ok_iff.mp hrun
      exact bind_eq_ok_iff.mpr ⟨next, hstep, ih (List.nodup_cons.mp hkeys).2 hrest⟩
  | swap second first rest =>
      have hne : first.1 ≠ second.1 := by
        simp only [List.map_cons, List.nodup_cons, List.mem_cons, not_or] at hkeys
        exact hkeys.1.1
      simp only [List.foldlM_cons, ← bind_assoc] at hrun ⊢
      obtain ⟨next, hpair, hrest⟩ := bind_eq_ok_iff.mp hrun
      exact bind_eq_ok_iff.mpr ⟨next, step_swap hne hpair, hrest⟩
  | trans hfirst _ ih ih' => exact ih' ((hfirst.map Prod.fst).nodup_iff.mp hkeys) (ih hkeys hrun)

/-- What array forms have in common: the items are decoded as values under the keys in order, and
must not be more than the keys. -/
lemma positions_eq (layout : Layout δ) (positions : δ → List String → List Fragment → Decoded δ)
    {surplus : DecodeFault} (hend : ∀ draft keys, positions draft keys [] = .ok draft)
    (hextra : ∀ draft item items, positions draft [] (item :: items) = .error surplus)
    (hitem : ∀ draft key keys item items, positions draft (key :: keys) (item :: items) =
      layout.step draft (key, item) >>= fun draft => positions draft keys items)
    (draft : δ) (keys : List String) (items : List Fragment) :
    positions draft keys items =
      (keys.zip items).foldlM layout.step draft >>= fun draft =>
        if items.length ≤ keys.length then .ok draft else .error surplus := by
  induction keys generalizing draft items with
  | nil =>
      cases items with
      | nil => exact hend draft []
      | cons item items => exact hextra draft item items
  | cons key keys ih =>
      cases items with
      | nil => exact hend draft (key :: keys)
      | cons item items =>
          rw [hitem, List.zip_cons_cons, List.foldlM_cons, bind_assoc]
          simp only [List.length_cons, Nat.add_le_add_iff_right, ← ih]

lemma decodeObject_bind (layout : Layout δ) (members : List (String × Fragment)) (ending : Ending)
    (finish : δ → Decoded α) :
    layout.decodeObject members ending >>= finish =
      members.foldlM layout.step layout.empty >>= fun draft =>
        ending.require >>= fun _ => finish draft := by
  simp only [decodeObject, bind_assoc, pure_bind]

lemma decodeArray_bind (layout : Layout δ) (items : List Fragment) (ending : Ending)
    (finish : δ → Decoded α) :
    layout.decodeArray items ending >>= finish =
      (layout.keys.zip items).foldlM layout.step layout.empty >>= fun draft =>
        (if items.length ≤ layout.keys.length then .ok draft
          else .error (ending.surplus layout.buffered layout.keys.length items.length)) >>=
          fun draft => ending.require >>= fun _ => finish draft := by
  rw [decodeArray, bind_assoc]
  split_ifs
  · simp only [bind_assoc, pure_bind]
    rfl
  · rfl

end Layout

/-! ## Parameters -/

namespace Parameter

variable (buffered : Bool)

lemma decodeItems_eq_mapM (items : List Fragment) :
    decodeItems buffered items = items.mapM (decode buffered) := by
  induction items with
  | nil => rfl
  | cons item items ih =>
      rw [decodeItems, List.mapM_cons, ih]

/-- The components are a list of parameters, or null. -/
lemma decodeMember_components (draft : Draft) (value : Fragment) :
    decodeMember buffered draft "components" value = do
      let components ← fillOnce "components" draft.components
        (value.decodeOptional (Fragment.decodeList (decode buffered)))
      return { draft with components } := by
  cases value with
  | array items ending =>
      have hcomponents : (do
          let components ← decodeItems buffered items
          ending.require
          return some components) =
            (Fragment.array items ending).decodeOptional
              (Fragment.decodeList (decode buffered)) := by
        rw [decodeItems_eq_mapM, Fragment.decodeOptional, Fragment.decodeList]
        · cases items.mapM (decode buffered) with
          | error fault => rfl
          | ok components => cases ending.require <;> rfl
        · exact nofun
      rw [decodeMember, if_pos rfl, hcomponents]
  | null =>
      rw [decodeMember, if_pos rfl]
      rfl
  | _ => simp [decodeMember, Fragment.decodeOptional, Fragment.decodeList]

lemma decodeMember_of_ne {key : String} (h : key ≠ "components") (draft : Draft)
    (value : Fragment) : decodeMember buffered draft key value = draft.visit key value := by
  cases value <;> simp [decodeMember, h]

/-- The slots of a parameter. -/
def layout : Layout Draft where
  buffered := buffered
  empty := {}
  slots :=
    [⟨"name", Fragment.decodeString, Draft.name, fun draft name => { draft with name },
        fun _ _ => rfl⟩,
      ⟨"type", Fragment.decodeString, Draft.type, fun draft type => { draft with type },
        fun _ _ => rfl⟩,
      ⟨"components", Fragment.decodeOptional (Fragment.decodeList (decode buffered)),
        Draft.components, fun draft components => { draft with components }, fun _ _ => rfl⟩,
      ⟨"internalType", Fragment.decodeOptional Fragment.decodeString, Draft.internalType,
        fun draft internalType => { draft with internalType }, fun _ _ => rfl⟩]
  pass := Fragment.skip
  independent := by simp [Slot.independent_iff]
  get_empty := by simp
  passes := fun h => if_pos (Fragment.isSkippable_of_value? h)

lemma decodeMember_eq_step (draft : Draft) (key : String) (value : Fragment) :
    decodeMember buffered draft key value = (layout buffered).step draft (key, value) := by
  by_cases hcomponents : key = "components"
  · subst hcomponents
    exact decodeMember_components buffered draft value
  · rw [decodeMember_of_ne buffered hcomponents, Draft.visit]
    simp only [Layout.step, layout, Layout.stepOver, if_neg hcomponents]
    rfl

lemma decodeMembers_eq_foldlM (draft : Draft) (members : List (String × Fragment)) :
    decodeMembers buffered draft members = members.foldlM (layout buffered).step draft := by
  induction members generalizing draft with
  | nil => rfl
  | cons member members ih =>
      rw [decodeMembers, List.foldlM_cons, decodeMember_eq_step]
      exact congrArg _ (funext ih)

lemma decode_object (members : List (String × Fragment)) (ending : Ending) :
    decode buffered (.object members ending) =
      (layout buffered).decodeObject members ending >>= fun draft =>
        draft.finish (.missingField "type") := by
  rw [decode, decodeMembers_eq_foldlM, Layout.decodeObject_bind]
  rfl

lemma decode_array (items : List Fragment) (ending : Ending) :
    decode buffered (.array items ending) =
      (layout buffered).decodeArray items ending >>= fun draft =>
        draft.finish (.tooFewItems .parameter) := by
  have hpositions := (layout buffered).positions_eq
    (decodePositions buffered (ending.surplus buffered keys.length items.length))
    (fun _ keys => by cases keys <;> rfl) (fun _ _ _ => rfl)
    (fun draft key _ item _ => by rw [decodePositions, decodeMember_eq_step]) {} keys items
  rw [decode, hpositions, bind_assoc, Layout.decodeArray_bind]
  rfl

end Parameter

/-! ## Inputs of entries -/

namespace EventParameter

/-- The one slot of an input of an entry that is no slot of a parameter. -/
def layout : Layout (Option Bool) where
  buffered := false
  empty := none
  slots := [⟨"indexed", Fragment.decodeBool, id, fun _ indexed => indexed, fun _ _ => rfl⟩]
  pass := Fragment.requireReadable
  independent := List.pairwise_singleton _ _
  get_empty := by simp
  passes := fun h => by rw [Fragment.requireReadable, h, Option.isSome_some, if_pos rfl]

lemma layout_step (indexed : Option Bool) (member : String × Fragment) :
    layout.step indexed member =
      if member.1 = "indexed" then fillOnce member.1 indexed member.2.decodeBool
      else member.2.requireReadable >>= fun _ => .ok indexed := by
  simp only [Layout.step, layout, Layout.stepOver, Slot.fill]
  rw [bind_pure]
  rfl

lemma decodeIndexed_eq_foldlM (indexed : Option Bool) (members : List (String × Fragment)) :
    decodeIndexed indexed members = members.foldlM layout.step indexed := by
  induction members generalizing indexed with
  | nil => rfl
  | cons member members ih =>
      rw [decodeIndexed, List.foldlM_cons, layout_step]
      by_cases hkey : member.1 = "indexed"
      · rw [if_pos hkey, if_pos hkey]
        exact congrArg _ (funext ih)
      · rw [if_neg hkey, if_neg hkey]
        cases member.2.requireReadable with
        | error fault => rfl
        | ok _ => exact ih indexed

/-- An input is decoded twice: for the flag, and as a parameter. -/
lemma decode_object (members : List (String × Fragment)) (ending : Ending) :
    decode (.object members ending) =
      layout.decodeObject members ending >>= fun indexed =>
        Parameter.decode true (.object members ending) >>= fun parameter =>
          .ok ⟨parameter, indexed.getD false⟩ := by
  rw [decode, decodeIndexed_eq_foldlM, Layout.decodeObject_bind, Parameter.decode]
  cases ending.require with
  | error fault => rfl
  | ok _ =>
      simp only [bind_assoc]
      rfl

end EventParameter

/-! ## Entries -/

namespace Entry

/-- The slots of an entry. -/
def layout : Layout Draft where
  buffered := false
  empty := {}
  slots :=
    [⟨"type", Fragment.decodeOptional Fragment.decodeString, Draft.type,
        fun draft type => { draft with type }, fun _ _ => rfl⟩,
      ⟨"name", Fragment.decodeString, Draft.name, fun draft name => { draft with name },
        fun _ _ => rfl⟩,
      ⟨"inputs", Fragment.decodeList EventParameter.decode, Draft.inputs,
        fun draft inputs => { draft with inputs }, fun _ _ => rfl⟩,
      ⟨"outputs", Fragment.decodeList (Parameter.decode false), Draft.outputs,
        fun draft outputs => { draft with outputs }, fun _ _ => rfl⟩,
      ⟨"stateMutability", Fragment.decodeOptional Mutability.decode, Draft.stateMutability,
        fun draft stateMutability => { draft with stateMutability }, fun _ _ => rfl⟩,
      ⟨"constant", Fragment.decodeOptional Fragment.decodeBool, Draft.constant,
        fun draft constant => { draft with constant }, fun _ _ => rfl⟩,
      ⟨"payable", Fragment.decodeOptional Fragment.decodeBool, Draft.payable,
        fun draft payable => { draft with payable }, fun _ _ => rfl⟩,
      ⟨"anonymous", Fragment.decodeBool, Draft.anonymous,
        fun draft anonymous => { draft with anonymous }, fun _ _ => rfl⟩]
  pass := Fragment.skip
  independent := by simp [Slot.independent_iff]
  get_empty := by simp
  passes := fun h => if_pos (Fragment.isSkippable_of_value? h)

lemma Draft.visitMembers_eq_foldlM (draft : Draft) (members : List (String × Fragment)) :
    draft.visitMembers members = members.foldlM layout.step draft := by
  induction members generalizing draft with
  | nil => rfl
  | cons member members ih =>
      rw [visitMembers, List.foldlM_cons]
      exact congrArg _ (funext ih)

lemma decode_object (members : List (String × Fragment)) (ending : Ending) :
    decode (.object members ending) = layout.decodeObject members ending >>= Draft.finish := by
  rw [decode, Draft.visitMembers_eq_foldlM, Layout.decodeObject_bind]
  rfl

lemma decode_array (items : List Fragment) (ending : Ending) :
    decode (.array items ending) = layout.decodeArray items ending >>= Draft.finish := by
  have hpositions := layout.positions_eq
    (Draft.visitPositions (ending.surplus false keys.length items.length))
    (fun _ keys => by cases keys <;> rfl) (fun _ _ _ => rfl) (fun _ _ _ _ _ => rfl) {} keys items
  rw [decode, hpositions, bind_assoc, Layout.decodeArray_bind]
  rfl

end Entry

end ContractInterface
