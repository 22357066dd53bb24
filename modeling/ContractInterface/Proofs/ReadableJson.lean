import ContractInterface.Proofs.JsonMembers

/-!
# Fragments that can be read to their end

A fragment with a JSON value has the shape of that value: leaves are the same, and containers end
well and have as many parts, each with its own value (`Fragment.shape_of_value?`).  So it can also
be skipped.

The fragment of a parsed value is of this kind (`Fragment.exists_value?_ofJson`).  Its items are the
fragments of the items in order; its members are the fragments of the members in the order of their
keys, which is a rearrangement if no key repeats (`Fragment.ofMembers_perm`).  An object may stand
for a word (`Fragment.decodeWord_object_eq_ok_iff`).
-/

namespace ContractInterface

lemma forall₂_imp_of_mem {R S : α → β → Prop} {as : List α} {bs : List β}
    (h : List.Forall₂ R as bs) (himp : ∀ a b, b ∈ bs → R a b → S a b) : List.Forall₂ S as bs := by
  induction h with
  | nil => exact .nil
  | cons hab _ ih =>
      exact .cons (himp _ _ List.mem_cons_self hab)
        (ih fun a b hb => himp a b (List.mem_cons_of_mem _ hb))

namespace Json

/-! ## Induction -/

/-- Whether a value has no parts. -/
def isLeaf : Json → Bool
  | .array _ | .object _ => false
  | _ => true

/-- Induction along the parts of a value: the items of arrays and the values of objects. -/
@[elab_as_elim]
theorem induction_on_parts {motive : Json → Prop}
    (leaf : ∀ json, json.isLeaf = true → motive json)
    (array : ∀ items : List Json, (∀ item ∈ items, motive item) → motive (.array items))
    (object : ∀ members : List (String × Json),
      (∀ member ∈ members, motive member.2) → motive (.object members))
    (json : Json) : motive json := by
  refine @Json.rec motive (fun items => ∀ item ∈ items, motive item)
    (fun members => ∀ member ∈ members, motive member.2) (fun member => motive member.2)
    (leaf _ rfl) (fun _ => leaf _ rfl) (fun _ => leaf _ rfl) (fun _ => leaf _ rfl) array object
    ?_ ?_ ?_ ?_ ?_ json
  · simp
  · exact fun item items hitem hitems => List.forall_mem_cons.mpr ⟨hitem, hitems⟩
  · simp
  · exact fun member members hmember hmembers => List.forall_mem_cons.mpr ⟨hmember, hmembers⟩
  · exact fun _ _ h => h

namespace Fragment

/-! ## The shape of a readable fragment -/

/-- Whether a member is read as a member of a JSON object. -/
def MemberReads (member : String × Fragment) (value : String × Json) : Prop :=
  member.1 = value.1 ∧ member.2.value? = some value.2

/-- How a fragment is made up that has the given value: a container ends well, and its parts have
the values of the parts. -/
inductive Shape : Fragment → Json → Prop
  | leaf {fragment : Fragment} {json : Json} (hleaf : json.isLeaf = true)
      (hsame : fragment = ofJson json) : Shape fragment json
  | array {items : List Fragment} {ending : Ending} {values : List Json}
      (hending : ending.isReadable = true)
      (hitems : List.Forall₂ (fun item value => item.value? = some value) items values) :
      Shape (.array items ending) (.array values)
  | object {members : List (String × Fragment)} {ending : Ending} {values : List (String × Json)}
      (hending : ending.isReadable = true)
      (hmembers : List.Forall₂ MemberReads members values) :
      Shape (.object members ending) (.object values)

lemma memberValues?_eq_some_iff {members : List (String × Fragment)}
    {values : List (String × Json)} :
    memberValues? members = some values ↔ List.Forall₂ MemberReads members values := by
  induction members generalizing values with
  | nil => simp [memberValues?, eq_comm]
  | cons member members ih =>
      obtain ⟨key, fragment⟩ := member
      rw [memberValues?, List.forall₂_cons_left_iff]
      simp only [Option.bind_eq_bind, Option.bind_eq_some_iff, ih, Option.pure_def,
        Option.some.injEq]
      constructor
      · rintro ⟨value, hvalue, rest, hrest, rfl⟩
        exact ⟨(key, value), rest, ⟨rfl, hvalue⟩, hrest, rfl⟩
      · rintro ⟨⟨_, value⟩, rest, ⟨rfl, hvalue⟩, hrest, rfl⟩
        exact ⟨value, hvalue, rest, hrest, rfl⟩

lemma shape_of_value? {fragment : Fragment} {json : Json} (h : fragment.value? = some json) :
    fragment.Shape json := by
  cases fragment with
  | null | bool | number | string =>
      obtain rfl := Option.some.inj h
      exact .leaf rfl rfl
  | array items ending =>
      rw [value?, Option.bind_eq_bind, Option.bind_eq_some_iff] at h
      obtain ⟨values, hvalues, hjson⟩ := h
      split_ifs at hjson with hending
      cases hjson
      exact .array hending (values?_eq_some_iff.mp hvalues)
  | object members ending =>
      rw [value?, Option.bind_eq_bind, Option.bind_eq_some_iff] at h
      obtain ⟨values, hvalues, hjson⟩ := h
      split_ifs at hjson with hending
      cases hjson
      exact .object hending (memberValues?_eq_some_iff.mp hvalues)
  | unreadable skippable => cases h

/-! ## Skipping -/

lemma areSkippable_of_forall₂ {items : List Fragment} {values : List Json}
    (h : List.Forall₂ (fun item _ => item.isSkippable = true) items values) :
    areSkippable items = true := by
  induction h with
  | nil => rfl
  | cons hitem _ ih => rw [areSkippable, hitem, ih, Bool.and_self]

lemma haveSkippable_of_forall₂ {members : List (String × Fragment)}
    {values : List (String × Json)}
    (h : List.Forall₂ (fun member _ => member.2.isSkippable = true) members values) :
    haveSkippable members = true := by
  induction h with
  | nil => rfl
  | cons hmember _ ih => rw [haveSkippable, hmember, ih, Bool.and_self]

/-- What can be read can be skipped. -/
lemma isSkippable_of_value? {fragment : Fragment} {json : Json} (h : fragment.value? = some json) :
    fragment.isSkippable = true := by
  have hunbroken : ∀ {ending : Ending}, ending.isReadable = true → (ending != .broken) = true := by
    rintro (_ | _ | _ | _) hending
    all_goals first | rfl | cases hending
  induction json using induction_on_parts generalizing fragment with
  | leaf json hleaf =>
      cases shape_of_value? h with
      | leaf _ hsame =>
          subst hsame
          cases json <;> first | rfl | cases hleaf
      | array | object => cases hleaf
  | array values ih =>
      cases shape_of_value? h with
      | leaf hleaf => cases hleaf
      | array hending hitems =>
          have hskip := forall₂_imp_of_mem hitems fun item value hmem hread => ih value hmem hread
          rw [isSkippable, areSkippable_of_forall₂ hskip, hunbroken hending, Bool.and_self]
  | object values ih =>
      cases shape_of_value? h with
      | leaf hleaf => cases hleaf
      | object hending hmembers =>
          have hskip := forall₂_imp_of_mem hmembers fun member value hmem hread =>
            ih value hmem hread.2
          rw [isSkippable, haveSkippable_of_forall₂ hskip, hunbroken hending, Bool.and_self]

/-! ## Parsed values -/

lemma ofItems_eq_map (items : List Json) : ofItems items = items.map ofJson := by
  induction items with
  | nil => rfl
  | cons item items ih => rw [ofItems, ih, List.map_cons]

/-- The members of a parsed object are fragments of its members. -/
lemma exists_mem_of_mem_ofMembers {values : List (String × Json)} {member : String × Fragment}
    (h : member ∈ ofMembers values) : ∃ value ∈ values, member = (value.1, ofJson value.2) := by
  induction values with
  | nil => cases h
  | cons value values ih =>
      rcases mem_insertMember h with rfl | hrest
      · exact ⟨value, List.mem_cons_self, rfl⟩
      · obtain ⟨other, hother, rfl⟩ := ih hrest
        exact ⟨other, List.mem_cons_of_mem _ hother, rfl⟩

/-- A member with a new key is inserted somewhere. -/
lemma insertMember_perm {key : String} {members : List (String × Fragment)}
    (h : ∀ member ∈ members, member.1 ≠ key) (value : Fragment) :
    (insertMember key value members).Perm ((key, value) :: members) := by
  induction members with
  | nil => exact .refl _
  | cons first rest ih =>
      obtain ⟨hfirst, hrest⟩ := List.forall_mem_cons.mp h
      rw [insertMember]
      split_ifs with hless hsame
      · exact .refl _
      · exact absurd hsame.symm hfirst
      · exact ((ih hrest).cons first).trans (.swap _ _ _)

/-- The members of a parsed object in which no key repeats are those of the object, rearranged. -/
lemma ofMembers_perm {values : List (String × Json)} (h : (values.map Prod.fst).Nodup) :
    (ofMembers values).Perm (values.map fun value => (value.1, ofJson value.2)) := by
  induction values with
  | nil => exact .refl _
  | cons value values ih =>
      rw [List.map_cons, List.nodup_cons] at h
      have hnew : ∀ member ∈ ofMembers values, member.1 ≠ value.1 := by
        rintro member hmember hkey
        obtain ⟨other, hother, rfl⟩ := exists_mem_of_mem_ofMembers hmember
        exact h.1 (hkey ▸ List.mem_map_of_mem hother)
      exact (insertMember_perm hnew _).trans ((ih h.2).cons _)

lemma exists_values? {items : List Fragment}
    (h : ∀ item ∈ items, ∃ value, item.value? = some value) :
    ∃ values, values? items = some values := by
  induction items with
  | nil => exact ⟨[], rfl⟩
  | cons item items ih =>
      obtain ⟨⟨value, hvalue⟩, hitems⟩ := List.forall_mem_cons.mp h
      obtain ⟨values, hvalues⟩ := ih hitems
      exact ⟨value :: values, by simp [values?, hvalue, hvalues]⟩

lemma exists_memberValues? {members : List (String × Fragment)}
    (h : ∀ member ∈ members, ∃ value, member.2.value? = some value) :
    ∃ values, memberValues? members = some values := by
  induction members with
  | nil => exact ⟨[], rfl⟩
  | cons member members ih =>
      obtain ⟨⟨value, hvalue⟩, hmembers⟩ := List.forall_mem_cons.mp h
      obtain ⟨values, hvalues⟩ := ih hmembers
      exact ⟨(member.1, value) :: values, by simp [memberValues?, hvalue, hvalues]⟩

/-- A parsed value can be read to its end. -/
lemma exists_value?_ofJson (json : Json) : ∃ value, (ofJson json).value? = some value := by
  induction json using induction_on_parts with
  | leaf json hleaf => cases json <;> first | exact ⟨_, rfl⟩ | cases hleaf
  | array items ih =>
      have hitems : ∀ item ∈ ofItems items, ∃ value, item.value? = some value := by
        rw [ofItems_eq_map]
        exact List.forall_mem_map.mpr ih
      obtain ⟨values, hvalues⟩ := exists_values? hitems
      exact ⟨.array values, by simp [ofJson, value?, hvalues, Ending.isReadable]⟩
  | object members ih =>
      have hmembers : ∀ member ∈ ofMembers members, ∃ value, member.2.value? = some value := by
        intro member hmember
        obtain ⟨value, hvalue, rfl⟩ := exists_mem_of_mem_ofMembers hmember
        exact ih value hvalue
      obtain ⟨values, hvalues⟩ := exists_memberValues? hmembers
      exact ⟨.object values, by simp [ofJson, value?, hvalues, Ending.isReadable]⟩

/-! ## Words -/

/-- An object as read from a text has null as its only member exactly if the value has. -/
lemma eq_singleton_null_iff {members : List (String × Fragment)} {values : List (String × Json)}
    (hmembers : List.Forall₂ MemberReads members values)
    {word : String} : members = [(word, .null)] ↔ values = [(word, .null)] := by
  constructor
  · rintro rfl
    obtain ⟨⟨_, json⟩, rest, ⟨rfl, hnull⟩, hrest, rfl⟩ := List.forall₂_cons_left_iff.mp hmembers
    obtain rfl := IsOf.eq_null (.inr hnull)
    rw [List.forall₂_nil_left_iff.mp hrest]
  · rintro rfl
    obtain ⟨⟨_, fragment⟩, rest, ⟨rfl, hnull⟩, hrest, rfl⟩ :=
      List.forall₂_cons_right_iff.mp hmembers
    rw [List.forall₂_nil_right_iff.mp hrest]
    cases shape_of_value? hnull with
    | leaf _ hsame =>
        obtain rfl : fragment = .null := hsame
        rfl

lemma requireNull_eq_ok_iff {fragment : Fragment} :
    fragment.requireNull = .ok () ↔ fragment = .null := by
  cases fragment <;> simp [requireNull]

/-- An object that stands for a word has it as the key of its only member, which is null. -/
lemma decodeWord_object_eq_ok_iff {ofName? : String → Option α} {known : List String}
    {members : List (String × Fragment)} {ending : Ending} (hending : ending.isReadable = true)
    {a : α} :
    decodeWord ofName? known (.object members ending) = .ok a ↔
      ∃ word, members = [(word, .null)] ∧ ofName? word = some a := by
  cases members with
  | nil => simp [decodeWord, bind_eq_ok_iff]
  | cons member rest =>
      obtain ⟨word, value⟩ := member
      rw [decodeWord]
      cases rest with
      | nil =>
          rw [if_neg (by simp), Ending.require, if_pos hending]
          cases hname : ofName? word with
          | none => simp [hname]
          | some b =>
              simp only [if_true, check_bind_eq_ok_iff, requireNull_eq_ok_iff]
              simp [hname, pure, Except.pure]
      | cons other rest =>
          by_cases hcounted : ending = .counted
          · simp [hcounted]
          · rw [if_neg fun h => hcounted h.1]
            cases ofName? word <;> simp [check_bind_eq_ok_iff]

end Fragment

end Json

end ContractInterface
