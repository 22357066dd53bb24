import ContractInterface.Description
import ContractInterface.Proofs.Lookup

/-!
# Blanks in references

Two references with parentheses that differ in their blanks only are the same canonical text.  The
two forms of description treat them differently (`Reference.blanks_immaterial`).

* An interface removes the blanks before it does anything else, so both references find the same
  entry, or none, or stop at the same type (`Interface.SameFinding`).
* Loose records are found by what stands before the parenthesis, as it is written.  Blanks after the
  parenthesis are never looked at.  Blanks before it are taken for a part of the name, so the two
  references find the same record in every description exactly if they agree up to the parenthesis;
  `Reference.blank_before_parenthesis_matters` is a description in which they do not.
-/

namespace ContractInterface

/-! ## Literal descriptions -/

namespace Interface

/-- What two references come to if the difference between them is immaterial: the same entry, no
member, each with its own name in the fault, or the same type that cannot be resolved. -/
inductive SameFinding (kind : MemberKind) (reference reference' : String) :
    Except Fault Entry → Except Fault Entry → Prop
  | found (entry : Entry) : SameFinding kind reference reference' (.ok entry) (.ok entry)
  | missing : SameFinding kind reference reference' (.error (.memberNotFound reference kind))
      (.error (.memberNotFound reference' kind))
  | unresolvable (fault : TypeFault) : SameFinding kind reference reference'
      (.error (.unresolvableType fault)) (.error (.unresolvableType fault))

lemma sameFinding_of_withoutBlanks_eq {reference reference' : String}
    (hqualified : Reference.isQualified reference = true)
    (hqualified' : Reference.isQualified reference' = true)
    (hsame : Text.withoutBlanks reference = Text.withoutBlanks reference') (interface : Interface)
    (kind : MemberKind) (args : Option (List Value)) (settings : Settings) :
    SameFinding kind reference reference' (interface.lookup kind reference args settings).outcome
      (interface.lookup kind reference' args settings).outcome := by
  rw [lookup, lookup, if_pos hqualified, if_pos hqualified', lookupQualified, lookupQualified,
    Traced.outcome_bind, Traced.outcome_bind, hsame]
  -- The same search is made for both; only the fault for its failure names the reference.
  cases findCanonical? kind (Reference.baseName (Text.withoutBlanks reference'))
      (Text.withoutBlanks reference') interface.entries with
  | error fault => exact .unresolvable fault
  | ok found =>
      cases found with
      | none => exact .missing
      | some entry => exact .found entry

end Interface

/-! ## Loose records -/

namespace LooseRecord

/-- A record that says no more than what it is for. -/
def bare (kind : MemberKind) (name : String) : LooseRecord :=
  ⟨[("type", .string kind.name), ("name", .string name)]⟩

lemma isMember_bare (kind : MemberKind) (name other : String) :
    (bare kind name).isMember kind other = (name == other) := by
  have hmember : (bare kind name).isMember kind other = (kind.name == kind.name && name == other) :=
    rfl
  rw [hmember, beq_self_eq_true, Bool.true_and]

/-- The record of a name is found by the references with that name before the parenthesis. -/
lemma find?_bare (kind : MemberKind) (name reference : String) :
    find? [.object (bare kind name).members] kind reference none =
      if name = Reference.baseName reference then some (bare kind name) else none := by
  have hcandidates : find? [.object (bare kind name).members] kind reference none =
      ([bare kind name].filter (isMember kind (Reference.baseName reference))).head? := rfl
  rw [hcandidates, List.filter_cons, isMember_bare]
  by_cases hname : name = Reference.baseName reference
  · rw [if_pos hname, if_pos (beq_iff_eq.mpr hname)]
    rfl
  · rw [if_neg hname, if_neg (by simpa using hname)]
    rfl

/-- Whether references find the same records is told by what stands before their parentheses. -/
lemma find?_agree_iff {reference reference' : String} :
    (∀ records kind count,
        find? records kind reference count = find? records kind reference' count) ↔
      Reference.baseName reference = Reference.baseName reference' := by
  constructor
  · intro hagree
    have hbare := hagree [.object (bare .function (Reference.baseName reference)).members]
      .function none
    rw [find?_bare, find?_bare, if_pos rfl] at hbare
    by_contra hne
    rw [if_neg hne] at hbare
    cases hbare
  · intro hbase records kind count
    unfold find?
    rw [hbase]

end LooseRecord

/-! ## References -/

namespace Reference

lemma isBlank_parenthesis : Text.isBlank '(' = false := by decide

/-- The part before the parenthesis without blanks is that of the reference without blanks. -/
lemma baseName_withoutBlanks (reference : String) :
    baseName (Text.withoutBlanks reference) = Text.withoutBlanks (baseName reference) := by
  have hkept : (fun c => !(!Text.isBlank c) || c != '(') = fun c => c != '(' := by
    funext c
    by_cases hc : c = '('
    · rw [hc, isBlank_parenthesis]
      rfl
    · have hne : (c != '(') = true := bne_iff_ne.mpr hc
      rw [hne, Bool.or_true]
  rw [baseName, baseName, Text.withoutBlanks, Text.withoutBlanks, String.toList_ofList,
    String.toList_ofList, List.takeWhile_filter, hkept]

/-- References that differ in their blanks agree up to the parenthesis if there are none before
it. -/
lemma baseName_eq_of_withoutBlanks_eq {reference reference' : String}
    (hsame : Text.withoutBlanks reference = Text.withoutBlanks reference')
    (hblank : Text.withoutBlanks (baseName reference) = baseName reference)
    (hblank' : Text.withoutBlanks (baseName reference') = baseName reference') :
    baseName reference = baseName reference' := by
  calc
    baseName reference = baseName (Text.withoutBlanks reference) := by
      rw [baseName_withoutBlanks, hblank]
    _ = baseName (Text.withoutBlanks reference') := by rw [hsame]
    _ = baseName reference' := by rw [baseName_withoutBlanks, hblank']

/-- **Blanks in a canonical text.**  Let two references with parentheses be equal once their blanks
are removed.  In every interface they find the same entry, or neither finds one, or both stop at the
same type.  In every list of loose records they find the same record exactly if they agree up to the
parenthesis, and they do so if neither has blanks before it. -/
theorem blanks_immaterial (reference reference' : String)
    (hqualified : isQualified reference = true) (hqualified' : isQualified reference' = true)
    (hsame : Text.withoutBlanks reference = Text.withoutBlanks reference') :
    (∀ (interface : Interface) kind args settings, Interface.SameFinding kind reference reference'
        (interface.lookup kind reference args settings).outcome
        (interface.lookup kind reference' args settings).outcome) ∧
      ((∀ records kind count, LooseRecord.find? records kind reference count =
          LooseRecord.find? records kind reference' count) ↔
        baseName reference = baseName reference') ∧
      (Text.withoutBlanks (baseName reference) = baseName reference →
        Text.withoutBlanks (baseName reference') = baseName reference' →
          baseName reference = baseName reference') :=
  ⟨Interface.sameFinding_of_withoutBlanks_eq hqualified hqualified' hsame,
    LooseRecord.find?_agree_iff, baseName_eq_of_withoutBlanks_eq hsame⟩

/-- Blanks among the types of the inputs. -/
theorem blanks_immaterial_mint :
    isQualified "mint(address,uint8)" = true ∧ isQualified "mint( address,\tuint8 )" = true ∧
      Text.withoutBlanks "mint(address,uint8)" = Text.withoutBlanks "mint( address,\tuint8 )" ∧
      ∀ records kind count, LooseRecord.find? records kind "mint(address,uint8)" count =
        LooseRecord.find? records kind "mint( address,\tuint8 )" count := by
  have hqualified : isQualified "mint(address,uint8)" = true := by decide +kernel
  have hqualified' : isQualified "mint( address,\tuint8 )" = true := by decide +kernel
  have hsame : Text.withoutBlanks "mint(address,uint8)" =
      Text.withoutBlanks "mint( address,\tuint8 )" := by
    decide +kernel
  obtain ⟨-, hrecords, hbase⟩ := blanks_immaterial _ _ hqualified hqualified' hsame
  exact ⟨hqualified, hqualified', hsame,
    hrecords.mpr (hbase (by decide +kernel) (by decide +kernel))⟩

/-- A blank before the parenthesis, which hides the record of a function. -/
theorem blank_before_parenthesis_matters :
    isQualified "mint(address)" = true ∧ isQualified "mint (address)" = true ∧
      Text.withoutBlanks "mint(address)" = Text.withoutBlanks "mint (address)" ∧
      LooseRecord.find? [.object (LooseRecord.bare .function "mint").members] .function
        "mint(address)" none = some (LooseRecord.bare .function "mint") ∧
      LooseRecord.find? [.object (LooseRecord.bare .function "mint").members] .function
        "mint (address)" none = none := by
  refine ⟨by decide +kernel, by decide +kernel, by decide +kernel, ?_, ?_⟩
  · rw [LooseRecord.find?_bare, if_pos (by decide +kernel)]
  · rw [LooseRecord.find?_bare, if_neg (by decide +kernel)]

end Reference

end ContractInterface
