import ContractInterface.Proofs.LookupByName
import ContractInterface.Proofs.PreparedCall

/-!
# What a name and arguments pick

Of the ways in which a lookup by name can end (`Interface.Answers`), those that find an entry are
told here in terms of what inputs denote and which values their types have (`Entry.Takes`).  Among
several members the first is found that takes the arguments
(`Interface.lookup_picks_first_compatible`).  All inputs of all members have to denote types, also
those of members that come after the one that is found.
-/

namespace ContractInterface

/-! ## Entries that take arguments -/

/-- Whether arguments are values for the inputs of an entry: the inputs denote types, and the
arguments are values of these, one for each and in order. -/
def Entry.Takes (entry : Entry) (args : List Value) : Prop :=
  ∃ inputs, List.Forall₂ Parameter.Denotes entry.inputs inputs ∧
    List.Forall₂ (fun arg input => Inhabits arg input.2) args inputs

/-- The arguments that an entry accepts are those that are values for its inputs. -/
lemma Entry.accepts_iff_takes {entry : Entry} {args : List Value} :
    entry.Accepts args ↔ entry.Takes args := by
  simp only [Entry.Accepts, Entry.Takes, resolveFields_eq_ok_iff]
  refine exists_congr fun inputs => and_congr_right fun hinputs => ?_
  constructor
  · exact inhabits_of_check_inputs hinputs
  · exact List.Forall₂.imp fun arg input => check_eq_ok_of_inhabits

namespace Interface

variable {kind : MemberKind} {name : String} {settings : Settings}

/-! ## The first member that takes the arguments -/

/-- Whether an entry is the one that arguments pick from several: no member before it takes them,
and under the strict policy none after it does either. -/
def FirstTaking (members : List Entry) (args : List Value) (settings : Settings)
    (entry : Entry) : Prop :=
  ∃ before after, members = before ++ entry :: after ∧ entry.Takes args ∧
    (∀ earlier ∈ before, ¬earlier.Takes args) ∧
    (settings.overloads = .firstDeclared ∨ ∀ later ∈ after, ¬later.Takes args)

lemma firstTaking_iff {members : List Entry} {args : List Value} {entry : Entry} :
    FirstTaking members args settings entry ↔
      ∃ others, members.filter (fun member => member.Accepts args) = entry :: others ∧
        (settings.overloads = .firstDeclared ∨ others = []) := by
  simp only [FirstTaking, List.filter_eq_cons_iff, decide_eq_true_iff, Entry.accepts_iff_takes]
  constructor
  · rintro ⟨before, after, hsplit, htakes, hbefore, hpolicy⟩
    refine ⟨_, ⟨before, after, hsplit, hbefore, htakes, rfl⟩, hpolicy.imp_right fun hafter => ?_⟩
    simpa [List.filter_eq_nil_iff, Entry.accepts_iff_takes] using hafter
  · rintro ⟨others, ⟨before, after, hsplit, hbefore, htakes, rfl⟩, hpolicy⟩
    refine ⟨before, after, hsplit, htakes, hbefore, hpolicy.imp_right fun hafter => ?_⟩
    simpa [List.filter_eq_nil_iff, Entry.accepts_iff_takes] using hafter

namespace Answers

variable {members : List Entry} {args : Option (List Value)} {outcome : Except Fault Entry}

lemma eq_ok_iff (h : Answers members kind name settings args outcome) {entry : Entry} :
    outcome = .ok entry ↔
      members = [entry] ∨ 2 ≤ members.length ∧ ∃ supplied, args = some supplied ∧
        (∀ member ∈ members, ∀ p ∈ member.inputs, p.Resolves) ∧
        FirstTaking members supplied settings entry := by
  simp only [firstTaking_iff]
  have hseveral : 2 ≤ members.length → members ≠ [entry] := by
    rintro hshared rfl
    simp at hshared
  cases h with
  | missing hmembers => simp [hmembers]
  | only hmembers => simp [hmembers]
  | ambiguous hshared => simp [hseveral hshared, refuse_ne_ok]
  | untyped hshared hinputs =>
      have hunresolved := hinputs.not_forall_resolves
      simp only [List.forall_mem_flatMap] at hunresolved
      simp [hseveral hshared, hunresolved]
  | noneAccepts hshared hinputs haccept => simp [hseveral hshared, refuse_ne_ok, haccept]
  | picked hshared hinputs haccept hpolicy =>
      simp only [hseveral hshared, false_or, hshared, true_and, Except.ok.injEq,
        Option.some.injEq, exists_eq_left']
      constructor
      · rintro rfl
        exact ⟨hinputs, _, haccept, hpolicy⟩
      · rintro ⟨-, others, hfirst, -⟩
        rw [haccept] at hfirst
        exact (List.cons.inj hfirst).1
  | tied hshared hinputs haccept hpolicy =>
      simp [hseveral hshared, refuse_ne_ok, haccept, hpolicy]

lemma memberNotFound_iff (h : Answers members kind name settings args outcome) :
    (∃ missing sought, outcome = .error (.memberNotFound missing sought)) ↔ members = [] := by
  have hseveral : 2 ≤ members.length → members ≠ [] := by
    rintro hshared rfl
    simp at hshared
  cases h with
  | missing hmembers => simp [hmembers]
  | only hmembers => simp [hmembers]
  | ambiguous hshared | noneAccepts hshared | tied hshared =>
      simp [hseveral hshared, refuse_eq_error_iff]
  | untyped hshared | picked hshared => simp [hseveral hshared]

lemma none_takes (h : Answers members kind name settings args outcome) {refused : String}
    {texts : List String} (houtcome : outcome = .error (.noMatchingOverload refused texts)) :
    ∃ supplied, args = some supplied ∧ ∀ member ∈ members, ¬member.Takes supplied := by
  cases h with
  | noneAccepts hshared hinputs haccept =>
      refine ⟨_, rfl, ?_⟩
      simpa [List.filter_eq_nil_iff, Entry.accepts_iff_takes] using haccept
  | missing | only | untyped | picked => cases houtcome
  | ambiguous | tied => simp [refuse_eq_error_iff] at houtcome

lemma unresolvable {supplied : List Value}
    (h : Answers members kind name settings (some supplied) outcome)
    (hshared : 2 ≤ members.length)
    (hinput : ∃ member ∈ members, ∃ p ∈ member.inputs, ¬p.Resolves) :
    ∃ cause, FirstFault (members.flatMap Entry.inputs) cause ∧
      outcome = .error (.unresolvableType cause) := by
  obtain ⟨member, hmember, p, hp, hunresolved⟩ := hinput
  cases h with
  | missing hmembers | only hmembers => simp [hmembers] at hshared
  | untyped _ hinputs => exact ⟨_, hinputs, rfl⟩
  | noneAccepts _ hinputs | picked _ hinputs | tied _ hinputs =>
      exact absurd (hinputs member hmember p hp) hunresolved

end Answers

/-- **A name and arguments pick the first member that takes them.**  A lookup by name finds an entry
exactly if it is the only member of that kind and name, or if there are several, arguments are
supplied, the inputs of all members denote types and the entry is the first that takes the arguments
and, under the strict policy, the only one.  It fails for want of a member exactly if there is none,
and for want of an overload only if no member takes the arguments; and an input of any of several
members that denotes no type makes it fail for that reason, with the first such input at fault, even
if a member takes the arguments. -/
theorem lookup_picks_first_compatible (interface : Interface) (kind : MemberKind) (name : String)
    (args : Option (List Value)) (settings : Settings)
    (hname : Reference.isQualified name = false) :
    (∀ entry, (interface.lookup kind name args settings).outcome = .ok entry ↔
        interface.members kind name = [entry] ∨
          2 ≤ (interface.members kind name).length ∧ ∃ supplied, args = some supplied ∧
            (∀ member ∈ interface.members kind name, ∀ p ∈ member.inputs, p.Resolves) ∧
            FirstTaking (interface.members kind name) supplied settings entry) ∧
      ((∃ missing sought, (interface.lookup kind name args settings).outcome =
          .error (.memberNotFound missing sought)) ↔ interface.members kind name = []) ∧
      (∀ refused texts, (interface.lookup kind name args settings).outcome =
          .error (.noMatchingOverload refused texts) →
        ∃ supplied, args = some supplied ∧
          ∀ member ∈ interface.members kind name, ¬member.Takes supplied) ∧
      ∀ supplied, args = some supplied → 2 ≤ (interface.members kind name).length →
        (∃ member ∈ interface.members kind name, ∃ p ∈ member.inputs, ¬p.Resolves) →
          ∃ cause, FirstFault ((interface.members kind name).flatMap Entry.inputs) cause ∧
            (interface.lookup kind name args settings).outcome =
              .error (.unresolvableType cause) := by
  have hanswers := answers_lookup interface kind hname args settings
  refine ⟨fun _ => hanswers.eq_ok_iff, hanswers.memberNotFound_iff,
    fun _ _ => hanswers.none_takes, ?_⟩
  rintro supplied rfl hshared hinput
  exact hanswers.unresolvable hshared hinput

/-- An interface with functions for three kinds of codes, of which one has an output without a type,
and an event of the same name; and with two functions of another name, of which one has an input
without a type. -/
def lockbox : Interface :=
  ⟨[.function ⟨"unlock", [⟨"code", "uint8", none, none⟩], [], .nonpayable⟩,
    .event ⟨"unlock", [⟨⟨"code", "uint16", none, none⟩, true⟩], false⟩,
    .function ⟨"unlock", [⟨"code", "uint16", none, none⟩], [⟨"left", "uint7", none, none⟩],
      .nonpayable⟩,
    .function ⟨"unlock", [⟨"code", "string", none, none⟩], [], .nonpayable⟩,
    .function ⟨"lock", [⟨"code", "uint8", none, none⟩], [], .nonpayable⟩,
    .function ⟨"lock", [⟨"code", "uint7", none, none⟩], [], .nonpayable⟩]⟩

/-- A code that only the second function takes picks it, whatever its output; and a code that a
function takes picks none if the input of another has no type. -/
theorem lookup_picks_first_compatible_lockbox :
    (∃ entry, (lockbox.lookup .function "unlock" (some [.uint 300]) ⟨.strict⟩).outcome =
        .ok entry ∧
      FirstTaking (lockbox.members .function "unlock") [.uint 300] ⟨.strict⟩ entry) ∧
      ∃ cause, (lockbox.lookup .function "lock" (some [.uint 3]) {}).outcome =
        .error (.unresolvableType cause) := by
  constructor
  · have hshared : 2 ≤ (lockbox.members .function "unlock").length := by decide +kernel
    obtain ⟨entry, hentry⟩ := exists_ok_of_isOk
      (x := (lockbox.lookup .function "unlock" (some [.uint 300]) ⟨.strict⟩).outcome)
      (by decide +kernel)
    obtain ⟨hfound, -⟩ := lookup_picks_first_compatible lockbox .function "unlock"
      (some [.uint 300]) ⟨.strict⟩ (by decide +kernel)
    rcases (hfound entry).mp hentry with honly | ⟨-, supplied, hargs, -, hfirst⟩
    · simp [honly] at hshared
    · obtain rfl := Option.some.inj hargs
      exact ⟨entry, hentry, hfirst⟩
  · have hunresolved : ¬Parameter.Resolves ⟨"code", "uint7", none, none⟩ := by
      rintro ⟨s, hs⟩
      have hfault : (Parameter.resolve ⟨"code", "uint7", none, none⟩).isOk = false := by
        decide +kernel
      rw [hs] at hfault
      cases hfault
    obtain ⟨-, -, -, huntyped⟩ := lookup_picks_first_compatible lockbox .function "lock"
      (some [.uint 3]) {} (by decide +kernel)
    obtain ⟨cause, -, hcause⟩ := huntyped _ rfl (by decide +kernel)
      ⟨.function ⟨"lock", [⟨"code", "uint7", none, none⟩], [], .nonpayable⟩,
        List.mem_filter.mpr ⟨by simp [lockbox], by decide +kernel⟩, _,
        List.mem_singleton_self _, hunresolved⟩
    exact ⟨cause, hcause⟩

end Interface

end ContractInterface
