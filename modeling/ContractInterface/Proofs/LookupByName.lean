import ContractInterface.Proofs.EntryTypes

/-!
# Lookup by name, case by case

What a name comes to depends on how many members have it, on whether arguments are supplied and on
how many of the members accept them.  `Interface.Answers` lists every way in which a lookup by name
can end, for members whose types may or may not resolve: there is no member, there is one, there are
several and no arguments, or arguments tell them apart or fail to.  A lookup by name ends in one of
these ways (`Interface.answers_lookup`) and in no other (`Interface.Answers.lookup_eq`), so what
holds of lookups by name is read off them.

A lookup that fails because of several candidates lists them by their canonical texts, which takes
the types of all of them (`Interface.refuse`); if these resolve, nothing else can go wrong.
-/

namespace ContractInterface

/-! ## Members whose types resolve -/

lemma canonicalTexts_of_resolves {entries : List Entry}
    (h : ∀ entry ∈ entries, entry.Resolves) :
    canonicalTexts entries = .ok (entries.map Entry.canonicalText) :=
  canonicalTexts_eq_ok_iff.mpr
    ⟨fun entry hmem => Entry.exists_signature_iff.mpr (h entry hmem), rfl⟩

lemma Entry.HasCanonical.canonicalText_eq {entry : Entry} {kind : MemberKind} {text : String}
    (h : entry.HasCanonical kind text) : entry.canonicalText = text := by
  obtain ⟨-, signature, hsignature, htext⟩ := h
  simp [Entry.canonicalText, hsignature, htext, Except.toOption]

/-- The canonical texts of members are listed one for each member. -/
lemma forall₂_hasCanonical_of_canonicalTexts {kind : MemberKind} {name : String}
    {entries : List Entry} {texts : List String} (h : canonicalTexts entries = .ok texts)
    (hmembers : ∀ entry ∈ entries, entry.isMember kind name = true) :
    List.Forall₂ (fun entry text => entry.HasCanonical kind text) entries texts := by
  obtain ⟨hsignatures, rfl⟩ := canonicalTexts_eq_ok_iff.mp h
  refine List.forall₂_map_right_iff.mpr (List.forall₂_same.mpr fun entry hmem => ?_)
  have hresolves : entry.Resolves := Entry.exists_signature_iff.mp (hsignatures entry hmem)
  obtain ⟨text, htext⟩ := Entry.exists_hasCanonical hresolves (hmembers entry hmem)
  rwa [htext.canonicalText_eq]

/-- Compatible entries cannot be told because of the first input that denotes no type. -/
lemma compatibleEntries_eq_error_iff {args : List Value} {entries : List Entry}
    {fault : TypeFault} :
    compatibleEntries args entries = .error fault ↔
      FirstFault (entries.flatMap Entry.inputs) fault := by
  induction entries with
  | nil => simp [compatibleEntries, FirstFault]
  | cons entry entries ih =>
      rw [compatibleEntries, bind_eq_error_iff, List.flatMap_cons, firstFault_append_iff, ← ih,
        resolveFields_eq_error_iff, ← exists_resolveFields_iff]
      refine or_congr_right ?_
      rw [← exists_and_right]
      refine exists_congr fun inputs => and_congr_right fun _ => ?_
      rw [bind_eq_error_iff]
      simp [pure, Except.pure]

lemma compatibleEntries_eq_ok {args : List Value} {entries compatible : List Entry}
    (hinputs : ∀ entry ∈ entries, ∀ p ∈ entry.inputs, p.Resolves)
    (haccept : entries.filter (fun entry => entry.Accepts args) = compatible) :
    compatibleEntries args entries = .ok compatible :=
  compatibleEntries_eq_ok_iff.mpr
    ⟨fun entry hmem => exists_resolveFields_iff.mpr (hinputs entry hmem), haccept.symm⟩

namespace Interface

variable {interface : Interface} {kind : MemberKind} {name : String}

/-! ## By the number of members -/

lemma lookup_of_members_nil (hname : Reference.isQualified name = false)
    (hmembers : interface.members kind name = []) (args : Option (List Value))
    (settings : Settings) :
    (interface.lookup kind name args settings).outcome = .error (.memberNotFound name kind) := by
  rw [lookup, if_neg (by simp [hname])]
  unfold lookupPlain
  rw [Traced.outcome_bind, hmembers]
  rfl

lemma lookup_of_members_singleton {entry : Entry} (hname : Reference.isQualified name = false)
    (hmembers : interface.members kind name = [entry]) (args : Option (List Value))
    (settings : Settings) : (interface.lookup kind name args settings).outcome = .ok entry := by
  rw [lookup, if_neg (by simp [hname])]
  unfold lookupPlain
  rw [Traced.outcome_bind, hmembers]
  rfl

/-- A name that several members share is looked up by the arguments. -/
lemma lookup_overloaded (hname : Reference.isQualified name = false)
    (hshared : 2 ≤ (interface.members kind name).length) (args : List Value)
    (settings : Settings) :
    (interface.lookup kind name (some args) settings).outcome =
      (disambiguate name (interface.members kind name) args settings).outcome := by
  rw [lookup, if_neg (by simp [hname])]
  unfold lookupPlain
  rw [Traced.outcome_bind]
  cases hmembers : interface.members kind name with
  | nil => simp [hmembers] at hshared
  | cons first others =>
      cases others with
      | nil => simp [hmembers] at hshared
      | cons second rest => rfl

/-- How a lookup fails because of several candidates: they are listed by their canonical texts, if
they all have one. -/
def refuse (fault : List String → Fault) (candidates : List Entry) : Except Fault Entry :=
  (asFault (canonicalTexts candidates)).bind fun texts => .error (fault texts)

lemma refuse_eq_error_iff {fault : List String → Fault} {candidates : List Entry} {f : Fault} :
    refuse fault candidates = .error f ↔
      (∃ cause, canonicalTexts candidates = .error cause ∧ f = .unresolvableType cause) ∨
        ∃ texts, canonicalTexts candidates = .ok texts ∧ f = fault texts := by
  rw [refuse]
  cases canonicalTexts candidates <;> simp [asFault, Except.bind, eq_comm]

lemma refuse_ne_ok {fault : List String → Fault} {candidates : List Entry} {entry : Entry} :
    refuse fault candidates ≠ .ok entry := by
  rw [refuse]
  cases canonicalTexts candidates <;> simp [asFault, Except.bind]

lemma refuse_of_resolves {fault : List String → Fault} {candidates : List Entry}
    (hresolves : ∀ entry ∈ candidates, entry.Resolves) :
    refuse fault candidates = .error (fault (candidates.map Entry.canonicalText)) := by
  rw [refuse, canonicalTexts_of_resolves hresolves]
  rfl

/-- So are some of the candidates listed, if all of them resolve. -/
lemma refuse_of_filter {fault : List String → Fault} {candidates listed : List Entry}
    {keep : Entry → Bool} (hresolves : ∀ entry ∈ candidates, entry.Resolves)
    (hlisted : candidates.filter keep = listed) :
    refuse fault listed = .error (fault (listed.map Entry.canonicalText)) := by
  subst hlisted
  exact refuse_of_resolves fun entry hmem => hresolves entry (List.mem_of_mem_filter hmem)

/-- Without arguments, nothing tells members of one name apart. -/
lemma lookup_without_arguments (hname : Reference.isQualified name = false)
    (hshared : 2 ≤ (interface.members kind name).length) (settings : Settings) :
    (interface.lookup kind name none settings).outcome =
      refuse (.ambiguousMember name) (interface.members kind name) := by
  rw [lookup, if_neg (by simp [hname])]
  unfold lookupPlain
  rw [Traced.outcome_bind]
  cases hmembers : interface.members kind name with
  | nil => simp [hmembers] at hshared
  | cons first others =>
      cases others with
      | nil => simp [hmembers] at hshared
      | cons second rest =>
          show (Traced.ofExcept (asFault (canonicalTexts (first :: second :: rest))) >>=
            fun texts => Traced.fail (.ambiguousMember name texts)).outcome = _
          rw [Traced.outcome_bind]
          rfl

/-! ## By the compatible members -/

variable {candidates : List Entry} {args : List Value} {settings : Settings}

lemma disambiguate_of_untyped {cause : TypeFault}
    (h : compatibleEntries args candidates = .error cause) :
    (disambiguate name candidates args settings).outcome = .error (.unresolvableType cause) := by
  simp [disambiguate, Traced.outcome_bind, h, asFault, Except.bind]

lemma disambiguate_of_none_compatible (h : compatibleEntries args candidates = .ok []) :
    (disambiguate name candidates args settings).outcome =
      refuse (.noMatchingOverload name) candidates := by
  simp [disambiguate, Traced.outcome_bind, h, asFault, Except.bind, refuse]

/-- The first compatible candidate is picked, unless the policy is strict and there are others. -/
lemma disambiguate_of_first_compatible {entry : Entry} {others : List Entry}
    (h : compatibleEntries args candidates = .ok (entry :: others))
    (hpolicy : settings.overloads = .firstDeclared ∨ others = []) :
    (disambiguate name candidates args settings).outcome = .ok entry := by
  rcases hpolicy with hfirst | rfl
  · simp [disambiguate, Traced.outcome_bind, h, asFault, Except.bind, hfirst]
  · cases hpolicy : settings.overloads <;>
      simp [disambiguate, Traced.outcome_bind, h, asFault, Except.bind, hpolicy]

lemma disambiguate_of_several_compatible {first second : Entry} {others : List Entry}
    (h : compatibleEntries args candidates = .ok (first :: second :: others))
    (hpolicy : settings.overloads = .strict) :
    (disambiguate name candidates args settings).outcome =
      refuse (.ambiguousMember name) (first :: second :: others) := by
  simp [disambiguate, Traced.outcome_bind, h, asFault, Except.bind, hpolicy, refuse]

/-! ## Every way in which a lookup by name can end -/

/-- How a lookup by name ends, by the members of that name, the arguments and the settings. -/
inductive Answers (members : List Entry) (kind : MemberKind) (name : String)
    (settings : Settings) : Option (List Value) → Except Fault Entry → Prop
  | missing {args : Option (List Value)} (hmembers : members = []) :
      Answers members kind name settings args (.error (.memberNotFound name kind))
  | only {args : Option (List Value)} {entry : Entry} (hmembers : members = [entry]) :
      Answers members kind name settings args (.ok entry)
  | ambiguous (hshared : 2 ≤ members.length) :
      Answers members kind name settings none (refuse (.ambiguousMember name) members)
  /-- The inputs of all members are resolved before any of them is picked. -/
  | untyped {args : List Value} {cause : TypeFault} (hshared : 2 ≤ members.length)
      (hinputs : FirstFault (members.flatMap Entry.inputs) cause) :
      Answers members kind name settings (some args) (.error (.unresolvableType cause))
  | noneAccepts {args : List Value} (hshared : 2 ≤ members.length)
      (hinputs : ∀ member ∈ members, ∀ p ∈ member.inputs, p.Resolves)
      (haccept : members.filter (fun member => member.Accepts args) = []) :
      Answers members kind name settings (some args) (refuse (.noMatchingOverload name) members)
  | picked {args : List Value} {entry : Entry} {others : List Entry}
      (hshared : 2 ≤ members.length)
      (hinputs : ∀ member ∈ members, ∀ p ∈ member.inputs, p.Resolves)
      (haccept : members.filter (fun member => member.Accepts args) = entry :: others)
      (hpolicy : settings.overloads = .firstDeclared ∨ others = []) :
      Answers members kind name settings (some args) (.ok entry)
  | tied {args : List Value} {first second : Entry} {others : List Entry}
      (hshared : 2 ≤ members.length)
      (hinputs : ∀ member ∈ members, ∀ p ∈ member.inputs, p.Resolves)
      (haccept : members.filter (fun member => member.Accepts args) = first :: second :: others)
      (hpolicy : settings.overloads = .strict) :
      Answers members kind name settings (some args)
        (refuse (.ambiguousMember name) (first :: second :: others))

lemma answers_disambiguate (kind : MemberKind) (hshared : 2 ≤ candidates.length)
    (args : List Value) (settings : Settings) :
    Answers candidates kind name settings (some args)
      (disambiguate name candidates args settings).outcome := by
  cases hcompatible : compatibleEntries args candidates with
  | error cause =>
      rw [disambiguate_of_untyped hcompatible]
      exact .untyped hshared (compatibleEntries_eq_error_iff.mp hcompatible)
  | ok compatible =>
      obtain ⟨hresolved, haccept⟩ := compatibleEntries_eq_ok_iff.mp hcompatible
      have hinputs : ∀ member ∈ candidates, ∀ p ∈ member.inputs, p.Resolves :=
        fun member hmember => exists_resolveFields_iff.mp (hresolved member hmember)
      cases compatible with
      | nil =>
          rw [disambiguate_of_none_compatible hcompatible]
          exact .noneAccepts hshared hinputs haccept.symm
      | cons first rest =>
          by_cases hpolicy : settings.overloads = .firstDeclared ∨ rest = []
          · rw [disambiguate_of_first_compatible hcompatible hpolicy]
            exact .picked hshared hinputs haccept.symm hpolicy
          · push Not at hpolicy
            obtain ⟨hpolicy, hrest⟩ := hpolicy
            have hstrict : settings.overloads = .strict := by
              cases hoverloads : settings.overloads with
              | firstDeclared => exact absurd hoverloads hpolicy
              | strict => rfl
            obtain ⟨second, others, rfl⟩ := List.exists_cons_of_ne_nil hrest
            rw [disambiguate_of_several_compatible hcompatible hstrict]
            exact .tied hshared hinputs haccept.symm hstrict

/-- Every lookup by name ends in one of these ways. -/
lemma answers_lookup (interface : Interface) (kind : MemberKind)
    (hname : Reference.isQualified name = false) (args : Option (List Value))
    (settings : Settings) :
    Answers (interface.members kind name) kind name settings args
      (interface.lookup kind name args settings).outcome := by
  by_cases hshared : 2 ≤ (interface.members kind name).length
  · cases args with
    | none =>
        rw [lookup_without_arguments hname hshared]
        exact .ambiguous hshared
    | some args =>
        rw [lookup_overloaded hname hshared]
        exact answers_disambiguate kind hshared args settings
  · cases hmembers : interface.members kind name with
    | nil =>
        rw [lookup_of_members_nil hname hmembers]
        exact .missing rfl
    | cons entry others =>
        cases others with
        | nil =>
            rw [lookup_of_members_singleton hname hmembers]
            exact .only rfl
        | cons second others => simp [hmembers] at hshared

namespace Answers

variable {args : Option (List Value)} {outcome : Except Fault Entry}

/-- And each of these ways is how some lookups end. -/
lemma lookup_eq (h : Answers (interface.members kind name) kind name settings args outcome)
    (hname : Reference.isQualified name = false) :
    (interface.lookup kind name args settings).outcome = outcome := by
  cases h with
  | missing hmembers => exact lookup_of_members_nil hname hmembers args settings
  | only hmembers => exact lookup_of_members_singleton hname hmembers args settings
  | ambiguous hshared => exact lookup_without_arguments hname hshared settings
  | untyped hshared hinputs =>
      rw [lookup_overloaded hname hshared]
      exact disambiguate_of_untyped (compatibleEntries_eq_error_iff.mpr hinputs)
  | noneAccepts hshared hinputs haccept =>
      rw [lookup_overloaded hname hshared]
      exact disambiguate_of_none_compatible (compatibleEntries_eq_ok hinputs haccept)
  | picked hshared hinputs haccept hpolicy =>
      rw [lookup_overloaded hname hshared]
      exact disambiguate_of_first_compatible (compatibleEntries_eq_ok hinputs haccept) hpolicy
  | tied hshared hinputs haccept hpolicy =>
      rw [lookup_overloaded hname hshared]
      exact disambiguate_of_several_compatible (compatibleEntries_eq_ok hinputs haccept) hpolicy

end Answers

/-- Inputs of members whose types resolve are not at fault. -/
lemma not_firstFault_of_resolves {members : List Entry} {cause : TypeFault}
    (hresolves : ∀ member ∈ members, member.Resolves) :
    ¬FirstFault (members.flatMap Entry.inputs) cause := by
  intro hinputs
  refine hinputs.not_forall_resolves (List.forall_mem_flatMap.mpr fun member hmember => ?_)
  exact exists_resolveFields_iff.mp (hresolves member hmember).inputs

end Interface

end ContractInterface
