import ContractInterface.Proofs.LookupByName

/-!
# The two policies for overloads

The policies differ in one case only: a name that several members share, with arguments that more
than one of them accept.  The first of these is taken under one policy and none under the other, so
that the strict policy refines the other (`Interface.strict_refines_firstDeclared`): it never finds
another entry, and what fails without it fails with it for the same reason.

In that one case the strict policy names the members that accept the arguments by their canonical
texts.  Accepting arguments takes the types of the inputs, a canonical text takes those of the
outputs as well; so a function whose outputs have no types, which could be picked if it came first,
is what the lookup fails for (`Interface.RefusesTie`).
-/

namespace ContractInterface

/-! ## Members without a canonical text -/

/-- Canonical texts cannot be listed because of the first entry that has no signature. -/
lemma exists_entry_of_canonicalTexts_error {entries : List Entry} {fault : TypeFault}
    (h : canonicalTexts entries = .error fault) :
    ∃ before entry after, entries = before ++ entry :: after ∧
      (∀ earlier ∈ before, earlier.Resolves) ∧ entry.signature = .error fault := by
  induction entries with
  | nil => cases h
  | cons first rest ih =>
      rw [canonicalTexts] at h
      rcases bind_eq_error_iff.mp h with hfirst | ⟨signature, hsignature, hrest⟩
      · exact ⟨[], first, rest, rfl, by simp, hfirst⟩
      · have hresolves : first.Resolves := Entry.exists_signature_iff.mp ⟨signature, hsignature⟩
        rcases bind_eq_error_iff.mp hrest with htexts | ⟨texts, -, hpure⟩
        · obtain ⟨before, entry, after, rfl, hbefore, hentry⟩ := ih htexts
          exact ⟨first :: before, entry, after, rfl,
            List.forall_mem_cons.mpr ⟨hresolves, hbefore⟩, hentry⟩
        · cases hpure

/-- An entry that accepts arguments and has no signature is a function whose outputs have no
types. -/
lemma Entry.Accepts.exists_function {entry : Entry} {args : List Value} {fault : TypeFault}
    (haccepts : entry.Accepts args) (h : entry.signature = .error fault) :
    ∃ f, entry = .function f ∧ FirstFault f.outputs fault := by
  obtain ⟨inputs, hinputs, -⟩ := haccepts
  have houtputs : FirstFault entry.outputs fault := by
    rcases firstFault_append_iff.mp (signature_eq_error_iff.mp h) with hinput | ⟨-, houtput⟩
    · rw [← resolveFields_eq_error_iff, hinputs] at hinput
      cases hinput
    · exact houtput
  cases entry with
  | function f => exact ⟨f, rfl, houtputs⟩
  | _ =>
      -- No other entry has outputs, so none of them can be at fault.
      obtain ⟨before, p, after, hsplit, -⟩ := houtputs
      simp [outputs] at hsplit

namespace Interface

/-! ## Ties -/

/-- How a lookup by name is refused because of the members that accept the arguments: they are
listed, or the first of them whose outputs have no types is at fault. -/
inductive RefusesTie (kind : MemberKind) (name : String) (accepting : List Entry) : Fault → Prop
  | ambiguous {texts : List String}
      (htexts : List.Forall₂ (fun entry text => entry.HasCanonical kind text) accepting texts) :
      RefusesTie kind name accepting (.ambiguousMember name texts)
  | unresolvable {before after : List Entry} {f : Function} {cause : TypeFault}
      (hsplit : accepting = before ++ .function f :: after)
      (hbefore : ∀ earlier ∈ before, earlier.Resolves) (houtputs : FirstFault f.outputs cause) :
      RefusesTie kind name accepting (.unresolvableType cause)

/-- A list of members that accept the arguments is refused as a tie. -/
lemma refusesTie_of_listing {kind : MemberKind} {name : String} {args : List Value}
    {accepting : List Entry} (hmembers : ∀ entry ∈ accepting, entry.isMember kind name = true)
    (haccept : ∀ entry ∈ accepting, entry.Accepts args) {fault : Fault}
    (h : refuse (.ambiguousMember name) accepting = .error fault) :
    RefusesTie kind name accepting fault := by
  rcases refuse_eq_error_iff.mp h with ⟨cause, hcause, rfl⟩ | ⟨texts, htexts, rfl⟩
  · obtain ⟨before, entry, after, hsplit, hbefore, hsignature⟩ :=
      exists_entry_of_canonicalTexts_error hcause
    have hmem : entry ∈ accepting := by simp [hsplit]
    obtain ⟨f, rfl, houtputs⟩ := (haccept entry hmem).exists_function hsignature
    exact .unresolvable hsplit hbefore houtputs
  · exact .ambiguous (forall₂_hasCanonical_of_canonicalTexts htexts hmembers)

/-- **Where the policies differ.**  How a lookup by name ends under the strict policy is how it ends
under the other, or several members accept the arguments: then the strict policy lists them, and the
other takes the first. -/
lemma Answers.of_strict {members : List Entry} {kind : MemberKind} {name : String}
    {args : Option (List Value)} {outcome : Except Fault Entry}
    (h : Answers members kind name ⟨.strict⟩ args outcome) :
    Answers members kind name ⟨.firstDeclared⟩ args outcome ∨
      ∃ supplied first second others, args = some supplied ∧
        members.filter (fun entry => entry.Accepts supplied) = first :: second :: others ∧
        Answers members kind name ⟨.firstDeclared⟩ args (.ok first) ∧
        outcome = refuse (.ambiguousMember name) (first :: second :: others) := by
  cases h with
  | missing hmembers => exact .inl (.missing hmembers)
  | only hmembers => exact .inl (.only hmembers)
  | ambiguous hshared => exact .inl (.ambiguous hshared)
  | untyped hshared hinputs => exact .inl (.untyped hshared hinputs)
  | noneAccepts hshared hinputs haccept => exact .inl (.noneAccepts hshared hinputs haccept)
  | picked hshared hinputs haccept => exact .inl (.picked hshared hinputs haccept (.inl rfl))
  | tied hshared hinputs haccept =>
      exact .inr ⟨_, _, _, _, rfl, haccept, .picked hshared hinputs haccept (.inl rfl), rfl⟩

/-- Where the policies differ, the reference is a name that several members share. -/
lemma lookup_strict_cases (interface : Interface) (kind : MemberKind) (reference : String)
    (args : Option (List Value)) :
    (interface.lookup kind reference args ⟨.strict⟩).outcome =
        (interface.lookup kind reference args ⟨.firstDeclared⟩).outcome ∨
      ∃ supplied first second others, args = some supplied ∧
        (interface.members kind reference).filter (fun entry => entry.Accepts supplied) =
          first :: second :: others ∧
        (interface.lookup kind reference args ⟨.firstDeclared⟩).outcome = .ok first ∧
        (interface.lookup kind reference args ⟨.strict⟩).outcome =
          refuse (.ambiguousMember reference) (first :: second :: others) := by
  by_cases hqualified : Reference.isQualified reference = true
  · left
    rw [lookup, lookup, if_pos hqualified, if_pos hqualified]
  · have hname : Reference.isQualified reference = false := by simpa using hqualified
    rcases (interface.answers_lookup kind hname args ⟨.strict⟩).of_strict with
      hsame | ⟨supplied, first, second, others, hargs, haccept, hfirst, hstrict⟩
    · exact .inl (hsame.lookup_eq hname).symm
    · exact .inr ⟨supplied, first, second, others, hargs, haccept, hfirst.lookup_eq hname, hstrict⟩

/-- **The strict policy refines the other.**  What fails under the policy of the first declared
entry fails under the strict one with the same fault, and what is found under the strict policy is
found under the other.  An entry that only the policy of the first declared entry finds is the
first of several members of that name that accept the arguments, and the strict policy refuses
them as a tie. -/
theorem strict_refines_firstDeclared (interface : Interface) (kind : MemberKind)
    (reference : String) (args : Option (List Value)) :
    (∀ fault, (interface.lookup kind reference args ⟨.firstDeclared⟩).outcome = .error fault →
        (interface.lookup kind reference args ⟨.strict⟩).outcome = .error fault) ∧
      (∀ entry, (interface.lookup kind reference args ⟨.strict⟩).outcome = .ok entry →
        (interface.lookup kind reference args ⟨.firstDeclared⟩).outcome = .ok entry) ∧
      ∀ entry fault,
        (interface.lookup kind reference args ⟨.firstDeclared⟩).outcome = .ok entry →
        (interface.lookup kind reference args ⟨.strict⟩).outcome = .error fault →
          ∃ supplied second others, args = some supplied ∧
            (interface.members kind reference).filter (fun e => e.Accepts supplied) =
              entry :: second :: others ∧
            RefusesTie kind reference (entry :: second :: others) fault := by
  rcases lookup_strict_cases interface kind reference args with
    hsame | ⟨supplied, first, second, others, hargs, haccepting, hfirst, hstrict⟩
  · rw [hsame]
    refine ⟨fun _ => id, fun _ => id, fun entry fault hfound hrefused => ?_⟩
    rw [hfound] at hrefused
    cases hrefused
  · -- The strict policy finds nothing here, so two of the three parts are void.
    have hmem : ∀ entry ∈ first :: second :: others,
        entry.isMember kind reference = true ∧ entry.Accepts supplied := by
      intro entry hentry
      rw [← haccepting, List.mem_filter, decide_eq_true_iff] at hentry
      exact ⟨(List.mem_filter.mp hentry.1).2, hentry.2⟩
    rw [hfirst, hstrict]
    refine ⟨?_, fun entry hfound => absurd hfound refuse_ne_ok, ?_⟩
    · rintro fault ⟨⟩
    · rintro entry fault ⟨⟩ hrefused
      exact ⟨supplied, second, others, hargs, haccepting, refusesTie_of_listing
        (fun e he => (hmem e he).1) (fun e he => (hmem e he).2) hrefused⟩

/-- An interface with two functions for a number and two for a list; one of the latter has an output
without a type. -/
def turnstile : Interface :=
  ⟨[.function ⟨"enter", [⟨"token", "uint8", none, none⟩], [], .payable⟩,
    .function ⟨"enter", [⟨"token", "int16", none, none⟩], [], .nonpayable⟩,
    .function ⟨"enter", [⟨"tokens", "uint8[]", none, none⟩], [], .payable⟩,
    .function ⟨"enter", [⟨"guests", "address[]", none, none⟩],
      [⟨"left", "uint7", none, none⟩], .nonpayable⟩]⟩

/-- A number and an empty list are ties that the strict policy refuses: the one for the two
functions that accept it, the other for the output without a type. -/
theorem strict_refines_firstDeclared_turnstile :
    (∃ entry second others fault,
        (turnstile.lookup .function "enter" (some [.uint 7]) ⟨.firstDeclared⟩).outcome =
            .ok entry ∧
          (turnstile.lookup .function "enter" (some [.uint 7]) ⟨.strict⟩).outcome =
            .error fault ∧
          RefusesTie .function "enter" (entry :: second :: others) fault) ∧
      ∃ entry second others fault,
        (turnstile.lookup .function "enter" (some [.array []]) ⟨.firstDeclared⟩).outcome =
            .ok entry ∧
          (turnstile.lookup .function "enter" (some [.array []]) ⟨.strict⟩).outcome =
            .error fault ∧
          RefusesTie .function "enter" (entry :: second :: others) fault := by
  have htie : ∀ args : List Value,
      (turnstile.lookup .function "enter" (some args) ⟨.firstDeclared⟩).outcome.isOk = true →
      (turnstile.lookup .function "enter" (some args) ⟨.strict⟩).outcome.isOk = false →
        ∃ entry second others fault,
          (turnstile.lookup .function "enter" (some args) ⟨.firstDeclared⟩).outcome = .ok entry ∧
            (turnstile.lookup .function "enter" (some args) ⟨.strict⟩).outcome = .error fault ∧
            RefusesTie .function "enter" (entry :: second :: others) fault := by
    intro args hfound hrefused
    obtain ⟨entry, hentry⟩ := exists_ok_of_isOk hfound
    obtain ⟨fault, hfault⟩ := exists_error_of_isOk_eq_false hrefused
    obtain ⟨-, -, hrefines⟩ := strict_refines_firstDeclared turnstile .function "enter" (some args)
    obtain ⟨_, second, others, -, -, hrefuses⟩ := hrefines entry fault hentry hfault
    exact ⟨entry, second, others, fault, hentry, hfault, hrefuses⟩
  exact ⟨htie _ (by decide +kernel) (by decide +kernel),
    htie _ (by decide +kernel) (by decide +kernel)⟩

end Interface

end ContractInterface
