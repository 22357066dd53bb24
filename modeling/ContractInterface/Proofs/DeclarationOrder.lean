import ContractInterface.Proofs.LookupByName
import ContractInterface.Proofs.QualifiedLookup
import ContractInterface.Proofs.WellFormedInterface

/-!
# The order of declarations

The entries of an interface have an order, and lookup goes through them in that order.  In a valid
interface this shows in one place only: if several overloads accept the arguments and the policy is
to take the first one, which one that is.  In all other cases, and in all cases under the strict
policy, two interfaces with the same entries give the same answer, up to the order in which
candidates are listed (`Interface.lookup_order_irrelevant`).

The reason is the same in every case.  The lists that lookup makes, the members of a name, those
that accept the arguments and the canonical texts, are filtered and mapped from the entries, so they
are rearranged as the entries are; and a canonical text, by which no list is made, belongs to one
entry at most.
-/

namespace ContractInterface

/-! ## Answers up to the order of candidates -/

/-- Whether two faults are the same up to the order of the candidates that they list. -/
inductive Fault.SameUpToOrder : Fault → Fault → Prop
  | refl (fault : Fault) : SameUpToOrder fault fault
  | ambiguousMember (name : String) {texts texts' : List String} (hperm : texts.Perm texts') :
      SameUpToOrder (.ambiguousMember name texts) (.ambiguousMember name texts')
  | noMatchingOverload (name : String) {texts texts' : List String} (hperm : texts.Perm texts') :
      SameUpToOrder (.noMatchingOverload name texts) (.noMatchingOverload name texts')

/-- Whether two lookups find the same entry, or fail in the same way up to the order of
candidates. -/
inductive SameAnswer : Except Fault Entry → Except Fault Entry → Prop
  | found (entry : Entry) : SameAnswer (.ok entry) (.ok entry)
  | refused {fault fault' : Fault} (hsame : fault.SameUpToOrder fault') :
      SameAnswer (.error fault) (.error fault')

/-! ## Rearranged interfaces -/

lemma Entry.Distinct.symm {entry other : Entry} (h : entry.Distinct other) :
    other.Distinct entry := fun kind text hother hentry => h kind text hentry hother

namespace Interface

variable {interface interface' : Interface}

/-- A rearranged interface is valid if the interface is. -/
lemma validate_of_perm (hperm : interface.entries.Perm interface'.entries)
    (hvalid : interface.validate = .ok ()) : interface'.validate = .ok () := by
  obtain ⟨hsignatures, hdistinct⟩ := validate_eq_ok_iff.mp hvalid
  refine validate_eq_ok_iff.mpr ⟨fun entry hmem => ?_, ?_⟩
  · exact hsignatures entry (hperm.mem_iff.mpr hmem)
  · exact (hperm.pairwise_iff Entry.Distinct.symm).mp hdistinct

lemma members_perm (hperm : interface.entries.Perm interface'.entries) (kind : MemberKind)
    (name : String) : (interface.members kind name).Perm (interface'.members kind name) :=
  hperm.filter _

/-! ## Lookup by canonical text -/

/-- What a canonical text finds it also finds after rearranging. -/
lemma lookup_qualified_of_perm (hperm : interface.entries.Perm interface'.entries)
    (hvalid : interface.validate = .ok ()) {kind : MemberKind} {reference : String}
    (hqualified : Reference.isQualified reference = true) {args : Option (List Value)}
    {settings : Settings} {entry : Entry}
    (h : (interface.lookup kind reference args settings).outcome = .ok entry) :
    (interface'.lookup kind reference args settings).outcome = .ok entry := by
  rw [lookup, if_pos hqualified, lookupQualified_eq_ok_iff, findCanonical?_eq_ok_some_iff] at h
  obtain ⟨before, after, hentries, hname, hcanonical, -⟩ := h
  have hmem : entry ∈ interface'.entries := hperm.mem_iff.mp (by simp [hentries])
  exact lookup_of_hasCanonical (validate_of_perm hperm hvalid) hmem hname
    (Reference.not_mem_baseName _) hcanonical

lemma sameAnswer_qualified (hperm : interface.entries.Perm interface'.entries)
    (hvalid : interface.validate = .ok ()) (kind : MemberKind) {reference : String}
    (hqualified : Reference.isQualified reference = true) (args : Option (List Value))
    (settings : Settings) :
    SameAnswer (interface.lookup kind reference args settings).outcome
      (interface'.lookup kind reference args settings).outcome := by
  have hvalid' := validate_of_perm hperm hvalid
  have hcases := lookup_qualified_cases (validate_eq_ok_iff_wellFormed.mp hvalid).resolves kind
    hqualified args settings
  have hcases' := lookup_qualified_cases (validate_eq_ok_iff_wellFormed.mp hvalid').resolves kind
    hqualified args settings
  rcases hcases with ⟨entry, hfound⟩ | hnone
  · rw [hfound, lookup_qualified_of_perm hperm hvalid hqualified hfound]
    exact .found entry
  · rcases hcases' with ⟨entry, hfound'⟩ | hnone'
    · -- What is found in the rearranged interface would be found here too.
      have hfound := lookup_qualified_of_perm hperm.symm hvalid' hqualified hfound'
      rw [hnone] at hfound
      cases hfound
    · rw [hnone, hnone']
      exact .refused (.refl _)

/-! ## Lookup by name -/

/-- How a lookup by name ends for rearranged members: with the same answer, unless several of them
accept the arguments and the first is taken. -/
lemma Answers.perm {members members' : List Entry} {kind : MemberKind} {name : String}
    {settings : Settings} {args : Option (List Value)} {outcome : Except Fault Entry}
    (h : Answers members kind name settings args outcome) (hperm : members.Perm members')
    (hresolves : ∀ entry ∈ members, entry.Resolves) :
    (∃ outcome', Answers members' kind name settings args outcome' ∧
        SameAnswer outcome outcome') ∨
      settings.overloads = .firstDeclared ∧ ∃ values, args = some values ∧
        2 ≤ (members.filter fun entry => entry.Accepts values).length := by
  have hresolves' : ∀ entry ∈ members', entry.Resolves :=
    fun entry hmem => hresolves entry (hperm.mem_iff.mpr hmem)
  have hshared' : 2 ≤ members.length → 2 ≤ members'.length := (hperm.length_eq ▸ ·)
  have hinputs' : (∀ entry ∈ members, ∀ p ∈ entry.inputs, p.Resolves) →
      ∀ entry ∈ members', ∀ p ∈ entry.inputs, p.Resolves :=
    fun hinputs entry hmem => hinputs entry (hperm.mem_iff.mpr hmem)
  have haccepting := fun values : List Value => hperm.filter fun entry => entry.Accepts values
  cases h with
  | missing hmembers =>
      rw [hmembers] at hperm
      exact .inl ⟨_, .missing (List.nil_perm.mp hperm), .refused (.refl _)⟩
  | only hmembers =>
      rw [hmembers] at hperm
      exact .inl ⟨_, .only (List.singleton_perm.mp hperm).symm, .found _⟩
  | ambiguous hshared =>
      refine .inl ⟨_, .ambiguous (hshared' hshared), ?_⟩
      rw [refuse_of_resolves hresolves, refuse_of_resolves hresolves']
      exact .refused (.ambiguousMember name (hperm.map _))
  | untyped _ hinputs => exact absurd hinputs (not_firstFault_of_resolves hresolves)
  | @noneAccepts values hshared hinputs haccept =>
      have hnone := haccept ▸ haccepting values
      refine .inl ⟨_, .noneAccepts (hshared' hshared) (hinputs' hinputs)
        (List.nil_perm.mp hnone), ?_⟩
      rw [refuse_of_resolves hresolves, refuse_of_resolves hresolves']
      exact .refused (.noMatchingOverload name (hperm.map _))
  | @picked values entry others hshared hinputs haccept hpolicy =>
      cases others with
      | nil =>
          have hone := haccept ▸ haccepting values
          exact .inl ⟨_, .picked (hshared' hshared) (hinputs' hinputs)
            (List.singleton_perm.mp hone).symm (.inr rfl), .found entry⟩
      | cons second others =>
          exact .inr ⟨hpolicy.resolve_right (by simp), values, rfl, by simp [haccept]⟩
  | @tied values first second others hshared hinputs haccept hpolicy =>
      have hseveral := haccept ▸ haccepting values
      rcases haccept' : members'.filter (fun entry => entry.Accepts values) with
        _ | ⟨first', _ | ⟨second', others'⟩⟩
      · simp [haccept'] at hseveral
      · simpa [haccept'] using hseveral.length_eq
      · rw [haccept'] at hseveral
        refine .inl ⟨_, .tied (hshared' hshared) (hinputs' hinputs) haccept' hpolicy, ?_⟩
        rw [refuse_of_filter hresolves haccept, refuse_of_filter hresolves' haccept']
        exact .refused (.ambiguousMember name (hseveral.map _))

/-- A rearranged interface gives the same answer to a name, unless several members of that name
accept the arguments and the first is taken. -/
lemma sameAnswer_plain (hperm : interface.entries.Perm interface'.entries)
    (hresolves : ∀ entry ∈ interface.entries, entry.Resolves) (kind : MemberKind) {name : String}
    (hname : Reference.isQualified name = false) (args : Option (List Value))
    (settings : Settings) :
    SameAnswer (interface.lookup kind name args settings).outcome
        (interface'.lookup kind name args settings).outcome ∨
      settings.overloads = .firstDeclared ∧ ∃ values, args = some values ∧
        2 ≤ ((interface.members kind name).filter fun entry => entry.Accepts values).length := by
  have hmembers : ∀ entry ∈ interface.members kind name, entry.Resolves :=
    fun entry hmem => hresolves entry (List.mem_of_mem_filter hmem)
  rcases (interface.answers_lookup kind hname args settings).perm (members_perm hperm kind name)
    hmembers with ⟨outcome', hanswers, hsame⟩ | hpicked
  · rw [hanswers.lookup_eq hname]
    exact .inl hsame
  · exact .inr hpicked

/-- Members of a valid interface at different places are different. -/
lemma members_nodup (hvalid : interface.validate = .ok ()) (kind : MemberKind) (name : String) :
    (interface.members kind name).Nodup := by
  obtain ⟨hsignatures, hdistinct⟩ := validate_eq_ok_iff.mp hvalid
  have hpairwise : (interface.members kind name).Pairwise Entry.Distinct := hdistinct.filter _
  refine hpairwise.imp_of_mem fun {entry other} hmem _ hentry => ?_
  rintro rfl
  obtain ⟨hmem, hmember⟩ := List.mem_filter.mp hmem
  have hresolves : entry.Resolves := Entry.exists_signature_iff.mp (hsignatures entry hmem)
  obtain ⟨text, hcanonical⟩ := Entry.exists_hasCanonical hresolves hmember
  exact hentry kind text hcanonical hcanonical

/-- Of several members that accept some arguments there are two different ones. -/
lemma exists_ne_of_two_accept (hvalid : interface.validate = .ok ()) {kind : MemberKind}
    {name : String} {values : List Value}
    (h : 2 ≤ ((interface.members kind name).filter fun entry => entry.Accepts values).length) :
    ∃ first ∈ interface.members kind name, ∃ second ∈ interface.members kind name,
      first ≠ second ∧ first.Accepts values ∧ second.Accepts values := by
  have hnodup := (members_nodup hvalid kind name).filter fun entry => entry.Accepts values
  have haccepting : ∀ entry ∈ (interface.members kind name).filter fun entry =>
      entry.Accepts values, entry ∈ interface.members kind name ∧ entry.Accepts values := by
    intro entry hmem
    rwa [List.mem_filter, decide_eq_true_iff] at hmem
  rcases hsplit : (interface.members kind name).filter (fun entry => entry.Accepts values) with
    _ | ⟨first, _ | ⟨second, others⟩⟩
  · simp [hsplit] at h
  · simp [hsplit] at h
  · rw [hsplit] at hnodup haccepting
    obtain ⟨hfirst, hfirstAccepts⟩ := haccepting first (by simp)
    obtain ⟨hsecond, hsecondAccepts⟩ := haccepting second (by simp)
    have hne : first ≠ second := List.ne_of_not_mem_cons (List.nodup_cons.mp hnodup).1
    exact ⟨first, hfirst, second, hsecond, hne, hfirstAccepts, hsecondAccepts⟩

/-- **Order matters only for ties.**  A valid interface and a rearrangement of it give the same
answer to every reference under the strict policy.  Under any policy they can only differ, other
than in the order of candidates, if the reference is a name, arguments are supplied and two
different members of that name accept them. -/
theorem lookup_order_irrelevant (interface interface' : Interface)
    (hvalid : interface.validate = .ok ())
    (hperm : interface.entries.Perm interface'.entries) (kind : MemberKind) (reference : String)
    (args : Option (List Value)) (settings : Settings) :
    (settings.overloads = .strict →
        SameAnswer (interface.lookup kind reference args settings).outcome
          (interface'.lookup kind reference args settings).outcome) ∧
      (¬SameAnswer (interface.lookup kind reference args settings).outcome
          (interface'.lookup kind reference args settings).outcome →
        Reference.isQualified reference = false ∧ ∃ values, args = some values ∧
          ∃ first ∈ interface.members kind reference, ∃ second ∈ interface.members kind reference,
            first ≠ second ∧ first.Accepts values ∧ second.Accepts values) := by
  by_cases hqualified : Reference.isQualified reference = true
  · have hsame := sameAnswer_qualified hperm hvalid kind hqualified args settings
    exact ⟨fun _ => hsame, fun hdiffer => absurd hsame hdiffer⟩
  · have hname : Reference.isQualified reference = false := by simpa using hqualified
    have hresolves := (validate_eq_ok_iff_wellFormed.mp hvalid).resolves
    rcases sameAnswer_plain hperm hresolves kind hname args settings with
      hsame | ⟨hfirst, values, hargs, hseveral⟩
    · exact ⟨fun _ => hsame, fun hdiffer => absurd hsame hdiffer⟩
    · refine ⟨fun hstrict => ?_, fun _ => ?_⟩
      · rw [hfirst] at hstrict
        cases hstrict
      · exact ⟨hname, values, hargs, exists_ne_of_two_accept hvalid hseveral⟩

/-- An interface with two functions of one name, both of which take small numbers. -/
def mints : Interface :=
  ⟨[.function ⟨"mint", [⟨"amount", "uint8", none, none⟩], [], .nonpayable⟩,
    .function ⟨"mint", [⟨"amount", "uint16", none, none⟩], [], .nonpayable⟩,
    .receive]⟩

/-- The same interface, with its entries the other way round. -/
def mintsReversed : Interface := ⟨mints.entries.reverse⟩

/-- A small number is a tie: taken strictly it is refused either way, and otherwise it depends on
the order which function is found. -/
theorem lookup_order_irrelevant_mints :
    mints.validate = .ok () ∧ mints.entries.Perm mintsReversed.entries ∧
      SameAnswer (mints.lookup .function "mint" (some [.uint 7]) ⟨.strict⟩).outcome
        (mintsReversed.lookup .function "mint" (some [.uint 7]) ⟨.strict⟩).outcome ∧
      ¬SameAnswer (mints.lookup .function "mint" (some [.uint 7]) {}).outcome
        (mintsReversed.lookup .function "mint" (some [.uint 7]) {}).outcome ∧
      ∃ first ∈ mints.members .function "mint", ∃ second ∈ mints.members .function "mint",
        first ≠ second ∧ first.Accepts [.uint 7] ∧ second.Accepts [.uint 7] := by
  have hvalid : mints.validate = .ok () := by decide +kernel
  have hperm : mints.entries.Perm mintsReversed.entries := (List.reverse_perm _).symm
  have hdiffer : ¬SameAnswer (mints.lookup .function "mint" (some [.uint 7]) {}).outcome
      (mintsReversed.lookup .function "mint" (some [.uint 7]) {}).outcome := by
    intro hsame
    have hfound : ∀ {x y : Except Fault Entry}, SameAnswer x y → x.toOption = y.toOption := by
      rintro x y (_ | _) <;> rfl
    have htypes := congrArg (Option.map fun entry => entry.inputs.map Parameter.type) (hfound hsame)
    exact absurd htypes (by decide +kernel)
  have hstrict := (lookup_order_irrelevant mints mintsReversed hvalid hperm .function "mint"
    (some [.uint 7]) ⟨.strict⟩).1 rfl
  obtain ⟨-, values, hvalues, htie⟩ := (lookup_order_irrelevant mints mintsReversed hvalid hperm
    .function "mint" (some [.uint 7]) {}).2 hdiffer
  cases hvalues
  exact ⟨hvalid, hperm, hstrict, hdiffer, htie⟩

end Interface

end ContractInterface
