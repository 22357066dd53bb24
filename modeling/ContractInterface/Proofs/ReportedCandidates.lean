import ContractInterface.Proofs.LookupByName
import ContractInterface.Proofs.SignatureCalls

/-!
# Candidates of a failed lookup

A lookup by a name that several members share may fail because nothing tells them apart.  The fault
then lists canonical texts, and a caller is to pick one of them.  In a valid interface this works
(`Interface.reported_candidates`): the list has at least two texts and none twice, each of them
finds a member of that name when it is used as the reference, and the order is that of declaration.

Which members are listed depends on the reason (`Interface.Reports`): all of that name if there were
no arguments or no member accepts them, and those that accept them if the strict policy does not
choose between several.
-/

namespace ContractInterface

namespace Interface

variable {interface : Interface} {kind : MemberKind} {name : String} {settings : Settings}
  {args : Option (List Value)} {fault : Fault}

/-! ## The reasons for listing candidates -/

/-- Why a name that several members share finds none of them: which members are listed, and with
what fault. -/
inductive Reports (interface : Interface) (kind : MemberKind) (name : String)
    (settings : Settings) : Option (List Value) → List Entry → Fault → Prop
  | withoutArguments : Reports interface kind name settings none (interface.members kind name)
      (.ambiguousMember name ((interface.members kind name).map Entry.canonicalText))
  | noneAccepts {supplied : List Value} : Reports interface kind name settings (some supplied)
      (interface.members kind name)
      (.noMatchingOverload name ((interface.members kind name).map Entry.canonicalText))
  | severalAccept {supplied : List Value} {first second : Entry} {others : List Entry}
      (haccept : (interface.members kind name).filter (fun entry => entry.Accepts supplied) =
        first :: second :: others)
      (hpolicy : settings.overloads = .strict) :
      Reports interface kind name settings (some supplied) (first :: second :: others)
        (.ambiguousMember name ((first :: second :: others).map Entry.canonicalText))

/-- A lookup by name among members whose types resolve fails because there is no such member, or
because there are several and nothing tells them apart. -/
lemma fault_of_lookup_name (hname : Reference.isQualified name = false)
    (hresolves : ∀ entry ∈ interface.members kind name, entry.Resolves)
    (h : (interface.lookup kind name args settings).outcome = .error fault) :
    fault = .memberNotFound name kind ∨
      2 ≤ (interface.members kind name).length ∧
        ∃ listed, Reports interface kind name settings args listed fault := by
  have hanswers := interface.answers_lookup kind hname args settings
  generalize (interface.lookup kind name args settings).outcome = outcome at h hanswers
  cases hanswers with
  | missing => exact .inl (Except.error.inj h).symm
  | only | picked => cases h
  | untyped _ hinputs => exact absurd hinputs (not_firstFault_of_resolves hresolves)
  | ambiguous hshared =>
      rw [refuse_of_resolves hresolves] at h
      cases h
      exact .inr ⟨hshared, _, .withoutArguments⟩
  | noneAccepts hshared =>
      rw [refuse_of_resolves hresolves] at h
      cases h
      exact .inr ⟨hshared, _, .noneAccepts⟩
  | tied hshared _ haccept hpolicy =>
      rw [refuse_of_filter hresolves haccept] at h
      cases h
      exact .inr ⟨hshared, _, .severalAccept haccept hpolicy⟩

/-! ## Usable lists -/

/-- What makes texts a usable list of members: they are the canonical texts of these, at least two
and all different, in the order of declaration, and each finds its member. -/
structure Lists (interface : Interface) (kind : MemberKind) (name : String) (listed : List Entry)
    (candidates : List String) : Prop where
  order : listed.Sublist interface.entries
  texts : List.Forall₂ (fun entry text => entry.HasCanonical kind text) listed candidates
  several : 2 ≤ candidates.length
  distinct : candidates.Nodup
  usable : ∀ text ∈ candidates, ∃ entry, entry.isMember kind name = true ∧
    entry.HasCanonical kind text ∧ ∀ args settings,
      (interface.lookup kind text args settings).outcome = .ok entry

/-- Members of a valid interface have different canonical texts. -/
lemma nodup_of_forall₂_hasCanonical {listed : List Entry} {candidates : List String}
    (hdistinct : listed.Pairwise Entry.Distinct)
    (htexts : List.Forall₂ (fun entry text => entry.HasCanonical kind text) listed candidates) :
    candidates.Nodup := by
  induction htexts with
  | nil => exact .nil
  | @cons entry text listed candidates hentry htexts ih =>
      obtain ⟨hfirst, hrest⟩ := List.pairwise_cons.mp hdistinct
      refine List.nodup_cons.mpr ⟨fun hmem => ?_, ih hrest⟩
      obtain ⟨other, hother, htext⟩ := exists_mem_of_forall₂ htexts hmem
      exact hfirst other hother kind text hentry htext

/-- A member of a valid interface, with neither parentheses nor blanks in its name, is found by its
canonical text. -/
lemma lookup_canonical_of_member (hvalid : interface.validate = .ok ())
    (hname : Reference.isQualified name = false)
    (hblank : ∀ c ∈ name.toList, Text.isBlank c = false) {entry : Entry}
    (hmem : entry ∈ interface.members kind name) {text : String}
    (hcanonical : entry.HasCanonical kind text) (args : Option (List Value))
    (settings : Settings) : (interface.lookup kind text args settings).outcome = .ok entry := by
  obtain ⟨hentry, hmember⟩ := List.mem_filter.mp hmem
  have hname? : entry.name? = some name := (Entry.isMember_iff.mp hmember).2
  have hparen : '(' ∉ name.toList := by
    intro hparen
    rw [Reference.isQualified, List.contains_iff_mem.mpr hparen] at hname
    cases hname
  have htext : Text.withoutBlanks text = text := by
    obtain ⟨name', fields, hname', rfl⟩ := hcanonical.exists_fields
    obtain rfl : name' = name := Option.some.inj (hname'.symm.trans hname?)
    rw [AbiType.withoutBlanks_canonicalSignature, Text.withoutBlanks_eq_self hblank]
  exact lookup_of_hasCanonical hvalid hentry hname? hparen (by rwa [htext])

/-- Several members of one name are listed usably by their canonical texts. -/
lemma lists_canonicalTexts (hvalid : interface.validate = .ok ())
    (hname : Reference.isQualified name = false)
    (hblank : ∀ c ∈ name.toList, Text.isBlank c = false) {listed : List Entry}
    (hlisted : listed.Sublist (interface.members kind name)) (htwo : 2 ≤ listed.length) :
    Lists interface kind name listed (listed.map Entry.canonicalText) := by
  obtain ⟨hsignatures, hdistinct⟩ := validate_eq_ok_iff.mp hvalid
  have horder : listed.Sublist interface.entries := hlisted.trans List.filter_sublist
  have hmembers : ∀ entry ∈ listed, entry.isMember kind name = true := fun entry hmem =>
    (List.mem_filter.mp (hlisted.subset hmem)).2
  have htexts : List.Forall₂ (fun entry text => entry.HasCanonical kind text) listed
      (listed.map Entry.canonicalText) := by
    refine forall₂_hasCanonical_of_canonicalTexts (canonicalTexts_eq_ok_iff.mpr ⟨?_, rfl⟩) hmembers
    exact fun entry hmem => hsignatures entry (horder.subset hmem)
  refine ⟨horder, htexts, by simpa using htwo,
    nodup_of_forall₂_hasCanonical (hdistinct.sublist horder) htexts, fun text htext => ?_⟩
  obtain ⟨entry, hmem, hcanonical⟩ := exists_mem_of_forall₂ htexts htext
  exact ⟨entry, hmembers entry hmem, hcanonical,
    lookup_canonical_of_member hvalid hname hblank (hlisted.subset hmem) hcanonical⟩

/-- **Reported candidates are usable and complete.**  Let a lookup by a name without blanks fail in
a valid interface because the name is ambiguous or no overload matches.  Then the fault is about
that name, and its candidates are a usable list of members: of all members of the name if there were
no arguments or no overload matches, and otherwise, which happens under the strict policy only, of
those that accept the arguments. -/
theorem reported_candidates (interface : Interface) (hvalid : interface.validate = .ok ())
    (kind : MemberKind) (name : String) (hname : Reference.isQualified name = false)
    (hblank : ∀ c ∈ name.toList, Text.isBlank c = false) (args : Option (List Value))
    (settings : Settings) (fault : Fault)
    (hlookup : (interface.lookup kind name args settings).outcome = .error fault)
    (about : String) (candidates : List String)
    (hfault : fault = .ambiguousMember about candidates ∨
      fault = .noMatchingOverload about candidates) :
    about = name ∧ ∃ listed, Lists interface kind name listed candidates ∧
      (fault = .noMatchingOverload about candidates ∨ args = none →
        listed = interface.members kind name) ∧
      ∀ supplied, fault = .ambiguousMember about candidates → args = some supplied →
        settings.overloads = .strict ∧
          listed = (interface.members kind name).filter fun entry => entry.Accepts supplied := by
  have hresolves : ∀ entry ∈ interface.members kind name, entry.Resolves := fun entry hmem =>
    Entry.exists_signature_iff.mp
      ((validate_eq_ok_iff.mp hvalid).1 entry (List.mem_of_mem_filter hmem))
  rcases fault_of_lookup_name hname hresolves hlookup with rfl | ⟨hshared, listed, hreports⟩
  · simp at hfault
  -- All members of the name are listed for two of the reasons, and for the third some of them.
  have hall := lists_canonicalTexts hvalid hname hblank (List.Sublist.refl _) hshared
  cases hreports with
  | withoutArguments =>
      obtain ⟨rfl, rfl⟩ : name = about ∧ _ = candidates := by simpa using hfault
      exact ⟨rfl, _, hall, fun _ => rfl, by simp⟩
  | noneAccepts =>
      obtain ⟨rfl, rfl⟩ : name = about ∧ _ = candidates := by simpa using hfault
      exact ⟨rfl, _, hall, fun _ => rfl, by simp⟩
  | severalAccept haccept hpolicy =>
      obtain ⟨rfl, rfl⟩ : name = about ∧ _ = candidates := by simpa using hfault
      have hsome := lists_canonicalTexts hvalid hname hblank (haccept ▸ List.filter_sublist)
        (by simp)
      refine ⟨rfl, _, hsome, by simp, ?_⟩
      rintro supplied - ⟨⟩
      exact ⟨hpolicy, haccept.symm⟩

/-- An interface with three functions of one name, two of which take numbers. -/
def kiosk : Interface :=
  ⟨[.function ⟨"sell", [⟨"ticket", "uint8", none, none⟩], [], .nonpayable⟩,
    .function ⟨"sell", [⟨"buyer", "address", none, none⟩], [], .payable⟩,
    .function ⟨"sell", [⟨"ticket", "uint16", none, none⟩], [⟨"price", "uint", none, none⟩],
      .nonpayable⟩]⟩

/-- A number is a tie of two of the functions, and only these are listed. -/
theorem reported_candidates_kiosk :
    kiosk.validate = .ok () ∧ Reference.isQualified "sell" = false ∧
      (∀ c ∈ "sell".toList, Text.isBlank c = false) ∧
      (kiosk.lookup .function "sell" (some [.uint 7]) ⟨.strict⟩).outcome =
        .error (.ambiguousMember "sell" ["sell(uint8)", "sell(uint16)"]) ∧
      ∃ listed, Lists kiosk .function "sell" listed ["sell(uint8)", "sell(uint16)"] ∧
        listed =
          (kiosk.members .function "sell").filter fun entry => entry.Accepts [.uint 7] := by
  have hvalid : kiosk.validate = .ok () := by decide +kernel
  have hname : Reference.isQualified "sell" = false := by decide +kernel
  have hblank : ∀ c ∈ "sell".toList, Text.isBlank c = false :=
    Text.isBlank_of_any_eq_false (by decide +kernel)
  have hlookup : (kiosk.lookup .function "sell" (some [.uint 7]) ⟨.strict⟩).outcome =
      .error (.ambiguousMember "sell" ["sell(uint8)", "sell(uint16)"]) :=
    (map_eq_error_iff (f := fun _ => ())).mp (by decide +kernel)
  obtain ⟨-, listed, hlists, -, hlisted⟩ := reported_candidates kiosk hvalid .function "sell" hname
    hblank _ _ _ hlookup "sell" _ (.inl rfl)
  exact ⟨hvalid, hname, hblank, hlookup, listed, hlists, (hlisted _ rfl rfl).2⟩

end Interface

end ContractInterface
