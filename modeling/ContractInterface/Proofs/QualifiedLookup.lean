import ContractInterface.Proofs.CanonicalText
import ContractInterface.Proofs.EntryTypes
import ContractInterface.Proofs.Validation
import Mathlib.Data.List.TakeWhile

/-!
# Canonical texts as references

A reference by canonical text denotes one member.  In a valid interface every member is found by its
canonical text, however many overloads it has and whatever stands between the characters of the
reference that is blank; and in any interface what is found is the first member of the kind with
that text (`Interface.lookup_by_canonical`).

Lookup only considers the members of the base name, the part of the reference before its first
parenthesis.  That this leaves nothing out is due to canonical texts, which determine the name of
the member: a member of another name has another text (`Entry.HasCanonical.name_eq`).
-/

namespace ContractInterface

/-! ## The names of members -/

namespace Entry

/-- The canonical text of a member is its name followed by the types of some fields. -/
lemma HasCanonical.exists_fields {entry : Entry} {kind : MemberKind} {text : String}
    (h : entry.HasCanonical kind text) :
    ∃ name fields, entry.name? = some name ∧ text = canonicalSignature name fields := by
  obtain ⟨-, -, name, inputs, hname, -, htext⟩ := hasCanonical_iff_exists.mp h
  exact ⟨name, inputs, hname, htext⟩

/-- Members with the same canonical text have the same name. -/
lemma HasCanonical.name_eq {entry other : Entry} {kind kind' : MemberKind} {text : String}
    (h : entry.HasCanonical kind text) (hother : other.HasCanonical kind' text) :
    entry.name? = other.name? := by
  obtain ⟨name, fields, hname, htext⟩ := h.exists_fields
  obtain ⟨name', fields', hname', htext'⟩ := hother.exists_fields
  have hnames := (AbiType.canonicalSignature_eq_iff.mp (htext.symm.trans htext')).1
  rw [hname, hname', hnames]

end Entry

/-! ## The parts of a reference -/

namespace Reference

lemma not_mem_baseName (reference : String) : '(' ∉ (baseName reference).toList := by
  intro hmem
  rw [baseName, String.toList_ofList] at hmem
  simpa using List.mem_takeWhile_imp hmem

lemma baseName_canonicalSignature {name : String} (h : '(' ∉ name.toList) (fields : List Field) :
    baseName (canonicalSignature name fields) = name := by
  have hname : ∀ c ∈ name.toList, (c != '(') = true := by
    intro c hc
    exact bne_iff_ne.mpr fun heq => h (heq ▸ hc)
  rw [baseName, AbiType.toList_canonicalSignature, AbiType.text_tuple,
    List.takeWhile_append_of_pos hname]
  simp

/-- A reference that is a canonical text once its blanks are removed is taken for one. -/
lemma isQualified_of_withoutBlanks {reference name : String} {fields : List Field}
    (h : Text.withoutBlanks reference = canonicalSignature name fields) :
    isQualified reference = true := by
  have hparen : '(' ∈ (Text.withoutBlanks reference).toList := by
    simp [h, AbiType.toList_canonicalSignature, AbiType.text_tuple]
  rw [Text.withoutBlanks, String.toList_ofList] at hparen
  exact List.contains_iff_mem.mpr (List.mem_of_mem_filter hparen)

end Reference

/-! ## Lookup -/

namespace Interface

/-- Among entries whose types resolve, a canonical text finds a member, or there is none. -/
lemma lookup_qualified_cases {interface : Interface}
    (hresolves : ∀ entry ∈ interface.entries, entry.Resolves) (kind : MemberKind)
    {reference : String} (hqualified : Reference.isQualified reference = true)
    (args : Option (List Value)) (settings : Settings) :
    (∃ entry, (interface.lookup kind reference args settings).outcome = .ok entry) ∨
      (interface.lookup kind reference args settings).outcome =
        .error (.memberNotFound reference kind) := by
  have hsignatures : ∀ entry ∈ interface.entries, ∃ signature, entry.signature = .ok signature :=
    fun entry hmem => Entry.exists_signature_iff.mpr (hresolves entry hmem)
  obtain ⟨found, hfound⟩ : ∃ found, findCanonical? kind
      (Reference.baseName (Text.withoutBlanks reference)) (Text.withoutBlanks reference)
      interface.entries = .ok found := exists_findCanonical?_of_signatures hsignatures
  rw [lookup, if_pos hqualified, lookupQualified, Traced.outcome_bind, Traced.outcome_ofExcept,
    hfound]
  cases found with
  | none => exact .inr rfl
  | some entry => exact .inl ⟨entry, rfl⟩

/-- In a valid interface a member is found by its canonical text. -/
lemma lookup_of_hasCanonical {interface : Interface} {kind : MemberKind} {reference name : String}
    {args : Option (List Value)} {settings : Settings} {entry : Entry}
    (hvalid : interface.validate = .ok ()) (hmem : entry ∈ interface.entries)
    (hname : entry.name? = some name) (hparen : '(' ∉ name.toList)
    (hcanonical : entry.HasCanonical kind (Text.withoutBlanks reference)) :
    (interface.lookup kind reference args settings).outcome = .ok entry := by
  obtain ⟨hsignatures, hdistinct⟩ := validate_eq_ok_iff.mp hvalid
  obtain ⟨name', fields, hname', htext⟩ := hcanonical.exists_fields
  obtain rfl : name' = name := Option.some.inj (hname'.symm.trans hname)
  have hbase : Reference.baseName (Text.withoutBlanks reference) = name' := by
    rw [htext, Reference.baseName_canonicalSignature hparen]
  rw [lookup, if_pos (Reference.isQualified_of_withoutBlanks htext), lookupQualified_eq_ok_iff,
    findCanonical?_eq_ok_some_iff, hbase]
  obtain ⟨before, after, hentries⟩ := List.append_of_mem hmem
  refine ⟨before, after, hentries, hname, hcanonical, fun earlier hearlier hmember => ?_⟩
  -- What comes before the entry has a signature and differs from it, since the interface is valid.
  rw [hentries] at hsignatures hdistinct
  obtain ⟨signature, hsignature⟩ := hsignatures earlier (List.mem_append_left _ hearlier)
  have hdiffers : earlier.Distinct entry :=
    (List.pairwise_append.mp hdistinct).2.2 earlier hearlier entry List.mem_cons_self
  refine ⟨signature, hsignature, fun htext => ?_⟩
  have hsame := (Entry.hasCanonical_iff hsignature).mpr ⟨(Entry.isMember_iff.mp hmember).1, htext⟩
  exact hdiffers kind _ hsame hcanonical

/-- What is found by a canonical text is the first member of the kind with that text. -/
lemma first_of_lookup_qualified {interface : Interface} {kind : MemberKind} {reference : String}
    {args : Option (List Value)} {settings : Settings} {entry : Entry}
    (hqualified : Reference.isQualified reference = true)
    (h : (interface.lookup kind reference args settings).outcome = .ok entry) :
    entry.HasCanonical kind (Text.withoutBlanks reference) ∧
      ∃ before after, interface.entries = before ++ entry :: after ∧
        ∀ earlier ∈ before, ¬earlier.HasCanonical kind (Text.withoutBlanks reference) := by
  rw [lookup, if_pos hqualified, lookupQualified_eq_ok_iff, findCanonical?_eq_ok_some_iff] at h
  obtain ⟨before, after, hentries, hname, hcanonical, hbefore⟩ := h
  refine ⟨hcanonical, before, after, hentries, fun earlier hearlier hsame => ?_⟩
  -- An earlier entry with the same text would have the same name, so it was not left out.
  have hmember : earlier.isMember kind (Reference.baseName (Text.withoutBlanks reference)) = true :=
    Entry.isMember_iff.mpr ⟨hsame.1, (hsame.name_eq hcanonical).trans hname⟩
  obtain ⟨signature, hsignature, hother⟩ := hbefore earlier hearlier hmember
  exact hother ((Entry.hasCanonical_iff hsignature).mp hsame).2

/-- **A canonical text denotes exactly one member.**  In a valid interface, a reference that is the
canonical text of a member once its blanks are removed finds that member, whatever the arguments and
the settings, provided that the name of the member has no parenthesis in it; a name with blanks
cannot match, since the reference has none left.  In any interface, what a reference with a
parenthesis finds is a member of the kind asked for with that canonical text, and the first one. -/
theorem lookup_by_canonical (interface : Interface) (kind : MemberKind) (reference : String)
    (args : Option (List Value)) (settings : Settings) :
    (interface.validate = .ok () → ∀ entry ∈ interface.entries, ∀ name, entry.name? = some name →
        '(' ∉ name.toList → entry.HasCanonical kind (Text.withoutBlanks reference) →
          (interface.lookup kind reference args settings).outcome = .ok entry) ∧
      (Reference.isQualified reference = true → ∀ entry,
        (interface.lookup kind reference args settings).outcome = .ok entry →
          entry.HasCanonical kind (Text.withoutBlanks reference) ∧
            ∃ before after, interface.entries = before ++ entry :: after ∧
              ∀ earlier ∈ before, ¬earlier.HasCanonical kind (Text.withoutBlanks reference)) := by
  constructor
  · intro hvalid entry hmem name hname hparen hcanonical
    exact lookup_of_hasCanonical hvalid hmem hname hparen hcanonical
  · intro hqualified entry h
    exact first_of_lookup_qualified hqualified h

/-- A function that takes a list of tuples. -/
def bulkSwap : Entry :=
  .function ⟨"swap", [⟨"legs", "tuple[]",
    some [⟨"pool", "uint8", none, none⟩, ⟨"exact", "bool", none, none⟩], none⟩,
    ⟨"to", "address", none, none⟩], [], .nonpayable⟩

/-- An interface with two functions and an event of one name; the event and the second function
have the same canonical text. -/
def exchange : Interface :=
  ⟨[.function ⟨"swap", [⟨"to", "address", none, none⟩], [], .payable⟩,
    .event ⟨"swap", [⟨⟨"legs", "tuple[]",
      some [⟨"", "uint8", none, none⟩, ⟨"", "bool", none, none⟩], none⟩, false⟩,
      ⟨⟨"to", "address", none, none⟩, true⟩], false⟩,
    bulkSwap]⟩

/-- A canonical text with blanks in it finds the overload, not the event, and arguments that would
fit the other overload do not matter. -/
theorem lookup_by_canonical_exchange :
    exchange.validate = .ok () ∧ bulkSwap ∈ exchange.entries ∧
      bulkSwap.name? = some "swap" ∧ '(' ∉ "swap".toList ∧
      bulkSwap.HasCanonical .function "swap((uint8,bool)[],address)" ∧
      (exchange.lookup .function " swap( (uint8, bool)[],\taddress )"
        (some [.address .zero]) {}).outcome = .ok bulkSwap ∧
      ∃ before after, exchange.entries = before ++ bulkSwap :: after ∧
        ∀ earlier ∈ before, ¬earlier.HasCanonical .function "swap((uint8,bool)[],address)" := by
  have hvalid : exchange.validate = .ok () := by decide +kernel
  have hmem : bulkSwap ∈ exchange.entries := by simp [exchange]
  have hparen : '(' ∉ "swap".toList := by decide
  have htext : Text.withoutBlanks " swap( (uint8, bool)[],\taddress )" =
      "swap((uint8,bool)[],address)" := by
    decide +kernel
  have hqualified : Reference.isQualified " swap( (uint8, bool)[],\taddress )" = true := by
    decide +kernel
  have hsignature : bulkSwap.signature = .ok (.function ⟨"swap",
      [("legs", .array (.tuple [("pool", .uint 8), ("exact", .bool)]) .dynamic),
        ("to", .address)], [], .nonpayable⟩) := by
    decide +kernel
  have hcanonical : bulkSwap.HasCanonical .function "swap((uint8,bool)[],address)" :=
    (Entry.hasCanonical_iff hsignature).mpr ⟨rfl, by decide +kernel⟩
  obtain ⟨hfinds, hfound⟩ := lookup_by_canonical exchange .function
    " swap( (uint8, bool)[],\taddress )" (some [.address .zero]) {}
  rw [htext] at hfinds hfound
  have hlookup := hfinds hvalid bulkSwap hmem "swap" rfl hparen hcanonical
  exact ⟨hvalid, hmem, rfl, hparen, hcanonical, hlookup, (hfound hqualified bulkSwap hlookup).2⟩

end Interface

end ContractInterface
