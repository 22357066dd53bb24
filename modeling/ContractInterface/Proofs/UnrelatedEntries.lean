import ContractInterface.Call
import ContractInterface.Proofs.Lookup
import ContractInterface.Subscription

/-!
# Unrelated entries

A reference asks for members of one kind and one name: the reference itself or, if it is a canonical
text, what stands before the parenthesis in it (`Reference.memberName`).  All other entries of an
interface are unrelated to it.  They may be faulty in any way, and there may be any number of them
in any place: what comes of a lookup, of a call or of a subscription does not depend on them, and
neither does its trace (`Interface.unrelated_entries_irrelevant`).

The reason is one fact about lookup, `Interface.lookup_related`: it answers as it would if there
were no other entries.  No type is resolved, and no candidate counted, before an entry has been
found to have the kind and the name asked for.
-/

namespace ContractInterface

/-- The name that a reference asks for: the reference or, of a canonical text, the part before its
first parenthesis, without blanks. -/
def Reference.memberName (reference : String) : String :=
  if isQualified reference then baseName (Text.withoutBlanks reference) else reference

/-- A search by canonical text passes over the entries of other kinds and names. -/
lemma findCanonical?_filter_isMember (kind : MemberKind) (base canonical : String)
    (entries : List Entry) :
    findCanonical? kind base canonical (entries.filter (Entry.isMember kind base)) =
      findCanonical? kind base canonical entries := by
  induction entries with
  | nil => rfl
  | cons entry rest ih =>
      by_cases hmember : entry.isMember kind base = true
      · rw [List.filter_cons_of_pos hmember, findCanonical?, findCanonical?, ih]
      · rw [List.filter_cons_of_neg hmember, ih, findCanonical?, if_neg hmember]

namespace Interface

/-- The entries that are related to a reference: those of the kind and the name it asks for. -/
def related (interface : Interface) (kind : MemberKind) (reference : String) : List Entry :=
  interface.members kind (Reference.memberName reference)

variable (interface : Interface) (kind : MemberKind)

lemma members_members (name : String) :
    (Interface.mk (interface.members kind name)).members kind name =
      interface.members kind name := by
  simp [members]

lemma lookupQualified_members (reference : String) :
    (Interface.mk (interface.members kind
        (Reference.baseName (Text.withoutBlanks reference)))).lookupQualified kind reference =
      interface.lookupQualified kind reference := by
  have hfound := findCanonical?_filter_isMember kind
    (Reference.baseName (Text.withoutBlanks reference)) (Text.withoutBlanks reference)
    interface.entries
  rw [lookupQualified, lookupQualified, members, hfound]

lemma lookupPlain_members (name : String) (args : Option (List Value)) (settings : Settings) :
    (Interface.mk (interface.members kind name)).lookupPlain kind name args settings =
      interface.lookupPlain kind name args settings := by
  unfold lookupPlain
  rw [members_members]

/-- **Lookup only sees related entries.**  It answers, and tells what it does, as it would if they
were all there is. -/
lemma lookup_related (reference : String) (args : Option (List Value)) (settings : Settings) :
    (Interface.mk (interface.related kind reference)).lookup kind reference args settings =
      interface.lookup kind reference args settings := by
  rw [lookup, lookup, related, Reference.memberName]
  by_cases hqualified : Reference.isQualified reference = true
  · rw [if_pos hqualified, if_pos hqualified, if_pos hqualified]
    exact interface.lookupQualified_members kind reference
  · rw [if_neg hqualified, if_neg hqualified, if_neg hqualified]
    exact interface.lookupPlain_members kind reference args settings

variable {interface kind}

/-- What is found is of the kind and the name asked for. -/
lemma mem_related_of_lookup {reference : String} {args : Option (List Value)} {settings : Settings}
    {entry : Entry} (h : (interface.lookup kind reference args settings).outcome = .ok entry) :
    entry ∈ interface.related kind reference := by
  rw [← interface.lookup_related] at h
  exact (isDenotedBy_of_lookup h).1

lemma lookup_of_related_eq {interface' : Interface} {reference : String}
    (h : interface.related kind reference = interface'.related kind reference)
    (args : Option (List Value)) (settings : Settings) :
    interface.lookup kind reference args settings =
      interface'.lookup kind reference args settings := by
  rw [← interface.lookup_related, h, interface'.lookup_related]

end Interface

lemma Call.prepare_of_related_eq {interface interface' : Interface} {reference : String}
    (h : interface.related .function reference = interface'.related .function reference)
    (access : Access) (args : Option (List Value)) (settings : Settings) :
    prepare (.literal interface) reference access args settings =
      prepare (.literal interface') reference access args settings := by
  have hlookup := Interface.lookup_of_related_eq h args settings
  simp only [prepare, prepareLiteral, hlookup]

lemma Subscription.prepare_of_related_eq {interface interface' : Interface} {reference : String}
    (h : interface.related .event reference = interface'.related .event reference)
    (arity : Nat) (settings : Settings) :
    prepare (.literal interface) reference arity settings =
      prepare (.literal interface') reference arity settings := by
  have hlookup := Interface.lookup_of_related_eq h none settings
  simp only [prepare, resolve, hlookup]

namespace Interface

/-- **Unrelated entries are irrelevant.**  Interfaces with the same related entries in the same
order answer a reference alike, whatever else is in them and wherever it stands: lookup finds the
same entry or has the same fault, and so do the preparation of a call, if functions are asked for,
and of a subscription, if events are.  Not even the traces differ. -/
theorem unrelated_entries_irrelevant (interface interface' : Interface) (kind : MemberKind)
    (reference : String)
    (hrelated : interface.related kind reference = interface'.related kind reference) :
    (∀ args settings, interface.lookup kind reference args settings =
        interface'.lookup kind reference args settings) ∧
      (kind = .function → ∀ access args settings,
        Call.prepare (.literal interface) reference access args settings =
          Call.prepare (.literal interface') reference access args settings) ∧
      (kind = .event → ∀ arity settings,
        Subscription.prepare (.literal interface) reference arity settings =
          Subscription.prepare (.literal interface') reference arity settings) := by
  refine ⟨fun args settings => lookup_of_related_eq hrelated args settings, ?_, ?_⟩
  · rintro rfl access args settings
    exact Call.prepare_of_related_eq hrelated access args settings
  · rintro rfl arity settings
    exact Subscription.prepare_of_related_eq hrelated arity settings

/-- A function that takes a small number. -/
def payAmount : Entry :=
  .function ⟨"pay", [⟨"amount", "uint8", none, none⟩], [], .payable⟩

/-- A function of the same name that takes an account. -/
def payAccount : Entry :=
  .function ⟨"pay", [⟨"to", "address", none, none⟩], [], .payable⟩

/-- An event with the name of the functions. -/
def payEvent : Entry :=
  .event ⟨"pay", [⟨⟨"by", "address", none, none⟩, true⟩], false⟩

/-- An interface with two functions and an event of one name. -/
def tollBooth : Interface := ⟨[payAmount, payAccount, payEvent]⟩

/-- The same members among entries of other kinds and names, none of which has a signature. -/
def crowdedTollBooth : Interface :=
  ⟨[.error "pay" [⟨"", "uint7", none, none⟩],
    payEvent,
    payAmount,
    .function ⟨"payAll", [⟨"amounts", "tuple[]", none, none⟩], [], .payable⟩,
    .event ⟨"paid", [⟨⟨"by", "account", none, none⟩, true⟩], false⟩,
    payAccount,
    .constructor [⟨"rate", "uint8[0]", none, none⟩] .nonpayable]⟩

/-- The functions are called in the crowd as they are without it, by the name and by a canonical
text with a blank in it, and so is the event subscribed to. -/
theorem unrelated_entries_irrelevant_toll_booth :
    tollBooth.related .function "pay" = crowdedTollBooth.related .function "pay" ∧
      tollBooth.related .function "pay (address)" =
        crowdedTollBooth.related .function "pay (address)" ∧
      tollBooth.related .event "pay" = crowdedTollBooth.related .event "pay" ∧
      (∃ call, (Call.prepare (.literal crowdedTollBooth) "pay" .write
        (some [.uint 7]) {}).outcome = .ok call) ∧
      (∃ call, (Call.prepare (.literal crowdedTollBooth) "pay (address)" .write
        (some [.address .zero]) ⟨.strict⟩).outcome = .ok call) ∧
      ∃ signature, (Subscription.prepare (.literal crowdedTollBooth) "pay" 1 {}).outcome =
        .ok signature := by
  have hname : tollBooth.related .function "pay" = crowdedTollBooth.related .function "pay" := rfl
  have htext : tollBooth.related .function "pay (address)" =
      crowdedTollBooth.related .function "pay (address)" := rfl
  have hevent : tollBooth.related .event "pay" = crowdedTollBooth.related .event "pay" := rfl
  obtain ⟨-, hcall, -⟩ := unrelated_entries_irrelevant _ _ _ _ hname
  obtain ⟨-, hcall', -⟩ := unrelated_entries_irrelevant _ _ _ _ htext
  obtain ⟨-, -, hsubscription⟩ := unrelated_entries_irrelevant _ _ _ _ hevent
  rw [← hcall rfl, ← hcall' rfl, ← hsubscription rfl]
  exact ⟨hname, htext, hevent, exists_ok_of_isOk (by decide +kernel),
    exists_ok_of_isOk (by decide +kernel), exists_ok_of_isOk (by decide +kernel)⟩

end Interface

end ContractInterface
