import ContractInterface.Proofs.LookupByName
import ContractInterface.Proofs.PreparedSubscription

/-!
# What a subscription delivers

A handler gets the parameters of an event by their places, so a signature that lost, repeated or
moved one of them would hand over wrong values unnoticed.  `EventSignature.Delivers` is what a
signature has to say about an event for this not to happen: it has a field for each parameter, in
order, and the indexed fields and the data are these fields, each of them once and in order
(`Interleaves`).

`Subscription.prepare_delivers_parameters` is about the way from a reference to the signature: the
event that is found without arguments is the one that is delivered, and only parameters without a
type and a handler of another arity stand in the way.  Names of several events are never enough, for
there are no arguments to tell the events apart.
-/

namespace ContractInterface

/-- Whether a list consists of two others, with their members in the order in which they stand
there. -/
inductive Interleaves : List α → List α → List α → Prop
  | nil : Interleaves [] [] []
  | left {a : α} {first second all : List α} (h : Interleaves first second all) :
      Interleaves (a :: first) second (a :: all)
  | right {a : α} {first second all : List α} (h : Interleaves first second all) :
      Interleaves first (a :: second) (a :: all)

/-- What a test keeps and what it drops make up a list. -/
lemma interleaves_filter (test : α → Bool) (l : List α) :
    Interleaves (l.filter test) (l.filter fun a => !test a) l := by
  induction l with
  | nil => exact .nil
  | cons a l ih =>
      cases ha : test a with
      | true =>
          rw [List.filter_cons_of_pos ha, List.filter_cons_of_neg (by simp [ha])]
          exact .left ih
      | false =>
          rw [List.filter_cons_of_neg (by simp [ha]), List.filter_cons_of_pos (by simp [ha])]
          exact .right ih

/-! ## Signatures of events -/

/-- Whether a signature tells a handler what an event delivers. -/
structure EventSignature.Delivers (signature : EventSignature) (e : Event) : Prop where
  name : signature.name = e.name
  anonymous : signature.anonymous = e.anonymous
  fields : List.Forall₂ EventParameter.Denotes e.inputs signature.fields
  parts : Interleaves signature.indexed signature.data signature.fields
  indexed : ∀ field ∈ signature.indexed, field.indexed = true
  data : ∀ field ∈ signature.data, field.indexed = false

/-- An event delivers what its signature says, and no other signature says this. -/
lemma EventSignature.delivers_iff {signature : EventSignature} {e : Event} :
    signature.Delivers e ↔ e.signature = .ok signature := by
  rw [Event.signature_eq_ok_iff]
  constructor
  · intro h
    exact ⟨h.name, h.anonymous, h.fields⟩
  · rintro ⟨hname, hanonymous, hfields⟩
    refine ⟨hname, hanonymous, hfields, interleaves_filter _ _, fun field hfield => ?_,
      fun field hfield => ?_⟩
    · exact (List.mem_filter.mp hfield).2
    · simpa using (List.mem_filter.mp hfield).2

/-- An event has a signature exactly if all its parameters denote types. -/
lemma Event.exists_signature_iff {e : Event} :
    (∃ signature, e.signature = .ok signature) ↔
      ∀ input ∈ e.inputs, input.parameter.Resolves := by
  have hentry : (∃ signature, e.signature = .ok signature) ↔
      ∃ signature, (Entry.event e).signature = .ok signature := by
    simp [Entry.signature, map_eq_ok_iff]
  rw [hentry, Entry.exists_signature_iff, Entry.Resolves, Entry.parameters]
  simp [Entry.inputs, Entry.outputs]

namespace Subscription

/-- By a literal description, a subscription is to the event that is found without arguments. -/
lemma prepare_literal_eq_ok_iff {interface : Interface} {reference : String} {arity : Nat}
    {settings : Settings} {signature : EventSignature} :
    (prepare (.literal interface) reference arity settings).outcome = .ok signature ↔
      ∃ e, (interface.lookup .event reference none settings).outcome = .ok (.event e) ∧
        e.inputs.length = arity ∧ signature.Delivers e := by
  rw [prepare_eq_ok_iff, resolve_literal_eq_ok_iff]
  constructor
  · rintro ⟨⟨e, hlookup, hsignature⟩, harity⟩
    have hdelivers := EventSignature.delivers_iff.mpr hsignature
    exact ⟨e, hlookup, hdelivers.fields.length_eq.trans harity, hdelivers⟩
  · rintro ⟨e, hlookup, harity, hdelivers⟩
    exact ⟨⟨e, hlookup, EventSignature.delivers_iff.mp hdelivers⟩,
      hdelivers.fields.length_eq.symm.trans harity⟩

/-- **Subscriptions deliver every parameter once and in order.**  By a literal description, a
subscription is prepared exactly if an event is found without arguments, all its parameters denote
types, and there are as many of them as the handler takes.  The signature then delivers this event:
it has the name, the type and the flag of each parameter, in order, and consists of its indexed
fields and its data.  A name that several events share is refused, whatever the handler and the
settings. -/
theorem prepare_delivers_parameters (interface : Interface) (reference : String) (arity : Nat)
    (settings : Settings) :
    ((∃ signature,
        (prepare (.literal interface) reference arity settings).outcome = .ok signature) ↔
      ∃ e, (interface.lookup .event reference none settings).outcome = .ok (.event e) ∧
        (∀ input ∈ e.inputs, input.parameter.Resolves) ∧ e.inputs.length = arity) ∧
    (∀ signature,
      (prepare (.literal interface) reference arity settings).outcome = .ok signature ↔
        ∃ e, (interface.lookup .event reference none settings).outcome = .ok (.event e) ∧
          e.inputs.length = arity ∧ signature.Delivers e) ∧
    (Reference.isQualified reference = false → 2 ≤ (interface.members .event reference).length →
      ∀ signature,
        (prepare (.literal interface) reference arity settings).outcome ≠ .ok signature) := by
  refine ⟨?_, fun signature => prepare_literal_eq_ok_iff, fun hname hshared signature h => ?_⟩
  · simp only [prepare_literal_eq_ok_iff, EventSignature.delivers_iff]
    constructor
    · rintro ⟨signature, e, hlookup, harity, hsignature⟩
      exact ⟨e, hlookup, Event.exists_signature_iff.mp ⟨signature, hsignature⟩, harity⟩
    · rintro ⟨e, hlookup, hresolves, harity⟩
      obtain ⟨signature, hsignature⟩ := Event.exists_signature_iff.mpr hresolves
      exact ⟨signature, e, hlookup, harity, hsignature⟩
  · obtain ⟨e, hlookup, -, -⟩ := prepare_literal_eq_ok_iff.mp h
    rw [Interface.lookup_without_arguments hname hshared] at hlookup
    exact Interface.refuse_ne_ok hlookup

end Subscription

/-- An interface with an event whose flags alternate and with two events of one name. -/
def Interface.postOffice : Interface :=
  ⟨[.event ⟨"Delivered", [⟨⟨"parcel", "uint", none, none⟩, true⟩,
      ⟨⟨"route", "tuple[]", some [⟨"hub", "address", none, none⟩], none⟩, false⟩,
      ⟨⟨"recipient", "address", none, none⟩, true⟩], false⟩,
    .event ⟨"Posted", [⟨⟨"parcel", "uint", none, none⟩, true⟩], false⟩,
    .event ⟨"Posted", [⟨⟨"parcel", "uint", none, none⟩, true⟩,
      ⟨⟨"note", "string", none, none⟩, false⟩], false⟩]⟩

/-- The three parameters of the first event are delivered to a handler that takes three, and no
handler can be subscribed to the name that the others share. -/
theorem Subscription.prepare_delivers_parameters_post_office :
    (∃ e signature, (Interface.postOffice.lookup .event "Delivered" none {}).outcome =
        .ok (.event e) ∧
      (prepare (.literal .postOffice) "Delivered" 3 {}).outcome = .ok signature ∧
      e.inputs.length = 3 ∧ signature.Delivers e) ∧
    Reference.isQualified "Posted" = false ∧
    2 ≤ (Interface.postOffice.members .event "Posted").length ∧
    ∀ arity settings signature,
      (prepare (.literal .postOffice) "Posted" arity settings).outcome ≠ .ok signature := by
  have hname : Reference.isQualified "Posted" = false := by decide +kernel
  have hshared : 2 ≤ (Interface.postOffice.members .event "Posted").length := by decide +kernel
  obtain ⟨signature, hsignature⟩ := exists_ok_of_isOk
    (x := (prepare (.literal .postOffice) "Delivered" 3 {}).outcome) (by decide +kernel)
  obtain ⟨-, hprepared, -⟩ := prepare_delivers_parameters .postOffice "Delivered" 3 {}
  obtain ⟨e, hlookup, harity, hdelivers⟩ := (hprepared signature).mp hsignature
  exact ⟨⟨e, signature, hlookup, hsignature, harity, hdelivers⟩, hname, hshared,
    fun arity settings =>
      (prepare_delivers_parameters .postOffice "Posted" arity settings).2.2 hname hshared⟩

end ContractInterface
