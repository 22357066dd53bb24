import ContractInterface.Proofs.PreparedSubscription
import ContractInterface.Proofs.WidenedCalls

/-!
# Subscriptions by a widened description

Of an event, a widened description knows everything but the types.  So what the literal description
of the same JSON says about a subscription, the widened one says too, types apart: the signature has
the same name and flags (`EventSignature.untyped`), and a handler of the wrong arity is refused with
the same fault (`Subscription.prepare_degrades`).

The statement is about names that one event has.  Of several events the widened description takes
the first, whatever the types in a reference; with one event there is no choice, and the record that
is found is the one that the event was read from (`SameSource.exists_find?_event`).
-/

namespace ContractInterface

/-! ## Signatures without types -/

/-- The signature as it is if only names and flags are known. -/
def EventSignature.untyped (signature : EventSignature) : EventSignature :=
  { signature with fields := signature.fields.map fun field => { field with type := .unknown } }

lemma EventSignature.arity_untyped (signature : EventSignature) :
    signature.untyped.arity = signature.arity :=
  List.length_map _

/-- A record that describes an event gives the event's signature, types apart. -/
lemma LooseRecord.DescribesEvent.eventSignature {record : LooseRecord} {e : Event}
    (h : record.DescribesEvent e) {signature : EventSignature}
    (hsignature : e.signature = .ok signature) :
    record.eventSignature = signature.untyped := by
  obtain ⟨hname, hanonymous, hfields⟩ := Event.signature_eq_ok_iff.mp hsignature
  -- Both lists of fields have one for each parameter of the event.
  have hrecord : record.inputs.map (fun input =>
      EventField.mk (inputName input) .unknown (inputIndexed input)) =
        e.inputs.map fun p => ⟨p.parameter.name, .unknown, p.indexed⟩ := by
    rw [← List.forall₂_eq_eq_eq, List.forall₂_map_left_iff, List.forall₂_map_right_iff]
    refine h.inputs.imp fun input p hinput => ?_
    rw [hinput.1, hinput.2]
  have huntyped : e.inputs.map (fun p => EventField.mk p.parameter.name .unknown p.indexed) =
      signature.fields.map fun field => { field with type := .unknown } := by
    rw [← List.forall₂_eq_eq_eq, List.forall₂_map_left_iff, List.forall₂_map_right_iff]
    refine hfields.imp fun p field hdenotes => ?_
    rw [hdenotes.1, hdenotes.2.2]
  rw [LooseRecord.eventSignature, EventSignature.untyped, hrecord, huntyped, h.name, h.anonymous,
    hname, hanonymous]

/-! ## The record of an event -/

/-- The record that is found for the only event of its name is the one that it was read from. -/
lemma SameSource.exists_find?_event {interface : Interface} {records : List Json}
    (h : SameSource interface records)
    (hobjects : ∀ record ∈ records, ∃ members, record = .object members) {reference : String}
    {e : Event} (hunique : interface.members .event (Reference.baseName reference) = [.event e]) :
    ∃ found, LooseRecord.find? records .event reference none = some found ∧
      found.DescribesEvent e := by
  have hmem : Entry.event e ∈ interface.members .event (Reference.baseName reference) := by
    rw [hunique]
    exact List.mem_singleton_self _
  obtain ⟨record, hrecord, -⟩ := h.exists_candidate hobjects hmem
  obtain ⟨found, hfound⟩ : ∃ found,
      (LooseRecord.candidates records .event reference).head? = some found :=
    Option.isSome_iff_exists.mp (List.isSome_head?.mpr (List.ne_nil_of_mem hrecord))
  have hcandidate : found ∈ LooseRecord.candidates records .event reference :=
    List.mem_of_head? hfound
  obtain ⟨entry, hentry, hpair⟩ := h.exists_member hcandidate
  rw [hunique, List.mem_singleton] at hentry
  subst hentry
  rw [LooseRecord.find?_without_count]
  exact ⟨found, hfound, (h.describes hpair).event e rfl⟩

/-! ## Preparing subscriptions -/

namespace Subscription

/-- Handlers are refused or not whatever is known of the types. -/
lemma requireArity_untyped (signature : EventSignature) (arity : Nat) :
    requireArity signature.untyped arity = requireArity signature arity := by
  rw [requireArity, requireArity, signature.arity_untyped]
  rfl

/-- An event that is found by the literal description is found by the widened one. -/
lemma resolve_untyped_of_literal {interface : Interface} {records : List Json}
    (hsource : SameSource interface records)
    (hobjects : ∀ record ∈ records, ∃ members, record = .object members) {reference : String}
    (hunique : (interface.members .event (Reference.memberName reference)).length = 1)
    (hblank : ∀ c ∈ reference.toList, Text.isBlank c = false) {settings : Settings}
    {signature : EventSignature}
    (h : (resolve (.literal interface) reference settings).outcome = .ok signature) :
    (resolve (.widened records) reference settings).outcome = .ok signature.untyped := by
  obtain ⟨e, hlookup, hsignature⟩ := resolve_literal_eq_ok_iff.mp h
  have hmember : Entry.event e ∈ interface.members .event (Reference.memberName reference) :=
    Interface.mem_related_of_lookup hlookup
  obtain ⟨entry, hsingle⟩ := List.length_eq_one_iff.mp hunique
  rw [hsingle, List.mem_singleton] at hmember
  rw [← hmember, ← Reference.baseName_eq_memberName hblank] at hsingle
  obtain ⟨found, hfound, hdescribes⟩ := hsource.exists_find?_event hobjects hsingle
  simp only [resolve, hfound, Traced.outcome_pure, hdescribes.eventSignature hsignature]

/-- **A widened description degrades instead of failing, for events too.**  Let a list of JSON
objects be read to an interface, and let one event have the name that a reference without blanks
asks for.  If a subscription can be prepared by the interface, it can be prepared by the objects
themselves, and the signature is the same, types apart: all of them are unknown then.  If the
interface refuses the handler for its arity, so do the objects, with the same fault. -/
theorem prepare_degrades (interface : Interface) (records : List Json)
    (hsource : SameSource interface records)
    (hobjects : ∀ record ∈ records, ∃ members, record = .object members) (name : String)
    (hunique : (interface.members .event name).length = 1) (reference : String)
    (hreference : Reference.memberName reference = name)
    (hblank : ∀ c ∈ reference.toList, Text.isBlank c = false) (arity : Nat)
    (settings : Settings) :
    (∀ signature, (prepare (.literal interface) reference arity settings).outcome = .ok signature →
        (prepare (.widened records) reference arity settings).outcome = .ok signature.untyped) ∧
      ∀ event expected supplied, (prepare (.literal interface) reference arity settings).outcome =
          .error (.handlerArity event expected supplied) →
        (prepare (.widened records) reference arity settings).outcome =
          .error (.handlerArity event expected supplied) := by
  subst hreference
  constructor
  · intro signature h
    obtain ⟨hresolve, harity⟩ := prepare_eq_ok_iff.mp h
    have hwidened := resolve_untyped_of_literal hsource hobjects hunique hblank hresolve
    exact prepare_eq_ok_iff.mpr ⟨hwidened, signature.arity_untyped.trans harity⟩
  · intro event expected supplied h
    obtain ⟨signature, hresolve, hrefused⟩ := exists_signature_of_handlerArity h
    have hwidened := resolve_untyped_of_literal hsource hobjects hunique hblank hresolve
    rw [outcome_prepare, hwidened]
    exact map_eq_error_iff.mpr ((requireArity_untyped signature arity).trans hrefused)

end Subscription

/-- JSON objects for an anonymous event, for a function of that name and for another event. -/
def LooseRecord.lighthouse : List Json :=
  [.object [("name", .string "beam"), ("type", .string "function"), ("inputs", .array [])],
    .object [("anonymous", .bool true), ("name", .string "beam"), ("type", .string "event"),
      ("inputs", .array [
        .object [("indexed", .bool true), ("name", .string "keeper"), ("type", .string "address")],
        .object [("type", .string "tuple[]"), ("internalType", .null), ("components",
          .array [.array [.string "angle", .string "int16"]])]])],
    .object [("type", .string "event"), ("name", .string "fog")]]

/-- The interface that they are read to. -/
def Interface.lighthouse : Interface :=
  ⟨[.function ⟨"beam", [], [], .nonpayable⟩,
    .event ⟨"beam", [⟨⟨"keeper", "address", none, none⟩, true⟩,
      ⟨⟨"", "tuple[]", some [⟨"angle", "int16", none, none⟩], none⟩, false⟩], true⟩,
    .event ⟨"fog", [], false⟩]⟩

/-- A subscription to the anonymous event by its canonical text, and one whose handler takes an
argument too many. -/
theorem Subscription.prepare_degrades_lighthouse :
    SameSource .lighthouse LooseRecord.lighthouse ∧
      (∀ record ∈ LooseRecord.lighthouse, ∃ members, record = .object members) ∧
      (Interface.lighthouse.members .event "beam").length = 1 ∧
      Reference.memberName "beam(address,(int16)[])" = "beam" ∧
      (∀ c ∈ "beam(address,(int16)[])".toList, Text.isBlank c = false) ∧
      (∃ signature, (prepare (.literal .lighthouse) "beam(address,(int16)[])" 2 {}).outcome =
          .ok signature ∧
        (prepare (.widened LooseRecord.lighthouse) "beam(address,(int16)[])" 2 {}).outcome =
          .ok signature.untyped) ∧
      (prepare (.literal .lighthouse) "beam(address,(int16)[])" 3 {}).outcome =
        .error (.handlerArity "beam" 2 3) ∧
      (prepare (.widened LooseRecord.lighthouse) "beam(address,(int16)[])" 3 {}).outcome =
        .error (.handlerArity "beam" 2 3) := by
  have hsource : SameSource .lighthouse LooseRecord.lighthouse :=
    @SameSource.json _ _ (.array LooseRecord.lighthouse) rfl rfl
  have hobjects : ∀ record ∈ LooseRecord.lighthouse, ∃ members, record = .object members := by
    simp [LooseRecord.lighthouse]
  have hunique : (Interface.lighthouse.members .event "beam").length = 1 := by decide +kernel
  have hreference : Reference.memberName "beam(address,(int16)[])" = "beam" := by decide +kernel
  have hblank : ∀ c ∈ "beam(address,(int16)[])".toList, Text.isBlank c = false :=
    Text.isBlank_of_any_eq_false (by decide +kernel)
  have hdegrades := fun arity => Subscription.prepare_degrades .lighthouse LooseRecord.lighthouse
    hsource hobjects "beam" hunique "beam(address,(int16)[])" hreference hblank arity {}
  obtain ⟨signature, hsignature⟩ := exists_ok_of_isOk
    (x := (prepare (.literal .lighthouse) "beam(address,(int16)[])" 2 {}).outcome)
    (by decide +kernel)
  have hrefused : (prepare (.literal .lighthouse) "beam(address,(int16)[])" 3 {}).outcome =
      .error (.handlerArity "beam" 2 3) := by
    decide +kernel
  exact ⟨hsource, hobjects, hunique, hreference, hblank,
    ⟨signature, hsignature, (hdegrades 2).1 signature hsignature⟩, hrefused,
    (hdegrades 3).2 "beam" 2 3 hrefused⟩

end ContractInterface
