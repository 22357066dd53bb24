import ContractInterface.Proofs.Lookup
import ContractInterface.Subscription

/-!
# What a prepared subscription says

A subscription is prepared in two halves: the event is found and its types are resolved
(`Subscription.resolve`), and then the handler has to take as many arguments as the event delivers
(`Subscription.prepare_eq_ok_iff`).  A signature lists the parameters of the event one by one, in
order, each with its name, its type and its flag (`Event.signature_eq_ok_iff`).

The halves fail in different ways.  A handler of the wrong arity is refused after the event has been
found, so its fault is told apart from all faults of a lookup
(`Subscription.exists_signature_of_handlerArity`).
-/

namespace ContractInterface

/-! ## Signatures of events -/

/-- The field that a parameter of an event is listed as. -/
def EventParameter.Denotes (p : EventParameter) (field : EventField) : Prop :=
  field.name = p.parameter.name ∧ p.parameter.resolve = .ok field.type ∧ field.indexed = p.indexed

lemma resolveEventFields_eq_ok_iff {inputs : List EventParameter} {fields : List EventField} :
    resolveEventFields inputs = .ok fields ↔ List.Forall₂ EventParameter.Denotes inputs fields := by
  induction inputs generalizing fields with
  | nil => simp [resolveEventFields, eq_comm]
  | cons input inputs ih =>
      rw [resolveEventFields, bind_eq_ok_iff, List.forall₂_cons_left_iff]
      constructor
      · rintro ⟨type, htype, hrest⟩
        obtain ⟨rest, hfields, hresult⟩ := bind_eq_ok_iff.mp hrest
        cases hresult
        exact ⟨_, rest, ⟨rfl, htype, rfl⟩, ih.mp hfields, rfl⟩
      · rintro ⟨⟨name, type, indexed⟩, rest, ⟨hname, htype, hindexed⟩, hfields, rfl⟩
        refine ⟨type, htype, bind_eq_ok_iff.mpr ⟨rest, ih.mpr hfields, ?_⟩⟩
        rw [← hname, ← hindexed]
        rfl

/-- The signature of an event has the event's name and flag, and a field for each parameter. -/
lemma Event.signature_eq_ok_iff {e : Event} {signature : EventSignature} :
    e.signature = .ok signature ↔
      signature.name = e.name ∧ signature.anonymous = e.anonymous ∧
        List.Forall₂ EventParameter.Denotes e.inputs signature.fields := by
  rw [Event.signature, bind_eq_ok_iff]
  constructor
  · rintro ⟨fields, hfields, hresult⟩
    cases hresult
    exact ⟨rfl, rfl, resolveEventFields_eq_ok_iff.mp hfields⟩
  · rintro ⟨hname, hanonymous, hfields⟩
    refine ⟨signature.fields, resolveEventFields_eq_ok_iff.mpr hfields, ?_⟩
    rw [← hname, ← hanonymous]
    rfl

/-! ## The halves of a preparation -/

namespace Subscription

lemma requireArity_eq_ok_iff {signature : EventSignature} {arity : Nat} :
    requireArity signature arity = .ok () ↔ signature.arity = arity := by
  rw [requireArity]
  split_ifs with harity <;> simp [harity]

/-- A preparation finds the event and then looks at the handler. -/
lemma outcome_prepare (description : Description) (reference : String) (arity : Nat)
    (settings : Settings) :
    (prepare description reference arity settings).outcome =
      (resolve description reference settings).outcome.bind fun signature =>
        (fun _ => signature) <$> requireArity signature arity := by
  rw [prepare, Traced.outcome_onFault, Traced.outcome_bind]
  congr 1
  funext signature
  rw [Traced.outcome_bind, Traced.outcome_ofExcept]
  cases requireArity signature arity <;> rfl

/-- A subscription is prepared exactly if the event is found and the handler takes what it
delivers. -/
lemma prepare_eq_ok_iff {description : Description} {reference : String} {arity : Nat}
    {settings : Settings} {signature : EventSignature} :
    (prepare description reference arity settings).outcome = .ok signature ↔
      (resolve description reference settings).outcome = .ok signature ∧
        signature.arity = arity := by
  rw [outcome_prepare]
  constructor
  · intro h
    obtain ⟨found, hfound, hrest⟩ := bind_eq_ok_iff.mp h
    obtain ⟨_, harity, rfl⟩ := map_eq_ok_iff.mp hrest
    exact ⟨hfound, requireArity_eq_ok_iff.mp harity⟩
  · rintro ⟨hfound, harity⟩
    rw [hfound]
    exact map_eq_ok_iff.mpr ⟨(), requireArity_eq_ok_iff.mpr harity, rfl⟩

lemma eq_of_requireEvent {reference : String} {entry : Entry} {e : Event}
    (h : requireEvent reference entry = .ok e) : entry = .event e := by
  cases entry <;> simp_all [requireEvent]

/-- By a literal description, the event is the one that is looked up, with its signature. -/
lemma resolve_literal_eq_ok_iff {interface : Interface} {reference : String} {settings : Settings}
    {signature : EventSignature} :
    (resolve (.literal interface) reference settings).outcome = .ok signature ↔
      ∃ e, (interface.lookup .event reference none settings).outcome = .ok (.event e) ∧
        e.signature = .ok signature := by
  rw [resolve, Traced.outcome_bind_eq_ok_iff]
  constructor
  · rintro ⟨entry, hlookup, hrest⟩
    obtain ⟨e, hrequire, hsignature⟩ := bind_eq_ok_iff.mp hrest
    rw [eq_of_requireEvent hrequire] at hlookup
    exact ⟨e, hlookup, asFault_eq_ok_iff.mp hsignature⟩
  · rintro ⟨e, hlookup, hsignature⟩
    exact ⟨.event e, hlookup, asFault_eq_ok_iff.mpr hsignature⟩

/-- Finding the event by a literal description does not fail for the handler. -/
lemma resolve_literal_ne_handlerArity (interface : Interface) (reference : String)
    (settings : Settings) (name : String) (expected supplied : Nat) :
    (resolve (.literal interface) reference settings).outcome ≠
      .error (.handlerArity name expected supplied) := by
  intro h
  rw [resolve] at h
  rcases Traced.outcome_bind_eq_error_iff.mp h with hlookup | ⟨entry, -, hrest⟩
  · rcases Interface.fault_of_lookup_none hlookup with ⟨_, hfault⟩ | hfault | ⟨_, hfault⟩ <;>
      cases hfault
  · rcases bind_eq_error_iff.mp hrest with hrequire | ⟨e, -, hsignature⟩
    · cases entry <;> cases hrequire
    · obtain ⟨_, -, hfault⟩ := asFault_eq_error_iff.mp hsignature
      cases hfault

/-- If a literal description refuses a handler for its arity, it has found the event. -/
lemma exists_signature_of_handlerArity {interface : Interface} {reference : String} {arity : Nat}
    {settings : Settings} {name : String} {expected supplied : Nat}
    (h : (prepare (.literal interface) reference arity settings).outcome =
      .error (.handlerArity name expected supplied)) :
    ∃ signature, (resolve (.literal interface) reference settings).outcome = .ok signature ∧
      requireArity signature arity = .error (.handlerArity name expected supplied) := by
  rw [outcome_prepare] at h
  rcases bind_eq_error_iff.mp h with hresolve | ⟨signature, hresolve, hrest⟩
  · exact absurd hresolve (resolve_literal_ne_handlerArity _ _ _ _ _ _)
  · exact ⟨signature, hresolve, map_eq_error_iff.mp hrest⟩

end Subscription

end ContractInterface
