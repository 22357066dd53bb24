import ContractInterface.Fault

/-!
# Traces

What is done on the way to an outcome is told by a list of events.  `Traced` is an outcome together
with its events; the events of a sequence of steps are those of the steps up to the first that
fails, one after another.
-/

namespace ContractInterface

/-- Something done on the way to an outcome. -/
inductive TraceEvent where
  | selecting (member : String) (kind : MemberKind) (candidates : Nat)
  | disambiguating (member : String) (compatible args : Nat)
  | selectedQualified (member : String) (kind : MemberKind)
  | callPrepared (member : String) (access : Access) (selected : String)
  | widenedCallPrepared (member : String) (access : Access)
  | callRejected (member : String) (access : Access) (fault : Fault)
  | subscriptionPrepared (member : String) (arity : Nat) (selected : String)
  | subscriptionRejected (member : String) (fault : Fault)
  | submittingBatch (calls : Nat)
deriving DecidableEq, Repr

/-- A detail of an event. -/
inductive TraceDetail where
  | text (s : String)
  | number (n : Nat)
deriving DecidableEq, Repr

namespace TraceEvent

/-- The words for an event. -/
def message : TraceEvent → String
  | .selecting .. => "selecting member"
  | .disambiguating .. => "disambiguating overloads"
  | .selectedQualified .. => "selected qualified member"
  | .callPrepared .. => "call prepared"
  | .widenedCallPrepared .. => "call prepared against a widened description"
  | .callRejected .. => "call rejected"
  | .subscriptionPrepared .. => "subscription prepared"
  | .subscriptionRejected .. => "subscription rejected"
  | .submittingBatch _ => "submitting batch"

/-- The details of an event, each with its name. -/
def details : TraceEvent → List (String × TraceDetail)
  | .selecting member kind candidates =>
    [("member", .text member), ("kind", .text kind.name), ("candidates", .number candidates)]
  | .disambiguating member compatible args =>
    [("member", .text member), ("compatible", .number compatible), ("args", .number args)]
  | .selectedQualified member kind => [("member", .text member), ("kind", .text kind.name)]
  | .callPrepared member access selected =>
    [("member", .text member), ("kind", .text access.name), ("selected", .text selected)]
  | .widenedCallPrepared member access =>
    [("member", .text member), ("kind", .text access.name)]
  | .callRejected member access fault =>
    [("member", .text member), ("kind", .text access.name), ("error", .text fault.message)]
  | .subscriptionPrepared member arity selected =>
    [("member", .text member), ("arity", .number arity), ("selected", .text selected)]
  | .subscriptionRejected member fault =>
    [("member", .text member), ("error", .text fault.message)]
  | .submittingBatch calls => [("calls", .number calls)]

end TraceEvent

/-- An outcome and the events on the way to it. -/
structure Traced (α : Type) where
  outcome : Except Fault α
  events : List TraceEvent

namespace Traced

/-- An outcome reached without events. -/
def ofExcept (outcome : Except Fault α) : Traced α := ⟨outcome, []⟩

/-- One event. -/
def emit (event : TraceEvent) : Traced Unit := ⟨.ok (), [event]⟩

/-- A fault. -/
def fail (fault : Fault) : Traced α := ⟨.error fault, []⟩

/-- A step and, if it succeeds, the next. -/
def andThen (x : Traced α) (f : α → Traced β) : Traced β :=
  match x.outcome with
  | .ok a => ⟨(f a).outcome, x.events ++ (f a).events⟩
  | .error fault => ⟨.error fault, x.events⟩

instance : Monad Traced where
  pure a := ⟨.ok a, []⟩
  bind := andThen

/-- Closes the trace of a failure with an event about it. -/
def onFault (x : Traced α) (event : Fault → TraceEvent) : Traced α :=
  match x.outcome with
  | .ok a => ⟨.ok a, x.events⟩
  | .error fault => ⟨.error fault, x.events ++ [event fault]⟩

/-- Gives a failure another fault. -/
def mapFault (x : Traced α) (f : Fault → Fault) : Traced α :=
  match x.outcome with
  | .ok a => ⟨.ok a, x.events⟩
  | .error fault => ⟨.error (f fault), x.events⟩

/-! ## Outcomes and events of the steps -/

@[simp] theorem outcome_pure (a : α) : (pure a : Traced α).outcome = .ok a := rfl

@[simp] theorem events_pure (a : α) : (pure a : Traced α).events = [] := rfl

@[simp] theorem outcome_ofExcept (x : Except Fault α) : (ofExcept x).outcome = x := rfl

@[simp] theorem events_ofExcept (x : Except Fault α) : (ofExcept x).events = [] := rfl

@[simp] theorem outcome_emit (event : TraceEvent) : (emit event).outcome = .ok () := rfl

@[simp] theorem events_emit (event : TraceEvent) : (emit event).events = [event] := rfl

@[simp] theorem outcome_fail (fault : Fault) : (fail fault : Traced α).outcome = .error fault := rfl

@[simp] theorem events_fail (fault : Fault) : (fail fault : Traced α).events = [] := rfl

/-- The outcome of two steps is that of the second, unless the first fails. -/
theorem outcome_bind (x : Traced α) (f : α → Traced β) :
    (x >>= f).outcome = x.outcome.bind fun a => (f a).outcome := by
  change (x.andThen f).outcome = _
  unfold andThen Except.bind
  cases x.outcome <;> rfl

/-- The events of two steps of which the first succeeds are those of both. -/
theorem events_bind_of_ok {x : Traced α} {a : α} (h : x.outcome = .ok a) (f : α → Traced β) :
    (x >>= f).events = x.events ++ (f a).events := by
  change (x.andThen f).events = _
  simp [andThen, h]

/-- The events of two steps of which the first fails are those of the first. -/
theorem events_bind_of_error {x : Traced α} {fault : Fault} (h : x.outcome = .error fault)
    (f : α → Traced β) : (x >>= f).events = x.events := by
  change (x.andThen f).events = _
  simp [andThen, h]

/-- Telling a failure does not change the outcome. -/
@[simp] theorem outcome_onFault (x : Traced α) (event : Fault → TraceEvent) :
    (x.onFault event).outcome = x.outcome := by
  unfold onFault
  split <;> simp_all

end Traced

end ContractInterface
