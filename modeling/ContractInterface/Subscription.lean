import ContractInterface.Description

/-!
# Subscriptions

`Subscription.prepare` finds the event that a handler is to be called for and requires that the
handler take as many arguments as the event delivers.  A widened description gives an event of which
only names and flags are known.
-/

namespace ContractInterface

namespace Subscription

/-- The event among the entries, as what a reference denotes. -/
def requireEvent (reference : String) : Entry → Except Fault Event
  | .event e => .ok e
  | _ => .error (.memberNotFound reference .event)

/-- The signature of the event that a reference denotes. -/
def resolve (description : Description) (reference : String) (settings : Settings) :
    Traced EventSignature :=
  match description with
  | .literal interface => do
    let entry ← interface.lookup .event reference none settings
    Traced.ofExcept do
      let e ← requireEvent reference entry
      asFault e.signature
  | .widened records =>
    match LooseRecord.find? records .event reference none with
    | none => Traced.fail (.memberNotFound reference .event)
    | some record => return record.eventSignature

/-- Requires that a handler take as many arguments as an event delivers. -/
def requireArity (signature : EventSignature) (arity : Nat) : Except Fault Unit :=
  if signature.arity = arity then .ok ()
  else .error (.handlerArity signature.name signature.arity arity)

/-- Prepares a subscription for a handler of the given arity. -/
def prepare (description : Description) (reference : String) (arity : Nat) (settings : Settings) :
    Traced EventSignature :=
  let prepared : Traced EventSignature := do
    let signature ← resolve description reference settings
    Traced.ofExcept (requireArity signature arity)
    Traced.emit (.subscriptionPrepared reference arity signature.canonical)
    return signature
  prepared.onFault (.subscriptionRejected reference)

end Subscription

end ContractInterface
