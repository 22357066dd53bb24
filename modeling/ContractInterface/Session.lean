import ContractInterface.Call
import ContractInterface.Subscription

/-!
# Sessions

A session prepares requests under its settings and hands on what is prepared, and nothing else: its
`Outbox` is what has been handed on so far.  A request that fails hands on nothing, and a batch is
handed on as a whole or not at all.
-/

namespace ContractInterface

/-- A subscription that has been handed on. -/
structure Subscribed where
  signature : EventSignature
  /-- The number of arguments that the handler takes. -/
  arity : Nat
deriving Repr, Inhabited

/-- What a session has handed on, in order. -/
structure Outbox where
  /-- Single calls. -/
  calls : List Call := []
  /-- Batches of calls. -/
  batches : List (List Call) := []
  /-- Subscriptions. -/
  subscriptions : List Subscribed := []
deriving Repr, Inhabited

/-- A read as part of a batch. -/
structure ReadRequest where
  description : Description
  reference : String
  args : Option (List Value)
deriving Repr, Inhabited

/-- Something asked of a session. -/
inductive Request where
  | read (description : Description) (reference : String) (args : Option (List Value))
  | write (description : Description) (reference : String) (args : Option (List Value))
  | readMany (reads : List ReadRequest)
  | watch (description : Description) (reference : String) (arity : Nat)
deriving Repr, Inhabited

/-- What a request comes to. -/
inductive Reply where
  | call (call : Call)
  | batch (calls : List Call)
  | subscribed (subscribed : Subscribed)
deriving Repr, Inhabited

namespace Session

/-- Prepares the reads of a batch, starting at the given index; the first fault counts, with its
index. -/
def prepareReadsFrom (settings : Settings) (index : Nat) : List ReadRequest → Traced (List Call)
  | [] => return []
  | request :: rest => do
    let call ← (Call.prepare request.description request.reference .read request.args
      settings).mapFault (.batch index)
    let calls ← prepareReadsFrom settings (index + 1) rest
    return call :: calls

/-- Prepares the reads of a batch. -/
def prepareReads (settings : Settings) (reads : List ReadRequest) : Traced (List Call) :=
  prepareReadsFrom settings 0 reads

/-- Prepares what is to be handed on for a request. -/
def prepare (settings : Settings) : Request → Traced Reply
  | .read description reference args => do
    return .call (← Call.prepare description reference .read args settings)
  | .write description reference args => do
    return .call (← Call.prepare description reference .write args settings)
  | .readMany reads => do
    let calls ← prepareReads settings reads
    Traced.emit (.submittingBatch calls.length)
    return .batch calls
  | .watch description reference arity => do
    let signature ← Subscription.prepare description reference arity settings
    return .subscribed ⟨signature, arity⟩

/-- The outbox after something has been handed on. -/
def hand (outbox : Outbox) : Reply → Outbox
  | .call call => { outbox with calls := outbox.calls ++ [call] }
  | .batch calls => { outbox with batches := outbox.batches ++ [calls] }
  | .subscribed subscribed =>
    { outbox with subscriptions := outbox.subscriptions ++ [subscribed] }

/-- The outbox after a request with the given outcome: a failure changes nothing. -/
def settle (outbox : Outbox) : Except Fault Reply → Outbox
  | .ok reply => hand outbox reply
  | .error _ => outbox

/-- Serves a request: what it comes to, and the outbox after it. -/
def serve (settings : Settings) (outbox : Outbox) (request : Request) : Traced Reply × Outbox :=
  let prepared := prepare settings request
  (prepared, settle outbox prepared.outcome)

/-- Serves requests one after another. -/
def serveAll (settings : Settings) (outbox : Outbox) : List Request → Outbox
  | [] => outbox
  | request :: rest => serveAll settings (serve settings outbox request).2 rest

end Session

end ContractInterface
