import ContractInterface.Description

/-!
# Calls

`Call.prepare` turns a request (a reference, the access it asks for and the arguments) into a call
that can be submitted.  With a literal description everything is checked: the member, its access,
its types and the arguments.  With a widened one, only the access is, and only if the record tells.

The trace of a preparation ends with one event that tells its outcome.
-/

namespace ContractInterface

/-- A prepared call. -/
structure Call where
  name : String
  /-- The canonical text of the function, if it is known. -/
  signature : Option String
  access : Access
  mutability : Option Mutability
  inputs : List Field
  output : Output
  args : List Value
deriving Repr, Inhabited

namespace Call

/-- The function among the entries, as what a reference denotes. -/
def requireFunction (reference : String) : Entry → Except Fault Function
  | .function f => .ok f
  | _ => .error (.memberNotFound reference .function)

/-- Prepares a call of a function that has been looked up. -/
def ofFunction (f : Function) (access : Access) (args : List Value) : Except Fault Call := do
  requireAccess f.name f.mutability access
  let signature ← asFault f.signature
  bindArguments signature.name signature.inputs args
  return {
    name := signature.name
    signature := some signature.canonical
    access
    mutability := some signature.mutability
    inputs := signature.inputs
    output := signature.output
    args }

/-- Prepares a call by a literal description. -/
def prepareLiteral (interface : Interface) (reference : String) (access : Access)
    (args : Option (List Value)) (settings : Settings) : Traced Call := do
  let entry ← interface.lookup .function reference args settings
  let call ← Traced.ofExcept do
    let f ← requireFunction reference entry
    ofFunction f access (args.getD [])
  Traced.emit (.callPrepared reference access (call.signature.getD ""))
  return call

/-- Prepares a call of the function that a loose record is for. -/
def ofRecord (record : LooseRecord) (access : Access) (args : List Value) : Except Fault Call := do
  match record.mutability? with
  | some mutability => requireAccess record.name mutability access
  | none => .ok ()
  return {
    name := record.name
    signature := none
    access
    mutability := record.mutability?
    inputs := record.fields
    output := .unknown
    args }

/-- Prepares a call by a widened description. -/
def prepareWidened (records : List Json) (reference : String) (access : Access)
    (args : Option (List Value)) : Traced Call := do
  let args := args.getD []
  match LooseRecord.find? records .function reference (some args.length) with
  | none => Traced.fail (.memberNotFound reference .function)
  | some record =>
    let call ← Traced.ofExcept (ofRecord record access args)
    Traced.emit (.widenedCallPrepared reference access)
    return call

/-- Prepares a call. -/
def prepare (description : Description) (reference : String) (access : Access)
    (args : Option (List Value)) (settings : Settings) : Traced Call :=
  let prepared :=
    match description with
    | .literal interface => prepareLiteral interface reference access args settings
    | .widened records => prepareWidened records reference access args
  prepared.onFault (.callRejected reference access)

end Call

end ContractInterface
