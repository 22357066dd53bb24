import ContractInterface.Entry
import ContractInterface.Output

/-!
# Signatures

A signature is an entry with the types that its parameters denote.  The signatures of functions,
events and errors have a canonical text, the name followed by the types of the inputs, by which
overloads are told apart.
-/

namespace ContractInterface

/-- The signature of a function. -/
structure FunctionSignature where
  name : String
  inputs : List Field
  outputs : List Field
  mutability : Mutability
deriving DecidableEq, Repr, Inhabited

/-- A parameter of an event with its type. -/
structure EventField where
  name : String
  type : AbiType
  indexed : Bool
deriving DecidableEq, Repr, Inhabited

/-- The signature of an event. -/
structure EventSignature where
  name : String
  fields : List EventField
  anonymous : Bool
deriving DecidableEq, Repr, Inhabited

/-- The signature of an entry. -/
inductive Signature where
  | function (signature : FunctionSignature)
  | event (signature : EventSignature)
  | constructor (inputs : List Field) (mutability : Mutability)
  | fallback (mutability : Mutability)
  | receive
  | error (name : String) (inputs : List Field)
deriving DecidableEq, Repr, Inhabited

namespace FunctionSignature

/-- The access that the function needs. -/
def access (signature : FunctionSignature) : Access := signature.mutability.access

/-- What the function gives back. -/
def output (signature : FunctionSignature) : Output := .ofFields signature.outputs

/-- The canonical text. -/
def canonical (signature : FunctionSignature) : String :=
  canonicalSignature signature.name signature.inputs

end FunctionSignature

/-- The parameter without its flag. -/
def EventField.field (field : EventField) : Field := (field.name, field.type)

namespace EventSignature

/-- The number of arguments that the event delivers. -/
def arity (signature : EventSignature) : Nat := signature.fields.length

/-- The indexed parameters, in order. -/
def indexed (signature : EventSignature) : List EventField :=
  signature.fields.filter EventField.indexed

/-- The other parameters, in order. -/
def data (signature : EventSignature) : List EventField :=
  signature.fields.filter fun field => !field.indexed

/-- The canonical text. -/
def canonical (signature : EventSignature) : String :=
  canonicalSignature signature.name (signature.fields.map EventField.field)

end EventSignature

/-- The canonical text of a signature with a name. -/
def Signature.canonical? : Signature → Option String
  | .function signature => some signature.canonical
  | .event signature => some signature.canonical
  | .error name inputs => some (canonicalSignature name inputs)
  | .constructor .. | .fallback _ | .receive => none

/-! ## Signatures of entries -/

/-- The signature of a function; inputs are resolved before outputs. -/
def Function.signature (f : Function) : Except TypeFault FunctionSignature := do
  let inputs ← resolveFields f.inputs
  let outputs ← resolveFields f.outputs
  return ⟨f.name, inputs, outputs, f.mutability⟩

/-- The parameters of an event with their types. -/
def resolveEventFields : List EventParameter → Except TypeFault (List EventField)
  | [] => .ok []
  | input :: rest => do
    let type ← input.parameter.resolve
    let fields ← resolveEventFields rest
    return ⟨input.parameter.name, type, input.indexed⟩ :: fields

/-- The signature of an event. -/
def Event.signature (e : Event) : Except TypeFault EventSignature := do
  let fields ← resolveEventFields e.inputs
  return ⟨e.name, fields, e.anonymous⟩

/-- The signature of an entry. -/
def Entry.signature : Entry → Except TypeFault Signature
  | .function f => .function <$> f.signature
  | .event e => .event <$> e.signature
  | .constructor inputs mutability => do
    let inputs ← resolveFields inputs
    return .constructor inputs mutability
  | .fallback mutability => .ok (.fallback mutability)
  | .receive => .ok .receive
  | .error name inputs => do
    let inputs ← resolveFields inputs
    return .error name inputs

end ContractInterface
