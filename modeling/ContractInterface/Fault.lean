import ContractInterface.Entry
import ContractInterface.Typing

/-!
# Faults

Why a request about an interface cannot be met, with the words for each cause.
-/

namespace ContractInterface

/-- Why a request cannot be met. -/
inductive Fault where
  /-- A type in the description denotes none. -/
  | unresolvableType (fault : TypeFault)
  | memberNotFound (name : String) (kind : MemberKind)
  | ambiguousMember (name : String) (candidates : List String)
  | noMatchingOverload (name : String) (candidates : List String)
  | wrongAccess (name : String) (requested : Access) (mutability : Mutability)
  | argumentCount (name : String) (expected supplied : Nat)
  | argumentType (name : String) (index : Nat) (mismatch : Mismatch)
  | handlerArity (name : String) (expected supplied : Nat)
  | duplicateSignature (signature : String)
  | declarationMismatch (name declared resolved : String)
  /-- A call of a batch cannot be prepared. -/
  | batch (index : Nat) (source : Fault)
deriving DecidableEq, Repr

namespace Fault

/-- Candidates as they are listed in a message. -/
def listing (candidates : List String) : String := String.intercalate ", " candidates

/-- The words for a fault. -/
def message : Fault → String
  | .unresolvableType fault => fault.message
  | .memberNotFound name kind =>
    "No " ++ kind.name ++ " named '" ++ name ++ "' exists in the interface description"
  | .ambiguousMember name candidates =>
    "'" ++ name ++ "' is overloaded; supply arguments or a qualified name to pick one of: "
      ++ listing candidates
  | .noMatchingOverload name candidates =>
    "No overload of '" ++ name ++ "' accepts the supplied arguments; candidates are: "
      ++ listing candidates
  | .wrongAccess name requested mutability =>
    "'" ++ name ++ "' is " ++ mutability.name ++ " and so is a " ++ mutability.access.name
      ++ " member; it cannot be used for a " ++ requested.name ++ " call"
  | .argumentCount name expected supplied =>
    "'" ++ name ++ "' expects " ++ Nat.repr expected ++ " arguments but " ++ Nat.repr supplied
      ++ " were supplied"
  | .argumentType name index mismatch =>
    "Argument " ++ Nat.repr index ++ Step.pathText mismatch.path ++ " of '" ++ name
      ++ "' should be " ++ mismatch.expected ++ " but got " ++ mismatch.found
  | .handlerArity name expected supplied =>
    "Event '" ++ name ++ "' delivers " ++ Nat.repr expected
      ++ " arguments but the handler accepts " ++ Nat.repr supplied
  | .duplicateSignature signature =>
    "More than one entry has the signature '" ++ signature ++ "'"
  | .declarationMismatch name declared resolved =>
    "'" ++ name ++ "' is declared to return " ++ declared ++ " but the description says "
      ++ resolved
  | .batch index source =>
    "Call " ++ Nat.repr index ++ " in the batch failed: " ++ source.message

end Fault

/-- A fault of a type as a fault of the request that needed the type. -/
def asFault : Except TypeFault α → Except Fault α
  | .ok a => .ok a
  | .error fault => .error (.unresolvableType fault)

/-- Requires that a function of the given mutability serve the requested access. -/
def requireAccess (name : String) (mutability : Mutability) (requested : Access) :
    Except Fault Unit :=
  if mutability.access = requested then .ok () else .error (.wrongAccess name requested mutability)

/-- Checks arguments one after another, starting at the given index. -/
def bindFrom (name : String) (index : Nat) : List Field → List Value → Except Fault Unit
  | (_, type) :: fields, arg :: args =>
    match type.check arg with
    | .error mismatch => .error (.argumentType name index mismatch)
    | .ok () => bindFrom name (index + 1) fields args
  | _, _ => .ok ()

/-- Requires that the arguments fit the inputs of the member with the given name. -/
def bindArguments (name : String) (inputs : List Field) (args : List Value) : Except Fault Unit :=
  if inputs.length = args.length then bindFrom name 0 inputs args
  else .error (.argumentCount name inputs.length args.length)

end ContractInterface
