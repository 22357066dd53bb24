import ContractInterface.Mutability
import ContractInterface.Parameter

/-!
# Entries of an interface

An interface is a list of entries: functions, events and errors, which have names and can be looked
up (`MemberKind`), and constructors, fallbacks and receivers, which cannot.
-/

namespace ContractInterface

/-- The kinds of entries that have names. -/
inductive MemberKind where
  | function
  | event
  | error
deriving DecidableEq, Repr, Inhabited

/-- The word for a kind of member in descriptions and messages. -/
def MemberKind.name : MemberKind → String
  | .function => "function"
  | .event => "event"
  | .error => "error"

/-- A parameter of an event, which may be indexed. -/
structure EventParameter where
  parameter : Parameter
  indexed : Bool
deriving Repr, Inhabited

/-- A function as described. -/
structure Function where
  name : String
  inputs : List Parameter
  outputs : List Parameter
  mutability : Mutability
deriving Repr, Inhabited

/-- An event as described. -/
structure Event where
  name : String
  inputs : List EventParameter
  anonymous : Bool
deriving Repr, Inhabited

/-- An entry of an interface. -/
inductive Entry where
  | function (f : Function)
  | event (e : Event)
  | constructor (inputs : List Parameter) (mutability : Mutability)
  | fallback (mutability : Mutability)
  /-- Takes plain payments, and is payable by nature. -/
  | receive
  | error (name : String) (inputs : List Parameter)
deriving Repr, Inhabited

namespace Entry

/-- The kind of member that an entry is, if it has a name. -/
def memberKind? : Entry → Option MemberKind
  | .function _ => some .function
  | .event _ => some .event
  | .error .. => some .error
  | .constructor .. | .fallback _ | .receive => none

/-- The name of an entry, if it has one. -/
def name? : Entry → Option String
  | .function f => some f.name
  | .event e => some e.name
  | .error name _ => some name
  | .constructor .. | .fallback _ | .receive => none

/-- Whether an entry is the member of the given kind and name, or one of its overloads. -/
def isMember (kind : MemberKind) (name : String) (entry : Entry) : Bool :=
  entry.memberKind? == some kind && entry.name? == some name

/-- The parameters that an entry takes. -/
def inputs : Entry → List Parameter
  | .function f => f.inputs
  | .event e => e.inputs.map EventParameter.parameter
  | .constructor inputs _ => inputs
  | .fallback _ | .receive => []
  | .error _ inputs => inputs

end Entry

end ContractInterface
