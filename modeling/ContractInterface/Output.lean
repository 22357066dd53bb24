import ContractInterface.AbiType

/-!
# Outputs

What a call gives back: nothing, one value, several values, or something unknown.  An unknown output
can be narrowed to an expected one; a known one only to an output of the same type, and it keeps its
own names then.
-/

namespace ContractInterface

/-- What a call gives back. -/
inductive Output where
  | void
  | single (type : AbiType)
  | record (fields : List Field)
  | unknown
deriving DecidableEq, Repr, Inhabited

namespace Output

/-- The output of a function with the given outputs. -/
def ofFields : List Field → Output
  | [] => .void
  | [(_, type)] => .single type
  | fields => .record fields

/-- Whether nothing is known about the output. -/
def isUnknown : Output → Bool
  | .unknown => true
  | _ => false

/-- Whether two outputs are the same up to names. -/
def sameType : Output → Output → Bool
  | .void, .void => true
  | .unknown, .unknown => true
  | .single s, .single t => s.sameType t
  | .record fs, .record gs => AbiType.sameFields fs gs
  | _, _ => false

/-- The output, known to be as expected, if it can be. -/
def narrow (output expected : Output) : Option Output :=
  match output with
  | .unknown => some expected
  | _ => if output.sameType expected then some output else none

/-- The type of the result at an index. -/
def at? : Output → Nat → Option AbiType
  | .single type, 0 => some type
  | .record fields, index => fields[index]?.map Prod.snd
  | _, _ => none

/-- The type of the first result with the given name, which must not be empty. -/
def field? : Output → String → Option AbiType
  | .record fields, name => if name = "" then none else fields.lookup name
  | _, _ => none

/-- The text of an output. -/
def text : Output → String
  | .void => "()"
  | .single type => type.canonical
  | .record fields => (AbiType.tuple fields).canonical
  | .unknown => "unknown"

end Output

end ContractInterface
