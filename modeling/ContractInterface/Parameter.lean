import ContractInterface.AbiType

/-!
# Parameters and the types they denote

A parameter of an interface description has a name, a type as written, and, where that is built on
`tuple`, the components of the tuple.  `Parameter.resolve` gives the type it denotes:

* the elementary names `address`, `bool`, `string`, `bytes`, `uint`, `int` and the sized ones
  `uint8` … `uint256`, `int8` … `int256`, `bytes1` … `bytes32` stand for themselves, `uint` and
  `int` for the widest of their kind;
* `tuple` stands for the tuple of its components, which are ignored under any other name;
* array suffixes wrap what the base name denotes, the first one innermost.

Arrays and tuples nest at most `maxNesting` levels deep, array dimensions and enclosing tuples both
counting.  Faults name the written type at fault and are found in this order: its syntax, its
dimensions exceeding the limit, its base, a dimension of length zero.
-/

namespace ContractInterface

/-- A parameter as described. -/
structure Parameter where
  name : String
  /-- The type as written. -/
  type : String
  /-- The components of a tuple. -/
  components : Option (List Parameter)
  /-- The type's name in the program that the interface belongs to, which nothing depends on. -/
  internalType : Option String
deriving Repr, Inhabited

/-- Why a written type denotes none. -/
inductive TypeCause where
  | invalidSyntax (fault : TypeExpr.SyntaxFault)
  | unknownType
  | invalidIntegerWidth
  | invalidBytesLength
  | zeroLengthArray
  | missingComponents
  | tooDeeplyNested
deriving DecidableEq, Repr

/-- A fault of a written type. -/
structure TypeFault where
  /-- The written type. -/
  type : String
  cause : TypeCause
deriving DecidableEq, Repr

/-- The number of levels that arrays and tuples may nest. -/
def maxNesting : Nat := 128

/-- The words for a cause. -/
def TypeCause.message : TypeCause → String
  | .invalidSyntax fault => fault.message
  | .unknownType => "not a known elementary type"
  | .invalidIntegerWidth => "integer widths must be a multiple of 8 from 8 to 256"
  | .invalidBytesLength => "fixed byte lengths must be from 1 to 32"
  | .zeroLengthArray => "fixed size arrays must have a non-zero length"
  | .missingComponents => "tuple types must declare their components"
  | .tooDeeplyNested =>
    "arrays and tuples may be nested at most " ++ Nat.repr maxNesting ++ " levels deep"

/-- The words for a fault. -/
def TypeFault.message (fault : TypeFault) : String :=
  "Cannot resolve ABI type '" ++ fault.type ++ "': " ++ fault.cause.message

/-! ## Elementary types -/

/-- The width that the digits after `uint` or `int` give; none at all stands for 256. -/
def integerWidth (digits : List Char) : Except TypeCause Nat :=
  if digits.isEmpty then .ok 256
  else
    match Text.canonicalValue? digits with
    | none => .error .unknownType
    | some bits =>
      if bits = 0 ∨ 256 < bits ∨ bits % 8 ≠ 0 then .error .invalidIntegerWidth else .ok bits

/-- The length that the digits after `bytes` give. -/
def bytesLength (digits : List Char) : Except TypeCause Nat :=
  match Text.canonicalValue? digits with
  | none => .error .unknownType
  | some length => if length = 0 ∨ 32 < length then .error .invalidBytesLength else .ok length

/-- The type of an elementary name with a width or length. -/
def sizedType : List Char → Except TypeCause AbiType
  | 'u' :: 'i' :: 'n' :: 't' :: digits => .uint <$> integerWidth digits
  | 'i' :: 'n' :: 't' :: digits => .int <$> integerWidth digits
  | 'b' :: 'y' :: 't' :: 'e' :: 's' :: digits => .fixedBytes <$> bytesLength digits
  | _ => .error .unknownType

/-- The type of an elementary name. -/
def elementaryType (name : String) : Except TypeCause AbiType :=
  if name = "address" then .ok .address
  else if name = "bool" then .ok .bool
  else if name = "string" then .ok .string
  else if name = "bytes" then .ok .bytes
  else sizedType name.toList

/-! ## Resolution -/

/-- Wraps a type in array dimensions, the first one innermost. -/
def wrapExtents (type : AbiType) : List Extent → Except TypeCause AbiType
  | [] => .ok type
  | extent :: rest =>
    if extent = .fixed 0 then .error .zeroLengthArray
    else wrapExtents (.array type extent) rest

/-- Names the written type that a cause is found in. -/
def blame (type : String) : Except TypeCause α → Except TypeFault α
  | .ok a => .ok a
  | .error cause => .error ⟨type, cause⟩

mutual

/-- The type that a parameter denotes below `depth` levels of arrays and tuples. -/
def Parameter.resolveBelow (depth : Nat) : Parameter → Except TypeFault AbiType
  | ⟨_, type, components, _⟩ =>
    match TypeExpr.parse type with
    | .error fault => .error ⟨type, .invalidSyntax fault⟩
    | .ok expr =>
      let depth := depth + expr.extents.length
      if maxNesting < depth then .error ⟨type, .tooDeeplyNested⟩
      else if expr.base = "tuple" then
        match components with
        | none => .error ⟨type, .missingComponents⟩
        | some components =>
          if maxNesting ≤ depth then .error ⟨type, .tooDeeplyNested⟩
          else
            match resolveFieldsBelow (depth + 1) components with
            | .error fault => .error fault
            | .ok fields => blame type (wrapExtents (.tuple fields) expr.extents)
      else
        match elementaryType expr.base with
        | .error cause => .error ⟨type, cause⟩
        | .ok base => blame type (wrapExtents base expr.extents)

/-- The fields that parameters denote, in order, below `depth` levels. -/
def resolveFieldsBelow (depth : Nat) : List Parameter → Except TypeFault (List Field)
  | [] => .ok []
  | parameter :: rest =>
    match parameter.resolveBelow depth with
    | .error fault => .error fault
    | .ok type =>
      match resolveFieldsBelow depth rest with
      | .error fault => .error fault
      | .ok fields => .ok ((parameter.name, type) :: fields)

end

/-- The type that a parameter denotes. -/
def Parameter.resolve (parameter : Parameter) : Except TypeFault AbiType :=
  parameter.resolveBelow 0

/-- The fields that parameters denote, in order; the first fault counts. -/
def resolveFields (parameters : List Parameter) : Except TypeFault (List Field) :=
  resolveFieldsBelow 0 parameters

end ContractInterface
