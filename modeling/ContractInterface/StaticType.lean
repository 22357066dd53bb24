import ContractInterface.Typing

/-!
# Static types

Types of arguments that are known when a program is written.  Each has the ABI type it stands for
(`StaticType.abiType`), a type of its values (`StaticType.Carrier`), and the value to be passed for
each of them (`StaticType.toValue`).  Tuples have no names.
-/

namespace ContractInterface

/-- The widths of integers that are known statically. -/
inductive Width where
  | w8
  | w16
  | w32
  | w64
  | w128
  | w256
deriving DecidableEq, Repr, Inhabited

/-- The number of bits. -/
def Width.bits : Width → Nat
  | .w8 => 8
  | .w16 => 16
  | .w32 => 32
  | .w64 => 64
  | .w128 => 128
  | .w256 => 256

/-- A type that is known statically. -/
inductive StaticType where
  | bool
  | string
  | address
  | bytes
  | fixedBytes (length : Nat)
  | uint (width : Width)
  | int (width : Width)
  /-- An array of the given length. -/
  | array (element : StaticType) (length : Nat)
  /-- An array of any length. -/
  | list (element : StaticType)
  | tuple (components : List StaticType)
deriving Repr, Inhabited

namespace StaticType

mutual

/-- The ABI type that a static type stands for. -/
def abiType : StaticType → AbiType
  | .bool => .bool
  | .string => .string
  | .address => .address
  | .bytes => .bytes
  | .fixedBytes length => .fixedBytes length
  | .uint width => .uint width.bits
  | .int width => .int width.bits
  | .array element length => .array element.abiType (.fixed length)
  | .list element => .array element.abiType .dynamic
  | .tuple components => .tuple (fields components)

/-- Static types as fields without names. -/
def fields : List StaticType → List Field
  | [] => []
  | type :: rest => ("", type.abiType) :: fields rest

end

mutual

/-- The values of a static type. -/
def Carrier : StaticType → Type
  | .bool => Bool
  | .string => String
  | .address => Address
  | .bytes => List UInt8
  | .fixedBytes length => Vector UInt8 length
  | .uint width => BitVec width.bits
  | .int width => BitVec width.bits
  | .array element length => Vector element.Carrier length
  | .list element => List element.Carrier
  | .tuple components => Carriers components

/-- The values of a list of static types, one of each. -/
def Carriers : List StaticType → Type
  | [] => Unit
  | type :: rest => type.Carrier × Carriers rest

end

mutual

/-- The value to be passed. -/
def toValue : (type : StaticType) → type.Carrier → Value
  | .bool, b => .bool b
  | .string, s => .string s
  | .address, a => .address a
  | .bytes, content => .bytes content
  | .fixedBytes _, content => .fixedBytes content.toList
  | .uint _, n => .uint (n.setWidth 256)
  | .int _, n => .int (n.signExtend 256)
  | .array element _, items => .array (items.toList.map element.toValue)
  | .list element, items => .array (items.map element.toValue)
  | .tuple components, items => .tuple (toValues components items)

/-- The values to be passed, in order. -/
def toValues : (types : List StaticType) → Carriers types → List Value
  | [], () => []
  | type :: rest, (item, items) => type.toValue item :: toValues rest items

end

mutual

/-- The element of a static type that a value stands for, if it is of the right kind and in range.
-/
def ofValue? : (type : StaticType) → Value → Option type.Carrier
  | .bool, .bool b => some b
  | .string, .string s => some s
  | .address, .address a => some a
  | .bytes, .bytes content => some content
  | .fixedBytes length, .fixedBytes content =>
    if h : content.length = length then some ⟨content.toArray, by simpa using h⟩ else none
  | .uint width, .uint n =>
    if (n.setWidth width.bits).setWidth 256 = n then some (n.setWidth width.bits) else none
  | .int width, .int n =>
    if (n.setWidth width.bits).signExtend 256 = n then some (n.setWidth width.bits) else none
  | .array element length, .array items =>
    match items.mapM element.ofValue? with
    | some items =>
      if h : items.length = length then some ⟨items.toArray, by simpa using h⟩ else none
    | none => none
  | .list element, .array items => items.mapM element.ofValue?
  | .tuple components, .tuple items => ofValues? components items
  | _, _ => none

/-- The elements of static types that values stand for. -/
def ofValues? : (types : List StaticType) → List Value → Option (Carriers types)
  | [], [] => some ()
  | type :: rest, value :: values =>
    match type.ofValue? value, ofValues? rest values with
    | some item, some items => some (item, items)
    | _, _ => none
  | _, _ => none

end

end StaticType

end ContractInterface
