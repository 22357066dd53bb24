import ContractInterface.Text.Hex

/-!
# Values

The values that are passed as arguments.  Integers are 256 bits wide, unsigned or in two's
complement; a tuple is given by position, a record by name.  The keys of a record are in the order
given and may repeat.
-/

namespace ContractInterface

/-- An account address, twenty bytes. -/
structure Address where
  bytes : Vector UInt8 20
deriving DecidableEq, Repr

namespace Address

/-- The address of the given byte twenty times. -/
def replicate (byte : UInt8) : Address := ⟨Vector.replicate 20 byte⟩

/-- The address of no account. -/
def zero : Address := replicate 0

instance : Inhabited Address := ⟨zero⟩

/-- The address of a byte string, if it has the right length. -/
def ofBytes? (bytes : List UInt8) : Option Address :=
  if h : bytes.length = 20 then some ⟨⟨bytes.toArray, by simpa using h⟩⟩ else none

/-- The hexadecimal digits of an address. -/
def digits (address : Address) : String := Text.hexText address.bytes.toList

/-- The text of an address. -/
def text (address : Address) : String := "0x" ++ address.digits

end Address

/-- A value to be passed as an argument. -/
inductive Value where
  | uint (n : BitVec 256)
  | int (n : BitVec 256)
  | bool (b : Bool)
  | address (address : Address)
  | fixedBytes (content : List UInt8)
  | bytes (content : List UInt8)
  | string (s : String)
  | array (items : List Value)
  | tuple (items : List Value)
  | record (entries : List (String × Value))
deriving Repr, Inhabited

/-- What kind of value it is, in words. -/
def Value.describe : Value → String
  | .uint n => "unsigned integer " ++ Nat.repr n.toNat
  | .int n => "signed integer " ++ Int.repr n.toInt
  | .bool _ => "bool"
  | .address _ => "address"
  | .fixedBytes content => "bytes" ++ Nat.repr content.length
  | .bytes _ => "bytes"
  | .string _ => "string"
  | .array items => "array of " ++ Nat.repr items.length ++ " items"
  | .tuple items => "tuple of " ++ Nat.repr items.length ++ " items"
  | .record entries => "record \x7b" ++ String.intercalate ", " (entries.map Prod.fst) ++ "\x7d"

end ContractInterface
