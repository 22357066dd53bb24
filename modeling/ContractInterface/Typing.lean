import ContractInterface.AbiType
import ContractInterface.Value

/-!
# Checking values against types

`AbiType.check` says whether a value fits a type and, if not, where the first misfit is: a
`Mismatch` has the path to the place, the type that was expected there and what was found.

Every value fits `unknown`.  Integers fit by the number of bits they take, whether given as signed
or unsigned.  A tuple type takes a tuple by position, or a record by name: then every component has
to have a name, the first entry under that name has to fit it, and every key has to be the name of
some component.
-/

namespace ContractInterface

/-- A step from a value to a part of it. -/
inductive Step where
  /-- An item of an array. -/
  | item (index : Nat)
  /-- An item of a tuple. -/
  | component (index : Nat)
  /-- An entry of a record. -/
  | entry (key : String)
deriving DecidableEq, Repr

/-- A step as it is written in a path. -/
def Step.text : Step → String
  | .item index => "[" ++ Nat.repr index ++ "]"
  | .component index => "." ++ Nat.repr index
  | .entry key => "." ++ key

/-- The text of a path. -/
def Step.pathText : List Step → String
  | [] => ""
  | step :: rest => step.text ++ pathText rest

/-- A misfit of value and type. -/
structure Mismatch where
  /-- The steps from the whole value to the place of the misfit. -/
  path : List Step
  expected : String
  found : String
deriving DecidableEq, Repr

/-- A misfit of a part as a misfit of the whole. -/
def Mismatch.below (step : Step) (mismatch : Mismatch) : Mismatch :=
  { mismatch with path := step :: mismatch.path }

/-- The outcome of a check of a part as an outcome for the whole. -/
def checkedBelow (step : Step) : Except Mismatch Unit → Except Mismatch Unit
  | .ok () => .ok ()
  | .error mismatch => .error (mismatch.below step)

/-- Checks the items of an array in order, starting at the given index. -/
def checkItems (check : Value → Except Mismatch Unit) (index : Nat) :
    List Value → Except Mismatch Unit
  | [] => .ok ()
  | item :: rest => do
    checkedBelow (.item index) (check item)
    checkItems check (index + 1) rest

/-- The first entry of a record whose key is the name of no field. -/
def strayEntry? (fields : List Field) (entries : List (String × Value)) : Option (String × Value) :=
  entries.find? fun entry => !fields.any fun field => field.1 == entry.1

/-- The number of bits that a word takes without its leading zeros. -/
def bitsUsed (n : BitVec 256) : Nat := 256 - n.clz.toNat

/-- The number of bits that a signed type has besides the one for the sign.  One less than none
wraps around in 32 bits. -/
def magnitudeBits (bits : Nat) : Nat := if bits = 0 then 4294967295 else bits - 1

namespace AbiType

/-- Whether a value without parts fits a type.  A negative number takes the bits of its
complement. -/
def admits : AbiType → Value → Bool
  | .uint bits, .uint n => bitsUsed n ≤ bits
  | .int bits, .uint n => bitsUsed n ≤ magnitudeBits bits
  | .uint bits, .int n => !n.msb && bitsUsed n ≤ bits
  | .int bits, .int n => bitsUsed (if n.msb then ~~~n else n) ≤ magnitudeBits bits
  | .fixedBytes length, .fixedBytes content => content.length == length
  | .bytes, .bytes _ => true
  | .bool, .bool _ => true
  | .address, .address _ => true
  | .string, .string _ => true
  | .unknown, _ => true
  | _, _ => false

/-- The misfit of a whole value. -/
def mismatch (type : AbiType) (value : Value) : Mismatch := ⟨[], type.canonical, value.describe⟩

mutual

/-- Checks a value against a type. -/
def check : AbiType → Value → Except Mismatch Unit
  | .array element extent, .array items =>
    if extent.admits items.length then checkItems element.check 0 items
    else .error (mismatch (.array element extent) (.array items))
  | .tuple fields, .tuple items =>
    if items.length = fields.length then checkComponents 0 fields items
    else .error (mismatch (.tuple fields) (.tuple items))
  | .tuple fields, .record entries =>
    if fields.any fun field => field.1 == "" then
      .error (mismatch (.tuple fields) (.record entries))
    else do
      checkNamed entries fields
      match strayEntry? fields entries with
      | none => .ok ()
      | some (key, value) => .error ⟨[.entry key], "no such field", value.describe⟩
  | type, value => if type.admits value then .ok () else .error (type.mismatch value)

/-- Checks the items of a tuple in order, starting at the given index. -/
def checkComponents (index : Nat) : List Field → List Value → Except Mismatch Unit
  | (_, type) :: fields, item :: items => do
    checkedBelow (.component index) (type.check item)
    checkComponents (index + 1) fields items
  | _, _ => .ok ()

/-- Checks, field by field, the entries of a record. -/
def checkNamed (entries : List (String × Value)) : List Field → Except Mismatch Unit
  | [] => .ok ()
  | (name, type) :: fields =>
    match entries.lookup name with
    | none => .error ⟨[.entry name], type.canonical, "nothing"⟩
    | some value => do
      checkedBelow (.entry name) (type.check value)
      checkNamed entries fields

end

/-- Whether a value fits a type. -/
def fits (type : AbiType) (value : Value) : Bool := (type.check value).isOk

end AbiType

/-- Whether the arguments fit the fields: as many, and each one its own. -/
def accepts : List Field → List Value → Bool
  | [], [] => true
  | (_, type) :: fields, arg :: args => type.fits arg && accepts fields args
  | _, _ => false

end ContractInterface
