import ContractInterface.TypeExpr

/-!
# ABI types

The types of arguments and results, as resolved from an interface description.  A tuple lists its
components in order, each with a name that may be empty; an array has an element type and an
`Extent`.  `unknown` stands for a type about which nothing is known and accepts every value.

* `AbiType.canonical` is the text of a type in a signature: names of components do not occur in it;
* `AbiType.sameType` compares two types up to the names of components;
* equality, which does see the names, is decided by `AbiType.beq`.
-/

namespace ContractInterface

/-- A resolved type. -/
inductive AbiType where
  | uint (bits : Nat)
  | int (bits : Nat)
  | fixedBytes (length : Nat)
  | bytes
  | bool
  | address
  | string
  | tuple (fields : List (String × AbiType))
  | array (element : AbiType) (extent : Extent)
  | unknown
deriving Repr, Inhabited

/-- A named component, parameter or result; the name may be empty. -/
abbrev Field := String × AbiType

namespace AbiType

/-! ## Equality -/

mutual

/-- Whether two types are equal, names of components included. -/
def beq : AbiType → AbiType → Bool
  | .uint m, .uint n => m == n
  | .int m, .int n => m == n
  | .fixedBytes m, .fixedBytes n => m == n
  | .bytes, .bytes => true
  | .bool, .bool => true
  | .address, .address => true
  | .string, .string => true
  | .tuple fs, .tuple gs => beqFields fs gs
  | .array s e, .array t e' => e == e' && s.beq t
  | .unknown, .unknown => true
  | _, _ => false

/-- Whether two lists of fields are equal. -/
def beqFields : List Field → List Field → Bool
  | [], [] => true
  | (m, s) :: fs, (n, t) :: gs => m == n && s.beq t && beqFields fs gs
  | _, _ => false

end

mutual

theorem beq_iff_eq : ∀ s t : AbiType, s.beq t = true ↔ s = t
  | .uint _, t | .int _, t | .fixedBytes _, t => by cases t <;> simp [beq]
  | .bytes, t | .bool, t | .address, t | .string, t | .unknown, t => by cases t <;> simp [beq]
  | .tuple fs, .tuple gs => by simp [beq, beqFields_iff_eq fs gs]
  | .array s e, .array t e' => by simp [beq, beq_iff_eq s t, and_comm]
  | .tuple _, .uint _ | .tuple _, .int _ | .tuple _, .fixedBytes _ | .tuple _, .bytes
  | .tuple _, .bool | .tuple _, .address | .tuple _, .string | .tuple _, .array ..
  | .tuple _, .unknown => by simp [beq]
  | .array .., .uint _ | .array .., .int _ | .array .., .fixedBytes _ | .array .., .bytes
  | .array .., .bool | .array .., .address | .array .., .string | .array .., .tuple _
  | .array .., .unknown => by simp [beq]

theorem beqFields_iff_eq : ∀ fs gs : List Field, beqFields fs gs = true ↔ fs = gs
  | [], gs => by cases gs <;> simp [beqFields]
  | _ :: _, [] => by simp [beqFields]
  | (m, s) :: fs, (n, t) :: gs => by
    simp [beqFields, beq_iff_eq s t, beqFields_iff_eq fs gs]

end

instance : DecidableEq AbiType := fun s t => decidable_of_iff _ (beq_iff_eq s t)

/-! ## Comparison up to names -/

mutual

/-- Whether two types are the same up to the names of components. -/
def sameType : AbiType → AbiType → Bool
  | .uint m, .uint n => m == n
  | .int m, .int n => m == n
  | .fixedBytes m, .fixedBytes n => m == n
  | .bytes, .bytes => true
  | .bool, .bool => true
  | .address, .address => true
  | .string, .string => true
  | .tuple fs, .tuple gs => sameFields fs gs
  | .array s e, .array t e' => e == e' && s.sameType t
  | .unknown, .unknown => true
  | _, _ => false

/-- Whether two lists of fields have the same types in the same order. -/
def sameFields : List Field → List Field → Bool
  | [], [] => true
  | (_, s) :: fs, (_, t) :: gs => s.sameType t && sameFields fs gs
  | _, _ => false

end

/-! ## Canonical text -/

mutual

/-- The text of a type in a signature. -/
def canonical : AbiType → String
  | .uint bits => "uint" ++ Nat.repr bits
  | .int bits => "int" ++ Nat.repr bits
  | .fixedBytes length => "bytes" ++ Nat.repr length
  | .bytes => "bytes"
  | .bool => "bool"
  | .address => "address"
  | .string => "string"
  | .tuple fields => "(" ++ canonicalFields fields ++ ")"
  | .array element extent => element.canonical ++ extent.suffix
  | .unknown => "unknown"

/-- The texts of the types of a list of fields, divided by commas. -/
def canonicalFields : List Field → String
  | [] => ""
  | [(_, t)] => t.canonical
  | (_, t) :: rest => t.canonical ++ "," ++ canonicalFields rest

end

end AbiType

/-- The canonical text of a member: its name and, in parentheses, the types of its fields. -/
def canonicalSignature (name : String) (fields : List Field) : String :=
  name ++ (AbiType.tuple fields).canonical

end ContractInterface
