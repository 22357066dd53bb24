/-!
# Mutability and access

What a function may do to the state, as its description declares it, and the access that a caller
needs for it: a pure or view function is read, any other is written.
-/

namespace ContractInterface

/-- The declared effect of a function on the state. -/
inductive Mutability where
  | pure
  | view
  | nonpayable
  | payable
deriving DecidableEq, Repr, Inhabited

/-- The access a call asks for. -/
inductive Access where
  | read
  | write
deriving DecidableEq, Repr, Inhabited

/-- The word for a mutability in descriptions and messages. -/
def Mutability.name : Mutability → String
  | .pure => "pure"
  | .view => "view"
  | .nonpayable => "nonpayable"
  | .payable => "payable"

/-- The mutability that a word names. -/
def Mutability.ofName? : String → Option Mutability
  | "pure" => some .pure
  | "view" => some .view
  | "nonpayable" => some .nonpayable
  | "payable" => some .payable
  | _ => none

/-- The word for an access. -/
def Access.name : Access → String
  | .read => "read"
  | .write => "write"

/-- The access that a function of this mutability needs. -/
def Mutability.access : Mutability → Access
  | .pure | .view => .read
  | .nonpayable | .payable => .write

theorem Mutability.ofName?_name (m : Mutability) : ofName? m.name = some m := by
  cases m <;> rfl

end ContractInterface
