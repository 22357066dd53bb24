/-!
# JSON values

A JSON value as data.  A number is kept as the numeral that writes it, since no reading of an
interface description looks at one.  The members of an object are kept in a list; their order means
nothing, and of several members with one key the last counts (`Json.member?`).
-/

namespace ContractInterface

/-- A JSON value. -/
inductive Json where
  | null
  | bool (b : Bool)
  | number (numeral : String)
  | string (s : String)
  | array (items : List Json)
  | object (members : List (String × Json))
deriving Repr, Inhabited

namespace Json

/-- What is told of a value: all of it if it has no parts, and else only what kind it is. -/
inductive Outline where
  | null
  | bool (b : Bool)
  | number (numeral : String)
  | string (s : String)
  | array
  | object
deriving DecidableEq, Repr

/-- The value of the member with the given key, the last of them if there are several. -/
def member? (key : String) : Json → Option Json
  | .object members => members.reverse.lookup key
  | _ => none

/-- The text of a string. -/
def string? : Json → Option String
  | .string s => some s
  | _ => none

/-- The truth value of a boolean. -/
def bool? : Json → Option Bool
  | .bool b => some b
  | _ => none

/-- The items of an array. -/
def array? : Json → Option (List Json)
  | .array items => some items
  | _ => none

end Json

end ContractInterface
