import ContractInterface.Json.Basic

/-!
# JSON as far as it can be read

Decoding visits a JSON value from front to back and stops at the first problem, whether that is a
fault of the JSON itself or of what it says.  A `Json.Fragment` is what such a visit can see: the
value up to the place where the text stops being JSON, with a mark (`Ending.broken`,
`Fragment.unreadable`) at that place.  A decoder that walks a fragment in order and fails at the
first mark or misfit it meets reports the right one of several problems.

A value may also be *skipped*, when it stands under a key that means nothing.  Skipping checks less
than reading: a text with half a surrogate pair, a number beyond the range of a double and nesting
beyond the limit can be skipped but not read.

* `Fragment.value?` is the JSON value of a fragment that can be read to its end;
* `Fragment.ofJson` is the fragment of a parsed value, whose members are visited in the order of
  their keys;
* `Fragment.clip` makes containers nested beyond a limit unreadable.
-/

namespace ContractInterface.Json

/-- What follows the listed items or members of a container. -/
inductive Ending where
  /-- Nothing, and their number is known before the first is visited. -/
  | counted
  /-- The closing bracket. -/
  | closed
  /-- Members that cannot be read but can be skipped, and the closing bracket. -/
  | skippable
  /-- Text that is not JSON. -/
  | broken
deriving DecidableEq, Repr

/-- Whether a container can be read to its end. -/
def Ending.isReadable : Ending → Bool
  | .counted | .closed => true
  | .skippable | .broken => false

/-- A JSON value as far as it can be read. -/
inductive Fragment where
  | null
  | bool (b : Bool)
  | number (numeral : String)
  | string (s : String)
  | array (items : List Fragment) (ending : Ending)
  | object (members : List (String × Fragment)) (ending : Ending)
  /-- A value that cannot be read; it may still be possible to skip it. -/
  | unreadable (skippable : Bool)
deriving Repr, Inhabited

namespace Fragment

/-- What can be told of a value as soon as it is met. -/
def outline? : Fragment → Option Outline
  | .null => some .null
  | .bool b => some (.bool b)
  | .number numeral => some (.number numeral)
  | .string s => some (.string s)
  | .array .. => some .array
  | .object .. => some .object
  | .unreadable _ => none

/-! ## Skipping and reading -/

mutual

/-- Whether a value can be skipped: it is JSON to its end. -/
def isSkippable : Fragment → Bool
  | .null | .bool _ | .number _ | .string _ => true
  | .array items ending => areSkippable items && ending != .broken
  | .object members ending => haveSkippable members && ending != .broken
  | .unreadable skippable => skippable

/-- Whether all items can be skipped. -/
def areSkippable : List Fragment → Bool
  | [] => true
  | item :: rest => item.isSkippable && areSkippable rest

/-- Whether all values of members can be skipped. -/
def haveSkippable : List (String × Fragment) → Bool
  | [] => true
  | (_, value) :: rest => value.isSkippable && haveSkippable rest

end

mutual

/-- The JSON value, if the fragment can be read to its end. -/
def value? : Fragment → Option Json
  | .null => some .null
  | .bool b => some (.bool b)
  | .number numeral => some (.number numeral)
  | .string s => some (.string s)
  | .array items ending => do
    let items ← values? items
    if ending.isReadable then some (.array items) else none
  | .object members ending => do
    let members ← memberValues? members
    if ending.isReadable then some (.object members) else none
  | .unreadable _ => none

/-- The JSON values of a list of items. -/
def values? : List Fragment → Option (List Json)
  | [] => some []
  | item :: rest => do
    let value ← item.value?
    let values ← values? rest
    return value :: values

/-- The members with the JSON values of a list of members. -/
def memberValues? : List (String × Fragment) → Option (List (String × Json))
  | [] => some []
  | (key, item) :: rest => do
    let value ← item.value?
    let values ← memberValues? rest
    return (key, value) :: values

end

/-! ## Parsed values -/

/-- Inserts a member into a list ordered by key, unless the key is there already. -/
def insertMember (key : String) (value : Fragment) :
    List (String × Fragment) → List (String × Fragment)
  | [] => [(key, value)]
  | (k, v) :: rest =>
    if key < k then (key, value) :: (k, v) :: rest
    else if key = k then (k, v) :: rest
    else (k, v) :: insertMember key value rest

mutual

/-- The fragment of a parsed value: members in the order of their keys, each key once. -/
def ofJson : Json → Fragment
  | .null => .null
  | .bool b => .bool b
  | .number numeral => .number numeral
  | .string s => .string s
  | .array items => .array (ofItems items) .counted
  | .object members => .object (ofMembers members) .counted

/-- The fragments of a list of items. -/
def ofItems : List Json → List Fragment
  | [] => []
  | item :: rest => ofJson item :: ofItems rest

/-- The fragments of a list of members, in the order of their keys; of members with one key the last
stays. -/
def ofMembers : List (String × Json) → List (String × Fragment)
  | [] => []
  | (key, value) :: rest => insertMember key (ofJson value) (ofMembers rest)

end

/-! ## Limited nesting -/

mutual

/-- Makes unreadable the containers that stand below `levels` levels of containers. -/
def clip (levels : Nat) : Fragment → Fragment
  | .array items ending =>
    match levels with
    | 0 => .unreadable (isSkippable (.array items ending))
    | levels + 1 => .array (clipItems levels items) ending
  | .object members ending =>
    match levels with
    | 0 => .unreadable (isSkippable (.object members ending))
    | levels + 1 => .object (clipMembers levels members) ending
  | fragment => fragment

/-- Clips the items of an array. -/
def clipItems (levels : Nat) : List Fragment → List Fragment
  | [] => []
  | item :: rest => item.clip levels :: clipItems levels rest

/-- Clips the values of the members of an object. -/
def clipMembers (levels : Nat) : List (String × Fragment) → List (String × Fragment)
  | [] => []
  | (key, value) :: rest => (key, value.clip levels) :: clipMembers levels rest

end

end Fragment

end ContractInterface.Json
