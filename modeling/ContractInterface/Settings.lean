import ContractInterface.Decoding
import ContractInterface.Json.Reader

/-!
# Settings

How overloads are told apart by arguments that several of them accept: the one declared first is
taken, or, strictly, none.
-/

namespace ContractInterface

open Json (Fragment Document)

/-- What to do about arguments that several overloads accept. -/
inductive OverloadPolicy where
  | firstDeclared
  | strict
deriving DecidableEq, Repr, Inhabited

namespace OverloadPolicy

/-- The word for a policy. -/
def name : OverloadPolicy → String
  | .firstDeclared => "firstDeclared"
  | .strict => "strict"

/-- The policy that a word names. -/
def ofName? : String → Option OverloadPolicy
  | "firstDeclared" => some .firstDeclared
  | "strict" => some .strict
  | _ => none

/-- Decodes a policy. -/
def decode : Fragment → Decoded OverloadPolicy :=
  Fragment.decodeWord ofName? ["firstDeclared", "strict"]

end OverloadPolicy

/-- The settings of a lookup. -/
structure Settings where
  overloads : OverloadPolicy := .firstDeclared
deriving DecidableEq, Repr, Inhabited

namespace Settings

/-- Decodes the members of an object; `overloads` is the policy met so far. -/
def decodeMembers (overloads : Option OverloadPolicy) :
    List (String × Fragment) → Decoded (Option OverloadPolicy)
  | [] => .ok overloads
  | (key, value) :: rest =>
    if key = "overloads" then do
      let overloads ← fillOnce key overloads (OverloadPolicy.decode value)
      decodeMembers overloads rest
    else do
      value.skip
      decodeMembers overloads rest

/-- Decodes settings: an object, or an array of at most the policy. -/
def decode : Fragment → Decoded Settings
  | .object members ending => do
    let overloads ← decodeMembers none members
    ending.require
    return ⟨overloads.getD .firstDeclared⟩
  | .array [] ending => do
    ending.require
    return {}
  | .array [value] ending => do
    let overloads ← OverloadPolicy.decode value
    ending.require
    return ⟨overloads⟩
  | .array (value :: rest) ending => do
    let _ ← OverloadPolicy.decode value
    .error (ending.surplus false 1 (rest.length + 1))
  | fragment => .error (fragment.unexpected .settings)

/-- The settings that a parsed value gives. -/
def ofJson (json : Json) : Decoded Settings := decode (.ofJson json)

/-- The settings that a JSON text gives. -/
def ofText (text : String) : Decoded Settings := do
  let document := Document.read text
  let settings ← decode document.root
  if document.isEnded then return settings else .error .unreadable

end Settings

end ContractInterface
