import ContractInterface.Decoding
import ContractInterface.Entry

/-!
# Decoding entries

Entries and parameters are JSON objects, of which the known keys are decoded as they are met and the
others are skipped.  An entry or a parameter may also be an array of the values of the known keys in
a fixed order, missing ones at the end taking their defaults.

What an entry says as a whole is judged when it has been read to its end: first its type, then its
name.  The object of an event's parameter is read to its end, of which only `indexed` is checked on
the way, before its other keys are decoded: its components are *buffered*.
-/

namespace ContractInterface

open Json (Fragment Ending)

/-! ## Parameters -/

/-- The keys of a parameter, in the order of its array form. -/
def Parameter.keys : List String := ["name", "type", "components", "internalType"]

/-- What has been decoded of a parameter. -/
structure Parameter.Draft where
  name : Option String := none
  type : Option String := none
  components : Option (Option (List Parameter)) := none
  internalType : Option (Option String) := none
deriving Repr, Inhabited

namespace Parameter

/-- Decodes the value under a key other than `components`. -/
def Draft.visit (draft : Draft) (key : String) (value : Fragment) : Decoded Draft :=
  if key = "name" then do
    let name ← fillOnce key draft.name value.decodeString
    return { draft with name }
  else if key = "type" then do
    let type ← fillOnce key draft.type value.decodeString
    return { draft with type }
  else if key = "internalType" then do
    let internalType ← fillOnce key draft.internalType (value.decodeOptional Fragment.decodeString)
    return { draft with internalType }
  else do
    value.skip
    return draft

/-- The parameter, if its type is known; otherwise the given fault. -/
def Draft.finish (draft : Draft) (missing : DecodeFault) : Decoded Parameter :=
  match draft.type with
  | none => .error missing
  | some type =>
    .ok ⟨draft.name.getD "", type, draft.components.getD none, draft.internalType.getD none⟩

mutual

/-- Decodes a parameter, which may have been buffered. -/
def decode (buffered : Bool) : Fragment → Decoded Parameter
  | .object members ending => do
    let draft ← decodeMembers buffered {} members
    ending.require
    draft.finish (.missingField "type")
  | .array items ending => do
    let surplus := ending.surplus buffered keys.length items.length
    let draft ← decodePositions buffered surplus {} keys items
    ending.require
    draft.finish (.tooFewItems .parameter)
  | fragment => .error (fragment.unexpected .parameter)

/-- Decodes the value under a key. -/
def decodeMember (buffered : Bool) (draft : Draft) (key : String) : Fragment → Decoded Draft
  | .array items ending =>
    if key = "components" then do
      let components ← fillOnce key draft.components do
        let components ← decodeItems buffered items
        ending.require
        return some components
      return { draft with components }
    else draft.visit key (.array items ending)
  | .null =>
    if key = "components" then do
      let components ← fillOnce key draft.components (.ok none)
      return { draft with components }
    else draft.visit key .null
  | value =>
    if key = "components" then do
      let components ← fillOnce key draft.components (.error (value.unexpected .list))
      return { draft with components }
    else draft.visit key value

/-- Decodes the members of an object. -/
def decodeMembers (buffered : Bool) (draft : Draft) : List (String × Fragment) → Decoded Draft
  | [] => .ok draft
  | (key, value) :: rest => do
    let draft ← decodeMember buffered draft key value
    decodeMembers buffered draft rest

/-- Decodes the items of an array form; `surplus` is the fault if there are too many. -/
def decodePositions (buffered : Bool) (surplus : DecodeFault) (draft : Draft) :
    List String → List Fragment → Decoded Draft
  | _, [] => .ok draft
  | [], _ :: _ => .error surplus
  | key :: keys, value :: rest => do
    let draft ← decodeMember buffered draft key value
    decodePositions buffered surplus draft keys rest

/-- Decodes parameters one after another. -/
def decodeItems (buffered : Bool) : List Fragment → Decoded (List Parameter)
  | [] => .ok []
  | item :: rest => do
    let parameter ← decode buffered item
    let parameters ← decodeItems buffered rest
    return parameter :: parameters

end

end Parameter

namespace EventParameter

/-- Decodes the flag of an event's parameter, and requires the other values to be readable. -/
def decodeIndexed (indexed : Option Bool) : List (String × Fragment) → Decoded (Option Bool)
  | [] => .ok indexed
  | (key, value) :: rest =>
    if key = "indexed" then do
      let indexed ← fillOnce key indexed value.decodeBool
      decodeIndexed indexed rest
    else do
      value.requireReadable
      decodeIndexed indexed rest

/-- Decodes a parameter of an event, which has no array form. -/
def decode : Fragment → Decoded EventParameter
  | .object members ending => do
    let indexed ← decodeIndexed none members
    ending.require
    let draft ← Parameter.decodeMembers true {} members
    let parameter ← draft.finish (.missingField "type")
    return ⟨parameter, indexed.getD false⟩
  | fragment => .error (fragment.unexpected .input)

end EventParameter

/-! ## Entries -/

/-- Decodes a mutability. -/
def Mutability.decode : Fragment → Decoded Mutability :=
  Fragment.decodeWord Mutability.ofName? ["pure", "view", "nonpayable", "payable"]

/-- The keys of an entry, in the order of its array form. -/
def Entry.keys : List String :=
  ["type", "name", "inputs", "outputs", "stateMutability", "constant", "payable", "anonymous"]

/-- What has been decoded of an entry. -/
structure Entry.Draft where
  type : Option (Option String) := none
  name : Option String := none
  inputs : Option (List EventParameter) := none
  outputs : Option (List Parameter) := none
  stateMutability : Option (Option Mutability) := none
  constant : Option (Option Bool) := none
  payable : Option (Option Bool) := none
  anonymous : Option Bool := none
deriving Repr, Inhabited

namespace Entry

/-- Decodes the value under a key. -/
def Draft.visit (draft : Draft) (key : String) (value : Fragment) : Decoded Draft :=
  if key = "type" then do
    let type ← fillOnce key draft.type (value.decodeOptional Fragment.decodeString)
    return { draft with type }
  else if key = "name" then do
    let name ← fillOnce key draft.name value.decodeString
    return { draft with name }
  else if key = "inputs" then do
    let inputs ← fillOnce key draft.inputs (value.decodeList EventParameter.decode)
    return { draft with inputs }
  else if key = "outputs" then do
    let outputs ← fillOnce key draft.outputs (value.decodeList (Parameter.decode false))
    return { draft with outputs }
  else if key = "stateMutability" then do
    let stateMutability ←
      fillOnce key draft.stateMutability (value.decodeOptional Mutability.decode)
    return { draft with stateMutability }
  else if key = "constant" then do
    let constant ← fillOnce key draft.constant (value.decodeOptional Fragment.decodeBool)
    return { draft with constant }
  else if key = "payable" then do
    let payable ← fillOnce key draft.payable (value.decodeOptional Fragment.decodeBool)
    return { draft with payable }
  else if key = "anonymous" then do
    let anonymous ← fillOnce key draft.anonymous value.decodeBool
    return { draft with anonymous }
  else do
    value.skip
    return draft

/-- Decodes the members of an object. -/
def Draft.visitMembers (draft : Draft) : List (String × Fragment) → Decoded Draft
  | [] => .ok draft
  | (key, value) :: rest => do
    let draft ← draft.visit key value
    draft.visitMembers rest

/-- Decodes the items of an array form; `surplus` is the fault if there are too many. -/
def Draft.visitPositions (surplus : DecodeFault) (draft : Draft) :
    List String → List Fragment → Decoded Draft
  | _, [] => .ok draft
  | [], _ :: _ => .error surplus
  | key :: keys, value :: rest => do
    let draft ← draft.visit key value
    draft.visitPositions surplus keys rest

/-- The mutability of the entry: as stated, or else by the older flags `constant` and `payable`. -/
def Draft.mutability (draft : Draft) : Mutability :=
  match draft.stateMutability with
  | some (some mutability) => mutability
  | _ =>
    if draft.constant = some (some true) then .view
    else if draft.payable = some (some true) then .payable
    else .nonpayable

/-- The parameters of the entry without their flags. -/
def Draft.plainInputs (draft : Draft) : List Parameter :=
  (draft.inputs.getD []).map EventParameter.parameter

/-- The name of the entry, which must not be empty. -/
def Draft.requireName (draft : Draft) (type : String) : Decoded String :=
  let name := draft.name.getD ""
  if name = "" then .error (.namelessEntry type) else .ok name

/-- The entry, judged as a whole. -/
def Draft.finish (draft : Draft) : Decoded Entry :=
  match (draft.type.getD none).getD "function" with
  | "function" => do
    let name ← draft.requireName "function"
    return .function ⟨name, draft.plainInputs, draft.outputs.getD [], draft.mutability⟩
  | "event" => do
    let name ← draft.requireName "event"
    return .event ⟨name, draft.inputs.getD [], draft.anonymous.getD false⟩
  | "error" => do
    let name ← draft.requireName "error"
    return .error name draft.plainInputs
  | "constructor" => .ok (.constructor draft.plainInputs draft.mutability)
  | "fallback" => .ok (.fallback draft.mutability)
  | "receive" => .ok .receive
  | type => .error (.unknownEntryType type)

/-- Decodes an entry. -/
def decode : Fragment → Decoded Entry
  | .object members ending => do
    let draft ← Draft.visitMembers {} members
    ending.require
    draft.finish
  | .array items ending => do
    let surplus := ending.surplus false keys.length items.length
    let draft ← Draft.visitPositions surplus {} keys items
    ending.require
    draft.finish
  | fragment => .error (fragment.unexpected .entry)

end Entry

end ContractInterface
