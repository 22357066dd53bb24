import ContractInterface.Entry.Decoding
import ContractInterface.Fault
import ContractInterface.Json.Reader
import ContractInterface.Signature

/-!
# Interfaces

An interface is the list of its entries in declaration order.  It is read from JSON, as a text
(`Interface.ofText`) or as a parsed value (`Interface.ofJson`), and can be validated as a whole:
every type resolves, and no two members of a kind have the same canonical text.
-/

namespace ContractInterface

open Json (Fragment Document)

/-- A described interface. -/
structure Interface where
  entries : List Entry
deriving Repr, Inhabited

namespace Interface

/-! ## Reading -/

/-- Decodes an interface. -/
def decode (fragment : Fragment) : Decoded Interface := do
  let entries ← fragment.decodeList Entry.decode
  return ⟨entries⟩

/-- The interface that a parsed value describes. -/
def ofJson (json : Json) : Decoded Interface := decode (.ofJson json)

/-- The interface that a JSON text describes. -/
def ofText (text : String) : Decoded Interface := do
  let document := Document.read text
  let interface ← decode document.root
  if document.isEnded then return interface else .error .unreadable

/-! ## Parts -/

/-- The functions, in declaration order. -/
def functions (interface : Interface) : List Function :=
  interface.entries.filterMap fun
    | .function f => some f
    | _ => none

/-- The events, in declaration order. -/
def events (interface : Interface) : List Event :=
  interface.entries.filterMap fun
    | .event e => some e
    | _ => none

/-- The parameters and the mutability of the first constructor. -/
def constructor? (interface : Interface) : Option (List Parameter × Mutability) :=
  interface.entries.findSome? fun
    | .constructor inputs mutability => some (inputs, mutability)
    | _ => none

/-- The members of the given kind and name, in declaration order. -/
def members (interface : Interface) (kind : MemberKind) (name : String) : List Entry :=
  interface.entries.filter (Entry.isMember kind name)

/-! ## Validation -/

/-- Validates entries that come after members with the kinds and canonical texts in `seen`. -/
def validateAfter (seen : List (MemberKind × String)) : List Entry → Except Fault Unit
  | [] => .ok ()
  | entry :: rest =>
    match entry.signature with
    | .error fault => .error (.unresolvableType fault)
    | .ok signature =>
      match entry.memberKind?, signature.canonical? with
      | some kind, some canonical =>
        if (kind, canonical) ∈ seen then .error (.duplicateSignature canonical)
        else validateAfter ((kind, canonical) :: seen) rest
      | _, _ => validateAfter seen rest

/-- Requires that every type of the interface resolve and that no signature repeat. -/
def validate (interface : Interface) : Except Fault Unit := validateAfter [] interface.entries

end Interface

end ContractInterface
