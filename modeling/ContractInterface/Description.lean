import ContractInterface.Interface
import ContractInterface.Lookup

/-!
# Descriptions

An interface is described literally, or by loosely typed JSON records of which little is known: a
*widened* description.  A record counts if it is an object; whatever it says that is not of the
expected kind is as if it were absent.

`LooseRecord.find?` finds a record by the name before the parenthesis of a reference and prefers one
with the right number of inputs.  Blanks in the reference are not removed.
-/

namespace ContractInterface

open Json (Document Fragment)

/-- A record of a widened description. -/
structure LooseRecord where
  members : List (String × Json)
deriving Repr, Inhabited

namespace LooseRecord

/-- The record that a JSON value is, if it is an object. -/
def ofJson? : Json → Option LooseRecord
  | .object members => some ⟨members⟩
  | _ => none

/-- The value under a key. -/
def get? (record : LooseRecord) (key : String) : Option Json :=
  (Json.object record.members).member? key

/-- The name; empty if there is none. -/
def name (record : LooseRecord) : String := ((record.get? "name").bind Json.string?).getD ""

/-- The type of entry; a function if there is none. -/
def type (record : LooseRecord) : String :=
  ((record.get? "type").bind Json.string?).getD "function"

/-- The mutability, if it is one that is known. -/
def mutability? (record : LooseRecord) : Option Mutability :=
  (record.get? "stateMutability").bind fun json => (Mutability.decode (.ofJson json)).toOption

/-- The inputs; none if they are no list. -/
def inputs (record : LooseRecord) : List Json :=
  ((record.get? "inputs").bind Json.array?).getD []

/-- The name of an input; empty if there is none. -/
def inputName (input : Json) : String := ((input.member? "name").bind Json.string?).getD ""

/-- Whether an input says that it is indexed. -/
def inputIndexed (input : Json) : Bool := ((input.member? "indexed").bind Json.bool?).getD false

/-- The names of the inputs. -/
def inputNames (record : LooseRecord) : List String := record.inputs.map inputName

/-- The number of inputs. -/
def inputCount (record : LooseRecord) : Nat := record.inputs.length

/-- The flags of the inputs. -/
def indexedFlags (record : LooseRecord) : List Bool := record.inputs.map inputIndexed

/-- Whether the record says that it is anonymous. -/
def anonymous (record : LooseRecord) : Bool :=
  ((record.get? "anonymous").bind Json.bool?).getD false

/-- Whether a record is for the member of the given kind and name. -/
def isMember (kind : MemberKind) (name : String) (record : LooseRecord) : Bool :=
  record.type == kind.name && record.name == name

/-- The record for a reference: the first of its name with the given number of inputs, or else the
first of its name. -/
def find? (records : List Json) (kind : MemberKind) (reference : String) (count : Option Nat) :
    Option LooseRecord :=
  let candidates :=
    (records.filterMap ofJson?).filter (isMember kind (Reference.baseName reference))
  match count with
  | none => candidates.head?
  | some count => (candidates.find? fun record => record.inputCount == count).or candidates.head?

/-- A record's inputs as inputs of which only the names are known. -/
def fields (record : LooseRecord) : List Field :=
  record.inputNames.map fun name => (name, .unknown)

/-- The signature of an event of which only names and flags are known. -/
def eventSignature (record : LooseRecord) : EventSignature :=
  ⟨record.name,
    record.inputs.map fun input => ⟨inputName input, .unknown, inputIndexed input⟩,
    record.anonymous⟩

end LooseRecord

/-- A description of an interface. -/
inductive Description where
  | literal (interface : Interface)
  | widened (records : List Json)
deriving Repr, Inhabited

namespace Description

/-- Whether a description is widened. -/
def isWidened : Description → Bool
  | .literal _ => false
  | .widened _ => true

/-- The interface of a literal description. -/
def interface? : Description → Option Interface
  | .literal interface => some interface
  | .widened _ => none

/-- The widened description that a parsed value gives, which must be a list. -/
def widenedOfJson (json : Json) : Decoded Description :=
  match json.array? with
  | some records => .ok (.widened records)
  | none => .error ((Fragment.ofJson json).unexpected .list)

/-- The widened description that a JSON text gives, which must be a list.  That it is none shows
before the rest of the text is read. -/
def widenedOfText (text : String) : Decoded Description :=
  match (Json.parse? text).bind Json.array? with
  | some records => .ok (.widened records)
  | none =>
    match (Document.read text).root with
    | .array .. => .error .unreadable
    | fragment => .error (fragment.unexpected .list)

end Description

end ContractInterface
