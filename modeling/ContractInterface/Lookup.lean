import ContractInterface.Interface
import ContractInterface.Settings
import ContractInterface.Text.Blank
import ContractInterface.Trace

/-!
# Looking up members

A member is referred to by its name, or by its canonical text, in which blanks do not matter.  A
name alone is enough if only one member of the kind has it; otherwise the overloads are told apart
by the arguments, under the policy of the settings.

Looking up by name resolves the inputs of every overload before it picks one, and looking up by
canonical text the signatures of the overloads up to the one it picks; a type that cannot be
resolved is the outcome then.
-/

namespace ContractInterface

namespace Reference

/-- Whether a reference is a canonical text rather than a name. -/
def isQualified (reference : String) : Bool := reference.toList.contains '('

/-- The part of a reference before its first parenthesis. -/
def baseName (reference : String) : String :=
  String.ofList (reference.toList.takeWhile fun c => c != '(')

end Reference

/-- The first entry of the given kind and base name that has the given canonical text. -/
def findCanonical? (kind : MemberKind) (base canonical : String) :
    List Entry → Except TypeFault (Option Entry)
  | [] => .ok none
  | entry :: rest =>
    if entry.isMember kind base then do
      let signature ← entry.signature
      if signature.canonical? = some canonical then return some entry
      else findCanonical? kind base canonical rest
    else findCanonical? kind base canonical rest

/-- The canonical texts of entries. -/
def canonicalTexts : List Entry → Except TypeFault (List String)
  | [] => .ok []
  | entry :: rest => do
    let signature ← entry.signature
    let texts ← canonicalTexts rest
    return signature.canonical?.getD "" :: texts

/-- The entries whose inputs accept the arguments; the inputs of all of them are resolved. -/
def compatibleEntries (args : List Value) : List Entry → Except TypeFault (List Entry)
  | [] => .ok []
  | entry :: rest => do
    let inputs ← resolveFields entry.inputs
    let compatible ← compatibleEntries args rest
    return if accepts inputs args then entry :: compatible else compatible

namespace Interface

/-- Looks up a member by its canonical text. -/
def lookupQualified (interface : Interface) (kind : MemberKind) (reference : String) :
    Traced Entry := do
  let canonical := Text.withoutBlanks reference
  let base := Reference.baseName canonical
  let found ← Traced.ofExcept (asFault (findCanonical? kind base canonical interface.entries))
  match found with
  | none => Traced.fail (.memberNotFound reference kind)
  | some entry =>
    Traced.emit (.selectedQualified reference kind)
    return entry

/-- Picks one of several overloads by the arguments. -/
def disambiguate (name : String) (candidates : List Entry) (args : List Value)
    (settings : Settings) : Traced Entry := do
  let compatible ← Traced.ofExcept (asFault (compatibleEntries args candidates))
  Traced.emit (.disambiguating name compatible.length args.length)
  match compatible, settings.overloads with
  | [], _ =>
    let texts ← Traced.ofExcept (asFault (canonicalTexts candidates))
    Traced.fail (.noMatchingOverload name texts)
  | entry :: _, .firstDeclared => return entry
  | [entry], .strict => return entry
  | compatible, .strict =>
    let texts ← Traced.ofExcept (asFault (canonicalTexts compatible))
    Traced.fail (.ambiguousMember name texts)

/-- Looks up a member by its name and, if there are several of that name, by the arguments. -/
def lookupPlain (interface : Interface) (kind : MemberKind) (name : String)
    (args : Option (List Value)) (settings : Settings) : Traced Entry := do
  let candidates := interface.members kind name
  Traced.emit (.selecting name kind candidates.length)
  match candidates, args with
  | [], _ => Traced.fail (.memberNotFound name kind)
  | [entry], _ => return entry
  | candidates, none =>
    let texts ← Traced.ofExcept (asFault (canonicalTexts candidates))
    Traced.fail (.ambiguousMember name texts)
  | candidates, some args => disambiguate name candidates args settings

/-- Looks up the member that a reference denotes. -/
def lookup (interface : Interface) (kind : MemberKind) (reference : String)
    (args : Option (List Value)) (settings : Settings) : Traced Entry :=
  if Reference.isQualified reference then interface.lookupQualified kind reference
  else interface.lookupPlain kind reference args settings

end Interface

end ContractInterface
