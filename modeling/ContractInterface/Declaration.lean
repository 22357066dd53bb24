import ContractInterface.Call
import ContractInterface.StaticType

/-!
# Declarations

A function that a program declares statically: its name, the access it needs, the types of its
arguments and what it gives back.  `Declaration.verify` compares a declaration with an interface,
and `Declaration.prepare` prepares a call with arguments of the declared types.

A declared function is looked up by its canonical text, so no overload can be mistaken for another.
-/

namespace ContractInterface

/-- What a declared function gives back. -/
inductive DeclaredOutput where
  | void
  /-- One result. -/
  | single (type : StaticType)
  /-- Several results, or one that is told apart from its own value. -/
  | record (components : List StaticType)
deriving Repr, Inhabited

/-- The output that is declared. -/
def DeclaredOutput.output : DeclaredOutput → Output
  | .void => .void
  | .single type => .single type.abiType
  | .record components => .record (StaticType.fields components)

/-- A declared function. -/
structure Declaration where
  name : String
  access : Access
  arguments : List StaticType
  result : DeclaredOutput
deriving Repr, Inhabited

namespace Declaration

/-- The canonical text of the function. -/
def signature (declaration : Declaration) : String :=
  canonicalSignature declaration.name (StaticType.fields declaration.arguments)

/-- The output that is declared. -/
def output (declaration : Declaration) : Output := declaration.result.output

/-- Requires that a function be as declared, and gives its signature. -/
def verifyFunction (declaration : Declaration) (f : Function) : Except Fault FunctionSignature := do
  requireAccess f.name f.mutability declaration.access
  let signature ← asFault f.signature
  if declaration.output.sameType signature.output then return signature
  else
    .error (.declarationMismatch declaration.signature declaration.output.text
      signature.output.text)

/-- Requires that an interface have the declared function, and gives its signature. -/
def verify (declaration : Declaration) (interface : Interface) : Traced FunctionSignature := do
  let entry ← interface.lookup .function declaration.signature none {}
  Traced.ofExcept do
    let f ← Call.requireFunction declaration.signature entry
    declaration.verifyFunction f

/-- The call with its output narrowed to the declared one. -/
def narrow (declaration : Declaration) (call : Call) : Except Fault Call :=
  match call.output.narrow declaration.output with
  | some output => .ok { call with output }
  | none =>
    .error (.declarationMismatch declaration.name declaration.output.text call.output.text)

/-- Requires that a literal description have the declared function. -/
def verifyDescription (declaration : Declaration) : Description → Traced Unit
  | .literal interface => do
    let _ ← declaration.verify interface
    return ()
  | .widened _ => return ()

/-- Prepares a call of the declared function. -/
def prepare (declaration : Declaration) (description : Description)
    (args : StaticType.Carriers declaration.arguments) : Traced Call := do
  declaration.verifyDescription description
  let values := StaticType.toValues declaration.arguments args
  let call ← Call.prepare description declaration.signature declaration.access (some values) {}
  Traced.ofExcept (declaration.narrow call)

end Declaration

end ContractInterface
