import ContractInterface.Text.Decimal

/-!
# Type expressions

A type as an interface description writes it: a base name such as `uint256` or `tuple`, then any
number of array suffixes, `[]` for a dynamic array and `[3]` for one of fixed length.  The suffix
written first is the innermost, so `uint8[2][]` is a dynamic array of pairs of bytes.

* `TypeExpr.parse` reads such a text and says where and why a text is none;
* `TypeExpr.render` writes it back, without leading zeros in the lengths;
* `TypeExpr.element?` strips the outermost suffix.

What a base name means is not decided here: any ASCII letter followed by ASCII letters and digits is
a base name.
-/

namespace ContractInterface

/-- The length of an array: open, or fixed. -/
inductive Extent where
  | dynamic
  | fixed (length : Nat)
deriving DecidableEq, Repr, Inhabited

/-- The array suffix that writes an extent. -/
def Extent.suffix : Extent → String
  | .dynamic => "[]"
  | .fixed length => "[" ++ Nat.repr length ++ "]"

/-- Whether an array of this extent can hold the given number of items. -/
def Extent.admits : Extent → Nat → Bool
  | .dynamic, _ => true
  | .fixed length, count => length == count

/-- A written type: base name and array suffixes, the innermost first. -/
structure TypeExpr where
  base : String
  extents : List Extent
deriving DecidableEq, Repr, Inhabited

namespace TypeExpr

/-- The suffixes as they are written one after another. -/
def renderExtents : List Extent → String
  | [] => ""
  | extent :: rest => extent.suffix ++ renderExtents rest

/-- The text of a type expression. -/
def render (t : TypeExpr) : String := t.base ++ renderExtents t.extents

/-- Whether the expression has an array suffix. -/
def isArray (t : TypeExpr) : Bool := !t.extents.isEmpty

/-- The element type and the length of the outermost array. -/
def element? (t : TypeExpr) : Option (TypeExpr × Extent) :=
  t.extents.getLast?.map fun outer => (⟨t.base, t.extents.dropLast⟩, outer)

/-! ## Reading -/

/-- Why a text is no type expression. -/
inductive SyntaxCause where
  | invalidName
  | unclosedBracket
  | invalidLength
  | trailingInput
deriving DecidableEq, Repr

/-- The words for a cause. -/
def SyntaxCause.message : SyntaxCause → String
  | .invalidName => "Expected a type name starting with a letter, like 'uint256' or 'tuple'."
  | .unclosedBracket => "A closing `]` was missing when attempting to parse an array suffix."
  | .invalidLength => "The length of the array is invalid; expecting an unsigned integer."
  | .trailingInput => "Unexpected characters after the type."

/-- A fault in a written type: the number of characters before it, and its cause. -/
structure SyntaxFault where
  position : Nat
  cause : SyntaxCause
deriving DecidableEq, Repr

/-- The words for a fault. -/
def SyntaxFault.message (fault : SyntaxFault) : String :=
  "Error parsing type token at character " ++ Nat.repr fault.position ++ ": " ++ fault.cause.message

mutual

/-- Reads the suffixes that start at `position` and end the text. -/
def scanExtents (position : Nat) : List Char → Except SyntaxFault (List Extent)
  | [] => .ok []
  | c :: rest =>
    if c = '[' then scanLength (position + 1) [] rest
    else .error ⟨position, .trailingInput⟩

/-- Reads the inside of a bracket that was opened just before `start`; `digits` are the digits of
the length met so far.  A length that cannot be read is a fault of its first digit. -/
def scanLength (start : Nat) (digits : List Char) : List Char → Except SyntaxFault (List Extent)
  | [] =>
    match Text.boundedValue? digits with
    | none => .error ⟨start, .invalidLength⟩
    | some _ => .error ⟨start + digits.length, .unclosedBracket⟩
  | c :: rest =>
    if c.isDigit then scanLength start (digits ++ [c]) rest
    else if c = ']' ∧ digits = [] then return .dynamic :: (← scanExtents (start + 1) rest)
    else
      match Text.boundedValue? digits with
      | none => .error ⟨start, .invalidLength⟩
      | some length =>
        if c = ']' then return .fixed length :: (← scanExtents (start + digits.length + 1) rest)
        else .error ⟨start + digits.length, .unclosedBracket⟩

end

/-- The base name a text starts with: a letter and the letters and digits after it, or nothing. -/
def baseName (text : List Char) : List Char :=
  match text with
  | c :: _ => if c.isAlpha then text.takeWhile Char.isAlphanum else []
  | [] => []

/-- Reads a type expression over the characters of its text. -/
def parseChars (text : List Char) : Except SyntaxFault TypeExpr :=
  let base := baseName text
  if base.isEmpty then .error ⟨0, .invalidName⟩
  else do
    let extents ← scanExtents base.length (text.drop base.length)
    return ⟨String.ofList base, extents⟩

/-- Reads a type expression. -/
def parse (text : String) : Except SyntaxFault TypeExpr := parseChars text.toList

end TypeExpr

end ContractInterface
