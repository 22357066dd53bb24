import ContractInterface.Json.Fragment
import ContractInterface.Json.Numeral
import ContractInterface.Text.Hex

/-!
# Reading JSON text

`Document.read` turns a text into the `Fragment` at its root and the word whether nothing but blanks
follows it.  The text is strict JSON: no comments, no trailing commas, no control characters in
strings, no superfluous zeros, and blanks are space, tab, line feed and carriage return only.

Three things are JSON by its grammar and yet cannot be read, only skipped: a string with half a
surrogate pair, a number beyond the range of a double, and containers nested deeper than
`Document.maxNesting` levels.

A key is seen before the colon after it is looked for: a missing colon is a fault of the value.
-/

namespace ContractInterface.Json

namespace Reader

/-- The blanks of JSON text. -/
def isBlank (c : Char) : Bool := c == ' ' || c == '\t' || c == '\n' || c == '\r'

/-- The text after its leading blanks. -/
def dropBlanks (text : List Char) : List Char := text.dropWhile isBlank

/-! ## Strings

A string is first read as a list of code points in which escapes may leave surrogates; those are
paired afterwards. -/

/-- The code point of a four-digit escape. -/
def escapedUnit? (a b c d : Char) : Option Nat := do
  let a ← Text.hexValue? a
  let b ← Text.hexValue? b
  let c ← Text.hexValue? c
  let d ← Text.hexValue? d
  return 0x1000 * a + 0x100 * b + 0x10 * c + d

/-- The code point of a one-letter escape. -/
def escapedChar? : Char → Option Nat
  | '"' => some 0x22
  | '\\' => some 0x5C
  | '/' => some 0x2F
  | 'b' => some 0x08
  | 'f' => some 0x0C
  | 'n' => some 0x0A
  | 'r' => some 0x0D
  | 't' => some 0x09
  | _ => none

/-- Reads a string to its closing quote, of which the opening one is gone already; `units` are the
code points met so far, the last first. -/
def readUnits (units : List Nat) : List Char → Option (List Nat × List Char)
  | [] => none
  | '"' :: rest => some (units.reverse, rest)
  | '\\' :: 'u' :: a :: b :: c :: d :: rest =>
    match escapedUnit? a b c d with
    | some unit => readUnits (unit :: units) rest
    | none => none
  | '\\' :: c :: rest =>
    match escapedChar? c with
    | some unit => readUnits (unit :: units) rest
    | none => none
  | c :: rest => if c.toNat < 0x20 ∨ c = '\\' then none else readUnits (c.toNat :: units) rest

/-- Whether a code point is the first half of a surrogate pair. -/
def isHighSurrogate (unit : Nat) : Bool := 0xD800 ≤ unit && unit < 0xDC00

/-- Whether a code point is the second half of a surrogate pair. -/
def isLowSurrogate (unit : Nat) : Bool := 0xDC00 ≤ unit && unit < 0xE000

/-- The characters of a list of code points, surrogates paired, if none stands alone. -/
def pairUnits? : List Nat → Option (List Char)
  | [] => some []
  | [unit] =>
    if isHighSurrogate unit || isLowSurrogate unit then none else some [Char.ofNat unit]
  | unit :: next :: rest =>
    if isHighSurrogate unit then
      if isLowSurrogate next then
        (Char.ofNat (0x10000 + 0x400 * (unit - 0xD800) + (next - 0xDC00)) :: ·) <$> pairUnits? rest
      else none
    else if isLowSurrogate unit then none
    else (Char.ofNat unit :: ·) <$> pairUnits? (next :: rest)

/-- The text of a list of code points, if no surrogate stands alone. -/
def text? (units : List Nat) : Option String := String.ofList <$> pairUnits? units

/-! ## Values

Each reader gives what it could read and the text after it, or no text if it met something that is
not JSON. -/

/-- A value that is not JSON. -/
def notJson : Fragment × Option (List Char) := (.unreadable false, none)

/-- Reads a string after its opening quote. -/
def readString (text : List Char) : Fragment × Option (List Char) :=
  match readUnits [] text with
  | none => notJson
  | some (units, rest) =>
    match text? units with
    | some s => (.string s, some rest)
    | none => (.unreadable true, some rest)

/-- Reads a number. -/
def readNumber (text : List Char) : Fragment × Option (List Char) :=
  match Numeral.scan? text with
  | none => notJson
  | some (numeral, rest) =>
    (if numeral.isInRange then .number numeral.render else .unreadable true, some rest)

mutual

/-- Reads a value. -/
def readValue : Nat → List Char → Fragment × Option (List Char)
  | 0, _ => notJson
  | fuel + 1, text =>
    match dropBlanks text with
    | 'n' :: 'u' :: 'l' :: 'l' :: rest => (.null, some rest)
    | 't' :: 'r' :: 'u' :: 'e' :: rest => (.bool true, some rest)
    | 'f' :: 'a' :: 'l' :: 's' :: 'e' :: rest => (.bool false, some rest)
    | '"' :: rest => readString rest
    | '[' :: rest =>
      match dropBlanks rest with
      | ']' :: rest => (.array [] .closed, some rest)
      | rest =>
        let (items, ending, rest) := readItems fuel rest
        (.array items ending, rest)
    | '\x7b' :: rest =>
      match dropBlanks rest with
      | '\x7d' :: rest => (.object [] .closed, some rest)
      | rest =>
        let (members, ending, rest) := readMembers fuel rest
        (.object members ending, rest)
    | text => readNumber text

/-- Reads the items of an array up to its closing bracket. -/
def readItems : Nat → List Char → List Fragment × Ending × Option (List Char)
  | 0, _ => ([], .broken, none)
  | fuel + 1, text =>
    match readValue fuel text with
    | (item, none) => ([item], .broken, none)
    | (item, some rest) =>
      match dropBlanks rest with
      | ',' :: rest =>
        let (items, ending, rest) := readItems fuel rest
        (item :: items, ending, rest)
      | ']' :: rest => ([item], .closed, some rest)
      | _ => ([item], .broken, none)

/-- Reads the members of an object up to its closing brace.  From a key that can only be skipped the
rest of the object can only be skipped. -/
def readMembers : Nat → List Char → List (String × Fragment) × Ending × Option (List Char)
  | 0, _ => ([], .broken, none)
  | fuel + 1, text =>
    match dropBlanks text with
    | '"' :: rest =>
      match readUnits [] rest with
      | none => ([], .broken, none)
      | some (units, rest) =>
        let (value, members, ending, rest) := readMember fuel rest
        match text? units with
        | some key => ((key, value) :: members, ending, rest)
        | none => ([], if rest.isSome then .skippable else .broken, rest)
    | _ => ([], .broken, none)

/-- Reads a colon, the value after it and the members after that. -/
def readMember : Nat → List Char →
    Fragment × List (String × Fragment) × Ending × Option (List Char)
  | 0, _ => (.unreadable false, [], .broken, none)
  | fuel + 1, text =>
    match dropBlanks text with
    | ':' :: rest =>
      match readValue fuel rest with
      | (value, none) => (value, [], .broken, none)
      | (value, some rest) =>
        match dropBlanks rest with
        | ',' :: rest =>
          let (members, ending, rest) := readMembers fuel rest
          (value, members, ending, rest)
        | '\x7d' :: rest => (value, [], .closed, some rest)
        | _ => (value, [], .broken, none)
    | _ => (.unreadable false, [], .broken, none)

end

end Reader

/-- A JSON text as read. -/
structure Document where
  /-- The value, as far as it can be read. -/
  root : Fragment
  /-- Whether only blanks follow the value. -/
  isEnded : Bool
deriving Repr, Inhabited

namespace Document

/-- The number of nested containers that can be read. -/
def maxNesting : Nat := 127

/-- Reads a text.  No value of the text takes more than two steps a character. -/
def read (text : String) : Document :=
  let chars := text.toList
  match Reader.readValue (2 * chars.length + 2) chars with
  | (root, none) => ⟨root.clip maxNesting, false⟩
  | (root, some rest) => ⟨root.clip maxNesting, (Reader.dropBlanks rest).isEmpty⟩

/-- The JSON value that the text writes, if it can be read. -/
def value? (document : Document) : Option Json :=
  if document.isEnded then document.root.value? else none

end Document

/-- The JSON value that a text writes, if it can be read. -/
def parse? (text : String) : Option Json := (Document.read text).value?

end ContractInterface.Json
