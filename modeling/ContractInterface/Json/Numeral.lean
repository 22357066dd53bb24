import ContractInterface.Text.Decimal

/-!
# JSON numerals

The numerals of JSON: an optional minus sign, digits without superfluous leading zeros, optionally a
point and digits, optionally an exponent.  `Numeral.scan?` takes one off the front of a text.

A numeral whose value is beyond the range of a double can be skipped but not read
(`Numeral.isInRange`).  The value is taken in double arithmetic: the leading digits, as far as they
fit in 64 bits, times a power of ten, both factors and the product rounded to 53 binary places.
-/

namespace ContractInterface.Json

/-- The parts of a numeral. -/
structure Numeral where
  negative : Bool
  whole : List Char
  fraction : List Char
  exponentNegative : Bool
  exponent : List Char
deriving Repr, Inhabited

namespace Numeral

/-! ## Scanning -/

/-- Takes an optional minus sign off the front of a text. -/
def scanMinus : List Char → Bool × List Char
  | '-' :: rest => (true, rest)
  | text => (false, text)

/-- Takes an optional sign off the front of a text; the answer is whether it is a minus. -/
def scanSign : List Char → Bool × List Char
  | '-' :: rest => (true, rest)
  | '+' :: rest => (false, rest)
  | text => (false, text)

/-- Takes a non-empty run of digits off the front of a text. -/
def scanDigits? (text : List Char) : Option (List Char × List Char) :=
  let digits := text.takeWhile Char.isDigit
  if digits.isEmpty then none else some (digits, text.dropWhile Char.isDigit)

/-- Takes the digits of a whole number off the front of a text; a leading zero stands alone. -/
def scanWhole? (text : List Char) : Option (List Char × List Char) := do
  let (digits, rest) ← scanDigits? text
  if digits.head? == some '0' && digits.length != 1 then none else some (digits, rest)

/-- Takes an optional point and the digits after it off the front of a text. -/
def scanFraction? : List Char → Option (List Char × List Char)
  | '.' :: rest => scanDigits? rest
  | text => some ([], text)

/-- Takes an optional exponent off the front of a text. -/
def scanExponent? : List Char → Option (Bool × List Char × List Char)
  | text@(c :: rest) =>
    if c = 'e' ∨ c = 'E' then do
      let (negative, rest) := scanSign rest
      let (digits, rest) ← scanDigits? rest
      return (negative, digits, rest)
    else some (false, [], text)
  | [] => some (false, [], [])

/-- Takes a numeral off the front of a text. -/
def scan? (text : List Char) : Option (Numeral × List Char) := do
  let (negative, text) := scanMinus text
  let (whole, text) ← scanWhole? text
  let (fraction, text) ← scanFraction? text
  let (exponentNegative, exponent, text) ← scanExponent? text
  return ({ negative, whole, fraction, exponentNegative, exponent }, text)

/-! ## Text -/

/-- The sign as it is written. -/
def minus (negative : Bool) : List Char := if negative then ['-'] else []

/-- A numeral in its plainest spelling. -/
def render (n : Numeral) : String :=
  String.ofList (minus n.negative ++ n.whole
    ++ (if n.fraction.isEmpty then [] else '.' :: n.fraction)
    ++ (if n.exponent.isEmpty then [] else 'e' :: minus n.exponentNegative ++ n.exponent))

/-! ## Range -/

/-- The number of the leading digits that fit in 64 bits, and the digits left over. -/
def leadingValue (value : Nat) : List Char → Nat × List Char
  | [] => (value, [])
  | c :: rest =>
    let next := 10 * value + Text.digitValue c
    if next < 1 <<< 64 then leadingValue next rest else (value, c :: rest)

/-- Rounds to 53 binary places, ties to the even neighbour. -/
def roundSignificant (n : Nat) : Nat :=
  if n < 1 <<< 53 then n
  else
    let places := n.log2 - 52
    let kept := n >>> places
    let lost := n % (1 <<< places)
    let half := 1 <<< (places - 1)
    let up := half < lost || (lost == half && kept % 2 == 1)
    (if up then kept + 1 else kept) <<< places

/-- Numbers from here on round past the largest double. -/
def overflowBound : Nat := (1 <<< 1024) - (1 <<< 970)

/-- The leading digits and the power of ten that they are to be multiplied with. -/
def scaled (n : Numeral) : Nat × Int :=
  let exponent : Int :=
    if n.exponentNegative then -(Text.digitsValue n.exponent : Int) else Text.digitsValue n.exponent
  match leadingValue 0 n.whole with
  | (value, []) =>
    let (value, left) := leadingValue value n.fraction
    (value, exponent - (n.fraction.length - left.length : Nat))
  | (value, left) => (value, exponent + left.length)

/-- Whether the value of a numeral is within the range of a double. -/
def isInRange (n : Numeral) : Bool :=
  let (value, exponent) := n.scaled
  if value = 0 ∨ exponent < 0 then true
  else if 308 < exponent then false
  else roundSignificant value * roundSignificant (Nat.pow 10 exponent.toNat) < overflowBound

end Numeral

end ContractInterface.Json
