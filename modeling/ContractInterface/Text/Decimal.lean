/-!
# Decimal numerals

Reading runs of ASCII digits as natural numbers below `2 ^ 64`, the bound on every length and width
an interface description can write.  Two readings are used: `boundedValue?` takes any non-empty run,
leading zeros included, and `canonicalValue?` insists on the one numeral that printing would give.
-/

namespace ContractInterface.Text

/-- The exclusive bound on lengths and widths. -/
def lengthBound : Nat := 1 <<< 64

/-- The digit a character stands for; meant for characters with `Char.isDigit`. -/
def digitValue (c : Char) : Nat := c.toNat - '0'.toNat

/-- The number a run of digits stands for, the first digit weighing most. -/
def digitsValue (digits : List Char) : Nat :=
  digits.foldl (fun n c => 10 * n + digitValue c) 0

/-- The value of a non-empty run of digits, if it is below the bound. -/
def boundedValue? (digits : List Char) : Option Nat :=
  if digits.isEmpty then none
  else if digitsValue digits < lengthBound then some (digitsValue digits)
  else none

/-- The value of a numeral without superfluous leading zeros, if it is below the bound. -/
def canonicalValue? (numeral : List Char) : Option Nat :=
  if numeral.all Char.isDigit && (numeral.head? != some '0' || numeral.length == 1) then
    boundedValue? numeral
  else none

end ContractInterface.Text
