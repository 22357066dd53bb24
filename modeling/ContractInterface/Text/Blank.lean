/-!
# Blank characters

The characters with the Unicode property `White_Space`, and their removal from a text.  A qualified
reference such as `transfer( address , uint256 )` names the same member as
`transfer(address,uint256)`, and the blanks that are ignored there are exactly these.

The look-alikes that lack the property (zero width space, word joiner, byte order mark, the
information separators) are ordinary characters.
-/

namespace ContractInterface.Text

/-- The ranges of code points with the property `White_Space`, in increasing order. -/
def blankRanges : List (Nat × Nat) :=
  [(0x09, 0x0D), (0x20, 0x20), (0x85, 0x85), (0xA0, 0xA0), (0x1680, 0x1680), (0x2000, 0x200A),
    (0x2028, 0x2029), (0x202F, 0x202F), (0x205F, 0x205F), (0x3000, 0x3000)]

/-- Whether a character is blank. -/
def isBlank (c : Char) : Bool :=
  blankRanges.any fun range => range.1 ≤ c.toNat && c.toNat ≤ range.2

/-- The text without its blank characters, wherever they stand. -/
def withoutBlanks (s : String) : String :=
  String.ofList (s.toList.filter fun c => !isBlank c)

end ContractInterface.Text
