/-!
# Blank characters

The Unicode property White_Space. It holds more than core's `Char.isWhitespace`, which is ASCII only and without
the vertical tab and the form feed.
-/

namespace Downhill.Text

/-- First and last code point of each block of white space. -/
def blankBlocks : List (Nat × Nat) :=
  [(0x0009, 0x000D), (0x0020, 0x0020), (0x0085, 0x0085), (0x00A0, 0x00A0), (0x1680, 0x1680), (0x2000, 0x200A),
    (0x2028, 0x2029), (0x202F, 0x202F), (0x205F, 0x205F), (0x3000, 0x3000)]

/-- White space of any script. -/
def isBlank (c : Char) : Bool :=
  blankBlocks.any fun block => block.1 ≤ c.toNat && c.toNat ≤ block.2

end Downhill.Text
