/-!
# Tables of code point ranges

A property of characters is given as a table of closed ranges of code points.  The tables that
this library carries hold what lies beyond ASCII; the ASCII part of a property is written out as
a test beside its table.
-/

namespace AskSql.Text

/-- Closed ranges of code points, first and last, in ascending order. -/
abbrev Ranges := Array (Nat × Nat)

/-- A character is covered when one of the ranges holds its code point. -/
def Ranges.covers (ranges : Ranges) (c : Char) : Bool :=
  ranges.any fun r => r.1 ≤ c.toNat && c.toNat ≤ r.2

/-- Characters below `0x80` are left to a test of their own, all others to the table. -/
def Ranges.beyondAscii (ranges : Ranges) (ascii : Char → Bool) (c : Char) : Bool :=
  if c.toNat < 0x80 then ascii c else ranges.covers c

end AskSql.Text
