/-!
# Text with the case of ASCII letters set aside

Names of tables and columns are compared with the case of the letters `A` to `Z` set aside and
every other character kept.  `lower` gives the common form, `sameFold` the comparison.
-/

namespace AskSql.Text

/-- The text with its ASCII capitals made small and every other character kept. -/
def lower (s : String) : String :=
  String.ofList (s.toList.map Char.toLower)

/-- Equality of texts with the case of ASCII letters set aside. -/
def sameFold (a b : String) : Bool :=
  lower a == lower b

theorem toList_lower (s : String) : (lower s).toList = s.toList.map Char.toLower := by
  simp [lower]

theorem sameFold_iff {a b : String} : sameFold a b = true ↔ lower a = lower b := by
  simp [sameFold]

@[simp] theorem sameFold_self (a : String) : sameFold a a = true := by
  simp [sameFold]

/-- Punctuation of the ASCII range. -/
def isAsciiPunctuation (c : Char) : Bool :=
  let n := c.toNat
  (0x21 ≤ n && n ≤ 0x2F) || (0x3A ≤ n && n ≤ 0x40) || (0x5B ≤ n && n ≤ 0x60) ||
    (0x7B ≤ n && n ≤ 0x7E)

/-- The decimal digits `0` to `9`. -/
def isAsciiDigit (c : Char) : Bool :=
  '0' ≤ c && c ≤ '9'

/-- The small letters `a` to `z`. -/
def isAsciiSmall (c : Char) : Bool :=
  'a' ≤ c && c ≤ 'z'

/-- The capital letters `A` to `Z`. -/
def isAsciiCapital (c : Char) : Bool :=
  'A' ≤ c && c ≤ 'Z'

end AskSql.Text
