/-!
# Blank characters

The characters that separate words: those with the Unicode property `White_Space`. Trimming and
splitting work on character lists.
-/

namespace EntitySql.Text

/-- Whether the character has the property `White_Space`. -/
def isBlank (c : Char) : Bool :=
  let n := c.toNat
  (9 ≤ n && n ≤ 13) || n == 32 || n == 0x85 || n == 0xA0 || n == 0x1680 ||
    (0x2000 ≤ n && n ≤ 0x200A) || n == 0x2028 || n == 0x2029 || n == 0x202F || n == 0x205F ||
    n == 0x3000

/-- The characters without the blanks at either end. -/
def trim (cs : List Char) : List Char :=
  ((cs.dropWhile isBlank).reverse.dropWhile isBlank).reverse

/-- The maximal runs of characters that are not blank, in order. -/
def words (cs : List Char) : List (List Char) :=
  let (last, done) := cs.foldr
    (fun c (current, done) =>
      if isBlank c then ([], if current.isEmpty then done else current :: done)
      else (c :: current, done))
    ([], [])
  if last.isEmpty then done else last :: done

/-- The string without the blanks at either end. -/
def trimmed (s : String) : String := String.ofList (trim s.toList)

end EntitySql.Text
