import EntitySql.Text.LetterCase.Table
/-!
# Letter case

Lower case in two strengths. `asciiLowered` and `asciiRaised` touch the letters `A` to `Z` and leave
everything else alone; keywords and type names are compared that way. `lowered` is the full Unicode
mapping: the dotted capital I becomes two characters, and a capital sigma at the end of a word becomes
the final form.
-/

namespace EntitySql.Text

open LetterCase

/-- The string with `A` to `Z` in lower case. -/
def asciiLowered (s : String) : String := String.ofList (s.toList.map Char.toLower)

/-- The string with `a` to `z` in upper case. -/
def asciiRaised (s : String) : String := String.ofList (s.toList.map Char.toUpper)

/-- Whether some range holds the code point. -/
def inRanges (ranges : List (Nat × Nat)) (n : Nat) : Bool :=
  ranges.any fun (first, last) => first ≤ n && n ≤ last

/-- Whether the run has the code point as a member. -/
def LetterCase.Run.covers (run : Run) (n : Nat) : Bool :=
  run.first ≤ n && n ≤ run.last && (n - run.first) % run.step == 0

/-- Whether the character takes part in letter case. -/
def isCased (c : Char) : Bool := inRanges casedRanges c.toNat

/-- Whether the character is passed over when the neighbours of a sigma are looked at. -/
def isCaseIgnorable (c : Char) : Bool := inRanges ignorableRanges c.toNat

/-- The lower-case form of a character where no neighbour matters. -/
def lowerForm (c : Char) : List Char :=
  let n := c.toNat
  if n < 0x80 then [c.toLower]
  else if n = 0x130 then ['i', Char.ofNat 0x307]
  else
    match lowerRuns.find? (·.covers n) with
    | some run => [Char.ofNat ((n : Int) + run.shift).toNat]
    | none => [c]

/-- Whether the character differs from its upper-case form. -/
def isRaisable (c : Char) : Bool :=
  let n := c.toNat
  if n < 0x80 then 'a' ≤ c && c ≤ 'z'
  else raisedRuns.any fun (first, last, step) =>
    first ≤ n && n ≤ last && (n - first) % step == 0

/-- Whether the first character that is not passed over is cased. -/
def reachesCased (cs : List Char) : Bool :=
  match cs.dropWhile isCaseIgnorable with
  | c :: _ => isCased c
  | [] => false

/-- Lowers the characters that follow `before`, which is given last character first. A capital sigma
is final when a cased character comes before it and none after it, ignorable ones passed over. -/
def lowerAfter (before : List Char) : List Char → List Char
  | [] => []
  | c :: rest =>
    let form :=
      if c = 'Σ' then [if reachesCased before && !reachesCased rest then 'ς' else 'σ']
      else lowerForm c
    form ++ lowerAfter (c :: before) rest

/-- The full lower-case form of the characters. -/
def lower (cs : List Char) : List Char := lowerAfter [] cs

/-- The full lower-case form of the string. -/
def lowered (s : String) : String := String.ofList (lower s.toList)

end EntitySql.Text
