import EntitySql.Text.Cluster.Table
import EntitySql.Text.LetterCase
/-!
# Grapheme clusters

The user-perceived characters of a text: a letter with the marks that combine with it is one cluster.
`clusters` cuts a text at every extended grapheme cluster boundary. Whether a boundary lies between two
characters depends on their break classes and on a little of what came before, kept in `Context`.
-/

namespace EntitySql.Text

namespace Cluster

/-- The break class of a character. -/
inductive BreakClass
  | carriageReturn
  | lineFeed
  | control
  | extend
  /-- A mark that extends and links the consonants around it. -/
  | linker
  /-- The character that extends and keeps consonants from being linked. -/
  | nonJoiner
  | joiner
  | regional
  | prepend
  | spacingMark
  | leading
  | vowel
  | trailing
  | openSyllable
  | closedSyllable
  /-- A letter that can be linked to the one before it. -/
  | consonant
  | pictographic
  | other
deriving DecidableEq, Repr

/-- The class of a character. -/
def breakClass (c : Char) : BreakClass :=
  let n := c.toNat
  if n = 0x0D then .carriageReturn
  else if n = 0x0A then .lineFeed
  else if 0x20 ≤ n && n < 0x7F then .other
  else if n = 0x200C then .nonJoiner
  else if n = 0x200D then .joiner
  else if 0x1F1E6 ≤ n && n ≤ 0x1F1FF then .regional
  else if 0xAC00 ≤ n && n ≤ 0xD7A3 then
    if (n - 0xAC00) % 28 = 0 then .openSyllable else .closedSyllable
  else if inRanges controlRanges n then .control
  else if inRanges extendRanges n then .extend
  else if inRanges linkerRanges n then .linker
  else if inRanges consonantRanges n then .consonant
  else if inRanges prependRanges n then .prepend
  else if inRanges spacingMarkRanges n then .spacingMark
  else if inRanges leadingRanges n then .leading
  else if inRanges vowelRanges n then .vowel
  else if inRanges trailingRanges n then .trailing
  else if inRanges pictographicRanges n then .pictographic
  else .other

/-- Whether characters of the class extend whatever they follow. -/
def BreakClass.isExtending : BreakClass → Bool
  | extend | linker | nonJoiner => true
  | _ => false

/-- Whether characters of the class may stand between consonants that are linked. -/
def BreakClass.keepsLink : BreakClass → Bool
  | extend | linker | joiner => true
  | _ => false

/-- What a boundary decision needs to know of the characters before it. -/
structure Context where
  /-- The class of the last character. -/
  last : BreakClass
  /-- The text ends with a pictograph and characters that extend it. -/
  pictograph : Bool
  /-- The text ends with such a sequence and a joiner. -/
  joined : Bool
  /-- The text ends with an odd number of regional indicators. -/
  oddRegional : Bool
  /-- The text ends with a consonant and characters that may stand behind it in front of another one. -/
  conjunct : Bool
  /-- Among these characters is a linker. -/
  linked : Bool
deriving Repr

/-- The context after the first character of a text. -/
def Context.start (b : BreakClass) : Context :=
  { last := b, pictograph := b == .pictographic, joined := false, oddRegional := b == .regional
    conjunct := b == .consonant, linked := false }

/-- The context after one more character. -/
def Context.next (s : Context) (b : BreakClass) : Context :=
  { last := b
    pictograph := b == .pictographic || (s.pictograph && b.isExtending)
    joined := s.pictograph && b == .joiner
    oddRegional := b == .regional && !s.oddRegional
    conjunct := b == .consonant || (s.conjunct && b.keepsLink)
    linked := s.conjunct && b.keepsLink && (b == .linker || s.linked) }

/-- Whether a character of class `b` starts a new cluster after the context. -/
def Context.breaksBefore (s : Context) (b : BreakClass) : Bool :=
  match s.last, b with
  | .carriageReturn, .lineFeed => false
  | .carriageReturn, _ | .lineFeed, _ | .control, _ => true
  | _, .carriageReturn | _, .lineFeed | _, .control => true
  | .leading, .leading | .leading, .vowel | .leading, .openSyllable
  | .leading, .closedSyllable => false
  | .openSyllable, .vowel | .openSyllable, .trailing | .vowel, .vowel | .vowel, .trailing => false
  | .closedSyllable, .trailing | .trailing, .trailing => false
  | _, .extend | _, .linker | _, .nonJoiner | _, .joiner | _, .spacingMark => false
  | .prepend, _ => false
  | _, .consonant => !s.linked
  | _, .pictographic => !s.joined
  | _, .regional => !s.oddRegional
  | _, _ => true

/-- The clusters of the characters that follow the context, the first of which continues `current`. -/
def collect (s : Context) (current : List Char) : List Char → List (List Char)
  | [] => [current]
  | c :: rest =>
    let b := breakClass c
    if s.breaksBefore b then current :: collect (s.next b) [c] rest
    else collect (s.next b) (current ++ [c]) rest

end Cluster

/-- The text cut into its extended grapheme clusters. -/
def clusters : List Char → List (List Char)
  | [] => []
  | c :: rest => Cluster.collect (Cluster.Context.start (Cluster.breakClass c)) [c] rest

end EntitySql.Text
