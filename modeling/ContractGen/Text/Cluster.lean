import ContractGen.Text.Conjunct
import ContractGen.Text.Extending
import ContractGen.Text.Pictographic
import ContractGen.Text.Spacing

/-!
# Clusters

What a reader takes for one character can be several: a letter with marks, a syllable of Hangul, a
flag, a joined emoji. `clusters` cuts a text into such characters by the rules for extended
grapheme clusters of Unicode 17.
-/

namespace ContractGen

namespace Text

/-- What a character does at the border of a cluster. -/
inductive ClusterKind where
  /-- A carriage return. -/
  | carriageReturn
  /-- A line feed. -/
  | lineFeed
  /-- Any other control. -/
  | control
  /-- A mark that extends the character before it. -/
  | extending
  /-- The joiner of emoji. -/
  | joiner
  /-- A mark with room of its own. -/
  | spacing
  /-- A sign that belongs to the character after it. -/
  | leading
  /-- One half of a flag. -/
  | regional
  /-- A leading consonant of Hangul. -/
  | hangulLead
  /-- A vowel of Hangul. -/
  | hangulVowel
  /-- A trailing consonant of Hangul. -/
  | hangulTail
  /-- A syllable of Hangul that ends in a vowel. -/
  | hangulOpen
  /-- A syllable of Hangul that ends in a consonant. -/
  | hangulClosed
  /-- A pictograph. -/
  | pictograph
  /-- Anything else. -/
  | other
deriving DecidableEq, Repr

/-- The ranges of controls, formats without a form of their own among them. -/
def clusterControlRanges : Ranges := [
  (0x0, 0x1f), (0x7f, 0x9f), (0xad, 0xad), (0x61c, 0x61c), (0x180e, 0x180e), (0x200b, 0x200b),
  (0x200e, 0x200f), (0x2028, 0x202e), (0x2060, 0x206f), (0xfeff, 0xfeff), (0xfff0, 0xfffb),
  (0x13430, 0x1343f), (0x1bca0, 0x1bca3), (0x1d173, 0x1d17a), (0xe0000, 0xe001f),
  (0xe0080, 0xe00ff), (0xe01f0, 0xe0fff)]

/-- The ranges of signs that belong to the character after them. -/
def clusterLeadingRanges : Ranges := [
  (0x600, 0x605), (0x6dd, 0x6dd), (0x70f, 0x70f), (0x890, 0x891), (0x8e2, 0x8e2),
  (0xd4e, 0xd4e), (0x110bd, 0x110bd), (0x110cd, 0x110cd), (0x111c2, 0x111c3),
  (0x113d1, 0x113d1), (0x1193f, 0x1193f), (0x11941, 0x11941), (0x11a84, 0x11a89),
  (0x11d46, 0x11d46), (0x11f02, 0x11f02)]

/-- The ranges of leading consonants of Hangul. -/
def hangulLeadRanges : Ranges := [(0x1100, 0x115f), (0xa960, 0xa97c)]

/-- The ranges of vowels of Hangul, and of others that join in the same way. -/
def hangulVowelRanges : Ranges :=
  [(0x1160, 0x11a7), (0xd7b0, 0xd7c6), (0x16d63, 0x16d63), (0x16d67, 0x16d6a)]

/-- The ranges of trailing consonants of Hangul. -/
def hangulTailRanges : Ranges := [(0x11a8, 0x11ff), (0xd7cb, 0xd7fb)]

/-- The kind of a character. Of the syllables of Hangul every 28th ends in a vowel. -/
def clusterKind (c : Char) : ClusterKind :=
  let n := c.toNat
  if c = '\r' then .carriageReturn
  else if c = '\n' then .lineFeed
  else if clusterControlRanges.has n then .control
  else if n = 0x200d then .joiner
  else if isExtending c || (0x1f3fb ≤ n && n ≤ 0x1f3ff) then .extending
  else if isSpacingMark c then .spacing
  else if clusterLeadingRanges.has n then .leading
  else if 0x1f1e6 ≤ n && n ≤ 0x1f1ff then .regional
  else if hangulLeadRanges.has n then .hangulLead
  else if hangulVowelRanges.has n then .hangulVowel
  else if hangulTailRanges.has n then .hangulTail
  else if 0xac00 ≤ n && n ≤ 0xd7a3 then
    if (n - 0xac00) % 28 = 0 then .hangulOpen else .hangulClosed
  else if isPictographic c then .pictograph
  else .other

namespace ClusterKind

/-- Whether a kind stands alone. -/
def isBreaking : ClusterKind → Bool
  | .carriageReturn => true
  | .lineFeed => true
  | .control => true
  | _ => false

/-- Whether two kinds of Hangul belong to one syllable. -/
def formsSyllable : ClusterKind → ClusterKind → Bool
  | .hangulLead, .hangulLead => true
  | .hangulLead, .hangulVowel => true
  | .hangulLead, .hangulOpen => true
  | .hangulLead, .hangulClosed => true
  | .hangulOpen, .hangulVowel => true
  | .hangulOpen, .hangulTail => true
  | .hangulVowel, .hangulVowel => true
  | .hangulVowel, .hangulTail => true
  | .hangulClosed, .hangulTail => true
  | .hangulTail, .hangulTail => true
  | _, _ => false

/-- Whether a kind always belongs to the character before it. -/
def isTrailing : ClusterKind → Bool
  | .extending => true
  | .joiner => true
  | .spacing => true
  | _ => false

end ClusterKind

/-- How far consonants that join have come. -/
inductive ConjunctState where
  /-- No consonant is open. -/
  | idle
  /-- A consonant is open. -/
  | consonant
  /-- A linker follows an open consonant. -/
  | linked
deriving DecidableEq, Repr

/-- What of a cluster decides whether the next character belongs to it. -/
structure ClusterTail where
  /-- The kind of its last character. -/
  kind : ClusterKind
  /-- It ends in a pictograph, with marks or without. -/
  pictorial : Bool
  /-- It ends in such a pictograph and a joiner. -/
  joined : Bool
  /-- It ends in the first half of a flag. -/
  halfFlag : Bool
  /-- How far consonants that join have come. -/
  conjunct : ConjunctState

namespace ClusterTail

/-- How far consonants that join have come after one more character. -/
def nextConjunct (before : ConjunctState) (c : Char) : ConjunctState :=
  if isConsonant c then .consonant
  else if before = .idle then .idle
  else if isLinker c then .linked
  else if clusterKind c = .joiner || (clusterKind c = .extending && c.toNat != 0x200c) then before
  else .idle

/-- The tail of a cluster that starts with `c`. -/
def start (c : Char) : ClusterTail :=
  let kind := clusterKind c
  ⟨kind, kind = .pictograph, false, kind = .regional, nextConjunct .idle c⟩

/-- The tail of a cluster after one more character. -/
def extend (t : ClusterTail) (c : Char) : ClusterTail :=
  let kind := clusterKind c
  { kind
    pictorial := kind = .pictograph || (t.pictorial && kind = .extending)
    joined := t.pictorial && kind = .joiner
    halfFlag := kind = .regional && !t.halfFlag
    conjunct := nextConjunct t.conjunct c }

/-- Whether the next character belongs to the cluster. -/
def takes (t : ClusterTail) (c : Char) : Bool :=
  let kind := clusterKind c
  if t.kind = .carriageReturn && kind = .lineFeed then true
  else if t.kind.isBreaking || kind.isBreaking then false
  else
    kind.isTrailing || t.kind = .leading || t.kind.formsSyllable kind ||
      (t.conjunct = .linked && isConsonant c) || (t.joined && kind = .pictograph) ||
      (t.halfFlag && kind = .regional)

end ClusterTail

/-- The clusters of a text that goes on after a cluster with the tail `t`; `seen` has the
characters of that, from the end. -/
def clustersFrom (t : ClusterTail) (seen : List Char) : List Char → List (List Char)
  | [] => [seen.reverse]
  | c :: rest =>
    if t.takes c then clustersFrom (t.extend c) (c :: seen) rest
    else seen.reverse :: clustersFrom (.start c) [c] rest

/-- The clusters of a text. -/
def clusters : List Char → List (List Char)
  | [] => []
  | c :: rest => clustersFrom (.start c) [c] rest

end Text

end ContractGen
