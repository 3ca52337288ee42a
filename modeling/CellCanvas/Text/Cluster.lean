import CellCanvas.Text.Cluster.Properties
import CellCanvas.Text.Ranges

/-!
# Extended grapheme clusters

A text is split into what readers see as single characters. `clusters` walks the text once; the
`Trail` of the cluster read so far holds all that the rules for the next character need. Every
character lands in exactly one cluster, in order.
-/

namespace CellCanvas.Text.Cluster

open Ranges

/-- How a character behaves at the edge of a cluster. -/
inductive Edge where
  | carriageReturn
  | lineFeed
  | control
  | extend
  | joiner
  | regional
  | prepend
  | spacing
  | leadingJamo
  | vowelJamo
  | trailingJamo
  | openSyllable
  | closedSyllable
  | other
deriving DecidableEq, Repr

/-- The edge behaviour of a character. -/
def edge (c : Char) : Edge :=
  let n := c.toNat
  if n = 0xD then .carriageReturn
  else if n = 0xA then .lineFeed
  else if n < 0x20 then .control
  else if n < 0x7F then .other
  else if n = 0x200D then .joiner
  else if 0x1F1E6 ≤ n ∧ n ≤ 0x1F1FF then .regional
  else if 0xAC00 ≤ n ∧ n ≤ 0xD7A3 then
    if (n - 0xAC00) % 28 = 0 then .openSyllable else .closedSyllable
  else if (0x1100 ≤ n ∧ n ≤ 0x115F) ∨ (0xA960 ≤ n ∧ n ≤ 0xA97C) then .leadingJamo
  else if (0x1160 ≤ n ∧ n ≤ 0x11A7) ∨ (0xD7B0 ≤ n ∧ n ≤ 0xD7C6) ∨ n = 0x16D63 ∨
      (0x16D67 ≤ n ∧ n ≤ 0x16D6A) then .vowelJamo
  else if (0x11A8 ≤ n ∧ n ≤ 0x11FF) ∨ (0xD7CB ≤ n ∧ n ≤ 0xD7FB) then .trailingJamo
  else if covers extend c then .extend
  else if covers spacingMark c then .spacing
  else if covers control c then .control
  else if covers prepended c then .prepend
  else .other

/-- What the rules need to know about the cluster read so far. -/
structure Trail where
  /-- The edge of the last character. -/
  last : Edge
  /-- The text ends with a pictograph and characters that extend it. -/
  pictograph : Bool
  /-- The text ends with a pictograph, characters that extend it, and a joiner. -/
  joinedPictograph : Bool
  /-- The text ends with a consonant and characters that extend it; whether one is a linker. -/
  conjunct : Option Bool
  /-- The text ends with an odd number of regional indicators. -/
  oddRegional : Bool

/-- Whether a character is a link of a conjunct: it extends the consonant without ending it. -/
def extendsConjunct (c : Char) (e : Edge) : Bool :=
  e = .joiner || (e = .extend && c.toNat ≠ 0x200C)

/-- The trail after one more character; `before` is the trail of the same cluster, if any. -/
def Trail.next (before : Option Trail) (c : Char) : Trail :=
  let e := edge c
  { last := e
    pictograph := covers pictographic c || (e = .extend && before.any Trail.pictograph)
    joinedPictograph := e = .joiner && before.any Trail.pictograph
    conjunct :=
      if covers consonant c then some false
      else if extendsConjunct c e then
        (before.bind Trail.conjunct).map fun linked => linked || covers linker c
      else none
    oddRegional := e = .regional && !before.any Trail.oddRegional }

/-- Whether the next character stays in the cluster. -/
def Trail.holds (t : Trail) (c : Char) : Bool :=
  let e := edge c
  match t.last, e with
  | .carriageReturn, .lineFeed => true
  | .carriageReturn, _ | .lineFeed, _ | .control, _ => false
  | _, .carriageReturn | _, .lineFeed | _, .control => false
  | _, .extend | _, .joiner | _, .spacing => true
  | .prepend, _ => true
  | .leadingJamo, .leadingJamo | .leadingJamo, .vowelJamo | .leadingJamo, .openSyllable
  | .leadingJamo, .closedSyllable => true
  | .openSyllable, .vowelJamo | .vowelJamo, .vowelJamo => true
  | .openSyllable, .trailingJamo | .vowelJamo, .trailingJamo => true
  | .closedSyllable, .trailingJamo | .trailingJamo, .trailingJamo => true
  | _, _ =>
    (t.conjunct = some true && covers consonant c) ||
      (t.joinedPictograph && covers pictographic c) ||
      (t.oddRegional && e = .regional)

/-- Split the rest of a text; `current` is the cluster read so far, last character first. -/
def split (trail : Trail) (current : List Char) : List Char → List (List Char)
  | [] => [current.reverse]
  | c :: rest =>
    if trail.holds c then split (.next (some trail) c) (c :: current) rest
    else current.reverse :: split (.next none c) [c] rest

/-- The clusters of a text, in order. -/
def clusters : List Char → List (List Char)
  | [] => []
  | c :: rest => split (.next none c) [c] rest

theorem flatten_split (trail : Trail) (current rest : List Char) :
    (split trail current rest).flatten = current.reverse ++ rest := by
  induction rest generalizing trail current with
  | nil => simp [split]
  | cons c rest ih =>
    unfold split
    split
    · simp [ih]
    · simp [ih]

/-- The clusters of a text join to the text. -/
theorem flatten_clusters (text : List Char) : (clusters text).flatten = text := by
  cases text with
  | nil => rfl
  | cons c rest => simp [clusters, flatten_split]

end CellCanvas.Text.Cluster
