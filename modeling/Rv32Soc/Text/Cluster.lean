import Rv32Soc.Text.BreakTable

/-!
# Clusters

A reader sees a letter with its accents, a flag, a syllable or a joined
pictograph as one thing, though it is many characters. Such a run is a
cluster. Whether there is a boundary before a character depends on its class
and on the classes of the characters before it, so the rules read the text
backwards from the place in question: `joins` holds where the rules of extended
clusters see no boundary, and `clusters` cuts a text at all other places.

Cutting loses nothing: `flatten_clusters`.
-/

namespace Rv32Soc.Text

/-- What a character is for the boundaries beside it. -/
inductive BreakClass where
  | carriageReturn
  | lineFeed
  | control
  /-- A mark that goes with what it follows. -/
  | mark
  /-- A mark that also links the consonants on its two sides. -/
  | linker
  /-- The mark that keeps its neighbours from being linked. -/
  | nonJoiner
  /-- The mark that joins pictographs. -/
  | joiner
  | spacingMark
  | prepended
  | regional
  | leading
  | vowel
  | trailing
  /-- A hangul syllable without a trailing consonant. -/
  | openSyllable
  /-- A hangul syllable with a trailing consonant. -/
  | closedSyllable
  | consonant
  | pictograph
  | other
  deriving DecidableEq

namespace BreakClass

/-- The tables of the classes. The linkers are extending marks too, and stand before them;
no other two tables share a character. -/
def tables : List (Ranges × BreakClass) :=
  [(controls, .control), (conjunctLinkers, .linker), (extending, .mark),
    (spacingMarks, .spacingMark), (prependedMarks, .prepended), (regionalIndicators, .regional),
    (leadingJamo, .leading), (vowelJamo, .vowel), (trailingJamo, .trailing),
    (conjunctConsonants, .consonant), (pictographs, .pictograph)]

theorem ascend_of_mem_tables : ∀ entry ∈ tables, entry.1.ascend 0 = true := by
  decide +kernel

/-- Looking a character up in a table finds it just if one of the ranges holds it. -/
theorem holds_iff_of_mem_tables {entry : Ranges × BreakClass} (hentry : entry ∈ tables) (n : Nat) :
    entry.1.holds n = true ↔ ∃ range ∈ entry.1, range.1 ≤ n ∧ n ≤ range.2 :=
  Ranges.holds_iff (ascend_of_mem_tables entry hentry)

/-- The class of a character. The hangul syllables come in rows of twenty-eight, the first of
which has no trailing consonant. -/
def ofChar (c : Char) : BreakClass :=
  let n := c.toNat
  if n = 0x0d then .carriageReturn
  else if n = 0x0a then .lineFeed
  else if n = 0x200c then .nonJoiner
  else if n = 0x200d then .joiner
  else if 0xac00 ≤ n ∧ n ≤ 0xd7a3 then
    if (n - 0xac00) % 28 = 0 then .openSyllable else .closedSyllable
  else
    match tables.find? fun (ranges, _) => ranges.holds n with
    | some (_, found) => found
    | none => .other

/-- Characters with a boundary on either side, whatever stands there. -/
def isControl : BreakClass → Bool
  | carriageReturn | lineFeed | control => true
  | _ => false

/-- Marks without a width of their own, the joiner left out. -/
def isMark : BreakClass → Bool
  | mark | linker | nonJoiner => true
  | _ => false

/-- Characters that may stand between two linked consonants. -/
def keepsLink : BreakClass → Bool
  | mark | linker | joiner => true
  | _ => false

/-- Characters that go with what they follow. -/
def attaches (c : BreakClass) : Bool :=
  c.isMark || c == joiner || c == spacingMark

/-- Two neighbours in one hangul syllable. -/
def inSyllable : BreakClass → BreakClass → Bool
  | leading, next => next == leading || next == vowel || next == openSyllable
      || next == closedSyllable
  | openSyllable, next | vowel, next => next == vowel || next == trailing
  | closedSyllable, next | trailing, next => next == trailing
  | _, _ => false

end BreakClass

/-! ## The rules

`before` is the text before the place in question, backwards. -/

/-- The text ends in a consonant with a linker, and nothing that would undo the link. -/
def endsLinked (before : List BreakClass) : Bool :=
  (before.takeWhile (·.keepsLink)).contains .linker
    && (before.dropWhile (·.keepsLink)).head? == some .consonant

/-- The text ends in a pictograph, with any marks, and a joiner. -/
def endsJoined : List BreakClass → Bool
  | .joiner :: before => (before.dropWhile (·.isMark)).head? == some .pictograph
  | _ => false

/-- The text ends in half a flag: letters of flags pair up from the left. -/
def endsInHalfFlag (before : List BreakClass) : Bool :=
  (before.takeWhile (· == .regional)).length % 2 == 1

/-- There is no boundary between a text and the next character. -/
def joins (before : List BreakClass) (next : BreakClass) : Bool :=
  match before with
  | [] => false
  | last :: _ =>
      if last.isControl || next.isControl then last == .carriageReturn && next == .lineFeed
      else
        next.attaches || last == .prepended || last.inSyllable next
          || (next == .consonant && endsLinked before)
          || (next == .pictograph && endsJoined before)
          || (next == .regional && endsInHalfFlag before)

/-- The clusters of a text, in order. -/
def clusters : List Char → List (List Char)
  | [] => []
  | c :: rest => go [.ofChar c] [c] rest
where
  /-- The clusters from the open one on, which is given backwards. -/
  go (before : List BreakClass) (cluster : List Char) : List Char → List (List Char)
    | [] => [cluster.reverse]
    | c :: rest =>
        let next := BreakClass.ofChar c
        if joins before next then go (next :: before) (c :: cluster) rest
        else cluster.reverse :: go (next :: before) [c] rest

theorem flatten_clusters_go (before : List BreakClass) (cluster text : List Char) :
    (clusters.go before cluster text).flatten = cluster.reverse ++ text := by
  induction text generalizing before cluster with
  | nil => simp [clusters.go]
  | cons c rest ih =>
      rw [clusters.go]
      split <;> simp [ih]

/-- The clusters of a text make it up. -/
theorem flatten_clusters (text : List Char) : (clusters text).flatten = text := by
  cases text with
  | nil => rfl
  | cons c rest => simp [clusters, flatten_clusters_go]

end Rv32Soc.Text
