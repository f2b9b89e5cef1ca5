/-
Patterns for paths. A star stands for any bytes, slashes included, and a question
mark for one byte; two stars between slashes stand for any number of directories,
none included; a class in brackets is one byte of a set; braces hold alternatives,
and a backslash takes away what the next character means.
-/
import Concord.Text.Utf8

namespace Concord.Glob

/-- A part of a pattern. -/
inductive Part where
  | literal (c : Char)
  /-- Any one byte. -/
  | one
  /-- Any bytes. -/
  | many
  /-- Any directories at the beginning, with the slash after them. -/
  | anyAbove
  /-- A slash and anything below. -/
  | anyBelow
  /-- A slash, or two slashes with any directories between them. -/
  | anyBetween
  /-- One byte in, or outside, a set of ranges. -/
  | range (negated : Bool) (ranges : List (Char × Char))
  | choice (branches : List (List Part))
deriving Inhabited

/-- Why a pattern cannot be read. -/
inductive Defect where
  | unclosedClass
  | backwardRange (first last : Char)
  | unopenedChoice
  | unclosedChoice
  | danglingEscape
deriving DecidableEq, Repr

def Defect.message : Defect → String
  | unclosedClass => "unclosed character class; missing ']'"
  | backwardRange first last =>
    "invalid range; '" ++ first.toString ++ "' > '" ++ last.toString ++ "'"
  | unopenedChoice =>
    "unopened alternate group; missing '\x7b' (maybe escape '\x7d' with '[\x7d]'?)"
  | unclosedChoice =>
    "unclosed alternate group; missing '\x7d' (maybe escape '\x7b' with '[\x7b]'?)"
  | danglingEscape => "dangling '\\'"

/-! ## Reading -/

/-- An open group: its finished branches and the parts of the current one, the last first. -/
structure Group where
  branches : List (List Part)
  current : List Part

namespace Group

def fresh : Group := ⟨[], []⟩

def push (g : Group) (p : Part) : Group := { g with current := p :: g.current }

/-- Begins another branch. -/
def divide (g : Group) : Group := ⟨g.current.reverse :: g.branches, []⟩

/-- The branches in their order. -/
def close (g : Group) : List (List Part) := g.divide.branches.reverse

/-- Replaces the part before two stars that stand between slashes. -/
def deepen (g : Group) (last : Bool) : Group :=
  match g.current with
  | .anyAbove :: _ => g
  | .anyBelow :: _ => g
  | _ :: before => { g with current := (if last then .anyBelow else .anyBetween) :: before }
  | [] => g

end Group

/-- The ranges of a class so far, the last first, and how the next character is taken. -/
structure ClassState where
  ranges : List (Char × Char)
  /-- A hyphen waits for the end of the last range. -/
  waiting : Bool

/-- Ends the last range at a character. -/
def ClassState.extend (s : ClassState) (last : Char) : Except Defect ClassState :=
  match s.ranges with
  | (first, _) :: rest =>
    if last < first then .error (.backwardRange first last) else .ok ⟨(first, last) :: rest, false⟩
  | [] => .ok ⟨[(last, last)], false⟩

/-- Takes one character of a class that does not end it. -/
def ClassState.feed (s : ClassState) (c : Char) : Except Defect ClassState :=
  if s.waiting then s.extend c
  else if c = '-' ∧ s.ranges ≠ [] then .ok { s with waiting := true }
  else .ok ⟨(c, c) :: s.ranges, false⟩

/-- The ranges up to the closing bracket, which is an ordinary character in the first place, and
what follows the bracket. -/
def readRanges (s : ClassState) : Text → Except Defect (List (Char × Char) × Text)
  | [] => .error .unclosedClass
  | c :: rest =>
    if c = ']' ∧ s.ranges ≠ [] then
      .ok ((if s.waiting then ('-', '-') :: s.ranges else s.ranges).reverse, rest)
    else do readRanges (← s.feed c) rest

/-- A class after its opening bracket. -/
def readClass : Text → Except Defect (Part × Text)
  | '!' :: rest => do
    let (ranges, after) ← readRanges ⟨[], false⟩ rest
    return (.range true ranges, after)
  | '^' :: rest => do
    let (ranges, after) ← readRanges ⟨[], false⟩ rest
    return (.range true ranges, after)
  | rest => do
    let (ranges, after) ← readRanges ⟨[], false⟩ rest
    return (.range false ranges, after)

/-- Two stars after `before`, in the innermost of some groups, and what follows them. -/
def readStars (before : Option Char) (inside : Bool) (g : Group) (rest : Text) : Group × Text :=
  let two := (g.push .many).push .many
  if g.current.isEmpty then
    match rest with
    | [] => (g.push .anyAbove, [])
    | '/' :: after => (g.push .anyAbove, after)
    | _ => (two, rest)
  else if before ≠ some '/' ∧ ¬(inside ∧ (before = some ',' ∨ before = some '\x7b')) then (two, rest)
  else
    match rest with
    | [] => (g.deepen true, [])
    | '/' :: after => (g.deepen false, after)
    | c :: _ => if inside ∧ (c = ',' ∨ c = '\x7d') then (g.deepen true, rest) else (two, rest)

/-- The character before the rest of a pattern once some of it was taken. -/
def lastTaken (before : Option Char) (text rest : Text) : Option Char :=
  (text.take (text.length - rest.length)).getLast?.or before

/-- Reads a pattern in at most `fuel` steps. The group is the innermost open one, `outer` are those
around it. -/
def readParts (before : Option Char) (g : Group) (outer : List Group) :
    Nat → Text → Except Defect (List Part)
  | _, [] => if outer.isEmpty then .ok g.current.reverse else .error .unclosedChoice
  | 0, _ => .ok g.current.reverse
  | fuel + 1, text@(c :: rest) =>
    match c with
    | '?' => readParts (some c) (g.push .one) outer fuel rest
    | '*' =>
      match rest with
      | '*' :: after =>
        let (g, after) := readStars before (!outer.isEmpty) g after
        readParts (lastTaken before text after) g outer fuel after
      | _ => readParts (some c) (g.push .many) outer fuel rest
    | '[' => do
      let (part, after) ← readClass rest
      readParts (some ']') (g.push part) outer fuel after
    | '\x7b' => readParts (some c) .fresh (g :: outer) fuel rest
    | '\x7d' =>
      match outer with
      | [] => .error .unopenedChoice
      | around :: outer => readParts (some c) (around.push (.choice g.close)) outer fuel rest
    | ',' =>
      if outer.isEmpty then readParts (some c) (g.push (.literal c)) outer fuel rest
      else readParts (some c) g.divide outer fuel rest
    | '\\' =>
      match rest with
      | [] => .error .danglingEscape
      | d :: after => readParts (some d) (g.push (.literal d)) outer fuel after
    | c => readParts (some c) (g.push (.literal c)) outer fuel rest

/-! ## Matching -/

/-- What may be left of some bytes once any number of them is taken. -/
def tails : List UInt8 → List (List UInt8)
  | [] => [[]]
  | b :: rest => (b :: rest) :: tails rest

def slash : UInt8 := 0x2F

/-- What may be left once bytes up to some slash are taken. -/
def afterSlash (bytes : List UInt8) : List (List UInt8) :=
  (tails bytes).filterMap fun t =>
    match t with
    | b :: rest => if b = slash then some rest else none
    | [] => none

/-- The bytes after a slash at the beginning. -/
def dropSlash? : List UInt8 → Option (List UInt8)
  | b :: rest => if b = slash then some rest else none
  | [] => none

/-- What is left after the given bytes. -/
def dropBytes? : (taken bytes : List UInt8) → Option (List UInt8)
  | [], bytes => some bytes
  | t :: taken, b :: bytes => if t = b then dropBytes? taken bytes else none
  | _ :: _, [] => none

/-- Whether a byte is in a range of characters. A character is in a class by its bytes: a range
runs from the last byte of its first character to the first byte of its last one. -/
def inRange (b : UInt8) (range : Char × Char) : Bool :=
  let first := Utf8.bytes [range.1]
  let last := Utf8.bytes [range.2]
  if range.1 = range.2 then first.contains b
  else
    first.dropLast.contains b || last.tail.contains b ||
      (first.getLast?.any (· ≤ b) && last.head?.any (b ≤ ·))

/-- The parts of a whole pattern; two stars alone stand for anything. -/
def widen : List Part → List Part
  | [.anyAbove] => [.many]
  | parts => parts

mutual

/-- Whether a part stands for nothing at all: a group of blank branches. -/
def Part.isBlank : Part → Bool
  | .choice branches => blankBranches branches
  | _ => false

def blankBranches : List (List Part) → Bool
  | [] => true
  | parts :: branches => blankParts parts && blankBranches branches

def blankParts : List Part → Bool
  | [] => true
  | p :: parts => p.isBlank && blankParts parts

end

mutual

/-- What may be left of some bytes after a part. -/
def Part.rests : Part → List UInt8 → List (List UInt8)
  | .literal c, bytes => (dropBytes? (Utf8.bytes [c]) bytes).toList
  | .one, bytes => bytes.tail?.toList
  | .many, bytes => tails bytes
  | .anyAbove, bytes => bytes :: afterSlash bytes
  | .anyBelow, bytes => (dropSlash? bytes).toList.flatMap tails
  | .anyBetween, bytes => (dropSlash? bytes).toList.flatMap fun rest => rest :: afterSlash rest
  | .range negated ranges, bytes =>
    match bytes with
    | b :: rest => if ranges.any (inRange b) == negated then [] else [rest]
    | [] => []
  | .choice branches, bytes =>
    if blankBranches branches then [bytes] else branchRests branches bytes

/-- What may be left after one of some branches; a blank branch is none. -/
def branchRests : List (List Part) → List UInt8 → List (List UInt8)
  | [], _ => []
  | parts :: branches, bytes =>
    (if blankParts parts then [] else sequenceRests parts [bytes]) ++ branchRests branches bytes

/-- What may be left after some parts, from any of some beginnings. -/
def sequenceRests : List Part → List (List UInt8) → List (List UInt8)
  | [], starts => starts
  | p :: parts, starts => sequenceRests parts (starts.flatMap fun start => p.rests start).eraseDups

end

end Glob

/-- A pattern for paths. -/
structure Glob where
  parts : List Glob.Part

namespace Glob

/-- Reads a pattern. -/
def read (pattern : String) : Except Defect Glob :=
  let text := pattern.toList
  (readParts none .fresh [] text.length text).map fun parts => ⟨widen parts⟩

/-- Whether a pattern stands for a path. -/
def accepts (g : Glob) (path : String) : Bool :=
  (sequenceRests g.parts [Utf8.bytes path.toList]).any List.isEmpty

end Glob

end Concord
