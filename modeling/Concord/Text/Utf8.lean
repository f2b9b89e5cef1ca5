/-
Text from bytes. A decoder takes the bytes one at a time and gives pieces: a
character, or a run of bytes that begins none. Such a run is as long as it could have
been the beginning of a character, so one broken character is one broken piece.
-/
import Concord.Text.Cut

namespace Concord.Utf8

/-- Where a decoder stands between two bytes. -/
inductive State where
  | between
  /-- Inside a character: how many bytes it still lacks, the least and the greatest that the next
  one may be, and the bits so far. -/
  | inside (owed low high bits : Nat)
deriving DecidableEq, Repr

/-- The pieces so far, the last one first, and where the decoder stands. -/
structure Decoder where
  pieces : List (Option Char)
  state : State

namespace Decoder

def start : Decoder := ⟨[], .between⟩

def emit (d : Decoder) (piece : Option Char) (state : State) : Decoder := ⟨piece :: d.pieces, state⟩

/-- Takes a byte between two characters. -/
def enter (d : Decoder) (byte : Nat) : Decoder :=
  if byte < 0x80 then d.emit (some (Char.ofNat byte)) .between
  else if byte < 0xC2 then d.emit none .between
  else if byte < 0xE0 then { d with state := .inside 1 0x80 0xBF (byte - 0xC0) }
  else if byte = 0xE0 then { d with state := .inside 2 0xA0 0xBF 0 }
  else if byte = 0xED then { d with state := .inside 2 0x80 0x9F 0xD }
  else if byte < 0xF0 then { d with state := .inside 2 0x80 0xBF (byte - 0xE0) }
  else if byte = 0xF0 then { d with state := .inside 3 0x90 0xBF 0 }
  else if byte < 0xF4 then { d with state := .inside 3 0x80 0xBF (byte - 0xF0) }
  else if byte = 0xF4 then { d with state := .inside 3 0x80 0x8F 4 }
  else d.emit none .between

/-- Takes the next byte. -/
def feed (d : Decoder) (byte : Nat) : Decoder :=
  match d.state with
  | .between => d.enter byte
  | .inside owed low high bits =>
    if low ≤ byte ∧ byte ≤ high then
      let bits := bits * 64 + (byte - 0x80)
      if owed = 1 then d.emit (some (Char.ofNat bits)) .between
      else { d with state := .inside (owed - 1) 0x80 0xBF bits }
    else (d.emit none .between).enter byte

/-- The pieces when no byte follows. -/
def finish (d : Decoder) : List (Option Char) :=
  match d.state with
  | .between => d.pieces.reverse
  | .inside .. => (none :: d.pieces).reverse

end Decoder

/-- The pieces of a byte string. -/
def pieces (bytes : List UInt8) : List (Option Char) :=
  (bytes.foldl (fun d b => d.feed b.toNat) Decoder.start).finish

/-- What stands for a broken piece. -/
def replacement : Char := Char.ofNat 0xFFFD

/-- The text of a byte string, if no piece of it is broken. -/
def text? (bytes : List UInt8) : Option Text :=
  let found := pieces bytes
  if found.all Option.isSome then some (found.filterMap id) else none

/-- The text of a byte string with a replacement for each broken piece. -/
def mend (bytes : List UInt8) : Text := (pieces bytes).map (·.getD replacement)

/-- The bytes of a text. -/
def bytes (t : Text) : List UInt8 := (String.ofList t).toUTF8.data.toList

end Concord.Utf8
