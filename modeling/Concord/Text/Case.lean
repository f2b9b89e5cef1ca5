/-
Lower and upper case. The mapping of a single character may give several, and
the lower case of a whole text writes a capital sigma at the end of a word in
its final form.
-/
import Concord.Text.Letter
import Concord.Text.Table.Case

namespace Concord.Text

/-- Looks `n` up in a table of runs. -/
def shifted (runs : Array (Nat × Nat × Nat × Int)) (n : Nat) : Option Nat :=
  (runs.find? fun r => r.1 ≤ n && n ≤ r.2.1 && (n - r.1) % r.2.2.1 == 0).map
    fun r => (Int.ofNat n + r.2.2.2).toNat

/-- The lower case of one character, on its own. -/
def lowerChar (c : Char) : Text :=
  if isAsciiUpper c then [Char.ofNat (c.toNat + 32)]
  else if c.toNat < 128 then [c]
  else if c.toNat == 304 then [Char.ofNat 105, Char.ofNat 775]
  else match shifted Table.lowerRuns c.toNat with
    | some n => [Char.ofNat n]
    | none => [c]

/-- The upper case of one character. -/
def upperChar (c : Char) : Text :=
  if isAsciiLower c then [Char.ofNat (c.toNat - 32)]
  else if c.toNat < 128 then [c]
  else match Table.upperMany.find? fun r => r.1 == c.toNat with
    | some r => r.2.map Char.ofNat
    | none =>
      match shifted Table.upperRuns c.toNat with
      | some n => [Char.ofNat n]
      | none => [c]

/-- Letters that have case, or are written in one. -/
def isCased (c : Char) : Bool := inClass isAsciiLetter Table.cased c

/-- Characters that do not end a word for the sigma rule. -/
def isCaseIgnorable (c : Char) : Bool :=
  inClass (fun c => c == '\'' || c == '.' || c == ':' || c == '^' || c == '`') Table.ignorable c

/-- Whether the first character that is not case-ignorable has case. -/
def casedNext (t : Text) : Bool :=
  match t.dropWhile isCaseIgnorable with
  | [] => false
  | c :: _ => isCased c

/-- Capital sigma. -/
def sigma : Char := Char.ofNat 0x3A3

/-- The lower case of a text whose reversed beginning is `before`. -/
def lowerAfter (before : Text) : Text → Text
  | [] => []
  | c :: t =>
    let image :=
      if c == sigma then
        if casedNext before && !casedNext t then [Char.ofNat 0x3C2] else [Char.ofNat 0x3C3]
      else lowerChar c
    image ++ lowerAfter (c :: before) t

/-- The lower case of a text. -/
def lower (t : Text) : Text := lowerAfter [] t

/-- The lower case of a `String`. -/
def lowered (s : String) : String := onText lower s

/-- The lower case of every character, without regard to its neighbours. -/
def lowerEach (t : Text) : Text := t.flatMap lowerChar

end Concord.Text
