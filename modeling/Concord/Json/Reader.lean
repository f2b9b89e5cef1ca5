/-
JSON text to values. Numbers are read digit by digit: a whole number that fits
64 bits stays whole, and a double is its first digits, as many as fit 64 bits, times or
divided by a power of ten. Lists and objects may be nested 127 deep.
-/
import Concord.Json.Value
import Concord.Number.Read
import Concord.Text.Blank

namespace Concord.Json

open Text Number

/-- The white space of JSON. -/
def isSpace (c : Char) : Bool := c == ' ' || c == '\t' || c == '\n' || c == '\r'

def skipSpace (t : Text) : Text := t.dropWhile isSpace

/-! ## Numbers -/

/-- Whether another digit no longer fits 64 bits. -/
def overflows (n digit : Nat) : Bool := maxNat64 < n * 10 + digit

def digitOf (c : Char) : Nat := c.toNat - '0'.toNat

/-- The nearest double to `10 ^ n`. -/
def powerOfTen (n : Nat) : Float := nearest (Nat.pow 10 n) 1

/-- `x * 10 ^ e` for an exponent below all powers of ten that are doubles, `fuel` steps at most. -/
def shrink (x : Float) (e : Int) : (fuel : Nat) → Float
  | 0 => 0
  | fuel + 1 =>
    if e.natAbs ≤ 308 then x / powerOfTen e.natAbs
    else if x == 0 then x
    else shrink (x / powerOfTen 308) (e + 308) fuel

/-- `significand * 10 ^ e`; nothing if it is too large. -/
def assemble (significand : Nat) (e : Int) : Option Float :=
  let x := nearest significand 1
  if e < 0 then some (shrink x e 5)
  else if 308 < e then (if significand = 0 then some x else none)
  else
    let y := x * powerOfTen e.toNat
    if y.isInf then none else some y

/-- The exponent after its letter, and the rest. -/
def readExponent (significand : Nat) (e : Int) (t : Text) : Option (Float × Text) :=
  let (negative, u) := signOf t
  let ds := u.takeWhile isAsciiDigit
  let rest := u.drop ds.length
  if ds.isEmpty then none
  else
    let n := Int.ofNat (ofDigits ds)
    if Nat.pow 2 31 ≤ n then
      if significand ≠ 0 && !negative then none else some (0, rest)
    else (assemble significand (if negative then e - n else e + n)).map (·, rest)

/-- What may follow the digits of a double. -/
def finishFloat (significand : Nat) (e : Int) : Text → Option (Float × Text)
  | [] => (assemble significand e).map (·, [])
  | c :: t =>
    if c == 'e' || c == 'E' then readExponent significand e t
    else (assemble significand e).map (·, c :: t)

/-- The digits after the point. A digit that does not fit ends them for the value. -/
def readFraction (significand : Nat) (e : Int) : Text → Option (Float × Text)
  | [] => finishFloat significand e []
  | c :: t =>
    if isAsciiDigit c then
      if overflows significand (digitOf c) then
        finishFloat significand e (t.dropWhile isAsciiDigit)
      else readFraction (significand * 10 + digitOf c) (e - 1) t
    else finishFloat significand e (c :: t)

/-- A number whose first digits are `significand`: the text from the point or exponent on. -/
def readScaled (significand : Nat) (e : Int) : Text → Option (Float × Text)
  | '.' :: c :: t => if isAsciiDigit c then readFraction significand e (c :: t) else none
  | '.' :: [] => none
  | t => finishFloat significand e t

/-- An unsigned number. -/
def readUnsigned (negative : Bool) (significand : Nat) : Text → Option (Json × Text)
  | [] => some (whole, [])
  | c :: t =>
    if isAsciiDigit c then
      if overflows significand (digitOf c) then
        let more := (c :: t).takeWhile isAsciiDigit
        (readScaled significand more.length ((c :: t).drop more.length)).map signed
      else readUnsigned negative (significand * 10 + digitOf c) t
    else if c == '.' || c == 'e' || c == 'E' then (readScaled significand 0 (c :: t)).map signed
    else some (whole, c :: t)
where
  /-- A double with its sign. -/
  signed (r : Float × Text) : Json × Text := (.float (if negative then -r.1 else r.1), r.2)
  /-- A number without point and exponent; minus zero and numbers below 64 bits are doubles. -/
  whole : Json :=
    if negative then
      if significand = 0 || Nat.pow 2 63 < significand then .float (-nearest significand 1)
      else .int (-Int.ofNat significand)
    else .int significand

/-- A number: no leading zeros, at least one digit. -/
def readNumber (negative : Bool) : Text → Option (Json × Text)
  | '0' :: t =>
    match t with
    | c :: _ => if isAsciiDigit c then none else readUnsigned negative 0 t
    | [] => readUnsigned negative 0 []
  | c :: t => if isAsciiDigit c then readUnsigned negative 0 (c :: t) else none
  | [] => none

/-! ## Strings -/

def hexDigit? (c : Char) : Option Nat :=
  if isAsciiDigit c then some (digitOf c)
  else if 'a' ≤ c && c ≤ 'f' then some (c.toNat - 'a'.toNat + 10)
  else if 'A' ≤ c && c ≤ 'F' then some (c.toNat - 'A'.toNat + 10)
  else none

/-- Four hexadecimal digits. -/
def readHex4 : Text → Option (Nat × Text)
  | a :: b :: c :: d :: t => do
    let a ← hexDigit? a
    let b ← hexDigit? b
    let c ← hexDigit? c
    let d ← hexDigit? d
    return (((a * 16 + b) * 16 + c) * 16 + d, t)
  | _ => none

/-- The character of an escape with four digits, or of two such that pair up. -/
def readUnicode (t : Text) : Option (Char × Text) := do
  let (n, t) ← readHex4 t
  if 0xDC00 ≤ n ∧ n ≤ 0xDFFF then none
  if 0xD800 ≤ n ∧ n ≤ 0xDBFF then
    match t with
    | '\\' :: 'u' :: t =>
      let (m, t) ← readHex4 t
      if 0xDC00 ≤ m ∧ m ≤ 0xDFFF then
        return (Char.ofNat (0x10000 + (n - 0xD800) * 0x400 + (m - 0xDC00)), t)
      else none
    | _ => none
  else return (Char.ofNat n, t)

/-- The character of an escape after its backslash. -/
def readEscape : Text → Option (Char × Text)
  | [] => none
  | c :: t =>
    match c with
    | '"' => some ('"', t)
    | '\\' => some ('\\', t)
    | '/' => some ('/', t)
    | 'b' => some ('\x08', t)
    | 'f' => some ('\x0c', t)
    | 'n' => some ('\n', t)
    | 'r' => some ('\r', t)
    | 't' => some ('\t', t)
    | 'u' => readUnicode t
    | _ => none

/-- The characters of a string up to its closing quote, after those of `done`. -/
def readString (done : Text) : (fuel : Nat) → Text → Option (String × Text)
  | 0, _ => none
  | _ + 1, [] => none
  | fuel + 1, c :: t =>
    if c == '"' then some (String.ofList done.reverse, t)
    else if c == '\\' then
      match readEscape t with
      | some (c, t) => readString (c :: done) fuel t
      | none => none
    else if c.toNat < 32 then none
    else readString (c :: done) fuel t

/-! ## Values -/

/-- The deepest nesting that is read. -/
def maxDepth : Nat := 127

mutual

/-- One value and the text after it. `depth` lists or objects may still be opened. -/
def readValue (depth : Nat) : (fuel : Nat) → Text → Option (Json × Text)
  | 0, _ => none
  | fuel + 1, t =>
    match skipSpace t with
    | [] => none
    | c :: t =>
      if c == '"' then (readString [] (t.length + 1) t).map fun r => (.str r.1, r.2)
      else if c == '-' then readNumber true t
      else if isAsciiDigit c then readNumber false (c :: t)
      else if c == '[' then
        match depth with
        | 0 => none
        | depth + 1 =>
          match skipSpace t with
          | ']' :: t => some (.arr [], t)
          | _ => (readItems depth fuel t).map fun r => (.arr r.1, r.2)
      else if c == '{' then
        match depth with
        | 0 => none
        | depth + 1 =>
          match skipSpace t with
          | '}' :: t => some (.obj [], t)
          | _ => (readMembers depth fuel t).map fun r => (.obj r.1, r.2)
      else
        match c :: t with
        | 'n' :: 'u' :: 'l' :: 'l' :: t => some (.null, t)
        | 't' :: 'r' :: 'u' :: 'e' :: t => some (.bool true, t)
        | 'f' :: 'a' :: 'l' :: 's' :: 'e' :: t => some (.bool false, t)
        | _ => none

/-- The items of a list up to its closing bracket. -/
def readItems (depth : Nat) : (fuel : Nat) → Text → Option (List Json × Text)
  | 0, _ => none
  | fuel + 1, t =>
    match readValue depth fuel t with
    | none => none
    | some (j, t) =>
      match skipSpace t with
      | ']' :: t => some ([j], t)
      | ',' :: t => (readItems depth fuel t).map fun r => (j :: r.1, r.2)
      | _ => none

/-- The members of an object up to its closing brace. -/
def readMembers (depth : Nat) : (fuel : Nat) → Text → Option (List (String × Json) × Text)
  | 0, _ => none
  | fuel + 1, t =>
    match skipSpace t with
    | '"' :: t =>
      match readString [] (t.length + 1) t with
      | none => none
      | some (key, t) =>
        match skipSpace t with
        | ':' :: t =>
          match readValue depth fuel t with
          | none => none
          | some (j, t) =>
            match skipSpace t with
            | '}' :: t => some ([(key, j)], t)
            | ',' :: t => (readMembers depth fuel t).map fun r => ((key, j) :: r.1, r.2)
            | _ => none
        | _ => none
    | _ => none

end

theorem readValue_zero (depth : Nat) (t : Text) : readValue depth 0 t = none := by
  simp only [readValue]

theorem readItems_zero (depth : Nat) (t : Text) : readItems depth 0 t = none := by
  simp only [readItems]

theorem readMembers_zero (depth : Nat) (t : Text) : readMembers depth 0 t = none := by
  simp only [readMembers]

/-- The value of a whole text. -/
def read (s : String) : Option Json :=
  let t := s.toList
  match readValue maxDepth (t.length + 1) t with
  | some (j, rest) => if (skipSpace rest).isEmpty then some j else none
  | none => none

end Concord.Json
