/-
Searching and cutting a text: leading and trailing parts, first and last
occurrences of a pattern, and splitting at every occurrence. Positions count
characters.
-/
import Concord.Text.Blank

namespace Concord.Text

/-- What follows `p` in a text that begins with it. -/
def dropPrefix? : (p t : Text) → Option Text
  | [], t => some t
  | _ :: _, [] => none
  | a :: p, b :: t => if a = b then dropPrefix? p t else none

theorem dropPrefix?_eq_some_iff {p t u : Text} : dropPrefix? p t = some u ↔ t = p ++ u := by
  induction p generalizing t with
  | nil => simp [dropPrefix?]
  | cons a p ih =>
    cases t with
    | nil => simp [dropPrefix?]
    | cons b t =>
      by_cases h : a = b
      · simp [dropPrefix?, h, ih]
      · simp [dropPrefix?, h, Ne.symm h]

def startsWith (t p : Text) : Bool := p.isPrefixOf t

def endsWith (t p : Text) : Bool := p.isSuffixOf t

/-- What precedes `p` in a text that ends with it. -/
def dropSuffix? (p t : Text) : Option Text :=
  if p.isSuffixOf t then some (t.take (t.length - p.length)) else none

/-- The text before and after the first occurrence of `p`. -/
def cut? (p : Text) : Text → Option (Text × Text)
  | [] => if p.isEmpty then some ([], []) else none
  | c :: t =>
    match dropPrefix? p (c :: t) with
    | some u => some ([], u)
    | none => (cut? p t).map fun r => (c :: r.1, r.2)

/-- Where `p` occurs first. -/
def find? (p t : Text) : Option Nat := (cut? p t).map fun r => r.1.length

/-- Whether `p` stands somewhere in `t`. -/
def occurs (p t : Text) : Bool := (cut? p t).isSome

/-- The text before and after the last occurrence of `p`. -/
def cutLast? (p t : Text) : Option (Text × Text) :=
  (cut? p.reverse t.reverse).map fun r => (r.2.reverse, r.1.reverse)

/-- The pieces between the occurrences of a character. -/
def splitAt (sep : Char) : Text → List Text
  | [] => [[]]
  | c :: t =>
    if c = sep then [] :: splitAt sep t
    else match splitAt sep t with
      | [] => [[c]]
      | u :: rest => (c :: u) :: rest

/-- The pieces joined by `sep`. -/
def join (sep : Text) (parts : List Text) : Text := sep.intercalate parts

/-- Every occurrence of `p`, from the left, replaced by `r`; `skip` characters are passed over. -/
def replaceFrom (p r : Text) : (skip : Nat) → Text → Text
  | _, [] => []
  | 0, c :: t =>
    if p.isPrefixOf (c :: t) then r ++ replaceFrom p r (p.length - 1) t
    else c :: replaceFrom p r 0 t
  | skip + 1, _ :: t => replaceFrom p r skip t

/-- Every occurrence of the non-empty `p` replaced by `r`. -/
def replace (p r : Text) (t : Text) : Text := if p.isEmpty then t else replaceFrom p r 0 t

/-- Drops every leading `c`. -/
def stripLeading (c : Char) (t : Text) : Text := t.dropWhile (· == c)

/-- Drops every trailing `c`. -/
def stripTrailing (c : Char) (t : Text) : Text := dropEndWhile (· == c) t

/-- Drops the characters for which `p` holds from both ends. -/
def stripBoth (p : Char → Bool) (t : Text) : Text := dropEndWhile p (t.dropWhile p)

/-- The number of bytes of a text in UTF-8. -/
def byteLength (t : Text) : Nat := (t.map Char.utf8Size).foldr (· + ·) 0

/-- Cuts a text at a byte offset; `none` inside a character or past the end. -/
def cutAtByte? : Nat → Text → Option (Text × Text)
  | 0, t => some ([], t)
  | _ + 1, [] => none
  | n + 1, c :: t =>
    if c.utf8Size ≤ n + 1 then (cutAtByte? (n + 1 - c.utf8Size) t).map fun r => (c :: r.1, r.2)
    else none
termination_by _ t => t.length

end Concord.Text
