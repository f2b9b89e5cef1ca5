/-
Names in the spellings that sources and specifications use, and the words they
are made of.
-/
import Concord.Text.Case
import Concord.Text.Cut

namespace Concord.Naming

open Text

/-- A name in snake case: hyphens and spaces become underscores, and a capital after a small letter
or a digit begins a new word. `afterSmall` tells whether such a character came just before. -/
def snakeAfter (afterSmall : Bool) : Text → Text
  | [] => []
  | c :: t =>
    if c == '-' || c == ' ' then '_' :: snakeAfter false t
    else if isUppercase c then
      (if afterSmall then ['_'] else []) ++ lowerChar c ++ snakeAfter false t
    else c :: snakeAfter (isLowercase c || isAsciiDigit c) t

def snake (name : Text) : Text := snakeAfter false name

/-- The pieces between characters for which `sep` holds, without the empty ones. -/
def piecesBetween (sep : Char → Bool) : Text → List Text := fun t => go [] t
where
  go (piece : Text) : Text → List Text
    | [] => if piece.isEmpty then [] else [piece.reverse]
    | c :: t =>
      if sep c then
        if piece.isEmpty then go [] t else piece.reverse :: go [] t
      else go (c :: piece) t

/-- A word with its first letter in upper case. -/
def capitalised : Text → Text
  | [] => []
  | c :: t => upperChar c ++ t

/-- A name in Pascal case. -/
def pascal (name : Text) : Text :=
  ((piecesBetween (fun c => c == '_' || c == '-') name).map capitalised).flatten

/-- The singular of a plural, by its ending alone. -/
def singular (word : Text) : Text :=
  match dropSuffix? "ies".toList word with
  | some stem => stem ++ ['y']
  | none =>
    if endsWith word "sses".toList || endsWith word "xes".toList || endsWith word "ches".toList then
      word.take (word.length - 2)
    else if endsWith word ['s'] && !endsWith word "ss".toList && !endsWith word "us".toList then
      word.take (word.length - 1)
    else word

/-- The form in which names are compared with each other. -/
def normal (name : Text) : Text := lower (snake (trim name))

/-- The words of a name, in lower case. -/
def tokens (name : Text) : List Text :=
  (piecesBetween (fun c => !isAlphanumeric c) (snake name)).map lower

/-- Words that only say that a name is that of a test. -/
def testWords : List Text := ["test".toList, "it".toList, "should".toList]

/-- The words of a test's name as a phrase. -/
def phrase (name : Text) : Text :=
  let words := tokens name
  join [' '] (match words with
    | first :: second :: rest => if testWords.contains first then second :: rest else words
    | _ => words)

/-- A name without letter case and underscores. -/
def squash (name : Text) : Text := lowerEach (name.filter (· != '_'))

end Concord.Naming
