/-
The names that statements call.
-/
import Concord.Text.Cut
import Concord.Text.Letter

namespace Concord.Scenario

open Text

/-- A name at the beginning of a text that is followed by an opening parenthesis, and the text
after that. -/
def calledName? (t : Text) : Option (Text × Text) :=
  match t with
  | c :: _ =>
    if isNameStart c then
      let name := t.takeWhile isWord
      match trimStart (t.drop name.length) with
      | '(' :: rest => some (name, rest)
      | _ => none
    else none
  | [] => none

/-- The methods that a text calls on some receiver, from left to right; `skip` characters belong to
a call found before. -/
def methodCallsFrom : (skip : Nat) → Text → List Text
  | _, [] => []
  | skip + 1, _ :: t => methodCallsFrom skip t
  | 0, c :: t =>
    if c == '.' then
      match calledName? t with
      | some (name, rest) => name :: methodCallsFrom (t.length - rest.length) t
      | none => methodCallsFrom 0 t
    else methodCallsFrom 0 t

/-- The methods that a text calls on some receiver. -/
def methodCalls (t : Text) : List Text := methodCallsFrom 0 t

/-- The first name that is called, with only words and dots before it. -/
def leadingCall? : Text → Option Text
  | [] => none
  | c :: t =>
    match calledName? (c :: t) with
    | some (name, _) => some name
    | none => if isWord c || c == '.' then leadingCall? t else none

/-- What follows `await` and the blanks after it. -/
def afterAwait? (t : Text) : Option Text :=
  match dropPrefix? "await".toList t with
  | some (c :: rest) => if isBlank c then some (trimStart rest) else none
  | _ => none

/-- The function or method that a statement begins by calling. -/
def callee? (t : Text) : Option Text :=
  ((afterAwait? t).bind leadingCall?).or (leadingCall? t)

end Concord.Scenario
