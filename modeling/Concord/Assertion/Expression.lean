/-
Expressions that a test asserts, as assertions.
-/
import Concord.Assertion.Basic
import Concord.Assertion.Literal

namespace Concord.Assertion

open Text Code

/-- The operators of comparisons, longer ones before those they begin with. -/
def comparisonOperators : List Text :=
  [" is not ".toList, " not in ".toList, "===".toList, "!==".toList, "==".toList, "!=".toList,
    "<=".toList, ">=".toList, " is ".toList, " in ".toList, "<".toList, ">".toList]

/-- The first comparison at the top level: its place and its operator. -/
def firstComparison? (t : Text) : Option (Nat × Text) := do
  let place ← findTopWhere? (fun u => comparisonOperators.any (startsWith u)) t 0
  let operator ← comparisonOperators.find? (startsWith (t.drop place))
  return (place, operator)

/-- What an expression counts, if it counts something. -/
def counted? (t : Text) : Option Text :=
  let u := trim t
  match (dropPrefix? "len(".toList u).bind (dropSuffix? [')']) with
  | some inner => some (trim inner)
  | none =>
    [".len()".toList, ".length".toList, ".count()".toList, ".size()".toList].findSome?
      fun e => dropSuffix? e u

/-- The arguments of a call whose opening parenthesis stands at `place`. -/
def arguments? (t : Text) (place : Nat) : Option (List Text) :=
  (closeOf? t place).map fun close => splitTop ',' ((t.take close).drop (place + 1))

/-- Receiver and argument text of a call of `method` that ends the expression. -/
def methodCall? (t : Text) (method : String) : Option (Text × Text) := do
  let pattern := '.' :: method.toList ++ ['(']
  let (receiver, _) ← cutLast? pattern t
  let place := receiver.length + pattern.length - 1
  let close ← closeOf? t place
  if close + 1 != t.length then none
  return (receiver, (t.drop (place + 1)).dropLast)

/-- A target and an expected value as an assertion. -/
def on (kind : Kind) (target : Text) (expected : Datum) : Assertion :=
  { kind, target := String.ofList target, expected }

/-- Two sides are equal; the first is the target. -/
def equalTo (left right : Text) : Assertion :=
  if isNull right then on .nullCheck left (.bool true)
  else match counted? left with
    | some collection => on .countCheck collection (valueOf right)
    | none => on .equality left (valueOf right)

/-- Two sides differ; the first is the target. -/
def differentFrom (left right : Text) : Assertion :=
  if isNull right then on .nullCheck left (.bool false)
  else on .inequality left (valueOf right)

/-- Whether only the left side is a literal, so that the right one is the target. -/
def isReversed (left right : Text) : Bool := (literal? left).isSome && (literal? right).isNone

/-- The assertion that `left operator right` makes. -/
def comparison (left operator right : Text) : Assertion :=
  match String.ofList operator with
  | "==" | "===" | "is" =>
    if !isNull right && (counted? left).isNone && isReversed left right then equalTo right left
    else equalTo left right
  | "!=" | "!==" | "is not" =>
    if !isNull right && isReversed left right then differentFrom right left
    else differentFrom left right
  | "in" => on .membership right (valueOf left)
  | "not in" => on .membership right (opposite (valueOf left))
  | _ => on .ordering left (.str (String.ofList (operator ++ [' '] ++ right)))

/-- The assertion that an expression does not hold. -/
def falsity (expression : Text) : Assertion :=
  let t := stripParens expression
  match firstComparison? t with
  | some (place, operator) =>
    let left := trim (t.take place)
    let right := trim (t.drop (place + operator.length))
    if operator == "==".toList then comparison left "!=".toList right
    else if operator == " in ".toList then comparison left "not in".toList right
    else on .equality t (.bool false)
  | none => on .equality t (.bool false)

/-- Calls that look for a pattern. -/
def matchCalls : List Text :=
  ["re.match(".toList, "re.search(".toList, "re.fullmatch(".toList]

/-- A call that looks for a pattern, as an assertion. -/
def patternMatch? (t : Text) : Option Assertion :=
  matchCalls.findSome? fun call =>
    if startsWith t call then
      match arguments? t (call.length - 1) with
      | some (pattern :: subject :: _) => some (on .patternMatch subject (valueOf pattern))
      | _ => none
    else none

/-- A method call that is asserted to hold. -/
def predicate? (t : Text) : Option Assertion :=
  if let some (receiver, _) := methodCall? t "is_none" then
    some (on .nullCheck receiver (.bool true))
  else if let some (receiver, _) := methodCall? t "is_some" then
    some (on .nullCheck receiver (.bool false))
  else if let some (receiver, _) := methodCall? t "is_empty" then
    some (on .countCheck receiver (.int 0))
  else if let some (receiver, _) := methodCall? t "is_err" then
    some (raising (String.ofList receiver) "Err")
  else if let some (receiver, item) := methodCall? t "contains" then
    some (on .membership receiver (valueOf (stripLeading '&' item)))
  else none

/-- The assertion that an expression holds. -/
def truth (expression : Text) : Assertion :=
  let t := stripParens expression
  match dropPrefix? "not ".toList t with
  | some inner => falsity inner
  | none =>
    match (match t with
      | '!' :: inner =>
        if inner.head? != some '=' && (firstComparison? inner).isNone then some inner else none
      | _ => none) with
    | some inner => falsity inner
    | none =>
      match firstComparison? t with
      | some (place, operator) =>
        comparison (trim (t.take place)) (trim operator) (trim (t.drop (place + operator.length)))
      | none =>
        ((predicate? t).or (patternMatch? t)).getD (on .equality t (.bool true))

end Concord.Assertion
