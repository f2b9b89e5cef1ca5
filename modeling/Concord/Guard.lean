/-
Guards. A guard clause rejects when its condition holds; the step made of it
requires the opposite. A single top-level comparison is turned round, a negation of the
whole is dropped, and everything else is put into a negated group.
-/
import Concord.Code.Split

namespace Concord.Guard

open Text Code

/-- An operator that has an opposite, and that opposite. -/
structure Inversion where
  operator : Text
  opposite : Text
deriving DecidableEq, Repr

/-- The operators with an opposite, longer ones before those they begin with. -/
def inversions : List Inversion :=
  [⟨" is not ".toList, " is ".toList⟩, ⟨" not in ".toList, " in ".toList⟩,
    ⟨"!==".toList, "===".toList⟩, ⟨"===".toList, "!==".toList⟩, ⟨"!=".toList, "==".toList⟩,
    ⟨"==".toList, "!=".toList⟩, ⟨"<>".toList, "=".toList⟩, ⟨" is ".toList, " is not ".toList⟩,
    ⟨" in ".toList, " not in ".toList⟩, ⟨"=".toList, "!=".toList⟩]

/-- A word that binds a name and does not compare. -/
def binder : Text := ":=".toList

/-- The operators without an opposite. -/
def orderings : List Text :=
  [binder, "<=".toList, ">=".toList, "=>".toList, "->".toList, "<".toList, ">".toList]

def connectives : List Text := ["&&".toList, "||".toList, " and ".toList, " or ".toList]

/-- An operator between the parts of a condition. -/
inductive Operator where
  | connective
  | binding
  | ordering
  | invertible (i : Inversion)
deriving DecidableEq, Repr

/-- The operator that a text begins with, and its length. -/
def leading? (t : Text) : Option (Operator × Nat) :=
  match connectives.find? (startsWith t) with
  | some c => some (.connective, c.length)
  | none =>
    match inversions.find? (fun i => startsWith t i.operator), orderings.find? (startsWith t) with
    | some i, some o =>
      if o.length < i.operator.length then some (.invertible i, i.operator.length)
      else some (if o == binder then .binding else .ordering, o.length)
    | none, some o => some (if o == binder then .binding else .ordering, o.length)
    | some i, none => some (.invertible i, i.operator.length)
    | none, none => none

/-- The operators at the top level of a text and its cells, with their places. The next `skip`
characters belong to an operator found before; `place` is where the text begins. -/
def operatorsFrom (place skip : Nat) : Text → List Cell → List (Nat × Operator)
  | c :: t, cell :: cells =>
    match skip with
    | skip + 1 => operatorsFrom (place + 1) skip t cells
    | 0 =>
      if cell.isTop then
        match leading? (c :: t) with
        | some (op, length) => (place, op) :: operatorsFrom (place + 1) (length - 1) t cells
        | none => operatorsFrom (place + 1) 0 t cells
      else operatorsFrom (place + 1) 0 t cells
  | _, _ => []

/-- The operators at the top level of a text, with their places. -/
def operators (t : Text) : List (Nat × Operator) := operatorsFrom 0 0 t (scan t)

/-- What a negation of the whole condition negates. -/
def unnegated? (t : Text) : Option Text :=
  match t with
  | '!' :: '=' :: _ => none
  | '!' :: rest =>
    let rest := trimStart rest
    if isParenthesised rest then some (trim (inside rest))
    else if (operators rest).isEmpty then some rest
    else none
  | _ =>
    match dropPrefix? "not ".toList t with
    | none => none
    | some rest =>
      let rest := trimStart rest
      if (operators rest).any fun o => o.2 == .connective then none else some rest

/-- Whether a condition binds names, so that it cannot be turned round. -/
def isBinding (t : Text) : Bool :=
  let u := trim t
  startsWith u "let ".toList || (operators u).any fun o => o.2 == .binding

/-- The negation of a whole condition. -/
def negated (t : Text) : Text :=
  if isParenthesised t then '!' :: t else "!(".toList ++ t ++ [')']

/-- The opposite of a condition. -/
def invert (condition : Text) : Text :=
  let t := trim condition
  if isBinding t then negated t
  else match unnegated? t with
    | some inner => inner
    | none =>
      match operators t with
      | [(place, .invertible i)] => t.take place ++ i.opposite ++ t.drop (place + i.operator.length)
      | _ => negated t

/-- The words for the receiver of a method, with their dot. -/
def receivers : List Text := ["self.".toList, "this.".toList, "cls.".toList]

/-- Whether a name or a path may continue after `c`. -/
def joins (c : Char) : Bool := isAlphanumeric c || c == '_' || c == '.'

/-- Drops receivers from a text and its cells. `prev` is the character before the text, and the
next `skip` characters are part of a receiver. -/
def dropReceivers (prev : Option Char) (skip : Nat) : Text → List Cell → Text
  | c :: t, cell :: cells =>
    match skip with
    | skip + 1 => dropReceivers (some c) skip t cells
    | 0 =>
      match (if cell.depth.isSome && !(prev.any joins) then
          receivers.find? (startsWith (c :: t)) else none) with
      | some r => dropReceivers (some c) (r.length - 1) t cells
      | none => c :: dropReceivers (some c) 0 t cells
  | _, _ => []

/-- A text without the receivers that stand in its code. -/
def withoutReceivers (t : Text) : Text := dropReceivers none 0 t (scan t)

end Concord.Guard
