/-
Types of specified fields, and their text.
-/
import Concord.Schema
import Concord.Text.Cut

namespace Concord.Spec

open Text

/-- The type of a specified field. -/
inductive FieldType where
  | base (b : BaseType)
  | nullable (t : FieldType)
deriving DecidableEq, Repr, Inhabited

namespace FieldType

/-- The type that also has a value for nothing; a type that has one stays as it is. -/
def orNull : FieldType → FieldType
  | base b => nullable (base b)
  | nullable t => nullable t

/-- The type without its outermost nullable layer. -/
def unwrap : FieldType → FieldType
  | base b => base b
  | nullable t => t

/-- The innermost type. -/
def root : FieldType → BaseType
  | base b => b
  | nullable t => t.root

def isNullable : FieldType → Bool
  | base _ => false
  | nullable _ => true

def text : FieldType → String
  | base b => b.name
  | nullable t => "nullable<" ++ t.text ++ ">"

/-- What stands between the brackets of a nullable type. -/
def nullableBody? (t : Text) : Option Text :=
  (dropPrefix? "nullable<".toList t).bind (dropSuffix? ['>'])

/-- The type that a text spells, unwrapping at most `fuel` layers; else the text that is no type. -/
def ofTextFrom : (fuel : Nat) → Text → Except String FieldType
  | 0, t => .error (String.ofList t)
  | fuel + 1, t =>
    let t := trim t
    match nullableBody? t with
    | some inner => (ofTextFrom fuel inner).map orNull
    | none =>
      match BaseType.ofName? (String.ofList t) with
      | some b => .ok (base b)
      | none => .error (String.ofList t)

/-- The type that a text spells; else the part of it that is no type. -/
def ofText (s : String) : Except String FieldType := ofTextFrom (s.toList.length + 1) s.toList

end FieldType

end Concord.Spec
