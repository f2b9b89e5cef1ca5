/-
Specifications. `Specification.make` accepts exactly those whose names are in
order and whose references and enumerations are complete.
-/
import Concord.Pattern.Tag
import Concord.Source.Format
import Concord.Spec.FieldType
import Concord.Spec.Step
import Concord.Text.Blank

namespace Concord.Spec

open Text

/-- A specified field. -/
structure Field where
  name : String
  type : FieldType
  required : Bool
  default : Option String := none
  reference : Option String := none
  values : List String := []
  validations : List String := []
deriving DecidableEq, Repr, Inhabited

/-- A field that is required exactly when its type has no value for nothing. -/
def Field.ofType (name : String) (type : FieldType) : Field :=
  { name, type, required := !type.isNullable }

/-- What is wrong with one field when the fields before it have the names `seen`. -/
def fieldDefect? (seen : List String) (f : Field) : Option Schema.Defect :=
  if allBlank f.name.toList then some .emptyFieldName
  else if seen.contains f.name then some (.duplicateField f.name)
  else if f.type.root == .reference && f.reference.isNone then some (.untargetedReference f.name)
  else if f.type.root == .enumerated && f.values.isEmpty then some (.valuelessEnumeration f.name)
  else none

/-- The first thing that is wrong with some fields. -/
def fieldsDefect? (seen : List String) : List Field → Option Schema.Defect
  | [] => none
  | f :: rest => (fieldDefect? seen f).or (fieldsDefect? (f.name :: seen) rest)

/-- The first thing that is wrong with the names of some actions. -/
def actionsDefect? (seen : List String) : List Action → Option Schema.Defect
  | [] => none
  | a :: rest =>
    if allBlank a.name.toList then some .emptyActionName
    else if seen.contains a.name then some (.duplicateAction a.name)
    else actionsDefect? (a.name :: seen) rest

/-- The first thing that is wrong with a specification. -/
def defect? (entity : String) (fields : List Field) (actions : List Action) :
    Option Schema.Defect :=
  if allBlank entity.toList then some .emptyEntityName
  else (fieldsDefect? [] fields).or (actionsDefect? [] actions)

end Concord.Spec

namespace Concord

/-- What an entity is, whatever source it came from. -/
structure Specification where
  entity : String
  space : String
  fields : List Spec.Field
  actions : List Spec.Action
  tags : Pattern.Tags
  format : Source.Format
  sound : Spec.defect? entity fields actions = none
deriving DecidableEq

namespace Specification

open Text

/-- A schema defect and the name it is reported under. -/
abbrev Refusal := String × Schema.Defect

/-- The specification of an entity without patterns, if nothing is wrong with it. -/
def make (entity space : String) (fields : List Spec.Field) (actions : List Spec.Action)
    (format : Source.Format) : Except Refusal Specification :=
  match h : Spec.defect? entity fields actions with
  | some d => .error (if allBlank entity.toList then "<unnamed>" else entity, d)
  | none => .ok ⟨entity, space, fields, actions, .empty, format, h⟩

/-- The same specification with other patterns. -/
def withTags (s : Specification) (tags : Pattern.Tags) : Specification := { s with tags }

/-- The entity with its namespace in front. -/
def qualifiedName (s : Specification) : String :=
  if s.space.isEmpty then s.entity else s.space ++ "." ++ s.entity

/-- The number of steps that were kept as they were. -/
def unclassifiedCount (s : Specification) : Nat :=
  (s.actions.flatMap fun a => Spec.Step.allOf a.steps).countP Spec.Step.isUnclassified

end Specification

end Concord
