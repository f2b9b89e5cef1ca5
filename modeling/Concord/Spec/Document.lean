/-
Specifications as documents: fields by name, their types by base name, and a
version of the form. A field that is not required comes back nullable.
-/
import Concord.Json.Decode
import Concord.Json.Reader
import Concord.Json.Writer
import Concord.Source.Unit
import Concord.Spec.Basic

namespace Concord.Spec

open Json

/-- The version of the form that is written, and the newest that is read. -/
def schemaVersion : Nat := 1

/-- A field in a document. -/
structure FieldDocument where
  type : String
  required : Bool
  default : Option String := none
  reference : Option String := none
  values : List String := []
  validations : List String := []
deriving DecidableEq, Repr, Inhabited

/-- A specification in the form in which it is stored. -/
structure Document where
  entity : String
  space : String := ""
  fields : KeyMap FieldDocument := .empty
  actions : List Action := []
  tags : List Pattern.Tag := []
  version : Nat := schemaVersion
  format : Option Source.Format := none
deriving DecidableEq, Inhabited

/-! ## Writing -/

namespace Encode

open Json.Encode

mutual

def step : Step → Json
  | .validate condition error =>
    .obj (member "kind" (.str "validate") ++ member "condition" (.str condition) ++
      memberUnless error.isNone "error" (option .str error))
  | .mutate field value =>
    .obj (member "kind" (.str "mutate-field") ++ member "field" (.str field) ++
      member "value" (.str value))
  | .invoke call unclassified =>
    .obj (member "kind" (.str "invoke-external") ++ member "call" (.str call) ++
      memberUnless (!unclassified) "unclassified" (.bool unclassified))
  | .branch condition yes otherwise =>
    .obj (member "kind" (.str "branch") ++ member "condition" (.str condition) ++
      member "then" (.arr (steps yes)) ++ member "else" (.arr (steps otherwise)))
  | .iterate range body =>
    .obj (member "kind" (.str "iterate") ++ member "over" (.str range) ++
      member "body" (.arr (steps body)))
  | .raise error => .obj (member "kind" (.str "raise") ++ member "error" (.str error))
  | .give value =>
    .obj (member "kind" (.str "return") ++ memberUnless value.isNone "value" (option .str value))

def steps : List Step → List Json
  | [] => []
  | s :: rest => step s :: steps rest

end

def action (a : Action) : Json :=
  .obj (member "name" (.str a.name) ++
    memberUnless a.parameters.isEmpty "parameters" (strings a.parameters) ++
    member "steps" (.arr (steps a.steps)))

def field (f : FieldDocument) : Json :=
  .obj (member "type" (.str f.type) ++ member "required" (.bool f.required) ++
    memberUnless f.default.isNone "default" (option .str f.default) ++
    memberUnless f.reference.isNone "reference" (option .str f.reference) ++
    memberUnless f.values.isEmpty "enum_values" (strings f.values) ++
    memberUnless f.validations.isEmpty "validations" (strings f.validations))

def document (d : Document) : Json :=
  .obj (member "entity" (.str d.entity) ++ member "namespace" (.str d.space) ++
    member "fields" (map field d.fields) ++ member "actions" (list action d.actions) ++
    member "_tags" (list (fun t => .str t.name) d.tags) ++
    member "_schema_version" (.int d.version) ++
    memberUnless d.format.isNone "_source_format" (option (fun f => .str f.tag) d.format))

end Encode

/-! ## Reading -/

namespace Decode

open Json.Decode

/-- The kinds of steps, in their order. -/
def stepKinds : List String :=
  ["validate", "mutate-field", "invoke-external", "branch", "iterate", "raise", "return"]

/-- One step, `fuel` deep at most. A step inside another one may give its kind by a number. -/
def stepWithin : (fuel : Nat) → (inside : Bool) → Decoder Step
  | 0, _, _ => none
  | fuel + 1, inside, j =>
    let steps := list (stepWithin fuel true)
    tagged "kind" stepKinds inside (fun kind =>
      match kind with
      | "validate" => some <| record ["condition", "error"] do
        let condition ← Json.Decode.field "condition" string
        return .validate condition (← fieldOption "error" string)
      | "mutate-field" => some <| record ["field", "value"] do
        let field ← Json.Decode.field "field" string
        return .mutate field (← Json.Decode.field "value" string)
      | "invoke-external" => some <| record ["call", "unclassified"] do
        let call ← Json.Decode.field "call" string
        return .invoke call (← fieldOr "unclassified" false bool)
      | "branch" => some <| record ["condition", "then", "else"] do
        let condition ← Json.Decode.field "condition" string
        let yes ← Json.Decode.field "then" steps
        return .branch condition yes (← fieldOr "else" [] steps)
      | "iterate" => some <| record ["over", "body"] do
        let range ← Json.Decode.field "over" string
        return .iterate range (← Json.Decode.field "body" steps)
      | "raise" => some <| record ["error"] do
        return .raise (← Json.Decode.field "error" string)
      | "return" => some <| record ["value"] do
        return .give (← fieldOption "value" string)
      | _ => none) j

/-- One step; a step lies below its own height. -/
def step : Decoder Step := fun j => stepWithin (j.height + 1) false j

def action : Decoder Action :=
  record ["name", "parameters", "steps"] do
    let name ← Json.Decode.field "name" string
    let parameters ← fieldOr "parameters" [] (list string)
    let steps ← Json.Decode.field "steps" (list step)
    return { name, parameters, steps }

def tag : Decoder Pattern.Tag := variant Pattern.Tag.ofName?

def fieldType : Decoder FieldType := fun j => (string j).bind fun s => (FieldType.ofText s).toOption

/-- A specified field by itself. -/
def field : Decoder Field :=
  record ["name", "field_type", "required", "default", "reference", "enum_values",
      "validations"] do
    let name ← Json.Decode.field "name" string
    let type ← Json.Decode.field "field_type" fieldType
    let required ← Json.Decode.field "required" bool
    let default ← fieldOption "default" string
    let reference ← fieldOption "reference" string
    let values ← fieldOr "enum_values" [] (list string)
    let validations ← fieldOr "validations" [] (list string)
    return { name, type, required, default, reference, values, validations }

def fieldDocument : Decoder FieldDocument :=
  record ["type", "required", "default", "reference", "enum_values", "validations"] do
    let type ← Json.Decode.field "type" string
    let required ← Json.Decode.field "required" bool
    let default ← fieldOption "default" string
    let reference ← fieldOption "reference" string
    let values ← fieldOr "enum_values" [] (list string)
    let validations ← fieldOr "validations" [] (list string)
    return { type, required, default, reference, values, validations }

/-- A whole number of 32 bits. -/
def nat32 : Decoder Nat := fun j => (nat j).filter (· < Nat.pow 2 32)

def document : Decoder Document :=
  record ["entity", "namespace", "fields", "actions", "_tags", "_schema_version",
      "_source_format"] do
    let entity ← Json.Decode.field "entity" string
    let space ← fieldOr "namespace" "" string
    let fields ← fieldOr "fields" .empty (map fieldDocument)
    let actions ← fieldOr "actions" [] (list action)
    let tags ← fieldOr "_tags" [] (list tag)
    let version ← fieldOr "_schema_version" schemaVersion nat32
    let format ← fieldOption "_source_format" Source.Decode.format
    return { entity, space, fields, actions, tags, version, format }

end Decode

/-- A field as it stands in a document. -/
def Field.document (f : Field) : FieldDocument :=
  { type := f.type.root.name, required := f.required, default := f.default,
    reference := f.reference, values := f.values, validations := f.validations }

/-- The field that a document describes; else the text that is no type. -/
def FieldDocument.field (name : String) (d : FieldDocument) : Except String Field :=
  (FieldType.ofText d.type).map fun type =>
    { name, type := if d.required then type else type.orNull, required := d.required,
      default := d.default, reference := d.reference, values := d.values,
      validations := d.validations }

end Concord.Spec

namespace Concord.Specification

open Spec

/-- The document of a specification. -/
def document (s : Specification) : Document where
  entity := s.entity
  space := s.space
  fields := KeyMap.ofList (s.fields.map fun f => (f.name, f.document))
  actions := s.actions
  tags := s.tags.toList
  version := schemaVersion
  format := some s.format

/-- The specification that a document describes, with its fields by name. -/
def ofDocument (d : Document) : Except Refusal Specification := do
  if schemaVersion < d.version then
    throw (d.entity, .newerVersion d.version schemaVersion)
  let fields ← d.fields.members.mapM fun m =>
    (m.2.field m.1).mapError fun text => (d.entity, Schema.Defect.unknownType text)
  let s ← make d.entity d.space fields d.actions (d.format.getD .unknown)
  return s.withTags (.ofList d.tags)

/-- The text that identifies a specification: its document without any blanks. -/
def canonicalText (s : Specification) : String := (Spec.Encode.document s.document).compact

end Concord.Specification
