/-
What a source holds, and its form as JSON. Members that say nothing are left out
when a unit is written and may be missing when it is read.
-/
import Concord.Json.Decode
import Concord.Source.Entity
import Concord.Source.Suite

namespace Concord.Source

open Json

/-- One thing found in a source. -/
inductive Unit where
  | entity (e : Entity)
  | suite (s : Suite)
deriving DecidableEq, Inhabited

namespace Unit

def name : Unit → String
  | entity e => e.name
  | suite s => s.name

def entity? : Unit → Option Entity
  | entity e => some e
  | suite _ => none

def suite? : Unit → Option Suite
  | entity _ => none
  | suite s => some s

end Unit

/-! ## Writing -/

namespace Encode

open Json.Encode

def field (f : Field) : Json :=
  .obj (member "name" (.str f.name) ++ member "field_type" (.str f.type.text) ++
    member "original_type" (.str f.spelling) ++ member "required" (.bool f.required) ++
    memberUnless f.default.isNone "default" (option .str f.default) ++
    memberUnless f.reference.isNone "reference" (option .str f.reference) ++
    memberUnless f.values.isEmpty "enum_values" (strings f.values) ++
    memberUnless f.validations.isEmpty "validations" (strings f.validations))

def parameter (p : Parameter) : Json :=
  .obj (member "name" (.str p.name) ++
    memberUnless p.type.isNone "type_annotation" (option .str p.type))

def method (m : Method) : Json :=
  .obj (member "name" (.str m.name) ++
    memberUnless m.parameters.isEmpty "parameters" (list parameter m.parameters) ++
    memberUnless m.returns.isNone "return_type" (option .str m.returns) ++
    memberUnless m.body.isEmpty "body" (strings m.body) ++
    memberUnless m.decorations.isEmpty "decorations" (strings m.decorations) ++
    memberUnless m.doc.isNone "doc" (option .str m.doc) ++
    member "is_async" (.bool m.isAsync) ++ member "is_factory" (.bool m.isFactory) ++
    member "is_static" (.bool m.isStatic))

/-- The members of an entity. -/
def entityMembers (e : Entity) : List (String × Json) :=
  member "name" (.str e.name) ++ member "namespace" (.str e.space) ++
    member "fields" (list field e.fields) ++ member "methods" (list method e.methods) ++
    memberUnless e.supertypes.isEmpty "supertypes" (strings e.supertypes) ++
    memberUnless e.decorations.isEmpty "decorations" (strings e.decorations) ++
    memberUnless e.doc.isNone "doc" (option .str e.doc) ++
    member "source_format" (.str e.format.tag) ++
    memberUnless e.metadata.isEmpty "metadata" (map .str e.metadata)

def entity (e : Entity) : Json := .obj (entityMembers e)

def case (c : Case) : Json :=
  .obj (member "name" (.str c.name) ++ memberUnless c.doc.isNone "doc" (option .str c.doc) ++
    memberUnless c.decorations.isEmpty "decorations" (strings c.decorations) ++
    memberUnless c.fixtures.isEmpty "fixtures" (strings c.fixtures) ++
    member "body" (strings c.body) ++ member "line" (.int c.line.toNat))

def fixture (f : Fixture) : Json :=
  .obj (member "name" (.str f.name) ++ member "scope" (.str f.scope) ++
    memberUnless f.body.isEmpty "body" (strings f.body))

/-- The members of a test module. -/
def suiteMembers (s : Suite) : List (String × Json) :=
  member "name" (.str s.name) ++ member "subject" (.str s.subject) ++
    member "framework" (.str s.framework) ++ member "source_format" (.str s.format.tag) ++
    member "cases" (list case s.cases) ++
    memberUnless s.fixtures.isEmpty "fixtures" (list fixture s.fixtures) ++
    memberUnless s.metadata.isEmpty "metadata" (map .str s.metadata)

def suite (s : Suite) : Json := .obj (suiteMembers s)

def unit : Unit → Json
  | .entity e => .obj (member "kind" (.str "entity") ++ entityMembers e)
  | .suite s => .obj (member "kind" (.str "test") ++ suiteMembers s)

end Encode

/-! ## Reading -/

namespace Decode

open Json.Decode

def format : Decoder Format := variant Format.ofTag?

def typeTag : Decoder TypeTag := fun j => (string j).map TypeTag.ofText

def field : Decoder Field :=
  record ["name", "field_type", "original_type", "required", "default", "reference",
      "enum_values", "validations"] do
    let name ← Json.Decode.field "name" string
    let type ← Json.Decode.field "field_type" typeTag
    let spelling ← fieldOr "original_type" "" string
    let required ← fieldOr "required" true bool
    let default ← fieldOption "default" string
    let reference ← fieldOption "reference" string
    let values ← fieldOr "enum_values" [] (list string)
    let validations ← fieldOr "validations" [] (list string)
    return { name, type, spelling, required, default, reference, values, validations }

def parameter : Decoder Parameter :=
  record ["name", "type_annotation"] do
    let name ← Json.Decode.field "name" string
    let type ← fieldOption "type_annotation" string
    return { name, type }

def method : Decoder Method :=
  record ["name", "parameters", "return_type", "body", "decorations", "doc", "is_async",
      "is_factory", "is_static"] do
    let name ← Json.Decode.field "name" string
    let parameters ← fieldOr "parameters" [] (list parameter)
    let returns ← fieldOption "return_type" string
    let body ← fieldOr "body" [] (list string)
    let decorations ← fieldOr "decorations" [] (list string)
    let doc ← fieldOption "doc" string
    let isAsync ← fieldOr "is_async" false bool
    let isFactory ← fieldOr "is_factory" false bool
    let isStatic ← fieldOr "is_static" false bool
    return { name, parameters, returns, body, decorations, doc, isAsync, isFactory, isStatic }

def entity : Decoder Entity :=
  record ["name", "namespace", "fields", "methods", "supertypes", "decorations", "doc",
      "source_format", "metadata"] do
    let name ← Json.Decode.field "name" string
    let space ← fieldOr "namespace" "" string
    let fields ← fieldOr "fields" [] (list field)
    let methods ← fieldOr "methods" [] (list method)
    let supertypes ← fieldOr "supertypes" [] (list string)
    let decorations ← fieldOr "decorations" [] (list string)
    let doc ← fieldOption "doc" string
    let format ← Json.Decode.field "source_format" format
    let metadata ← fieldOr "metadata" .empty (map string)
    return { name, space, fields, methods, supertypes, decorations, doc, format, metadata }

/-- The number of a line. -/
def line : Decoder UInt64 := fun j => (nat j).map UInt64.ofNat

def case : Decoder Case :=
  record ["name", "doc", "decorations", "fixtures", "body", "line"] do
    let name ← Json.Decode.field "name" string
    let doc ← fieldOption "doc" string
    let decorations ← fieldOr "decorations" [] (list string)
    let fixtures ← fieldOr "fixtures" [] (list string)
    let body ← fieldOr "body" [] (list string)
    let line ← fieldOr "line" 0 line
    return { name, doc, decorations, fixtures, body, line }

def fixture : Decoder Fixture :=
  record ["name", "scope", "body"] do
    let name ← Json.Decode.field "name" string
    let scope ← fieldOr "scope" "function" string
    let body ← fieldOr "body" [] (list string)
    return { name, scope, body }

def suite : Decoder Suite :=
  record ["name", "subject", "framework", "source_format", "cases", "fixtures", "metadata"] do
    let name ← Json.Decode.field "name" string
    let subject ← fieldOr "subject" "" string
    let framework ← fieldOr "framework" "" string
    let format ← Json.Decode.field "source_format" format
    let cases ← fieldOr "cases" [] (list case)
    let fixtures ← fieldOr "fixtures" [] (list fixture)
    let metadata ← fieldOr "metadata" .empty (map string)
    return { name, subject, framework, format, cases, fixtures, metadata }

def unit : Decoder Unit :=
  tagged "kind" ["entity", "test"] true fun kind =>
    match kind with
    | "entity" => some fun j => (entity j).map .entity
    | "test" => some fun j => (suite j).map .suite
    | _ => none

end Decode

end Concord.Source
