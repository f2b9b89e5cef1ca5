/-
Entities of sources to specifications, against the entities that are known.
-/
import Concord.Catalog
import Concord.Failure
import Concord.Mapping.Step
import Concord.Pattern.Detect
import Concord.Typing.Peel

namespace Concord.Mapping

open Text Spec

/-- What a type text means: a base type, what it points at, and whether it may be nothing. -/
structure Resolved where
  type : BaseType
  reference : Option String
  nullable : Bool
deriving DecidableEq, Repr

/-- What a type without its wrappers means in the entity `owner`: a collection, a known entity, or a
base type by name. -/
def resolvePeeled? (catalog : Catalog) (owner : String) (p : Typing.Peeled) : Option Resolved :=
  if p.collection then some ⟨.collection, none, p.nullable⟩
  else match catalog.resolveFor? (String.ofList p.name) owner with
    | some entity => some ⟨.reference, some entity, p.nullable⟩
    | none => (BaseType.ofName? (String.ofList (lower p.name))).map fun b => ⟨b, none, p.nullable⟩

/-- What a type text means in the entity `owner`. -/
def resolveType? (wrappers : Typing.Wrappers) (raw : String) (catalog : Catalog) (owner : String) :
    Option Resolved :=
  resolvePeeled? catalog owner (wrappers.peel raw.toList)

/-- What the type of a field means. -/
def resolveField (wrappers : Typing.Wrappers) (catalog : Catalog) (owner : String)
    (f : Source.Field) : Except MappingCause Resolved :=
  match f.type with
  | .unresolved raw =>
    match resolveType? wrappers raw catalog owner with
    | some r => .ok r
    | none => .error (.unresolvedType raw f.name)
  | .known .reference =>
    let target := f.reference.getD ""
    match catalog.resolveFor? target owner with
    | some entity => .ok ⟨.reference, some entity, false⟩
    | none => .error (.unknownTarget target f.name)
  | .known b => .ok ⟨b, none, false⟩

/-- The specified field of a field with a resolved type. -/
def fieldOf (f : Source.Field) (r : Resolved) : Field :=
  let base := FieldType.base r.type
  { Field.ofType f.name (if f.required && !r.nullable then base else base.orNull) with
    default := f.default
    reference := r.reference
    values := f.values
    validations := f.validations }

/-- Method names that make an entity and do not act on one. -/
def constructors : List String := ["new", "__init__", "constructor", "default"]

/-- Parameters that stand for the receiver. -/
def receiverParameters : List String := ["self", "cls", "this", "&self", "&mut self", "mut self"]

/-- Whether a method becomes an action. -/
def qualifies (m : Source.Method) : Bool :=
  !startsWith m.name.toList ['_'] && !constructors.contains m.name &&
    !Source.hasDecoration m.decorations "property"

/-- The methods whose names are not among `seen`, each name once. -/
def firstNamed (seen : List String) : List Source.Method → List Source.Method
  | [] => []
  | m :: rest =>
    if seen.contains m.name then firstNamed seen rest else m :: firstNamed (m.name :: seen) rest

/-- The action of a method. -/
def actionOf (d : Statement.Dialect) (fields : List String) (m : Source.Method) : Action where
  name := m.name
  parameters := (m.parameters.map Source.Parameter.name).filter
    fun name => !receiverParameters.contains name
  steps := stepsOf d fields m.body

/-- The specification of an entity, with the given patterns. -/
def specify (catalog : Catalog) (tags : Pattern.Tags) (e : Source.Entity) :
    Except Failure Specification := do
  if let some defect := e.defect? then
    throw (.schema e.reportName defect)
  let wrappers := Typing.Wrappers.ofFormat e.format
  let fields ← e.fields.mapM fun f =>
    match resolveField wrappers catalog e.name f with
    | .ok r => .ok (fieldOf f r)
    | .error cause => .error (Failure.mapping e.name cause)
  let names := e.fields.map Source.Field.name
  let actions := (firstNamed [] (e.methods.filter qualifies)).map
    (actionOf (.ofFormat e.format) names)
  match Specification.make e.name e.space fields actions e.format with
  | .ok s => return s.withTags tags
  | .error (entity, defect) => throw (.schema entity defect)

/-- The specification of an entity, with the patterns it shows. -/
def specifyDetected (catalog : Catalog) (e : Source.Entity) : Except Failure Specification :=
  specify catalog (Pattern.detect (.ofEntity e)) e

end Concord.Mapping
