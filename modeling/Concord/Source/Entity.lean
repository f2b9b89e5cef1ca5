/-
Entities as they are found in a source: fields with a normalised type, methods
with their bodies as text, and what the source says about them. `Entity.defect?` states
why an entity is not acceptable.
-/
import Concord.Order.KeyMap
import Concord.Schema
import Concord.Source.Format

namespace Concord.Source

open Text

/-- A field of an entity. -/
structure Field where
  name : String
  type : TypeTag
  /-- The type as the source writes it. -/
  spelling : String := ""
  required : Bool := true
  default : Option String := none
  /-- The entity that a reference points at. -/
  reference : Option String := none
  /-- The values of an enumeration. -/
  values : List String := []
  validations : List String := []
deriving DecidableEq, Repr, Inhabited

namespace Field

/-- A required field that says nothing more than its type. -/
def plain (name : String) (type : TypeTag) : Field := { name, type, spelling := type.text }

/-- A field that points at another entity. -/
def pointing (name target : String) : Field :=
  { plain name (.known .reference) with spelling := target, reference := some target }

/-- A field with the given values. -/
def choosing (name : String) (values : List String) : Field :=
  { plain name (.known .enumerated) with values }

end Field

/-- A parameter of a method. -/
structure Parameter where
  name : String
  /-- The type as the source writes it. -/
  type : Option String := none
deriving DecidableEq, Repr, Inhabited

/-- A method of an entity; its body is one text per statement. -/
structure Method where
  name : String
  parameters : List Parameter := []
  returns : Option String := none
  body : List String := []
  decorations : List String := []
  doc : Option String := none
  isAsync : Bool := false
  /-- Whether it makes an entity. -/
  isFactory : Bool := false
  isStatic : Bool := false
deriving DecidableEq, Repr, Inhabited

/-- A decoration without the marks that introduce it. -/
def bareDecoration (decoration : Text) : Text :=
  dropOpen (stripLeading '@' decoration)
where
  /-- Drops every leading `#[`. -/
  dropOpen : Text → Text
    | '#' :: '[' :: t => dropOpen t
    | t => t

/-- Whether some decoration begins with a name. -/
def hasDecoration (decorations : List String) (name : String) : Bool :=
  decorations.any fun d => startsWith (bareDecoration d.toList) name.toList

/-- A class, a struct or a model of a source. -/
structure Entity where
  name : String
  space : String := ""
  fields : List Field := []
  methods : List Method := []
  /-- Base classes, mixins and traits. -/
  supertypes : List String := []
  decorations : List String := []
  doc : Option String := none
  format : Format
  /-- What else is known, such as the file. -/
  metadata : KeyMap String := .empty
deriving DecidableEq, Inhabited

namespace Entity

/-- The file an entity was found in. -/
def file? (e : Entity) : Option String := e.metadata.get? "file_path"

/-- What is wrong with one field when the fields before it have the names `seen`. -/
def fieldDefect? (seen : List String) (f : Field) : Option Schema.Defect :=
  if allBlank f.name.toList then some .emptyFieldName
  else if seen.contains f.name then some (.duplicateField f.name)
  else if f.type == .known .reference && f.reference.isNone then
    some (.untargetedReference f.name)
  else if f.type == .known .enumerated && f.values.isEmpty then
    some (.valuelessEnumeration f.name)
  else none

/-- The first thing that is wrong with some fields. -/
def fieldsDefect? (seen : List String) : List Field → Option Schema.Defect
  | [] => none
  | f :: rest => (fieldDefect? seen f).or (fieldsDefect? (f.name :: seen) rest)

/-- The first thing that is wrong with an entity. -/
def defect? (e : Entity) : Option Schema.Defect :=
  if allBlank e.name.toList then some .emptyEntityName
  else (fieldsDefect? [] e.fields).or
    (if e.methods.any fun m => allBlank m.name.toList then some .emptyMethodName else none)

/-- The name under which a defect of an entity is reported. -/
def reportName (e : Entity) : String := if allBlank e.name.toList then "<unnamed>" else e.name

end Entity

end Concord.Source
