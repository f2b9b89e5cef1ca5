/-
Which patterns an entity or a specification shows. All evidence is names in their
normal form, and every test asks only which names there are.
-/
import Concord.Naming
import Concord.Pattern.Tag
import Concord.Source.Entity
import Concord.Spec.Basic

namespace Concord.Pattern

open Text

/-- What patterns are told from: the normal forms of names. -/
structure Evidence where
  subject : String
  fields : List String
  methods : List String
  /-- The words of decorations and supertypes. -/
  decorations : List String
  /-- Fields that hold a date or a time. -/
  temporal : List String
  /-- Fields that hold a date or a time or nothing. -/
  optionalTemporal : List String
  integers : List String
  /-- What references point at. -/
  targets : List String
deriving DecidableEq, Repr

/-- The normal form of a name. -/
def normalName (s : String) : String := onText Naming.normal s

/-- The words of a decoration, in normal form. -/
def decorationWords (s : String) : List String :=
  (Naming.piecesBetween (fun c => !(isAlphanumeric c || c == '_')) s.toList).map fun w =>
    String.ofList (Naming.normal w)

/-- What an entity of a source shows. -/
def Evidence.ofEntity (e : Source.Entity) : Evidence where
  subject := normalName e.name
  fields := e.fields.map fun f => normalName f.name
  methods := e.methods.map fun m => normalName m.name
  decorations := (e.decorations ++ e.supertypes).flatMap decorationWords
  temporal := (e.fields.filter fun f => f.type.isTemporal).map fun f => normalName f.name
  optionalTemporal := (e.fields.filter fun f => !f.required && f.type.isTemporal).map
    fun f => normalName f.name
  integers := (e.fields.filter fun f => f.type == .known .integer).map fun f => normalName f.name
  targets := e.fields.filterMap fun f => f.reference.map normalName

/-- What a specification shows. It keeps no decorations. -/
def Evidence.ofSpec (s : Specification) : Evidence where
  subject := normalName s.entity
  fields := s.fields.map fun f => normalName f.name
  methods := s.actions.map fun a => normalName a.name
  decorations := []
  temporal := (s.fields.filter fun f => f.type.root.isTemporal).map fun f => normalName f.name
  optionalTemporal := (s.fields.filter fun f => f.type.isNullable && f.type.root.isTemporal).map
    fun f => normalName f.name
  integers := (s.fields.filter fun f => f.type.root == .integer).map fun f => normalName f.name
  targets := s.fields.filterMap fun f => f.reference.map normalName

def createdNames : List String :=
  ["created_at", "created_on", "created", "date_created", "inserted_at"]

def updatedNames : List String :=
  ["updated_at", "updated_on", "modified_at", "modified_on", "updated", "modified",
    "last_modified"]

def statusNames : List String := ["status", "state"]

def accessVerbs : List String := ["create", "read", "update", "delete", "find", "save"]

def tenantNames : List String := ["tenant_id", "tenant"]

def versionNames : List String := ["version", "lock_version", "revision"]

/-- Whether a name holds a part. -/
def holds (name part : String) : Bool := occurs part.toList name.toList

/-- Whether a name begins with a part. -/
def beginsWith (name part : String) : Bool := startsWith name.toList part.toList

/-- Whether one of the names is among the known ones. -/
def anyOf (names known : List String) : Bool := names.any known.contains

/-- Whether the evidence shows a pattern. -/
def Evidence.shows (e : Evidence) : Tag → Bool
  | .auditTriad =>
    (anyOf e.temporal createdNames && anyOf e.temporal updatedNames) ||
      e.decorations.any fun d => holds d "audit" || holds d "timestamp"
  | .softRemoval => e.optionalTemporal.any fun f => holds f "deleted" || holds f "removed"
  | .statusLifecycle =>
    anyOf e.fields statusNames && e.methods.any fun m =>
      holds m "transition" || beginsWith m "set_" || beginsWith m "mark_"
  | .bulkAccess =>
    3 ≤ (accessVerbs.filter fun verb => e.methods.any fun m => holds m verb).length
  | .multiTenant => anyOf e.fields tenantNames
  | .hierarchical => e.fields.contains "parent_id" || e.targets.contains e.subject
  | .versioned => anyOf e.integers versionNames

/-- The patterns that evidence shows. -/
def detect (e : Evidence) : Tags := ⟨e.shows⟩

end Concord.Pattern
