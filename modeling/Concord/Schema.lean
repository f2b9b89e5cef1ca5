/-
Base types of fields, the types that sources give them, and the defects that an
entity or a specification may have.
-/
namespace Concord

/-- The base types of fields. -/
inductive BaseType where
  | text
  | integer
  | decimal
  | boolean
  | date
  | timestamp
  | identifier
  | json
  | reference
  | enumerated
  | collection
deriving DecidableEq, Repr, Inhabited

namespace BaseType

/-- All base types, in their order. -/
def all : List BaseType :=
  [text, integer, decimal, boolean, date, timestamp, identifier, json, reference, enumerated,
    collection]

def name : BaseType → String
  | text => "text"
  | integer => "integer"
  | decimal => "decimal"
  | boolean => "boolean"
  | date => "date"
  | timestamp => "timestamp"
  | identifier => "identifier"
  | json => "json"
  | reference => "reference"
  | enumerated => "enumerated"
  | collection => "collection"

def ofName? (s : String) : Option BaseType := all.find? fun b => b.name == s

theorem ofName?_name (b : BaseType) : ofName? b.name = some b := by cases b <;> decide

/-- Whether values are points in time. -/
def isTemporal (b : BaseType) : Bool := b == date || b == timestamp

end BaseType

namespace Source

/-- The type of a field in a source: a base type, or a text still to be resolved. -/
inductive TypeTag where
  | known (base : BaseType)
  | unresolved (raw : String)
deriving DecidableEq, Repr, Inhabited

namespace TypeTag

/-- The tag that a text spells. -/
def ofText (s : String) : TypeTag :=
  match BaseType.ofName? s with
  | some b => known b
  | none => unresolved s

def text : TypeTag → String
  | known b => b.name
  | unresolved raw => raw

def isResolved : TypeTag → Bool
  | known _ => true
  | unresolved _ => false

def isTemporal : TypeTag → Bool
  | known b => b.isTemporal
  | unresolved _ => false

end TypeTag

end Source

namespace Schema

/-- What can be wrong with an entity or a specification. -/
inductive Defect where
  | emptyEntityName
  | emptyFieldName
  | duplicateField (name : String)
  | untargetedReference (field : String)
  | valuelessEnumeration (field : String)
  | emptyMethodName
  | emptyActionName
  | duplicateAction (name : String)
  | newerVersion (found supported : Nat)
  | unknownType (text : String)
deriving DecidableEq, Repr

def Defect.message : Defect → String
  | emptyEntityName => "entity name is empty"
  | emptyFieldName => "field name is empty"
  | duplicateField name => "duplicate field '" ++ name ++ "'"
  | untargetedReference field => "reference field '" ++ field ++ "' has no target"
  | valuelessEnumeration field => "enumerated field '" ++ field ++ "' has no values"
  | emptyMethodName => "method name is empty"
  | emptyActionName => "action name is empty"
  | duplicateAction name => "duplicate action '" ++ name ++ "'"
  | newerVersion found supported =>
    "document schema version " ++ toString found ++ " is newer than supported version " ++
      toString supported
  | unknownType text => "unknown canonical type '" ++ text ++ "'"

end Schema

end Concord
