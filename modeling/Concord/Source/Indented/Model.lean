/-
Entities from classes: columns and fields that are made by a call, fields that are
only annotated, and methods. Classes of constants are no entities; their values
are those of the fields that have them as a type.
-/
import Concord.Naming
import Concord.Source.Indented.Statement
import Concord.Source.Unit
import Concord.Text.Case

namespace Concord.Source.Indented

open Text

/-! ## Names -/

/-- What follows the last dot. -/
def lastPart (t : Text) : Text := ((cutLast? ['.'] t).map (·.2)).getD t

/-- What precedes the first `c`. -/
def before (c : Char) (t : Text) : Text := t.takeWhile (· != c)

/-- The values of the classes of constants, by name. -/
abbrev Constants := KeyMap (List String)

/-- Whether a class with such a base holds constants. -/
def isConstantsBase (base : Text) : Bool :=
  let last := lastPart base
  endsWith last "Enum".toList || last == "TextChoices".toList || last == "IntegerChoices".toList

def Heading.isConstants (h : Heading) : Bool := h.bases.any isConstantsBase

/-- The value of a constant: what is written for it if that is a literal, the first of several
values, or else its name in lower case. -/
def constantValue? : Statement → Option String
  | .assign _ target _ value =>
    some <| String.ofList <| match value with
      | some (.literal t) => unquote t
      | some (.row _ first) => unquote first.text
      | _ => lower target.text
  | _ => none

/-! ## Types -/

/-- What stands between the brackets of `Name[...]` for one of the given names. -/
def argumentOf? (names : List String) (t : Text) : Option Text :=
  match cut? ['['] t with
  | none => none
  | some (name, rest) =>
    if endsWith t [']'] && names.any fun n => n.toList == trim name then
      some (trim (rest.take (rest.length - 1)))
    else none

/-- One layer of a type hint off, and whether the layer allows for no value. -/
def unwrapOnce? (t : Text) : Option (Text × Bool) :=
  match argumentOf? ["Mapped", "sqlalchemy.orm.Mapped"] t with
  | some inner => some (inner, false)
  | none =>
    match argumentOf? ["Optional", "typing.Optional"] t with
    | some inner => some (inner, true)
    | none =>
      match (dropSuffix? "| None".toList t).or (dropSuffix? "|None".toList t) with
      | some rest => some (trim rest, true)
      | none => (dropPrefix? "None |".toList t).map fun rest => (trim rest, true)

/-- The type inside all layers of a type hint, and whether some layer allows for no value. -/
def unwrapFrom : (fuel : Nat) → Text → Text × Bool
  | 0, t => (t, false)
  | n + 1, t =>
    match unwrapOnce? t with
    | none => (t, false)
    | some (inner, nullable) =>
      let (u, more) := unwrapFrom n inner
      (u, nullable || more)

def unwrap (hint : Text) : Text × Bool :=
  let t := trim hint
  unwrapFrom t.length t

/-- The words for each base type. -/
def typeWords : List (BaseType × List String) :=
  [(.text, ["str", "string", "text", "unicode", "unicodetext", "varchar", "charfield", "textfield",
      "emailfield", "slugfield", "urlfield"]),
    (.integer, ["int", "integer", "biginteger", "smallinteger", "integerfield", "bigintegerfield",
      "smallintegerfield", "positiveintegerfield", "autofield", "bigautofield"]),
    (.decimal, ["float", "decimal", "numeric", "real", "decimalfield", "floatfield"]),
    (.boolean, ["bool", "boolean", "booleanfield"]),
    (.date, ["date", "datefield"]),
    (.timestamp, ["datetime", "timestamp", "time", "datetimefield"]),
    (.identifier, ["uuid", "uuidfield"]),
    (.json, ["dict", "json", "jsonb", "jsonfield"]),
    (.collection, ["list", "array", "set", "tuple", "arrayfield", "manytomanyfield"]),
    (.reference, ["foreignkey", "onetoonefield"]),
    (.enumerated, ["enum"])]

/-- The type that a name stands for. -/
def typeOf (name : Text) : TypeTag :=
  let last := lower (lastPart (before '[' name))
  match typeWords.find? fun (_, ws) => ws.any (·.toList == last) with
  | some (base, _) => .known base
  | none => .unresolved (String.ofList name)

/-- Whether a type is a collection of an item type. -/
def isCollection (type : Text) : Bool :=
  (argumentOf? ["List", "list", "Set", "set", "Sequence", "Tuple", "tuple"] type).isSome

/-- A field of the type that a name stands for. -/
def fieldOfType (constants : Constants) (name : String) (type : Text) : Field :=
  let spelling := String.ofList type
  if isCollection type then
    { Field.plain name (.known .collection) with spelling }
  else match constants.get? spelling with
    | some values => { Field.choosing name values with spelling }
    | none => { Field.plain name (typeOf type) with spelling }

/-- A field that has only a type hint. -/
def fieldOfHint (constants : Constants) (name : String) (hint : Text) : Field :=
  let (inner, nullable) := unwrap hint
  { fieldOfType constants name inner with
    spelling := String.ofList hint, required := !nullable }

/-! ## Fields that are made by a call -/

/-- A call: the name of what is called, and its arguments. -/
structure Call where
  text : Text
  function : Text
  arguments : List Expression
  keywords : List (Text × Expression)

def Call.ofExpression? : Expression → Option Call
  | .call text function arguments keywords => some ⟨text, function, arguments, keywords⟩
  | _ => none

/-- The last value that a call gives for a keyword. -/
def Call.keyword? (c : Call) (name : String) : Option Expression :=
  (c.keywords.reverse.find? fun (k, _) => k == name.toList).map (·.2)

/-- Whether a call gives exactly this text for a keyword. -/
def Call.gives (c : Call) (name value : String) : Bool :=
  (c.keyword? name).any (·.text == value.toList)

def Call.constructor (c : Call) : Text := lastPart c.function

/-- Whether a call makes a column of a table. -/
def Call.isColumn (c : Call) : Bool :=
  c.constructor == "Column".toList || c.constructor == "mapped_column".toList

/-- Whether a call makes a field. -/
def Call.makesField (c : Call) : Bool :=
  c.isColumn || endsWith c.constructor "Field".toList || c.constructor == "ForeignKey".toList

/-- The entity that a key names: the table in front of the first dot as one of its rows. -/
def keyTarget (key : Text) : String :=
  String.ofList (Naming.pascal (Naming.singular (before '.' (unquote key))))

/-- The values of a type of constants in its call. -/
def literalValues (constants : Constants) (arguments : List Expression) : List String :=
  arguments.flatMap fun
    | .literal t => [String.ofList (unquote t)]
    | .name n => (constants.get? (String.ofList n.text)).getD []
    | _ => []

def maxLength (t : Text) : String := "max_length:" ++ String.ofList t

/-- The name that the first argument of a column gives its type. -/
def argumentName (type : Expression) : Text :=
  ((Call.ofExpression? type).map (·.function)).getD type.text

/-- The values that the first argument of a column lists, if it is a type of constants. -/
def listedValues (constants : Constants) (type : Expression) : List String :=
  if lastPart (argumentName type) == "Enum".toList then
    literalValues constants (((Call.ofExpression? type).map (·.arguments)).getD [])
  else []

/-- A field of the type that the first argument of a column names. -/
def columnOfType (constants : Constants) (name : String) (type : Expression) : Field :=
  let spelling := String.ofList type.text
  let values := listedValues constants type
  if !values.isEmpty then { Field.choosing name values with spelling }
  else
    let f := { fieldOfType constants name (argumentName type) with spelling }
    match f.type == .known .text, (Call.ofExpression? type).bind (·.arguments.head?) with
    | true, some length => { f with validations := [maxLength length.text] }
    | _, _ => f

/-- The key among the arguments of a column, with what it names. -/
def Call.key? (c : Call) : Option (Call × Expression) :=
  c.arguments.findSome? fun e => do
    let call ← Call.ofExpression? e
    guard (call.constructor == "ForeignKey".toList)
    return (call, ← call.arguments.head?)

/-- The field of a column: a key if it has one among its arguments, else of its first argument or
of its type hint. -/
def columnField (constants : Constants) (name : String) (c : Call) (hint : Option Text) :
    Field :=
  match c.key? with
  | some (call, target) =>
    { Field.pointing name (keyTarget target.text) with spelling := String.ofList call.text }
  | none =>
    match c.arguments.head?, hint with
    | some type, _ => columnOfType constants name type
    | none, some hint => fieldOfHint constants name hint
    | none, none => Field.plain name (.unresolved "Column")

/-- The values that a field may choose from. -/
def choices (constants : Constants) : Expression → List String
  | .group _ _ items => items.filterMap fun
    | .group _ lead items => (lead.or (items.head?.map (·.text))).map (String.ofList <| unquote ·)
    | .literal t => some (String.ofList (unquote t))
    | _ => none
  | .member _ owner => (constants.get? (String.ofList owner)).getD []
  | _ => []

/-- Whether a call other than of a column makes a key. -/
def Call.isKey (c : Call) : Bool :=
  c.constructor == "ForeignKey".toList || c.constructor == "OneToOneField".toList

/-- The values that a call lets its field choose from. -/
def Call.choices (constants : Constants) (c : Call) : List String :=
  ((c.keyword? "choices").map (Indented.choices constants)).getD []

/-- The field that a call other than of a column makes. -/
def madeField (constants : Constants) (name : String) (c : Call) : Field :=
  let spelling := String.ofList c.constructor
  if c.isKey then
    let target := (c.arguments.head?.or (c.keyword? "to")).map fun e => lastPart (unquote e.text)
    { Field.pointing name (String.ofList (target.getD [])) with spelling }
  else if !(c.choices constants).isEmpty then
    { Field.choosing name (c.choices constants) with spelling }
  else { Field.plain name (typeOf c.constructor) with spelling }

/-- Whether a field that a call makes needs a value. -/
def callRequired (c : Call) (hint : Option Text) : Bool :=
  let keyword := if c.isColumn then "nullable" else "null"
  if c.gives keyword "True" then false
  else if c.gives keyword "False" then true
  else if c.isColumn then
    match c.constructor == "mapped_column".toList, hint with
    | true, some hint => !(unwrap hint).2
    | _, _ => c.gives "primary_key" "True"
  else true

/-- A field that a call makes. -/
def fieldOfCall (constants : Constants) (name : String) (c : Call) (hint : Option Text) :
    Field :=
  let f := if c.isColumn then columnField constants name c hint
    else madeField constants name c
  let default := ((c.keyword? "default").or (c.keyword? "server_default")).map fun e =>
    String.ofList (unquote e.text)
  { f with
    required := callRequired c hint
    default
    validations := f.validations ++
      (if c.gives "primary_key" "True" then ["primary_key"] else []) ++
      (if c.gives "unique" "True" then ["unique"] else []) ++
      ((c.keyword? "max_length").map fun e => [maxLength e.text]).getD [] }

/-- Whether a name is kept for the language or spelled like a constant. -/
def isReserved (name : Text) : Bool :=
  startsWith name ['_', '_'] || name.all fun c => isUppercase c || c == '_' || isAsciiDigit c

/-- The default that the value of an annotated field gives. -/
def defaultOf? (value : Expression) : Option String :=
  match Call.ofExpression? value with
  | some c => (c.keyword? "default").map fun e => String.ofList (unquote e.text)
  | none => some (String.ofList (unquote value.text))

/-- The call that makes the field of an assignment. -/
def maker? (value : Option Expression) : Option Call :=
  (value.bind Call.ofExpression?).filter (·.makesField)

/-- The field that an assignment declares. -/
def fieldOf? (constants : Constants) (target : Expression) (hint : Option Text)
    (value : Option Expression) : Option Field := do
  let .name name := target | none
  guard !(isReserved name.text)
  let name := String.ofList name.text
  match maker? value, hint with
  | some c, _ => return fieldOfCall constants name c hint
  | none, some hint =>
    return { fieldOfHint constants name hint with default := value.bind defaultOf? }
  | none, none => none

/-! ## Methods -/

/-- The literal that a block begins with. -/
def docLiteral? : List Statement → Option Text
  | .evaluate _ (.literal t) :: _ => some t
  | _ => none

/-- The statements of a block in the form in which they are kept. -/
def bodyTexts? (body : List Statement) : Option (List String) :=
  let body := if (docLiteral? body).isSome then body.tail else body
  let kept := body.filter fun
    | .pass _ => false
    | _ => true
  kept.mapM fun s => (fragment? s.extent.place.column s.extent.text).map String.ofList

/-- The parameters without the receiver. -/
def Signature.parameters (s : Signature) : List Parameter :=
  (s.formals.filter fun f => f.name != "self".toList && f.name != "cls".toList).map fun f =>
    ⟨String.ofList f.name, f.type.map String.ofList⟩

/-- The documentation at the start of a block; none if it is empty. -/
def docOf? (body : List Statement) : Option (Option String) :=
  match docLiteral? body with
  | none => some none
  | some t => do
    let doc ← docText? t
    return if doc.isEmpty then none else some (String.ofList doc)

def methodOf? (decorations : List Text) (s : Signature) (body : List Statement) :
    Option Method := do
  let decorations := decorations.map String.ofList
  return {
    name := String.ofList s.name.text
    parameters := s.parameters
    returns := s.returns.map String.ofList
    doc := ← docOf? body
    body := ← bodyTexts? body
    decorations
    isAsync := s.isAsync
    isFactory := hasDecoration decorations "classmethod"
    isStatic := hasDecoration decorations "staticmethod" }

/-! ## Entities -/

/-- The table that an assignment names. -/
def tableName? : Statement → Option String
  | .assign _ target _ (some value) =>
    if target.text == "__tablename__".toList then some (String.ofList (unquote value.text))
    else none
  | _ => none

/-- Adds what a statement of a class declares. -/
def addMember (constants : Constants) (e : Entity) (s : Statement) : Option Entity :=
  match tableName? s with
  | some table => some { e with metadata := e.metadata.insert "table" table }
  | none =>
    match s with
    | .assign _ target type value =>
      match fieldOf? constants target type value with
      | some f =>
        if e.fields.any (·.name == f.name) then some e
        else some { e with fields := e.fields ++ [f] }
      | none => some e
    | .function _ decorations signature body => do
      let m ← methodOf? decorations signature body
      return { e with methods := e.methods ++ [m] }
    | _ => some e

/-- The entity of a class. -/
def entityOf? (constants : Constants) (origin : String) (decorations : List Text) (h : Heading)
    (body : List Statement) : Option Entity := do
  let start : Entity := {
    name := String.ofList h.name.text
    space := String.ofList (join ['.'] (spaceParts origin))
    supertypes := h.bases.map String.ofList
    decorations := decorations.map String.ofList
    doc := ← docOf? body
    format := .python
    metadata := .ofList [("file_path", origin), ("line", toString (h.line + 1))] }
  body.foldlM (addMember constants) start

/-- The classes of constants among some statements. -/
def constantsOf (statements : List Statement) : Constants :=
  .ofList (statements.filterMap fun
    | .record _ _ h body =>
      if h.isConstants then some (String.ofList h.name.text, body.filterMap constantValue?) else none
    | _ => none)

/-- The entities of some statements; a class without fields and methods is none. -/
def entities? (origin : String) (statements : List Statement) : Option (List Entity) := do
  let constants := constantsOf statements
  let all ← (statements.filterMap fun
    | .record _ decorations h body => if h.isConstants then none else some (decorations, h, body)
    | _ => none).mapM fun (decorations, h, body) => entityOf? constants origin decorations h body
  return all.filter fun e => !(e.fields.isEmpty && e.methods.isEmpty)

end Concord.Source.Indented
