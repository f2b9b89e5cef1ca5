/-
Entities from records with named fields and from the implementations of the same
name. An enumeration without data gives its values to the fields that have it as a
type.
-/
import Concord.Naming
import Concord.Source.Braced.Item
import Concord.Source.Unit

namespace Concord.Source.Braced

open Text

/-! ## Types -/

/-- What follows the last double colon. -/
def lastPart (t : Text) : Text := ((cutLast? "::".toList t).map (·.2)).getD t

/-- The name of a type without its path and its arguments. -/
def baseName (t : Text) : Text := trim (lastPart (t.takeWhile (· != '<')))

/-- What stands between the angle brackets of one of the given types. -/
def argumentOf? (names : List String) (t : Text) : Option Text :=
  match cut? ['<'] t with
  | none => none
  | some (head, rest) =>
    if endsWith t ['>'] && names.any fun n => n.toList == trim (lastPart head) then
      some (trim (rest.take (rest.length - 1)))
    else none

/-- The values of the enumerations, by name. -/
abbrev Constants := KeyMap (List String)

/-- The words for each base type. -/
def typeWords : List (BaseType × List String) :=
  [(.text, ["String", "str", "char"]),
    (.integer, ["i8", "i16", "i32", "i64", "i128", "isize", "u8", "u16", "u32", "u64", "u128",
      "usize"]),
    (.decimal, ["f32", "f64", "Decimal", "BigDecimal"]),
    (.boolean, ["bool"]),
    (.date, ["NaiveDate", "Date"]),
    (.timestamp, ["DateTime", "NaiveDateTime", "SystemTime", "OffsetDateTime", "PrimitiveDateTime",
      "Timestamp"]),
    (.identifier, ["Uuid", "Ulid"]),
    (.json, ["Value", "JsonValue"])]

/-- The base type that a word stands for. -/
def typeWord? (word : Text) : Option BaseType :=
  (typeWords.find? fun (_, ws) => ws.any (·.toList == word)).map (·.1)

/-- A type without the marks of a reference in front. -/
def dereferenced (type : Text) : Text :=
  let t := trimStart (stripLeading '&' (trim type))
  let t := ((dropPrefix? "'static".toList t).map trimStart).getD t
  ((dropPrefix? "mut ".toList t).map trimStart).getD t

/-- A field of a type that has no arguments to look into. -/
def fieldOfBase (constants : Constants) (name : String) (t : Text) : Field :=
  let base := baseName t
  match constants.get? (String.ofList base) with
  | some values => Field.choosing name values
  | none =>
    match typeWord? base with
    | some b => Field.plain name (.known b)
    | none => Field.plain name (.unresolved (String.ofList base))

/-- A field of a type, with at most `fuel` types around the one that counts. -/
def fieldFrom (constants : Constants) (name : String) : (fuel : Nat) → Text → Field
  | 0, type => { fieldOfBase constants name type with spelling := String.ofList type }
  | n + 1, type =>
    let spelling := String.ofList type
    let t := dereferenced type
    match argumentOf? ["Option"] t with
    | some inner => { fieldFrom constants name n inner with required := false, spelling }
    | none =>
      match argumentOf? ["Box", "Rc", "Arc"] t with
      | some inner => { fieldFrom constants name n inner with spelling }
      | none =>
        if startsWith t ['['] ||
            (argumentOf? ["Vec", "HashSet", "BTreeSet", "VecDeque"] t).isSome then
          { Field.plain name (.known .collection) with spelling }
        else if (argumentOf? ["HashMap", "BTreeMap"] t).isSome then
          { Field.plain name (.known .json) with spelling }
        else { fieldOfBase constants name t with spelling }

/-- A field of a type. -/
def fieldOfType (constants : Constants) (name : String) (type : Text) : Field :=
  fieldFrom constants name (type.length + 1) type

/-! ## Notes and bodies -/

def attributesOf (notes : List Note) : List String :=
  notes.filterMap fun
    | .attached t => some (String.ofList t)
    | .doc _ => none

/-- The documentation among some notes. -/
def docOf? (notes : List Note) : Option String :=
  let docs := notes.filterMap fun
    | .doc line => some line
    | .attached _ => none
  if docs.isEmpty then none else some (String.ofList (trim (join ['\n'] docs)))

/-- The statements of a body in the form in which they are kept. The last one is returned if it
gives the body its value. -/
def bodyTexts? (body : List Line) : Option (List String) := do
  let body := body.filter (·.role != .aside)
  let texts ← body.mapM fun l => fragment? l.extent.place.column l.extent.text
  let kept := (body.zip texts).filter fun (l, _) => l.role != .silent
  let returned := (body.getLast?.any (·.role == .result))
  let texts := kept.map (·.2)
  let texts := if returned then
      texts.dropLast ++ (texts.getLast?.toList.map ("return ".toList ++ ·))
    else texts
  return texts.map String.ofList

/-! ## Entities -/

/-- Whether a type mentions the entity that it is a result of. -/
def mentionsOwner (owner type : Text) : Bool :=
  (Naming.piecesBetween (fun c => !(isAlphanumeric c || c == '_')) type).any fun piece =>
    piece == "Self".toList || piece == owner

/-- Drops every leading `mut`. -/
def dropMut (t : Text) : Text := (dropMutFrom t.length t)
where
  dropMutFrom : Nat → Text → Text
    | 0, t => t
    | n + 1, t =>
      match dropPrefix? "mut ".toList t with
      | some u => dropMutFrom n u
      | none => t

def parameterOf? : Formal → Option Parameter
  | .typed pattern type => some ⟨String.ofList (dropMut pattern), some (String.ofList type)⟩
  | _ => none

def methodOf? (owner : Text) (f : Function) : Option Method := do
  let isStatic := !f.formals.any fun
    | .receiver => true
    | _ => false
  return {
    name := String.ofList f.name.text
    parameters := f.formals.filterMap parameterOf?
    returns := f.returns.map String.ofList
    body := ← bodyTexts? f.body
    decorations := attributesOf f.notes
    doc := docOf? f.notes
    isAsync := occurs "async".toList f.modifiers
    isFactory := isStatic && f.returns.any (mentionsOwner owner)
    isStatic }

/-- Declarations with those of inner spaces in their place. -/
def flatten : List Item → List Item
  | [] => []
  | .space inner :: rest => flatten inner ++ flatten rest
  | item :: rest => item :: flatten rest

/-- The values of the enumerations among some declarations. -/
def constantsOf (items : List Item) : Constants :=
  .ofList (items.filterMap fun
    | .choice name (some (v :: vs)) =>
      some (String.ofList name, (v :: vs).map fun v => String.ofList (Naming.snake v))
    | _ => none)

/-- Fields under pairwise different names; the first of each name stays. -/
def addField (constants : Constants) (fields : List Field) (declared : Name × Text) :
    List Field :=
  let name := String.ofList declared.1.text
  if fields.any (·.name == name) then fields
  else fields ++ [fieldOfType constants name declared.2]

/-- The entity of a record. -/
def entityOf? (constants : Constants) (origin : String) : Item → Option Entity
  | .record notes line name (some fields) => some {
      name := String.ofList name.text
      space := String.ofList (join "::".toList
        ((spaceParts origin).flatMap (splitAt '.')))
      fields := fields.foldl (addField constants) []
      decorations := attributesOf notes
      doc := docOf? notes
      format := .rust
      metadata := .ofList [("file_path", origin), ("line", toString (line + 1))] }
  | _ => none

/-- Adds an implementation to an entity. -/
def implement (interface : Option Text) (functions : List Function) (e : Entity) :
    Option Entity := do
  let supertypes := match interface with
    | some t =>
      let name := String.ofList (baseName t)
      if e.supertypes.contains name then e.supertypes else e.supertypes ++ [name]
    | none => e.supertypes
  let methods ← functions.mapM (methodOf? e.name.toList)
  return { e with supertypes, methods := e.methods ++ methods }

/-- Adds an implementation to the first entity of the given name. -/
def implementFirst (name : String) (f : Entity → Option Entity) :
    List Entity → Option (List Entity)
  | [] => some []
  | e :: rest =>
    if e.name == name then (f e).map (· :: rest)
    else (implementFirst name f rest).map (e :: ·)

/-- The entities of some declarations. -/
def entities? (origin : String) (items : List Item) : Option (List Entity) :=
  let items := flatten items
  let constants := constantsOf items
  let entities := items.filterMap (entityOf? constants origin)
  items.foldlM (fun entities item =>
    match item with
    | .implementation interface type functions =>
      implementFirst (String.ofList (baseName type)) (implement interface functions) entities
    | _ => some entities) entities

end Concord.Source.Braced
