/-
Structures from JSON values. A structure is an object, whose members are taken
by name, or a list, whose items are taken in the order of the fields. A field may be
required, may have a value for when it is missing, or may be absent; a member of a
known name may stand only once.
-/
import Concord.Json.Value
import Concord.Number.Read
import Concord.Order.NameSet

namespace Concord.Json

/-- A way to read values. -/
abbrev Decoder (α : Type) := Json → Option α

namespace Decode

def string : Decoder String
  | .str s => some s
  | _ => none

def bool : Decoder Bool
  | .bool b => some b
  | _ => none

/-- A whole number of 64 bits without sign. -/
def nat : Decoder Nat
  | .int n => if 0 ≤ n ∧ n ≤ Int.ofNat Number.maxNat64 then some n.toNat else none
  | _ => none

/-- A number as a double. -/
def float : Decoder Float
  | .float x => some x
  | .int n => some (Number.nearestInt n)
  | _ => none

/-- Any value, as it is stored. -/
def datum : Decoder Datum := fun j => some (Datum.ofJson j)

def list {α : Type} (item : Decoder α) : Decoder (List α)
  | .arr items => items.mapM item
  | _ => none

/-- A value or null. -/
def nullable {α : Type} (value : Decoder α) : Decoder (Option α)
  | .null => some none
  | j => (value j).map some

/-- A map from keys to values, by increasing key; the last of several members counts. -/
def map {α : Type} (value : Decoder α) : Decoder (KeyMap α)
  | .obj members => (members.mapM fun m => (value m.2).map (m.1, ·)).map KeyMap.ofList
  | _ => none

/-- A list of names as a set. -/
def names : Decoder NameSet := fun j => (list string j).map NameSet.ofList

/-- One of several names, or an object that gives that name nothing more than null. -/
def variant {α : Type} (choose : String → Option α) : Decoder α
  | .str s => choose s
  | .obj [(s, .null)] => choose s
  | _ => none

/-- What a structure is read from. -/
inductive Record where
  | named (members : List (String × Json))
  | listed (items : List Json)

/-- A reader of fields, one after the other. -/
abbrev Fields (α : Type) := StateT Record Option α

/-- A field with the value it has when it is missing by name and when it is missing at the end of a
list. -/
def fieldWith {α : Type} (name : String) (value : Decoder α) (unnamed unlisted : Option α) :
    Fields α := fun source =>
  match source with
  | .named members =>
    match member? members name with
    | some j => (value j).map (·, source)
    | none => unnamed.map (·, source)
  | .listed [] => unlisted.map (·, source)
  | .listed (j :: items) => (value j).map (·, .listed items)

/-- A field that must be there. -/
def field {α : Type} (name : String) (value : Decoder α) : Fields α := fieldWith name value none none

/-- A field with a value for when it is missing. -/
def fieldOr {α : Type} (name : String) (missing : α) (value : Decoder α) : Fields α :=
  fieldWith name value (some missing) (some missing)

/-- A field that may be missing or null. -/
def fieldOption {α : Type} (name : String) (value : Decoder α) : Fields (Option α) :=
  fieldOr name none (nullable value)

/-- Whether one of the given names stands twice. -/
def repeats (names : List String) (members : List (String × Json)) : Bool :=
  names.any fun name => 1 < members.countP fun m => m.1 == name

/-- A structure with fields of the given names. -/
def record {α : Type} (names : List String) (fields : Fields α) : Decoder α
  | .obj members =>
    if repeats names members then none else (fields (.named members)).map Prod.fst
  | .arr items =>
    match fields (.listed items) with
    | some (a, .listed []) => some a
    | _ => none
  | _ => none

/-- A structure in which no other names may stand. -/
def closedRecord {α : Type} (names : List String) (fields : Fields α) : Decoder α
  | .obj members =>
    if members.all fun m => names.contains m.1 then record names fields (.obj members) else none
  | j => record names fields j

/-- The kind that a tag gives: by its name, or where `numbered` holds also by its place among the
kinds. -/
def kind? (kinds : List String) (numbered : Bool) : Decoder String
  | .str s => some s
  | .int n => if numbered ∧ 0 ≤ n then kinds[n.toNat]? else none
  | _ => none

/-- A value that gives its kind in the member `tag`, or in the first item of a list; the rest is
read as that kind says. -/
def tagged {α : Type} (tag : String) (kinds : List String) (numbered : Bool)
    (choose : String → Option (Decoder α)) : Decoder α
  | .obj members =>
    match members.filter fun m => m.1 == tag with
    | [(_, kind)] => do
      let decode ← choose (← kind? kinds numbered kind)
      decode (.obj (members.filter fun m => m.1 != tag))
    | _ => none
  | .arr (kind :: items) => do
    let decode ← choose (← kind? kinds numbered kind)
    decode (.arr items)
  | _ => none

end Decode

namespace Encode

/-- A list of strings. -/
def strings (ss : List String) : Json := .arr (ss.map .str)

def list {α : Type} (item : α → Json) (as : List α) : Json := .arr (as.map item)

def option {α : Type} (value : α → Json) : Option α → Json
  | none => .null
  | some a => value a

/-- A map from keys to values. -/
def map {α : Type} (value : α → Json) (m : KeyMap α) : Json :=
  .obj (m.members.map fun x => (x.1, value x.2))

/-- A member that is always written. -/
def member (name : String) (j : Json) : List (String × Json) := [(name, j)]

/-- A member that is left out if `absent` holds. -/
def memberUnless (absent : Bool) (name : String) (j : Json) : List (String × Json) :=
  if absent then [] else [(name, j)]

end Encode

end Concord.Json
