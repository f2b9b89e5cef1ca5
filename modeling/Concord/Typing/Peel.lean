/-
The type inside wrappers. A type text may be wrapped as nullable, in wrappers
that mean nothing for its values, and in collections; peeling stops at the first
collection.
-/
import Concord.Code.Split
import Concord.Source.Format

namespace Concord.Typing

open Text Code

/-- The wrappers that sources of one format use. -/
structure Wrappers where
  nullable : List Text
  transparent : List Text
  collections : List Text
  /-- Members of a union that stand for no value. -/
  absent : List Text
deriving Repr

/-- Texts from strings. -/
def texts (ss : List String) : List Text := ss.map String.toList

namespace Wrappers

def python : Wrappers where
  nullable := texts ["Optional"]
  transparent := texts ["Mapped", "Annotated", "Final", "ClassVar"]
  collections := texts ["List", "list", "Set", "set", "Sequence", "Iterable", "Tuple", "tuple",
    "FrozenSet"]
  absent := texts ["None"]

def rust : Wrappers where
  nullable := texts ["Option"]
  transparent := texts ["Box", "Rc", "Arc", "Cow", "RefCell", "Cell", "Mutex", "RwLock"]
  collections := texts ["Vec", "HashSet", "BTreeSet", "VecDeque", "SmallVec"]
  absent := []

def typescript : Wrappers where
  nullable := texts ["Optional", "Nullable"]
  transparent := texts ["Readonly", "Promise"]
  collections := texts ["Array", "ReadonlyArray", "Set", "List", "Collection"]
  absent := texts ["null", "undefined"]

def java : Wrappers where
  nullable := texts ["Optional"]
  transparent := []
  collections := texts ["List", "Set", "Collection", "ArrayList", "HashSet", "Iterable"]
  absent := []

/-- For units whose source is not known. -/
def any : Wrappers where
  nullable := texts ["Optional", "Option", "Nullable"]
  transparent := texts ["Mapped", "Box", "Rc", "Arc", "Promise", "Readonly"]
  collections := texts ["List", "list", "Vec", "Array", "Set", "set", "HashSet", "BTreeSet",
    "Collection", "Sequence"]
  absent := texts ["None", "null", "undefined"]

def ofFormat : Source.Format → Wrappers
  | .python | .pytest => python
  | .rust => rust
  | .typescript => typescript
  | .java => java
  | .sql | .ir | .unknown => any

end Wrappers

/-- A type without its wrappers. -/
structure Peeled where
  name : Text
  nullable : Bool
  collection : Bool
deriving DecidableEq, Repr

/-- A text without a pair of quotes around it. -/
def unquote (quote : Char) (t : Text) : Text :=
  if 2 ≤ t.length && t.head? == some quote && t.getLast? == some quote then trim (inside t) else t

/-- A type without quotes, references and lifetimes around it. -/
def undecorated (t : Text) : Text :=
  let t := unquote '\'' (unquote '"' (trim t))
  let t := trimStart (stripLeading '&' t)
  let t :=
    if t.head? == some '\'' then
      trimStart (match cut? [' '] t with
        | some (_, rest) => rest
        | none => t)
    else t
  trim ((dropPrefix? "mut ".toList t).getD t)

/-- The first of some arguments; all of them if a `<` stands in it. -/
def firstArgument (arguments : Text) : Text :=
  match findTop? [','] arguments with
  | some comma =>
    if (arguments.take comma).elem '<' then arguments else arguments.take comma
  | none => arguments

/-- Where the first bracket for arguments stands, and what closes it. -/
def bracket? (t : Text) : Option (Nat × Char) :=
  match find? ['['] t, find? ['<'] t with
  | some b, some a => if a < b then some (a, '>') else some (b, ']')
  | some b, none => some (b, ']')
  | none, some a => some (a, '>')
  | none, none => none

/-- A wrapper and what it wraps; of several arguments the first counts. -/
def generic? (t : Text) : Option (Text × Text) :=
  match bracket? t with
  | none => none
  | some (start, close) =>
    if start == 0 || t.getLast? != some close then none
    else some (trim (t.take start), trim (firstArgument (t.drop (start + 1)).dropLast))

/-- The last name of a path. -/
def lastSegment (path : Text) : Text :=
  let p := trim path
  let p := ((cutLast? "::".toList p).map Prod.snd).getD p
  ((cutLast? ['.'] p).map Prod.snd).getD p

/-- One step of peeling: the end, or what is left to peel and whether a nullable layer came off. -/
inductive Step where
  | done (name : Text) (nullable collection : Bool)
  | more (t : Text) (nullable : Bool)

/-- Takes one layer off a type. -/
def Wrappers.step (w : Wrappers) (raw : Text) : Step :=
  let t := undecorated raw
  let members := splitTop '|' t
  if 1 < members.length then
    let kept := members.filter fun m => !w.absent.contains m
    let nullable := decide (kept.length < members.length)
    match kept with
    | [only] => .more only nullable
    | _ => .done t nullable false
  else
    match (dropSuffix? "[]".toList t).filter fun u => !u.elem '[' with
    | some element => .done (trim element) false true
    | none =>
      match generic? t with
      | none => .done (lastSegment t) false (t.head? == some '[')
      | some (outer, inner) =>
        let outer := lastSegment outer
        if w.collections.contains outer then .done inner false true
        else if w.nullable.contains outer then .more inner true
        else if w.transparent.contains outer then .more inner false
        else .done outer false false

/-- Peels at most `fuel` layers off a type. -/
def Wrappers.peelFrom (w : Wrappers) (nullable : Bool) : (fuel : Nat) → Text → Peeled
  | 0, t => ⟨t, nullable, false⟩
  | fuel + 1, t =>
    match w.step t with
    | .done name more collection => ⟨name, nullable || more, collection⟩
    | .more t more => w.peelFrom (nullable || more) fuel t

/-- The type inside all wrappers. Every layer is shorter than the one around it, so the length of
the text bounds their number. -/
def Wrappers.peel (w : Wrappers) (raw : Text) : Peeled := w.peelFrom false (raw.length + 1) (trim raw)

end Concord.Typing
