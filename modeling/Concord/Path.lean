/-
Paths as text: their parts between slashes, and the stem and extension of the
last part.
-/
import Concord.Text.Cut

namespace Concord.Path

open Text

/-- The parts of a path. Empty parts are dropped, and so are parts that are a single dot, except
the first of a path that does not begin with a slash. -/
def parts (path : Text) : List Text :=
  let pieces := splitAt '/' path
  let rest := fun ps : List Text => ps.filter fun p => !p.isEmpty && p != ['.']
  match pieces with
  | ['.'] :: ps => ['.'] :: rest ps
  | ps => rest ps

/-- The last part, if it names something: neither the path itself nor the directory above. -/
def fileName? (path : Text) : Option Text :=
  match (parts path).getLast? with
  | some ['.'] => none
  | some ['.', '.'] => none
  | last => last

/-- A file name cut at its last dot, unless that is its first character. -/
def cutName? (name : Text) : Option (Text × Text) :=
  match cutLast? ['.'] name with
  | some ([], _) => none
  | found => found

/-- What follows the last dot of the file name. -/
def extension (path : Text) : Text :=
  match (fileName? path).bind cutName? with
  | some (_, after) => after
  | none => []

/-- The file name without its extension. -/
def stem (path : Text) : Text :=
  match fileName? path with
  | some name => ((cutName? name).map Prod.fst).getD name
  | none => []

/-- The path without slashes and single dots at its end; a dot that is the whole path stays. -/
def dropEnd (path : Text) : Text :=
  let rec go : Text → Text
    | '/' :: rest => if rest.isEmpty then ['/'] else go rest
    | ['.'] => ['.']
    | '.' :: '/' :: rest => go ('/' :: rest)
    | t => t
  (go path.reverse).reverse

/-- The path of what holds the last part; none if there is no part. -/
def parent? (path : Text) : Option Text :=
  match (parts path).getLast? with
  | none => none
  | some last => some (dropEnd ((dropEnd path).take ((dropEnd path).length - last.length)))

/-- A path one entry further down. -/
def join (path name : String) : String :=
  if path == "" || path.toList.getLast? == some '/' then path ++ name else path ++ "/" ++ name

end Concord.Path
