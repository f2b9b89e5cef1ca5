/-
The sources under a path: which files count, in which order they are met, and how
their bytes become text.
-/
import Concord.Config
import Concord.FileTree

namespace Concord

open Text

/-- A source with the path it was found at. -/
structure SourceFile where
  path : String
  content : String
deriving DecidableEq, Repr, Inhabited

/-- The sources under a path, and the entries that could not be read. -/
structure Walk where
  sources : List SourceFile := []
  failures : List (String × Failure) := []
deriving Inhabited

namespace Walk

/-- A path with slashes between its parts, without a marker of a verbatim or device path. -/
def normalPath (path : String) : String :=
  let text := path.toList
  let bare := ((dropPrefix? "\\\\?\\".toList text).or (dropPrefix? "\\\\.\\".toList text)).getD text
  String.ofList (bare.map fun c => if c = '\\' then '/' else c)

/-- Whether one of some patterns leaves a path out: as the whole path, as one of its parts, as a
directory it begins with, or as a glob. -/
def isExcluded (path : String) (patterns : List String) : Bool :=
  let text := path.toList
  let parts := splitAt '/' text
  patterns.any fun pattern =>
    path == pattern || parts.contains pattern.toList || startsWith text (pattern.toList ++ ['/']) ||
      match Glob.read pattern with
      | .ok g => g.accepts path
      | .error _ => false

/-- Whether a file has more bytes than the limit. -/
def isTooLarge (size limit : Nat) : Bool := limit < size

/-- Whether bytes look like no text: one of the first 8192 is zero. -/
def isBinary (bytes : List UInt8) : Bool := (bytes.take 8192).contains 0

/-- Ends of lines without the carriage return before a line feed. -/
def normalLines (t : Text) : Text := replace "\r\n".toList ['\n'] t

/-- The text of a source. Broken characters are mended if they make up less than a tenth of it. -/
def content? (bytes : List UInt8) : Option String :=
  match Utf8.text? bytes with
  | some text => some (String.ofList (normalLines text))
  | none =>
    let text := Utf8.mend bytes
    if text.countP (· == Utf8.replacement) < byteLength text / 10 then
      some (String.ofList (normalLines text))
    else none

/-- A file as a source; none if it is too large or holds no text. -/
def source? (c : Config) (path : String) (bytes : List UInt8) : Option SourceFile :=
  if isTooLarge bytes.length c.maxFileSize || isBinary bytes then none
  else (content? bytes).map fun content => ⟨normalPath path, content⟩

/-- Whether one of some patterns stands for a path. -/
def isIncluded (globs : List Glob) (path : String) : Bool := globs.any (·.accepts path)

mutual

/-- The sources at or below a node. Its path is given as it is found and as it is seen from the
root. -/
def nodeSources (c : Config) (globs : List Glob) (path relative : String) :
    FileNode → List SourceFile
  | .file bytes =>
    if isIncluded globs (normalPath relative) then (source? c path bytes).toList else []
  | .directory entries => entrySources c globs path relative entries

/-- The sources at or below the entries of a directory, in their order. An entry that is left out
is not looked into. -/
def entrySources (c : Config) (globs : List Glob) (path relative : String) :
    List (String × FileNode) → List SourceFile
  | [] => []
  | (name, node) :: entries =>
    let below := Path.join relative name
    (if isExcluded (normalPath below) c.excluded then []
      else nodeSources c globs (Path.join path name) below node) ++
      entrySources c globs path relative entries

end

/-- The patterns of some globs, or the failure of the first that cannot be read. -/
def readGlobs (patterns : List String) : Except Failure (List Glob) :=
  patterns.mapM fun p =>
    match Glob.read p with
    | .ok g => .ok g
    | .error defect => .error (Config.badGlob p defect)

/-- The sources under a root. A file is taken whatever its name. -/
def ofTree (t : FileTree) (c : Config) (root : String) : Except Failure Walk :=
  match t.node? root with
  | none => .error (.io ("'" ++ root ++ "' does not exist"))
  | some (.file bytes) => .ok { sources := (source? c root bytes).toList }
  | some (.directory entries) => do
    let globs ← readGlobs c.included
    return { sources := entrySources c globs root "" entries }

end Walk

end Concord
