/-
Where the settings for a path are kept.
-/
import Concord.Config
import Concord.FileTree

namespace Concord

namespace Config

/-- The file that would hold the settings for a path: in it if it is a directory, otherwise beside
it. -/
def candidate? (t : FileTree) (path : String) : Option String :=
  if t.isDirectory path then some (Path.join path fileName)
  else (Path.parent? path.toList).map fun above => Path.join (String.ofList above) fileName

/-- The file that holds the settings for a path. -/
def discover? (t : FileTree) (path : String) : Option String :=
  (candidate? t path).filter t.isFile

/-- The settings in a file. -/
def ofFile (t : FileTree) (path : String) : Except Failure Config :=
  match t.readText path with
  | .error fault => .error (.config (.unreadable path fault.message))
  | .ok text => (ofText text).mapError (.context path)

/-- The settings for a path: those of its project, or the usual ones. -/
def forPath (t : FileTree) (path : String) : Except Failure Config :=
  match discover? t path with
  | some file => ofFile t file
  | none => .ok {}

end Config

end Concord
