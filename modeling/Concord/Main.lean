/-
The program: takes from disk what the arguments speak of, runs on it, and prints and
writes what the run leaves behind.
-/
import Concord.Command.Moment
import Concord.Command.Run
import Std.Time.DateTime.Timestamp

namespace Concord.Main

/-- What is on disk at a path that exists. Links below a directory are not followed. -/
partial def load (path : String) : IO FileNode := do
  let place ← IO.FS.realPath path
  if ← place.isDir then
    let mut entries := []
    for entry in ← place.readDir do
      if (← entry.path.symlinkMetadata).type != .symlink then
        entries := (entry.fileName, ← load entry.path.toString) :: entries
    return .directory (KeyMap.sortMembers entries)
  else return .file (← IO.FS.readBinFile place).toList

/-- Puts what is on disk at a path into a tree, with all below it or, if `shallow`, only as itself,
and the directories on the way to it. -/
def take (shallow : Bool) (t : FileTree) (path : String) : IO FileTree := do
  let pieces := FileTree.pieces path
  let mut t := t
  for count in List.range pieces.length do
    let way := "/".intercalate (pieces.take (count + 1))
    let whole := count + 1 == pieces.length && !shallow
    if (t.node? way).isNone || whole then
      if let .ok place ← (IO.FS.realPath (if way == "" then "/" else way)).toBaseIO then
        let node ← if !whole && (← place.isDir) then pure FileNode.emptyDirectory
          else load place.toString
        let names := (FileTree.pieces place.toString).filter (· != "")
        t := { t with top := FileNode.insert node names t.top }
  return t

/-- The paths that a job reads, with all below them, and those it only needs to know of. -/
def pathsOf : Command.Job → List String × List String
  | .map paths output _ config =>
    let beside := (paths.head?.bind fun p => Path.parent? p.toList).map fun above =>
      Path.join (String.ofList above) Config.fileName
    (beside.toList ++ config.toList ++ paths, output.toList)
  | .compare reference candidate _ _ config => (config.toList ++ [reference, candidate], [])

/-- The files that a job speaks of. -/
def filesFor (j : Command.Job) : IO FileTree := do
  let here := (FileTree.pieces (← IO.currentDir).toString).filter (· != "")
  let (deep, shallow) := pathsOf j
  let t : FileTree := { top := FileNode.insert .emptyDirectory here .emptyDirectory, here }
  let t ← deep.foldlM (take false) t
  shallow.foldlM (take true) t

/-- Runs the program on some arguments. -/
def program (arguments : List String) : IO UInt32 := do
  let files ← match Command.Request.ofArguments arguments with
    | .job j => filesFor j
    | _ => pure {}
  let now ← Std.Time.Timestamp.now
  let now := Command.momentText now.toNanosecondsSinceUnixEpoch.toInt.toNat
  let o := Command.run { files, available := 8, now } arguments
  if let some (path, text) := o.written then IO.FS.writeFile path text
  IO.print o.stdout
  IO.eprint o.stderr
  return UInt32.ofNat o.exit

end Concord.Main

def main (arguments : List String) : IO UInt32 := Concord.Main.program arguments
