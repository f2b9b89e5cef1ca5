/-
Files and directories as one value, and what a path finds in it.
-/
import Concord.Order.KeyMap
import Concord.Path
import Concord.Text.Utf8

namespace Concord

/-- A file, or a directory with its entries by increasing name. -/
inductive FileNode where
  | file (bytes : List UInt8)
  | directory (entries : List (String × FileNode))
deriving Inhabited

namespace FileNode

def emptyDirectory : FileNode := directory []

/-- An entry of a directory. -/
def entry? : FileNode → String → Option FileNode
  | file _, _ => none
  | directory entries, name => (entries.find? (·.1 == name)).map (·.2)

def isDirectory : FileNode → Bool
  | directory _ => true
  | file _ => false

def isFile (n : FileNode) : Bool := !n.isDirectory

/-- Puts a node below the given names; directories on the way are made, and what is in the way is
replaced. -/
def insert (new : FileNode) : List String → FileNode → FileNode
  | [], _ => new
  | name :: names, node =>
    let entries := match node with
      | directory entries => entries
      | file _ => []
    let child := (node.entry? name).getD emptyDirectory
    directory (KeyMap.insertMember name (insert new names child) entries)

end FileNode

/-- All files, and the names that lead from the top to where the program runs. -/
structure FileTree where
  top : FileNode := .emptyDirectory
  here : List String := []
deriving Inhabited

namespace FileTree

/-- Why a path cannot be read or written. -/
inductive Fault where
  | missing
  | notDirectory
  | isDirectory
  /-- The bytes are no text. -/
  | notText
deriving DecidableEq, Repr

def Fault.message : Fault → String
  | missing => "No such file or directory (os error 2)"
  | notDirectory => "Not a directory (os error 20)"
  | isDirectory => "Is a directory (os error 21)"
  | notText => "stream did not contain valid UTF-8"

/-- A node with the names that lead to it, the last one first, each with the directory it is in. -/
structure Found where
  node : FileNode
  trail : List (String × FileNode) := []

/-- Follows names from a node. A dot stays, two dots go back but not above the top, and only a
directory can be left. -/
def follow (f : Found) : List String → Except Fault Found
  | [] => .ok f
  | name :: names =>
    if f.node.isFile then .error .notDirectory
    else if name == "" || name == "." then follow f names
    else if name == ".." then
      match f.trail with
      | (_, above) :: trail => follow ⟨above, trail⟩ names
      | [] => follow f names
    else
      match f.node.entry? name with
      | some child => follow ⟨child, (name, f.node) :: f.trail⟩ names
      | none => .error .missing

/-- The pieces of a path between its slashes. -/
def pieces (path : String) : List String := (Text.splitAt '/' path.toList).map String.ofList

/-- The names of a path from the top: a path that begins with a slash begins there, and all others
where the program runs. -/
def names (t : FileTree) (path : String) : List String :=
  if path.toList.head? = some '/' then pieces path else t.here ++ pieces path

/-- What a path leads to. -/
def find (t : FileTree) (path : String) : Except Fault Found :=
  if path == "" then .error .missing else follow ⟨t.top, []⟩ (t.names path)

/-- The node that a path leads to. -/
def node? (t : FileTree) (path : String) : Option FileNode :=
  match t.find path with
  | .ok found => some found.node
  | .error _ => none

def isFile (t : FileTree) (path : String) : Bool := (t.node? path).any FileNode.isFile

def isDirectory (t : FileTree) (path : String) : Bool := (t.node? path).any FileNode.isDirectory

/-- The bytes of a file. -/
def read (t : FileTree) (path : String) : Except Fault (List UInt8) := do
  match (← t.find path).node with
  | .file bytes => .ok bytes
  | .directory _ => .error .isDirectory

/-- The text of a file. -/
def readText (t : FileTree) (path : String) : Except Fault String := do
  match Utf8.text? (← t.read path) with
  | some text => .ok (String.ofList text)
  | none => .error .notText

/-- The tree with a text written to a file, which need not be there but whose directory must. -/
def write (t : FileTree) (path text : String) : Except Fault FileTree := do
  let names := t.names path
  let name := names.getLast?.getD ""
  if path == "" then .error .missing
  else
    let found ← follow ⟨t.top, []⟩ names.dropLast
    if found.node.isFile then .error .notDirectory
    else if name == "" || name == "." || name == ".." then .error .isDirectory
    else if (found.node.entry? name).any FileNode.isDirectory then .error .isDirectory
    else
      let place := (found.trail.map Prod.fst).reverse ++ [name]
      .ok { t with top := FileNode.insert (.file (Utf8.bytes text.toList)) place t.top }

end FileTree

end Concord
