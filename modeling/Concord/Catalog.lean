/-
The names of the entities that are known, and how a name in a source is resolved
to one of them.
-/
import Concord.Naming
import Concord.Order.NameSet

namespace Concord

open Naming Text

/-- The names of known entities. -/
structure Catalog where
  names : NameSet
deriving DecidableEq, Inhabited

namespace Catalog

def empty : Catalog := ⟨.empty⟩

def ofNames (names : List String) : Catalog := ⟨NameSet.ofList names⟩

def insert (c : Catalog) (name : String) : Catalog := ⟨c.names.insert name⟩

def contains (c : Catalog) (name : String) : Bool := c.names.contains name

/-- The known name that `name` means: itself, or else the first that agrees with it, or with the
singular of its snake case, but for letter case and underscores. -/
def resolve? (c : Catalog) (name : String) : Option String :=
  let t := trim name.toList
  let exact := String.ofList t
  if c.contains exact then some exact
  else
    let keys := [squash t, squash (singular (snake t))]
    c.names.names.find? fun known => keys.contains (squash known.toList)

/-- The known name that `name` means inside the entity `owner`, which means itself first. -/
def resolveFor? (c : Catalog) (name owner : String) : Option String :=
  if squash (trim name.toList) == squash owner.toList then some owner else c.resolve? name

end Catalog

end Concord
