/-
How often each pattern was found, and on which entities.
-/
import Concord.Json.Decode
import Concord.Order.NameSet
import Concord.Pattern.Tag
import Concord.Spec.Document

namespace Concord.Pattern

open Json

/-- An entity was found to show a pattern. -/
structure Event where
  pattern : Tag
  entity : String
deriving DecidableEq, Repr, Inhabited

/-- The events of a specification: one for each of its patterns. -/
def eventsOf (s : Specification) : List Event :=
  s.tags.toList.map fun pattern => ⟨pattern, s.qualifiedName⟩

/-- Counts of events and the entities they were about. -/
structure Usage where
  counts : Tag → Nat
  entities : Tag → NameSet

namespace Usage

def empty : Usage := ⟨fun _ => 0, fun _ => .empty⟩

instance : Inhabited Usage := ⟨empty⟩

/-- Counts one event. -/
def apply (u : Usage) (e : Event) : Usage where
  counts t := if t = e.pattern then u.counts t + 1 else u.counts t
  entities t := if t = e.pattern then (u.entities t).insert e.entity else u.entities t

/-- Counts events in their order. -/
def applyAll (u : Usage) (events : List Event) : Usage := events.foldl apply u

/-- The patterns that were counted. -/
def seen (u : Usage) : List Tag := Tag.all.filter fun t => 0 < u.counts t

def isEmpty (u : Usage) : Bool := u.seen.isEmpty

end Usage

namespace Encode

open Json.Encode

def usage (u : Usage) : Json :=
  .obj (member "counts" (.obj (u.seen.map fun t => (t.name, .int (u.counts t)))) ++
    member "entities" (.obj (u.seen.map fun t => (t.name, strings (u.entities t).names))))

end Encode

namespace Decode

open Json.Decode

def event : Decoder Event :=
  record ["pattern", "entity"] do
    let pattern ← field "pattern" Spec.Decode.tag
    let entity ← field "entity" string
    return { pattern, entity }

end Decode

end Concord.Pattern
