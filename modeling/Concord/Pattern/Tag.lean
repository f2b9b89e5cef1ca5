/-
The structural patterns that are recognised, and sets of them.
-/
namespace Concord.Pattern

/-- A pattern of structure. -/
inductive Tag where
  /-- Times of creation and of change. -/
  | auditTriad
  /-- A time of deletion that may be missing. -/
  | softRemoval
  /-- A status that methods move on. -/
  | statusLifecycle
  /-- Three or more verbs of data access among the methods. -/
  | bulkAccess
  | multiTenant
  | hierarchical
  | versioned
deriving DecidableEq, Repr, Inhabited

namespace Tag

/-- All patterns, in their order. -/
def all : List Tag :=
  [auditTriad, softRemoval, statusLifecycle, bulkAccess, multiTenant, hierarchical, versioned]

theorem mem_all (t : Tag) : t ∈ all := by cases t <;> decide

def name : Tag → String
  | auditTriad => "audit-triad"
  | softRemoval => "soft-removal"
  | statusLifecycle => "status-lifecycle"
  | bulkAccess => "bulk-access"
  | multiTenant => "multi-tenant"
  | hierarchical => "hierarchical"
  | versioned => "versioned"

def ofName? (s : String) : Option Tag := all.find? fun t => t.name == s

theorem ofName?_name (t : Tag) : ofName? t.name = some t := by cases t <;> decide

end Tag

/-- A set of patterns. -/
structure Tags where
  has : Tag → Bool

namespace Tags

@[ext] theorem ext {a b : Tags} (h : ∀ t, a.has t = b.has t) : a = b := by
  cases a; cases b; congr; exact funext h

instance : DecidableEq Tags := fun a b =>
  decidable_of_iff (∀ t ∈ Tag.all, a.has t = b.has t)
    ⟨fun h => ext fun t => h t t.mem_all, fun h _ _ => h ▸ rfl⟩

def empty : Tags := ⟨fun _ => false⟩

instance : Inhabited Tags := ⟨empty⟩

def ofList (tags : List Tag) : Tags := ⟨fun t => tags.contains t⟩

/-- The patterns of a set, in their order. -/
def toList (s : Tags) : List Tag := Tag.all.filter s.has

@[simp] theorem mem_toList (s : Tags) (t : Tag) : t ∈ s.toList ↔ s.has t = true := by
  simp [toList, t.mem_all]

theorem ofList_toList (s : Tags) : ofList s.toList = s := by
  ext t
  simp [ofList]

end Tags

end Concord.Pattern
