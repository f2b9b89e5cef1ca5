/-
Work on a list of items that several workers share. Each worker takes a run of
consecutive items. An item that comes up after the call to stop is left alone. A
worker whose work on an item is lost loses its whole run with it.
-/
namespace Concord.Batch

variable {α β : Type}

/-- How many items one worker takes when they are shared among some workers, of which there is at
least one. -/
def shareSize (count workers : Nat) : Nat := (count + (max 1 workers - 1)) / max 1 workers

/-- The runs of at most `size` items in the first `fuel` steps. -/
def runsWithin (size : Nat) : (fuel : Nat) → List α → List (List α)
  | _, [] => []
  | 0, _ => []
  | fuel + 1, items => items.take size :: runsWithin size fuel (items.drop size)

/-- The items in runs of at most `size`. -/
def runs (size : Nat) (items : List α) : List (List α) := runsWithin size items.length items

/-- The results of one run of items with their places; `stops` tells at which places the call to
stop is seen, and work that gives nothing is lost. -/
def workRun (stops : Nat → Bool) (work : α → Option β) (run : List (α × Nat)) : List (Option β) :=
  if run.any fun x => !stops x.2 && (work x.1).isNone then run.map fun _ => none
  else run.map fun x => if stops x.2 then none else work x.1

/-- The results of work on all items, in the order of the items. -/
def workAll (workers : Nat) (stops : Nat → Bool) (work : α → Option β) (items : List α) :
    List (Option β) :=
  (runs (shareSize items.length workers) items.zipIdx).flatMap (workRun stops work)

end Concord.Batch
