/-
Shared work. The runs that workers take make up the items, so there is one result for
each item, in its place; and where no work is lost every result is that of its item alone,
among however many workers the items are shared (`workAll_of_lossless`).
-/
import Concord.Batch.Work
import Mathlib.Data.List.Basic

namespace Concord.Batch

variable {α β : Type}

/-! ## Runs -/

theorem shareSize_pos {count : Nat} (workers : Nat) (h : 0 < count) :
    0 < shareSize count workers := by
  refine Nat.div_pos ?_ ?_ <;> omega

theorem flatten_runsWithin {size : Nat} (hsize : 0 < size) (fuel : Nat) (items : List α)
    (h : items.length ≤ fuel) : (runsWithin size fuel items).flatten = items := by
  induction fuel generalizing items with
  | zero =>
    obtain rfl : items = [] := List.length_eq_zero_iff.1 (Nat.le_zero.1 h)
    rfl
  | succ fuel ih =>
    cases items with
    | nil => rfl
    | cons item items =>
      have hdrop : ((item :: items).drop size).length ≤ fuel := by
        simp only [List.length_drop, List.length_cons] at h ⊢
        omega
      rw [runsWithin, List.flatten_cons, ih _ hdrop, List.take_append_drop]
      simp

/-- The runs make up the items. -/
theorem flatten_runs_shareSize (workers : Nat) (items : List α) :
    (runs (shareSize items.length workers) items).flatten = items := by
  cases items with
  | nil => rfl
  | cons item items =>
    exact flatten_runsWithin (shareSize_pos workers (by simp)) _ _ (Nat.le_refl _)

/-- The runs of items that the workers take. -/
def shares (workers : Nat) (items : List α) : List (List α) :=
  runs (shareSize items.length workers) items

theorem flatten_shares (workers : Nat) (items : List α) : (shares workers items).flatten = items :=
  flatten_runs_shareSize workers items

theorem flatten_runs_zipIdx (workers : Nat) (items : List α) :
    (runs (shareSize items.length workers) items.zipIdx).flatten = items.zipIdx := by
  have h := flatten_runs_shareSize workers items.zipIdx
  rwa [List.length_zipIdx] at h

/-! ## Results -/

theorem length_workRun (stops : Nat → Bool) (work : α → Option β) (run : List (α × Nat)) :
    (workRun stops work run).length = run.length := by
  unfold workRun
  split <;> simp

/-- There is one result for each item. -/
@[simp] theorem length_workAll (workers : Nat) (stops : Nat → Bool) (work : α → Option β)
    (items : List α) : (workAll workers stops work items).length = items.length := by
  have hlengths : ∀ rs : List (List (α × Nat)),
      (rs.flatMap (workRun stops work)).length = rs.flatten.length := by
    intro rs
    induction rs with
    | nil => rfl
    | cons r rs ih => simp [length_workRun, ih]
  rw [workAll, hlengths, flatten_runs_zipIdx, List.length_zipIdx]

/-- No work that is begun is lost. -/
def Lossless (stops : Nat → Bool) (work : α → Option β) (items : List α) : Prop :=
  ∀ x ∈ items.zipIdx, stops x.2 = false → work x.1 ≠ none

/-- What becomes of an item on its own. -/
def workOne (stops : Nat → Bool) (work : α → Option β) (x : α × Nat) : Option β :=
  if stops x.2 then none else work x.1

theorem workRun_of_lossless {stops : Nat → Bool} {work : α → Option β} {run : List (α × Nat)}
    (h : ∀ x ∈ run, stops x.2 = false → work x.1 ≠ none) :
    workRun stops work run = run.map (workOne stops work) := by
  have hnone : (run.any fun x => !stops x.2 && (work x.1).isNone) = false := by
    simp only [List.any_eq_false, Bool.and_eq_true, Bool.not_eq_true', Option.isNone_iff_eq_none,
      not_and]
    exact h
  rw [workRun, if_neg (by simp [hnone])]
  rfl

/-- Where no work is lost, each item has its own result, whoever works on it. -/
theorem workAll_of_lossless {stops : Nat → Bool} {work : α → Option β} {items : List α}
    (workers : Nat) (h : Lossless stops work items) :
    workAll workers stops work items = items.zipIdx.map (workOne stops work) := by
  have hflat := flatten_runs_zipIdx workers items
  have hruns : ∀ run ∈ runs (shareSize items.length workers) items.zipIdx,
      workRun stops work run = run.map (workOne stops work) := by
    intro run hrun
    refine workRun_of_lossless fun x hx => h x ?_
    rw [← hflat]
    exact List.mem_flatten.2 ⟨run, hrun, hx⟩
  rw [workAll, List.flatMap_def, List.map_congr_left hruns, ← List.map_flatten, hflat]

theorem map_workOne_steady (work : α → Option β) (items : List α) :
    items.zipIdx.map (workOne (fun _ => false) work) = items.map work := by
  have hfst : items.zipIdx.map Prod.fst = items := List.zipIdx_map_fst 0 items
  calc items.zipIdx.map (workOne (fun _ => false) work)
      = (items.zipIdx.map Prod.fst).map work := by
        rw [List.map_map]
        rfl
    _ = items.map work := by rw [hfst]

theorem workAll_steady {work : α → Option β} {items : List α} (h : Lossless (fun _ => false) work items)
    (workers : Nat) : workAll workers (fun _ => false) work items = items.map work := by
  rw [workAll_of_lossless workers h, map_workOne_steady]

end Concord.Batch
