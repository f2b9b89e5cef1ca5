/-
Shared work place by place. The runs that workers take are no more than the workers and,
but for the last one, equally long (`isShared_shares`). At each place stands the result of its
item, or nothing where the call to stop was seen or the work on an item of the same run was
lost (`forall₂_workAll`), in every schedule.
-/
import Concord.Proofs.Batch.Schedule
import Mathlib.Algebra.Order.Floor.Div
import Mathlib.Data.List.Forall2
import Mathlib.Data.List.Pairwise

namespace Concord.Batch

variable {α β : Type}

/-! ## Runs -/

/-- Items in at most `count` runs of `size` items, of which only the last may be shorter. -/
structure IsShared (size count : Nat) (items : List α) (rs : List (List α)) : Prop where
  whole : rs.flatten = items
  few : rs.length ≤ count
  short : ∀ run ∈ rs, run ≠ [] ∧ run.length ≤ size
  full : ∀ run ∈ rs.dropLast, run.length = size

theorem shareSize_eq (count workers : Nat) : shareSize count workers = count ⌈/⌉ max 1 workers := by
  rw [Nat.ceilDiv_eq_add_pred_div, shareSize, Nat.add_sub_assoc (Nat.le_max_left 1 workers)]

theorem length_runsWithin_le {size : Nat} (fuel : Nat) {items : List α} {count : Nat}
    (h : items.length ≤ size * count) : (runsWithin size fuel items).length ≤ count := by
  induction fuel generalizing items count with
  | zero => cases items <;> exact Nat.zero_le _
  | succ fuel ih =>
    cases items with
    | nil => exact Nat.zero_le _
    | cons item items =>
      cases count with
      | zero => simp at h
      | succ count =>
        have hrest : ((item :: items).drop size).length ≤ size * count := by
          rw [List.length_drop, Nat.sub_le_iff_le_add]
          exact h
        exact Nat.succ_le_succ (ih hrest)

theorem length_of_mem_runsWithin {size : Nat} (hsize : 0 < size) (fuel : Nat) {items run : List α}
    (h : run ∈ runsWithin size fuel items) : run ≠ [] ∧ run.length ≤ size := by
  induction fuel generalizing items with
  | zero => cases items <;> cases h
  | succ fuel ih =>
    cases items with
    | nil => cases h
    | cons item items =>
      rcases List.mem_cons.1 h with rfl | h
      · exact ⟨by simp [Nat.pos_iff_ne_zero.1 hsize], List.length_take_le size _⟩
      · exact ih h

/-- A run that others follow is full. -/
theorem length_of_mem_dropLast {size fuel : Nat} {items run : List α}
    (h : run ∈ (runsWithin size fuel items).dropLast) : run.length = size := by
  induction fuel generalizing items with
  | zero => cases items <;> cases h
  | succ fuel ih =>
    cases items with
    | nil => cases h
    | cons item items =>
      have hstep : runsWithin size (fuel + 1) (item :: items) =
          (item :: items).take size :: runsWithin size fuel ((item :: items).drop size) := rfl
      rw [hstep] at h
      cases hrest : runsWithin size fuel ((item :: items).drop size) with
      | nil => simp [hrest] at h
      | cons next others =>
        have hlong : size < (item :: items).length := by
          by_contra hshort
          rw [List.drop_eq_nil_of_le (Nat.le_of_not_lt hshort)] at hrest
          cases fuel <;> cases hrest
        rw [hrest, List.dropLast_cons_cons] at h
        rcases List.mem_cons.1 h with rfl | h
        · rw [List.length_take, Nat.min_eq_left (Nat.le_of_lt hlong)]
        · exact ih (hrest ▸ h)

theorem isShared_shares (workers : Nat) (items : List α) :
    IsShared (items.length ⌈/⌉ max 1 workers) (max 1 workers) items (shares workers items) := by
  cases hitems : items with
  | nil => exact ⟨rfl, Nat.zero_le _, List.forall_mem_nil _, List.forall_mem_nil _⟩
  | cons item rest =>
    rw [← hitems, ← shareSize_eq]
    have hsize : 0 < shareSize items.length workers := shareSize_pos workers (by simp [hitems])
    have hfits : items.length ≤ shareSize items.length workers * max 1 workers := by
      rw [shareSize_eq, Nat.mul_comm, ← smul_eq_mul]
      exact le_smul_ceilDiv (Nat.lt_of_lt_of_le Nat.one_pos (Nat.le_max_left 1 workers))
    exact ⟨flatten_shares workers items, length_runsWithin_le _ hfits,
      fun run hrun => length_of_mem_runsWithin hsize _ hrun, fun run hrun => length_of_mem_dropLast hrun⟩

/-! ## Outcomes -/

/-- What becomes of an item among the items of some runs: its result, or nothing where the call to stop is
seen or the work on an item of its run is lost. -/
structure Outcome (stops : Nat → Bool) (work : α → Option β) (rs : List (List (α × Nat))) (x : α × Nat)
    (result : Option β) : Prop where
  own : result = none ∨ result = work x.1
  missing : result = none ↔ stops x.2 = true ∨
    ∃ run ∈ rs, x ∈ run ∧ ∃ y ∈ run, stops y.2 = false ∧ work y.1 = none

theorem run_unique {rs : List (List α)} (h : rs.flatten.Nodup) {run other : List α} (hrun : run ∈ rs)
    (hother : other ∈ rs) {x : α} (hx : x ∈ run) (hx' : x ∈ other) : run = other := by
  by_contra hne
  have hsymm : Std.Symm (@List.Disjoint α) := ⟨fun _ _ h => h.symm⟩
  exact (List.nodup_flatten.1 h).2.forall hrun hother hne hx hx'

theorem forall₂_workRun (stops : Nat → Bool) (work : α → Option β) {rs : List (List (α × Nat))}
    (h : rs.flatten.Nodup) {run : List (α × Nat)} (hrun : run ∈ rs) :
    List.Forall₂ (Outcome stops work rs) run (workRun stops work run) := by
  unfold workRun
  split
  · rename_i hlost
    simp only [List.any_eq_true, Bool.and_eq_true, Bool.not_eq_true', Option.isNone_iff_eq_none] at hlost
    obtain ⟨y, hy, hnone⟩ := hlost
    refine List.forall₂_map_right_iff.2 (List.forall₂_same.2 fun x hx => ⟨.inl rfl, ?_⟩)
    exact iff_of_true rfl (.inr ⟨run, hrun, hx, y, hy, hnone⟩)
  · rename_i hfine
    simp only [List.any_eq_true, Bool.and_eq_true, Bool.not_eq_true', Option.isNone_iff_eq_none, not_exists,
      not_and] at hfine
    refine List.forall₂_map_right_iff.2 (List.forall₂_same.2 fun x hx => ?_)
    cases hstops : stops x.2 with
    | true => exact ⟨.inl rfl, iff_of_true rfl (.inl hstops)⟩
    | false =>
      refine ⟨.inr rfl, iff_of_false (hfine x hx hstops) ?_⟩
      rintro (hseen | ⟨other, hother, hx', y, hy, hfalse, hnone⟩)
      · simp [hstops] at hseen
      · rw [← run_unique h hrun hother hx hx'] at hy
        exact hfine y hy hfalse hnone

theorem runs_zipIdx (workers : Nat) (items : List α) :
    runs (shareSize items.length workers) items.zipIdx = shares workers items.zipIdx := by
  rw [shares, List.length_zipIdx]

/-- At each place stands the outcome of its item. -/
theorem forall₂_workAll (workers : Nat) (stops : Nat → Bool) (work : α → Option β) (items : List α) :
    List.Forall₂ (Outcome stops work (shares workers items.zipIdx)) items.zipIdx (workAll workers stops work items) := by
  have hwhole := flatten_shares workers items.zipIdx
  have hnodup : (shares workers items.zipIdx).flatten.Nodup := by
    rw [hwhole]
    exact List.Nodup.of_map Prod.snd (by rw [List.zipIdx_map_snd]; exact List.nodup_range')
  have hruns := List.rel_flatten (List.forall₂_map_right_iff.2 (List.forall₂_same.2 fun run hrun =>
    forall₂_workRun stops work hnodup hrun))
  rw [hwhole, ← List.flatMap_def] at hruns
  rwa [workAll, runs_zipIdx]

/-! ## Schedules -/

/-- Workers that begin with the given items get to this floor in some schedule; `first` tells whether the
call to stop had come before the first step. -/
def Reaches (work : α → Option β) (workers : Nat) (items : List α) (first : Bool) (f : Floor α) : Prop :=
  Relation.ReflTransGen (Step work) ⟨first, (shares workers items.zipIdx).map .fresh⟩ f

theorem completes_iff_map {work : α → Option β} {f : α → β} {items : List α} (hf : ∀ x ∈ items, work x = some (f x)) (workers : Nat)
    (results : List (Option β)) :
    Completes work workers items false false results ↔ results = items.map fun x => some (f x) := by
  have hlossless : Lossless (fun _ => false) work items := fun x hx _ => by
    rw [hf x.1 (List.fst_mem_of_mem_zipIdx hx)]
    exact Option.some_ne_none _
  have hall : workAll workers (fun _ => false) work items = items.map fun x => some (f x) :=
    (workAll_steady hlossless workers).trans (List.map_congr_left hf)
  constructor
  · intro h
    rw [h.eq_workAll, hall]
  · rintro rfl
    rw [← hall]
    exact completes_steady work workers items

/-- **Shared work is placewise.** The items go to the workers in at most as many runs as there are workers, at
least one, each as long as the quotient rounded up but for a shorter last one. Where no work is lost and nobody
calls to stop, the results are those of the items in order. Wherever the call to stop is seen and whatever is
lost, there is a result for each item, at its place: that of the item, or nothing exactly if the call to stop is
seen there or work of the same run is lost. So it is in every schedule, for the places that were begun after the
call to stop had come, and every schedule can be brought to its end. -/
theorem workAll_placewise (work : α → Option β) (workers : Nat) (items : List α) :
    IsShared (items.length ⌈/⌉ max 1 workers) (max 1 workers) items.zipIdx (shares workers items.zipIdx) ∧
    (∀ f : α → β, (∀ x ∈ items, work x = some (f x)) → ∀ results,
      Completes work workers items false false results ↔ results = items.map fun x => some (f x)) ∧
    (∀ stops, (workAll workers stops work items).length = items.length ∧
      List.Forall₂ (Outcome stops work (shares workers items.zipIdx)) items.zipIdx
        (workAll workers stops work items)) ∧
    ∀ first f, Reaches work workers items first f →
      ((∀ w ∈ f.workers, w.IsIdle work) →
        f.workers.flatMap (Worker.results work) = workAll workers (f.stops first) work items) ∧
      ∃ final, Relation.ReflTransGen (Step work) f ⟨f.stopped, final⟩ ∧ ∀ w ∈ final, w.IsIdle work := by
  have hshared := isShared_shares workers items.zipIdx
  rw [List.length_zipIdx] at hshared
  refine ⟨hshared, fun f hf results => completes_iff_map hf workers results,
    fun stops => ⟨length_workAll _ _ _ _, forall₂_workAll workers stops work items⟩, fun first f hreaches => ?_⟩
  obtain ⟨final, hidle, hsteps⟩ := exists_all_idle work f.stopped [] f.workers
  refine ⟨fun hdone => ?_, final, hsteps, hidle⟩
  have hkept := (Floor.kept_fresh first (shares workers items.zipIdx)).steps hreaches
  rw [← runs_zipIdx] at hkept
  exact results_eq_workAll hkept hdone

/-- Three items for two workers that lose nothing; and a worker for each of two items, one of which gets lost. -/
theorem workAll_placewise_quotients :
    (∀ results, Completes (fun n => some (12 / n)) 2 [1, 2, 3] false false results ↔
      results = [some 12, some 6, some 4]) ∧
    ∃ final, Relation.ReflTransGen (Step fun n => if n = 0 then none else some (12 / n))
      ⟨true, [⟨[((0, 0), false)], []⟩, ⟨[], [(3, 1)]⟩]⟩ ⟨true, final⟩ ∧
      ∀ w ∈ final, w.IsIdle fun n => if n = 0 then none else some (12 / n) := by
  refine ⟨fun results => (workAll_placewise _ 2 [1, 2, 3]).2.1 (12 / ·) (fun _ _ => rfl) results, ?_⟩
  have hlost : Reaches (fun n => if n = 0 then none else some (12 / n)) 2 [0, 3] false
      ⟨true, [⟨[((0, 0), false)], []⟩, ⟨[], [(3, 1)]⟩]⟩ :=
    .tail (.single (.begins false [] [⟨[], [(3, 1)]⟩] [] (0, 0) [] rfl)) (.stop _ _)
  exact ((workAll_placewise _ 2 [0, 3]).2.2.2 false _ hlost).2

-- the call to stop is seen at the second place, and the work on the fourth item is lost
example : workAll 2 (· == 1) (fun n => if n = 0 then none else some (12 / n)) [1, 2, 3, 0, 6] =
    [some 12, none, some 4, none, none] := by decide

end Concord.Batch
