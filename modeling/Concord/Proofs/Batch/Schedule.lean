/-
Every way to schedule shared work. Each worker begins the items of its run one after the
other; which worker goes next is left open, and the call to stop may come at any time
between two steps. However this goes, what the workers hand over in the end is the result
of `workAll` for some places at which the call to stop is seen (`Completes.exists_stops`),
and no place sees a call that never came.
-/
import Concord.Proofs.Batch.Work
import Mathlib.Data.List.Nodup
import Mathlib.Logic.Relation

namespace Concord.Batch

variable {α β : Type}

/-! ## Workers -/

/-- A worker on the way through its run: the items it has begun, each with whether the call to stop
had come by then, and the items it has not begun. -/
structure Worker (α : Type) where
  begun : List ((α × Nat) × Bool)
  waiting : List (α × Nat)

namespace Worker

/-- A worker that has begun nothing of its run. -/
def fresh (run : List (α × Nat)) : Worker α := ⟨[], run⟩

/-- All items that a worker was given. -/
def run (w : Worker α) : List (α × Nat) := w.begun.map Prod.fst ++ w.waiting

/-- Whether work that it began is lost, and the worker with it. -/
def isLost (work : α → Option β) (w : Worker α) : Bool :=
  w.begun.any fun b => !b.2 && (work b.1.1).isNone

/-- What a worker hands over. -/
def results (work : α → Option β) (w : Worker α) : List (Option β) :=
  if w.isLost work then w.run.map fun _ => none
  else w.begun.map fun b => if b.2 then none else work b.1.1

/-- Nothing is left that the worker could begin. -/
def IsIdle (work : α → Option β) (w : Worker α) : Prop := w.waiting = [] ∨ w.isLost work = true

/-- An idle worker hands over the results of its run, for the calls to stop that it saw. -/
theorem results_eq_workRun {stops : Nat → Bool} {work : α → Option β} {w : Worker α}
    (hidle : w.IsIdle work) (hseen : ∀ b ∈ w.begun, stops b.1.2 = b.2) :
    w.results work = workRun stops work w.run := by
  by_cases hlost : w.isLost work = true
  · have hany : (w.run.any fun x => !stops x.2 && (work x.1).isNone) = true := by
      obtain ⟨b, hb, hnone⟩ := List.any_eq_true.1 hlost
      refine List.any_eq_true.2 ⟨b.1, ?_, by rw [hseen b hb]; exact hnone⟩
      exact List.mem_append_left _ (List.mem_map_of_mem hb)
    rw [results, if_pos hlost, workRun, if_pos hany]
  · have hrun : w.run = w.begun.map Prod.fst := by
      rw [run, hidle.resolve_right hlost, List.append_nil]
    have hfine : ∀ x ∈ w.run, stops x.2 = false → work x.1 ≠ none := by
      intro x hx hstops hnone
      rw [hrun] at hx
      obtain ⟨b, hb, rfl⟩ := List.mem_map.1 hx
      refine hlost (List.any_eq_true.2 ⟨b, hb, ?_⟩)
      rw [← hseen b hb, hstops, hnone]
      rfl
    rw [results, if_neg hlost, workRun_of_lossless hfine, hrun, List.map_map]
    refine List.map_congr_left fun b hb => ?_
    simp only [Function.comp_apply, workOne, hseen b hb]

end Worker

/-! ## Steps -/

/-- All workers, and whether the call to stop has come. -/
structure Floor (α : Type) where
  stopped : Bool
  workers : List (Worker α)

/-- What may happen next: the call to stop comes, or a worker that is not lost begins its next item
and looks whether the call has come. -/
inductive Step (work : α → Option β) : Floor α → Floor α → Prop where
  | stop (stopped : Bool) (workers : List (Worker α)) : Step work ⟨stopped, workers⟩ ⟨true, workers⟩
  | begins (stopped : Bool) (before after : List (Worker α)) (begun : List ((α × Nat) × Bool))
      (x : α × Nat) (waiting : List (α × Nat))
      (live : (⟨begun, x :: waiting⟩ : Worker α).isLost work = false) :
      Step work ⟨stopped, before ++ ⟨begun, x :: waiting⟩ :: after⟩
        ⟨stopped, before ++ ⟨begun ++ [(x, stopped)], waiting⟩ :: after⟩

/-- What every step keeps, from a floor with the given runs where the call to stop had come or not. -/
structure Floor.Kept (first : Bool) (rs : List (List (α × Nat))) (f : Floor α) : Prop where
  runs : f.workers.map Worker.run = rs
  stopped : first = true → f.stopped = true
  seen : ∀ w ∈ f.workers, ∀ b ∈ w.begun, b.2 = true → f.stopped = true
  unseen : first = true → ∀ w ∈ f.workers, ∀ b ∈ w.begun, b.2 = true

theorem Floor.kept_fresh (first : Bool) (rs : List (List (α × Nat))) :
    Floor.Kept first rs ⟨first, rs.map .fresh⟩ where
  runs := by
    rw [List.map_map]
    exact List.map_id _
  stopped := id
  seen := by simp [Worker.fresh]
  unseen := by simp [Worker.fresh]

theorem Floor.Kept.step {work : α → Option β} {first : Bool} {rs : List (List (α × Nat))}
    {f g : Floor α} (h : f.Kept first rs) (hstep : Step work f g) : g.Kept first rs := by
  cases hstep with
  | stop stopped workers =>
    exact ⟨h.runs, fun _ => rfl, fun _ _ _ _ _ => rfl, h.unseen⟩
  | begins stopped before after begun x waiting live =>
    obtain ⟨hruns, hstopped, hseen, hunseen⟩ := h
    simp only [List.mem_append, List.mem_cons] at hseen hunseen
    refine ⟨?_, hstopped, ?_, ?_⟩
    · rw [← hruns]
      simp [Worker.run]
    · intro w hw b hb hsaw
      simp only [List.mem_append, List.mem_cons] at hw
      rcases hw with hw | rfl | hw
      · exact hseen w (.inl hw) b hb hsaw
      · rcases List.mem_append.1 hb with hb | hb
        · exact hseen _ (.inr (.inl rfl)) b hb hsaw
        · obtain rfl := List.mem_singleton.1 hb
          exact hsaw
      · exact hseen w (.inr (.inr hw)) b hb hsaw
    · intro hfirst w hw b hb
      simp only [List.mem_append, List.mem_cons] at hw
      rcases hw with hw | rfl | hw
      · exact hunseen hfirst w (.inl hw) b hb
      · rcases List.mem_append.1 hb with hb | hb
        · exact hunseen hfirst _ (.inr (.inl rfl)) b hb
        · obtain rfl := List.mem_singleton.1 hb
          exact hstopped hfirst
      · exact hunseen hfirst w (.inr (.inr hw)) b hb

theorem Floor.Kept.steps {work : α → Option β} {first : Bool} {rs : List (List (α × Nat))}
    {f g : Floor α} (h : f.Kept first rs) (hsteps : Relation.ReflTransGen (Step work) f g) :
    g.Kept first rs := by
  induction hsteps with
  | refl => exact h
  | tail _ hstep ih => exact ih.step hstep

/-! ## Whole schedules -/

/-- Some schedule of the items among the workers ends with these results. `first` and `last` tell
whether the call to stop had come before the first step and after the last. -/
def Completes (work : α → Option β) (workers : Nat) (items : List α) (first last : Bool)
    (results : List (Option β)) : Prop :=
  ∃ final : List (Worker α),
    Relation.ReflTransGen (Step work)
      ⟨first, (runs (shareSize items.length workers) items.zipIdx).map .fresh⟩ ⟨last, final⟩ ∧
    (∀ w ∈ final, w.IsIdle work) ∧ final.flatMap (Worker.results work) = results

/-- The places at which the call to stop was seen; where it had come at first, all places. -/
def Floor.stops (first : Bool) (f : Floor α) (place : Nat) : Bool :=
  first || (f.workers.flatMap Worker.begun).any fun b => b.1.2 == place && b.2

/-- Each worker saw the call to stop where the floor as a whole did, for no place is worked on twice. -/
theorem Floor.Kept.stops_eq {first : Bool} {rs : List (List (α × Nat))} {f : Floor α}
    (h : f.Kept first rs) (hplaces : (rs.flatten.map Prod.snd).Nodup) {w : Worker α}
    (hw : w ∈ f.workers) {b : (α × Nat) × Bool} (hb : b ∈ w.begun) :
    f.stops first b.1.2 = b.2 := by
  have hall : b ∈ f.workers.flatMap Worker.begun := List.mem_flatMap.2 ⟨w, hw, hb⟩
  have hsub : ((f.workers.flatMap Worker.begun).map Prod.fst).Sublist rs.flatten := by
    rw [← h.runs, ← List.flatMap_def, List.map_flatMap]
    generalize f.workers = ws
    induction ws with
    | nil => exact .refl _
    | cons v ws ih => exact (List.sublist_append_left _ _).append ih
  have hnodup : ((f.workers.flatMap Worker.begun).map fun b => b.1.2).Nodup := by
    have hsnd := (hsub.map Prod.snd).nodup hplaces
    rwa [List.map_map] at hsnd
  cases hsaw : b.2 with
  | true =>
    simp only [stops, Bool.or_eq_true, List.any_eq_true]
    exact .inr ⟨b, hall, by simp [hsaw]⟩
  | false =>
    have hfirst : first = false := by
      by_contra htrue
      have := h.unseen (by simpa using htrue) w hw b hb
      simp [hsaw] at this
    simp only [stops, hfirst, Bool.false_or, List.any_eq_false, Bool.and_eq_true, beq_iff_eq, not_and]
    intro b' hb' hplace
    rw [List.inj_on_of_nodup_map hnodup hb' hall hplace, hsaw]
    simp

/-- What idle workers hand over are the results of `workAll`, for the places at which the call to stop
was seen. -/
theorem results_eq_workAll {work : α → Option β} {workers : Nat} {items : List α} {first : Bool}
    {f : Floor α} (h : f.Kept first (runs (shareSize items.length workers) items.zipIdx))
    (hidle : ∀ w ∈ f.workers, w.IsIdle work) :
    f.workers.flatMap (Worker.results work) = workAll workers (f.stops first) work items := by
  have hplaces :
      ((runs (shareSize items.length workers) items.zipIdx).flatten.map Prod.snd).Nodup := by
    rw [flatten_runs_zipIdx, List.zipIdx_map_snd]
    exact List.nodup_range'
  rw [workAll, ← h.runs, List.flatMap_def, List.flatMap_def, List.map_map]
  refine congrArg List.flatten (List.map_congr_left fun w hw => ?_)
  exact Worker.results_eq_workRun (hidle w hw) fun b hb => h.stops_eq hplaces hw hb

/-- Whatever the schedule, the results are those of `workAll`. A place where the call to stop is seen
means that it had come in the end, and one that had come at first is seen everywhere. -/
theorem Completes.exists_stops {work : α → Option β} {workers : Nat} {items : List α}
    {first last : Bool} {results : List (Option β)}
    (h : Completes work workers items first last results) :
    ∃ stops : Nat → Bool, results = workAll workers stops work items ∧
      (∀ i, stops i = true → last = true) ∧ (first = true → ∀ i, stops i = true) := by
  obtain ⟨final, hsteps, hidle, rfl⟩ := h
  have hkept := (Floor.kept_fresh first
    (runs (shareSize items.length workers) items.zipIdx)).steps hsteps
  refine ⟨(⟨last, final⟩ : Floor α).stops first, results_eq_workAll hkept hidle, ?_, ?_⟩
  · intro i hi
    simp only [Floor.stops, Bool.or_eq_true, List.any_eq_true] at hi
    rcases hi with hfirst | ⟨b, hb, hsaw⟩
    · exact hkept.stopped hfirst
    · obtain ⟨w, hw, hbw⟩ := List.mem_flatMap.1 hb
      simp only [Bool.and_eq_true] at hsaw
      exact hkept.seen w hw b hbw hsaw.2
  · intro hfirst i
    simp [Floor.stops, hfirst]

/-- Work that nobody calls off has only one result. -/
theorem Completes.eq_workAll {work : α → Option β} {workers : Nat} {items : List α} {first : Bool}
    {results : List (Option β)} (h : Completes work workers items first false results) :
    results = workAll workers (fun _ => false) work items := by
  obtain ⟨stops, hresults, hlast, -⟩ := h.exists_stops
  have hnever : stops = fun _ => false :=
    funext fun i => by simpa using mt (hlast i) (by simp)
  rw [hresults, hnever]

/-! ## Some schedule -/

/-- A worker can go on alone until it is idle. -/
theorem exists_idle (work : α → Option β) (stopped : Bool) (before after : List (Worker α))
    (w : Worker α) : ∃ v : Worker α, v.IsIdle work ∧
      Relation.ReflTransGen (Step work) ⟨stopped, before ++ w :: after⟩
        ⟨stopped, before ++ v :: after⟩ := by
  obtain ⟨begun, waiting⟩ := w
  induction waiting generalizing begun with
  | nil => exact ⟨_, .inl rfl, .refl⟩
  | cons x waiting ih =>
    cases hlost : (⟨begun, x :: waiting⟩ : Worker α).isLost work with
    | true => exact ⟨_, .inr hlost, .refl⟩
    | false =>
      obtain ⟨v, hidle, hsteps⟩ := ih (begun ++ [(x, stopped)])
      exact ⟨v, hidle, .head (.begins stopped before after begun x waiting hlost) hsteps⟩

/-- All workers can, one after the other. -/
theorem exists_all_idle (work : α → Option β) (stopped : Bool) (before ws : List (Worker α)) :
    ∃ vs : List (Worker α), (∀ v ∈ vs, v.IsIdle work) ∧
      Relation.ReflTransGen (Step work) ⟨stopped, before ++ ws⟩ ⟨stopped, before ++ vs⟩ := by
  induction ws generalizing before with
  | nil => exact ⟨[], by simp, .refl⟩
  | cons w ws ih =>
    obtain ⟨v, hv, hfirst⟩ := exists_idle work stopped before ws w
    obtain ⟨vs, hvs, hrest⟩ := ih (before ++ [v])
    refine ⟨v :: vs, by simpa [hv] using hvs, hfirst.trans ?_⟩
    simpa using hrest

/-- Work that nobody calls off can be completed, with the results of `workAll`. -/
theorem completes_steady (work : α → Option β) (workers : Nat) (items : List α) :
    Completes work workers items false false (workAll workers (fun _ => false) work items) := by
  obtain ⟨final, hidle, hsteps⟩ := exists_all_idle work false []
    ((runs (shareSize items.length workers) items.zipIdx).map .fresh)
  have hcompletes : Completes work workers items false false (final.flatMap (Worker.results work)) :=
    ⟨final, hsteps, hidle, rfl⟩
  exact hcompletes.eq_workAll ▸ hcompletes

end Concord.Batch
