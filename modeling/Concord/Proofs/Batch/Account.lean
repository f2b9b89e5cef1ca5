/-
The accounts of a batch. Every step that takes an outcome into a result keeps its counts
true to its lists (`Balanced`) and adds to them what the outcome is (`Adds`); so does the
whole run. With one outcome for each file and for each unit the accounts add up however
the run went, what was lost in it and when it was called off (`run_accounts`).
-/
import Concord.Proofs.Batch.Execution
import Concord.Proofs.Pattern.Usage
import Mathlib.Data.List.Dedup

namespace Concord.Batch

/-! ## Counts that are true to their lists -/

namespace Result

/-- The counts of a result say what its lists hold. -/
structure Balanced (r : Result) : Prop where
  succeeded : r.succeeded = r.specifications.length + r.plans.length
  failed : ∀ category, r.failed category =
    r.problems.countP (·.failure.category == category)
  counts : ∀ t, r.usage.counts t = r.specifications.countP (·.tags.has t)
  entities : ∀ t name, name ∈ (r.usage.entities t).names ↔
    ∃ s ∈ r.specifications, s.tags.has t = true ∧ s.qualifiedName = name

theorem balanced_empty (files : Nat) : Balanced { files } where
  succeeded := rfl
  failed _ := rfl
  counts _ := rfl
  entities := by simp [Pattern.Usage.empty, NameSet.empty]

theorem Balanced.fail {r : Result} (h : r.Balanced) (p : Problem) : (r.fail p).Balanced where
  succeeded := h.succeeded
  failed category := by
    simp only [Result.fail, countFailure, List.countP_append, List.countP_cons, List.countP_nil,
      ← h.failed category]
    by_cases hc : category = p.failure.category
    · simp [hc]
    · have hne : (p.failure.category == category) = false := beq_eq_false_iff_ne.2 (Ne.symm hc)
      simp [hc, hne]
  counts := h.counts
  entities := h.entities

theorem Balanced.skip {r : Result} (h : r.Balanced) : r.skip.Balanced :=
  ⟨h.succeeded, h.failed, h.counts, h.entities⟩

theorem Balanced.add {r : Result} (h : r.Balanced) (p : Product) : (r.add p).Balanced := by
  cases p with
  | plan p =>
    refine ⟨?_, h.failed, h.counts, h.entities⟩
    simp only [Result.add, List.length_append, List.length_singleton, h.succeeded]
    omega
  | specification s =>
    refine ⟨?_, h.failed, fun t => ?_, fun t name => ?_⟩
    · simp only [Result.add, List.length_append, List.length_singleton, h.succeeded]
      omega
    · simp only [Result.add, Pattern.Usage.counts_applyAll, Pattern.countP_eventsOf, h.counts,
        List.countP_append, List.countP_singleton]
    · simp only [Result.add, Pattern.Usage.mem_entities_applyAll, h.entities, List.mem_append,
        List.mem_singleton, Pattern.mem_eventsOf]
      constructor
      · rintro (⟨u, hu, htag, hname⟩ | ⟨e, ⟨htag, hentity⟩, rfl, rfl⟩)
        · exact ⟨u, .inl hu, htag, hname⟩
        · exact ⟨s, .inr rfl, htag, hentity.symm⟩
      · rintro ⟨u, hu | rfl, htag, rfl⟩
        · exact .inl ⟨u, hu, htag, rfl⟩
        · exact .inr ⟨⟨t, u.qualifiedName⟩, ⟨htag, rfl⟩, rfl, rfl⟩

theorem Balanced.noteRead {r : Result} (h : r.Balanced)
    (x : SourceFile × Option (Except Failure (List Source.Unit))) : (r.noteRead x).Balanced := by
  obtain ⟨file, outcome⟩ := x
  match outcome with
  | some (.ok _) => exact h
  | some (.error failure) => exact h.fail _
  | none => exact h.skip

theorem Balanced.noteMap {r : Result} (h : r.Balanced)
    (x : (String × Source.Unit) × Option (Except Failure Product)) : (r.noteMap x).Balanced := by
  obtain ⟨⟨path, u⟩, outcome⟩ := x
  match outcome with
  | some (.ok product) => exact h.add product
  | some (.error failure) => exact h.fail _
  | none => exact h.skip

/-- What a result has more than another. -/
structure Adds (r s : Result) (problems : List Problem) (succeeded skipped : Nat) : Prop where
  problems : s.problems = r.problems ++ problems
  succeeded : s.succeeded = r.succeeded + succeeded
  skipped : s.skipped = r.skipped + skipped
  files : s.files = r.files

theorem Adds.refl (r : Result) : Adds r r [] 0 0 := ⟨by simp, rfl, rfl, rfl⟩

theorem Adds.trans {r s t : Result} {ps qs : List Problem} {a b m n : Nat} (h : Adds r s ps a m)
    (h' : Adds s t qs b n) : Adds r t (ps ++ qs) (a + b) (m + n) where
  problems := by rw [h'.problems, h.problems, List.append_assoc]
  succeeded := by rw [h'.succeeded, h.succeeded, Nat.add_assoc]
  skipped := by rw [h'.skipped, h.skipped, Nat.add_assoc]
  files := h'.files.trans h.files

theorem adds_fail (r : Result) (p : Problem) : Adds r (r.fail p) [p] 0 0 := ⟨rfl, rfl, rfl, rfl⟩

theorem adds_skip (r : Result) : Adds r r.skip [] 0 1 := ⟨by simp [skip], rfl, rfl, rfl⟩

theorem adds_add (r : Result) (p : Product) : Adds r (r.add p) [] 1 0 := by
  cases p <;> exact ⟨by simp [add], rfl, rfl, rfl⟩

end Result

/-! ## Outcomes -/

section Outcomes

variable {α β : Type}

/-- What was done, with the item it was done for. -/
def finished (outcomes : List (α × Option (Except Failure β))) : List (α × β) :=
  outcomes.filterMap fun
    | (x, some (.ok b)) => some (x, b)
    | _ => none

/-- The problems of the items that failed. -/
def failures (problem : α → Failure → Problem) (outcomes : List (α × Option (Except Failure β))) :
    List Problem :=
  outcomes.filterMap fun
    | (x, some (.error failure)) => some (problem x failure)
    | _ => none

/-- The number of items that were left alone or lost. -/
def left (outcomes : List (α × Option (Except Failure β))) : Nat := outcomes.countP (·.2.isNone)

/-- Every item was done, failed or was left. -/
theorem length_outcomes (problem : α → Failure → Problem)
    (outcomes : List (α × Option (Except Failure β))) :
    outcomes.length =
      (finished outcomes).length + (failures problem outcomes).length + left outcomes := by
  induction outcomes with
  | nil => rfl
  | cons x rest ih =>
    obtain ⟨a, outcome⟩ := x
    simp only [finished, failures, left] at ih ⊢
    rcases outcome with _ | failure | b <;> simp <;> omega

/-- Where something is left, some outcome is missing. -/
theorem none_mem_of_left {items : List α} {outcomes : List (Option (Except Failure β))}
    (h : 0 < left (items.zip outcomes)) : none ∈ outcomes := by
  obtain ⟨x, hx, hnone⟩ := List.countP_pos_iff.1 h
  rw [← Option.isNone_iff_eq_none.1 hnone]
  exact (List.of_mem_zip hx).2

end Outcomes

/-- The problem of a file that cannot be read. -/
def readProblem (f : SourceFile) (failure : Failure) : Problem := .of f.path none failure

/-- The problem of a unit that cannot be mapped. -/
def mapProblem (u : String × Source.Unit) (failure : Failure) : Problem :=
  .of u.1 (some u.2.name) failure

namespace Result

section Taking

variable {α β : Type} (note : Result → α × Option (Except Failure β) → Result)

/-- What outcomes add to a result when they are taken into it one after the other, if each that was
done adds `gain` to the successes. -/
theorem adds_foldl (problem : α → Failure → Problem) (gain : Nat)
    (hdone : ∀ r x b, Adds r (note r (x, some (.ok b))) [] gain 0)
    (hfailed : ∀ r x failure, Adds r (note r (x, some (.error failure))) [problem x failure] 0 0)
    (hleft : ∀ r x, Adds r (note r (x, none)) [] 0 1)
    (outcomes : List (α × Option (Except Failure β))) (r : Result) :
    Adds r (outcomes.foldl note r) (failures problem outcomes)
      (gain * (finished outcomes).length) (left outcomes) := by
  induction outcomes generalizing r with
  | nil => exact .refl r
  | cons x rest ih =>
    obtain ⟨a, outcome⟩ := x
    rcases outcome with _ | failure | b
    · have h := (hleft r a).trans (ih (note r (a, none)))
      rw [Nat.zero_add, Nat.add_comm] at h
      simpa [failures, finished, left] using h
    · have h := (hfailed r a failure).trans (ih (note r (a, some (.error failure))))
      rw [Nat.zero_add, Nat.zero_add] at h
      simpa [failures, finished, left] using h
    · have h := (hdone r a b).trans (ih (note r (a, some (.ok b))))
      rw [Nat.zero_add, Nat.add_comm, ← Nat.mul_succ] at h
      simpa [failures, finished, left] using h

theorem balanced_foldl (hnote : ∀ {r : Result}, r.Balanced → ∀ x, (note r x).Balanced)
    (outcomes : List (α × Option (Except Failure β))) {r : Result} (h : r.Balanced) :
    (outcomes.foldl note r).Balanced := by
  induction outcomes generalizing r with
  | nil => exact h
  | cons x rest ih => exact ih (hnote h x)

end Taking

theorem adds_noteReads (outcomes : List (SourceFile × Option (Except Failure (List Source.Unit))))
    (r : Result) :
    Adds r (outcomes.foldl noteRead r) (failures readProblem outcomes) 0 (left outcomes) := by
  have h := adds_foldl noteRead readProblem 0 (fun r _ _ => .refl r)
    (fun r x failure => adds_fail r (readProblem x failure)) (fun r _ => adds_skip r) outcomes r
  rwa [Nat.zero_mul] at h

theorem adds_noteMaps
    (outcomes : List ((String × Source.Unit) × Option (Except Failure Product))) (r : Result) :
    Adds r (outcomes.foldl noteMap r) (failures mapProblem outcomes) (finished outcomes).length
      (left outcomes) := by
  have h := adds_foldl noteMap mapProblem 1 (fun r _ p => adds_add r p)
    (fun r x failure => adds_fail r (mapProblem x failure)) (fun r _ => adds_skip r) outcomes r
  rwa [Nat.one_mul] at h

/-- Counting the failures of some problems changes nothing else. -/
theorem foldl_countFailure (problems : List Problem) (r : Result) :
    problems.foldl (fun r p => r.countFailure p.failure.category) r =
      { r with
        failed := fun category =>
          r.failed category + problems.countP (·.failure.category == category) } := by
  induction problems generalizing r with
  | nil => rfl
  | cons p problems ih =>
    rw [List.foldl_cons, ih]
    simp only [countFailure, List.countP_cons]
    congr 1
    funext category
    by_cases h : category = p.failure.category
    · simp [h]
      omega
    · have hne : (p.failure.category == category) = false := beq_eq_false_iff_ne.2 (Ne.symm h)
      simp [h, hne]

end Result

/-! ## Accounts of a run -/

/-- The files of a run with what came of reading them. -/
def readLog (stages : Stages) (c : Conditions) (given : List SourceFile) :
    List (SourceFile × Option (Except Failure (List Source.Unit))) :=
  (distinctFiles given).zip (readOutcomes stages c given)

/-- The units of a run with what came of mapping them. -/
def mapLog (stages : Stages) (c : Conditions) (given : List SourceFile) :
    List ((String × Source.Unit) × Option (Except Failure Product)) :=
  (unitsOf stages c given).zip (mapOutcomes stages c given)

theorem length_distinctFiles (given : List SourceFile) :
    (distinctFiles given).length = (given.map SourceFile.path).dedup.length := by
  have hkeys : ((KeyMap.ofList (given.map fileEntry)).members.map Prod.fst).Perm
      (given.map SourceFile.path).dedup := by
    refine (List.perm_ext_iff_of_nodup (KeyMap.nodup_keys _) (List.nodup_dedup _)).2 fun path => ?_
    rw [KeyMap.mem_keys_ofList, List.map_map, List.mem_dedup]
    rfl
  have hlength := hkeys.length_eq
  rw [List.length_map] at hlength
  rw [distinctFiles_eq, List.length_map, hlength]

/-- The units of a run are those of the files that were read. -/
theorem map_snd_unitsOf (stages : Stages) (c : Conditions) (given : List SourceFile) :
    (unitsOf stages c given).map Prod.snd = (finished (readLog stages c given)).flatMap Prod.snd := by
  have hlog : unitsOf stages c given = (readLog stages c given).flatMap readUnits := rfl
  rw [hlog]
  generalize readLog stages c given = log
  induction log with
  | nil => rfl
  | cons x rest ih =>
    obtain ⟨file, outcome⟩ := x
    rw [List.flatMap_cons, List.map_append, ih]
    rcases outcome with _ | failure | units
    · rfl
    · rfl
    · simp [readUnits, finished, Function.comp_def]

/-- Where nothing is lost, only a call to stop leaves something. -/
theorem exists_stop_of_none {α β : Type} {stops : Nat → Bool} {work : α → Option β} {items : List α}
    {workers : Nat} (h : Lossless stops work items) (hnone : none ∈ workAll workers stops work items) :
    ∃ i, stops i = true := by
  rw [workAll_of_lossless workers h] at hnone
  obtain ⟨x, hx, hwork⟩ := List.mem_map.1 hnone
  refine ⟨x.2, ?_⟩
  by_contra hgo
  have hgo : stops x.2 = false := by simpa using hgo
  rw [workOne, if_neg (by simp [hgo])] at hwork
  exact h x hx hgo hwork

/-- The accounts of a run over files, after problems that were met before it. -/
structure Accounts (stages : Stages) (c : Conditions) (given : List SourceFile)
    (before : List Problem) (r : Result) : Prop extends r.Balanced where
  /-- The problems are those met before, those of files and those of units. -/
  problems : r.problems = before ++ failures readProblem (readLog stages c given) ++
    failures mapProblem (mapLog stages c given)
  /-- Every path was read, failed or was left. -/
  files : (given.map SourceFile.path).dedup.length =
    (finished (readLog stages c given)).length +
      (failures readProblem (readLog stages c given)).length + left (readLog stages c given)
  /-- Every unit of the files that were read was mapped, failed or was left. -/
  units : ((finished (readLog stages c given)).flatMap Prod.snd).length =
    r.succeeded + (failures mapProblem (mapLog stages c given)).length +
      left (mapLog stages c given)
  skipped : r.skipped = left (readLog stages c given) + left (mapLog stages c given)
  /-- If nothing is lost, something is left only where the run is called off. -/
  cancelled : c.Lasting → Undisturbed stages c given → 0 < r.skipped → r.cancelled = true

theorem length_readLog (stages : Stages) (c : Conditions) (given : List SourceFile) :
    (readLog stages c given).length = (distinctFiles given).length := by
  simp [readLog, readOutcomes]

theorem length_mapLog (stages : Stages) (c : Conditions) (given : List SourceFile) :
    (mapLog stages c given).length = (unitsOf stages c given).length := by
  simp [mapLog, mapOutcomes]

theorem runFiles_accounts (stages : Stages) (c : Conditions) (given : List SourceFile) :
    Accounts stages c given [] (runFiles stages c given) := by
  have hreads := Result.adds_noteReads (readLog stages c given)
    { files := (distinctFiles given).length }
  have hadds := hreads.trans (Result.adds_noteMaps (mapLog stages c given) _)
  have hbalanced := Result.balanced_foldl _ Result.Balanced.noteMap (mapLog stages c given)
    (Result.balanced_foldl _ Result.Balanced.noteRead (readLog stages c given)
      (Result.balanced_empty (distinctFiles given).length))
  have hskipped : (runFiles stages c given).skipped =
      left (readLog stages c given) + left (mapLog stages c given) :=
    hadds.skipped.trans (Nat.zero_add _)
  have hsucceeded : (runFiles stages c given).succeeded = (finished (mapLog stages c given)).length :=
    hadds.succeeded.trans (by rw [Nat.zero_add]; exact Nat.zero_add _)
  refine ⟨⟨hbalanced.succeeded, hbalanced.failed, hbalanced.counts, hbalanced.entities⟩,
    hadds.problems, ?_, ?_, hskipped, ?_⟩
  · rw [← length_distinctFiles, ← length_readLog stages c, ← length_outcomes]
  · rw [← map_snd_unitsOf, List.length_map, ← length_mapLog, hsucceeded, ← length_outcomes]
  · intro hlasting hundisturbed hpos
    rw [hskipped] at hpos
    show c.stopped = true
    rcases Nat.eq_zero_or_pos (left (readLog stages c given)) with hzero | hread
    · have hmap : 0 < left (mapLog stages c given) := by omega
      obtain ⟨i, hi⟩ := exists_stop_of_none hundisturbed.map (none_mem_of_left hmap)
      exact hlasting.end_of_unit i hi
    · obtain ⟨i, hi⟩ := exists_stop_of_none hundisturbed.read (none_mem_of_left hread)
      exact hlasting.end_of_file i hi

/-- Problems that were met before a run come first in its accounts. -/
theorem Accounts.walked {stages : Stages} {c : Conditions} {given : List SourceFile} {r : Result}
    (h : Accounts stages c given [] r) (problems : List Problem) :
    Accounts stages c given problems
      { problems.foldl (fun r p => r.countFailure p.failure.category) r with
        problems := problems ++ r.problems } := by
  rw [Result.foldl_countFailure]
  refine ⟨⟨h.succeeded, fun category => ?_, h.counts, h.entities⟩, ?_, h.files, h.units, h.skipped,
    h.cancelled⟩
  · simp only [List.countP_append, h.failed category]
    omega
  · simp only [h.problems, List.nil_append, List.append_assoc]

/-- **The accounts of a batch add up on every run**, over files or over what is found under some roots,
whatever is lost on the way and whenever the run is called off. -/
theorem run_accounts (stages : Stages) (c : Conditions) :
    (∀ given, Accounts stages c given [] (runFiles stages c given)) ∧
    ∀ (walk : String → Except Failure Walk) (roots : List String),
      Accounts stages c (roots.flatMap fun root => walkSources (walk root))
        (roots.flatMap fun root => walkProblems root (walk root)) (runPaths stages c walk roots) := by
  refine ⟨runFiles_accounts stages c, fun walk roots => ?_⟩
  exact (runFiles_accounts stages c _).walked _

/-- A run that is called off while the first file is read. -/
def interrupted : Conditions := ⟨2, fun i => 0 < i, fun _ => true, true⟩

theorem lasting_interrupted : interrupted.Lasting := ⟨fun _ _ _ => rfl, fun _ _ => rfl, fun _ _ => rfl⟩

theorem run_accounts_interrupted :
    (runFiles (.ofRegistry .builtIn) interrupted leads).skipped = 2 ∧
      (runFiles (.ofRegistry .builtIn) interrupted leads).cancelled = true := by
  have haccounts := (run_accounts (.ofRegistry .builtIn) interrupted).1 leads
  have hundisturbed : Undisturbed (.ofRegistry .builtIn) interrupted leads :=
    undisturbed_ofRegistry _ (by decide +kernel)
  have hskipped : (runFiles (.ofRegistry .builtIn) interrupted leads).skipped = 2 := by
    decide +kernel
  exact ⟨hskipped, haccounts.cancelled lasting_interrupted hundisturbed (by omega)⟩

end Concord.Batch
