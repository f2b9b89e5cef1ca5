/-
How far a failure reaches. A file that cannot be read is one problem of the batch and costs
no other file anything. A file whose reader is lost takes the whole share of its worker
with it: none of the files in that share leaves a trace but the count of what was skipped
(`executes_isolates`). Which neighbours that are depends on the number of workers
(`neighbour_lost`).
-/
import Concord.Proofs.Batch.Account

namespace Concord.Batch

/-! ## Shares -/

section Shares

variable {α β γ : Type}

theorem runsWithin_map (f : α → γ) (size fuel : Nat) (items : List α) :
    runsWithin size fuel (items.map f) = (runsWithin size fuel items).map (List.map f) := by
  induction fuel generalizing items with
  | zero => cases items <;> rfl
  | succ fuel ih =>
    cases items with
    | nil => rfl
    | cons item items =>
      have hdrop := ih ((item :: items).drop size)
      rw [List.map_drop] at hdrop
      simp only [List.map_cons, runsWithin, ← hdrop, List.map_take]

theorem map_fst_runs_zipIdx (workers : Nat) (items : List α) :
    (runs (shareSize items.length workers) items.zipIdx).map (List.map Prod.fst) =
      shares workers items := by
  have hfst : items.zipIdx.map Prod.fst = items := List.zipIdx_map_fst 0 items
  have hmap := runsWithin_map Prod.fst (shareSize items.length workers) items.length items.zipIdx
  rw [hfst] at hmap
  rw [runs, List.length_zipIdx, ← hmap]
  rfl

/-- Whether work on some item of a share is lost. -/
def isHurt (work : α → Option β) (share : List α) : Bool := share.any fun x => (work x).isNone

/-- The items whose worker loses nothing. -/
def spared (work : α → Option β) (workers : Nat) (items : List α) : List α :=
  ((shares workers items).filter fun share => !isHurt work share).flatten

/-- The items of the workers that lose something. -/
def lost (work : α → Option β) (workers : Nat) (items : List α) : List α :=
  ((shares workers items).filter (isHurt work)).flatten

/-- Every item is spared or lost. -/
theorem spared_append_lost_perm (work : α → Option β) (workers : Nat) (items : List α) :
    (spared work workers items ++ lost work workers items).Perm items := by
  have hperm := (List.filter_append_perm (isHurt work) (shares workers items)).flatten
  rw [List.flatten_append, flatten_shares] at hperm
  exact List.perm_append_comm.trans hperm

/-- Nothing is lost with others where no work is lost. -/
theorem lost_eq_nil {work : α → Option β} {items : List α} (h : ∀ x ∈ items, work x ≠ none)
    (workers : Nat) : lost work workers items = [] := by
  have hnone : (shares workers items).filter (isHurt work) = [] := by
    refine List.filter_eq_nil_iff.2 fun share hshare hhurt => ?_
    obtain ⟨x, hx, hlost⟩ := List.any_eq_true.1 hhurt
    refine h x ?_ (Option.isNone_iff_eq_none.1 hlost)
    rw [← flatten_shares workers items]
    exact List.mem_flatten.2 ⟨share, hshare, hx⟩
  rw [lost, hnone, List.flatten_nil]

/-- What becomes of an item in its share. -/
def fate (work : α → Option β) (share : List α) (x : α) : α × Option β :=
  (x, if isHurt work share then none else work x)

theorem fate_hurt {work : α → Option β} {share : List α} (h : isHurt work share = true) :
    fate work share = fun x => (x, none) := by
  funext x
  simp [fate, h]

theorem fate_unhurt {work : α → Option β} {share : List α} (h : isHurt work share = false) :
    fate work share = fun x => (x, work x) := by
  funext x
  simp [fate, h]

/-- What becomes of all items. -/
def fates (work : α → Option β) (workers : Nat) (items : List α) : List (α × Option β) :=
  (shares workers items).flatMap fun share => share.map (fate work share)

theorem workRun_steady (work : α → Option β) (run : List (α × Nat)) :
    workRun (fun _ => false) work run =
      (run.map Prod.fst).map fun x => (fate work (run.map Prod.fst) x).2 := by
  have hany : isHurt work (run.map Prod.fst) =
      run.any fun x => !false && (work x.1).isNone := by
    simp [isHurt, List.any_map, Function.comp_def]
  simp only [workRun, fate, hany, List.map_map]
  split <;> rfl

theorem zip_workAll_steady (work : α → Option β) (workers : Nat) (items : List α) :
    items.zip (workAll workers (fun _ => false) work items) = fates work workers items := by
  refine (List.zip_of_prod ?_ ?_).symm
  · rw [fates, List.map_flatMap]
    refine (congrArg List.flatten (?_ : List.map _ _ = _)).trans (flatten_shares workers items)
    refine (List.map_congr_left fun share _ => ?_).trans (List.map_id _)
    rw [List.map_map]
    exact List.map_id share
  · rw [fates, workAll, List.map_flatMap, ← map_fst_runs_zipIdx, List.flatMap_map]
    refine congrArg List.flatten (List.map_congr_left fun run _ => ?_)
    rw [workRun_steady, List.map_map]
    rfl

/-- Whatever is taken from the fates of the items is taken from those that are spared. -/
theorem flatMap_fates (work : α → Option β) (workers : Nat) (items : List α)
    (take : α × Option β → List γ) (hnone : ∀ x, take (x, none) = []) :
    (fates work workers items).flatMap take =
      ((spared work workers items).map fun x => (x, work x)).flatMap take := by
  rw [fates, spared]
  induction shares workers items with
  | nil => rfl
  | cons share rest ih =>
    rw [List.flatMap_cons, List.flatMap_append, ih]
    cases hhurt : isHurt work share with
    | true => simp [fate_hurt hhurt, hhurt, hnone]
    | false => simp [fate_unhurt hhurt, hhurt]

theorem filterMap_fates (work : α → Option β) (workers : Nat) (items : List α)
    (take : α × Option β → Option γ) (hnone : ∀ x, take (x, none) = none) :
    (fates work workers items).filterMap take =
      ((spared work workers items).map fun x => (x, work x)).filterMap take := by
  simp only [List.filterMap_eq_flatMap_toList]
  exact flatMap_fates work workers items _ fun x => by rw [hnone]; rfl

theorem left_fates (work : α → Option (Except Failure β)) (workers : Nat) (items : List α) :
    left (fates work workers items) = (lost work workers items).length := by
  rw [left, fates, lost]
  induction shares workers items with
  | nil => rfl
  | cons share rest ih =>
    rw [List.flatMap_cons, List.countP_append, ih]
    cases hhurt : isHurt work share with
    | true => simp [fate_hurt hhurt, hhurt, List.countP_map, Function.comp_def]
    | false =>
      have hnone : share.countP (fun x => (work x).isNone) = 0 :=
        List.countP_eq_zero.2 (List.any_eq_false.1 hhurt)
      simp [fate_unhurt hhurt, hhurt, List.countP_map, Function.comp_def, hnone]

end Shares

/-! ## What files leave behind -/

namespace Product

def specification? : Product → Option Specification
  | .specification s => some s
  | .plan _ => none

def plan? : Product → Option Plan
  | .specification _ => none
  | .plan p => some p

end Product

namespace Result

/-- What is added to a part of a result step by step is added to it in the end. -/
theorem foldl_part {α γ : Type} {note : Result → α → Result} {part : Result → List γ}
    {gain : α → List γ} (h : ∀ r x, part (note r x) = part r ++ gain x) (xs : List α) (r : Result) :
    part (xs.foldl note r) = part r ++ xs.flatMap gain := by
  induction xs generalizing r with
  | nil => simp
  | cons x xs ih => rw [List.foldl_cons, ih, h, List.append_assoc, List.flatMap_cons]

end Result

/-- What reading gives for a file on its own; `none` where the reader is lost. -/
abbrev readAlone (registry : Source.Registry) (f : SourceFile) :
    Option (Except Failure (List Source.Unit)) := (Stages.ofRegistry registry).read f

/-- The units of some files that are read one by one. -/
def unitsAlone (registry : Source.Registry) (files : List SourceFile) : List (String × Source.Unit) :=
  files.flatMap fun f => readUnits (f, readAlone registry f)

/-- The units of some files, each with what it is mapped to. -/
def mappings (registry : Source.Registry) (files : List SourceFile) :
    List ((String × Source.Unit) × Except Failure Product) :=
  (unitsAlone registry files).map fun u =>
    (u, Stages.mapUnit (catalogOf (unitsAlone registry files)) u.2)

/-- The result of a batch holds what the spared files leave behind, and of the lost ones nothing but
their number. -/
structure Isolates (registry : Source.Registry) (spared lost : List SourceFile) (r : Result) :
    Prop where
  /-- Every unit of a file that can be read ends as a specification, as a plan or as a problem. -/
  specifications : r.specifications = (mappings registry spared).filterMap fun m =>
    m.2.toOption.bind Product.specification?
  plans : r.plans = (mappings registry spared).filterMap fun m => m.2.toOption.bind Product.plan?
  /-- A file that cannot be read is one problem, and so is a unit that cannot be mapped. -/
  problems : r.problems =
    failures readProblem (spared.map fun f => (f, readAlone registry f)) ++
      failures mapProblem ((mappings registry spared).map fun m => (m.1, some m.2))
  skipped : r.skipped = lost.length

theorem unitsOf_eq_unitsAlone (registry : Source.Registry) (workers : Nat) (given : List SourceFile) :
    unitsOf (.ofRegistry registry) (.steady workers) given =
      unitsAlone registry (spared (readAlone registry) workers (distinctFiles given)) := by
  have hlog : unitsOf (.ofRegistry registry) (.steady workers) given =
      ((distinctFiles given).zip (workAll workers (fun _ => false) (readAlone registry)
        (distinctFiles given))).flatMap readUnits := rfl
  rw [hlog, zip_workAll_steady, flatMap_fates _ _ _ _ fun _ => rfl, List.flatMap_map]
  rfl

theorem readLog_steady (registry : Source.Registry) (workers : Nat) (given : List SourceFile) :
    readLog (.ofRegistry registry) (.steady workers) given =
      fates (readAlone registry) workers (distinctFiles given) :=
  zip_workAll_steady (readAlone registry) workers (distinctFiles given)

/-- No unit is lost while it is mapped, so each is mapped as it would be alone. -/
theorem mapLog_steady (registry : Source.Registry) (workers : Nat) (given : List SourceFile) :
    mapLog (.ofRegistry registry) (.steady workers) given =
      (mappings registry (spared (readAlone registry) workers (distinctFiles given))).map
        fun m => (m.1, some m.2) := by
  have hlossless : Lossless (fun _ => false)
      (mapOf (.ofRegistry registry) (unitsOf (.ofRegistry registry) (.steady workers) given))
      (unitsOf (.ofRegistry registry) (.steady workers) given) :=
    fun _ _ _ => Option.some_ne_none _
  have hmaps : mapOutcomes (.ofRegistry registry) (.steady workers) given =
      (unitsOf (.ofRegistry registry) (.steady workers) given).map
        (mapOf (.ofRegistry registry) (unitsOf (.ofRegistry registry) (.steady workers) given)) :=
    workAll_steady hlossless workers
  rw [mapLog, hmaps, unitsOf_eq_unitsAlone, mappings, List.map_map]
  refine (List.zip_of_prod ?_ ?_).symm
  · rw [List.map_map]
    exact List.map_id _
  · rw [List.map_map]
    rfl

/-- The products of one kind that a batch holds, if only mapping adds them. -/
theorem part_runFiles {γ : Type} (part : Result → List γ) (kind : Product → Option γ)
    (hread : ∀ r x, part (r.noteRead x) = part r)
    (hmap : ∀ r x, part (r.noteMap x) = part r ++ ((x.2.bind Except.toOption).bind kind).toList)
    (hempty : ∀ files, part { files } = []) (registry : Source.Registry) (workers : Nat)
    (given : List SourceFile) :
    part ((mapLog (.ofRegistry registry) (.steady workers) given).foldl Result.noteMap
        ((readLog (.ofRegistry registry) (.steady workers) given).foldl Result.noteRead
          { files := (distinctFiles given).length })) =
      (mappings registry (spared (readAlone registry) workers (distinctFiles given))).filterMap
        fun m => m.2.toOption.bind kind := by
  have hnothing : ∀ r x, part (r.noteRead x) = part r ++ [] := fun r x => by
    rw [hread, List.append_nil]
  rw [Result.foldl_part hmap, Result.foldl_part hnothing, hempty, mapLog_steady, List.flatMap_map,
    List.filterMap_eq_flatMap_toList]
  simp

theorem runFiles_isolates (registry : Source.Registry) (workers : Nat) (given : List SourceFile) :
    Isolates registry (spared (readAlone registry) workers (distinctFiles given))
      (lost (readAlone registry) workers (distinctFiles given))
      (runFiles (.ofRegistry registry) (.steady workers) given) := by
  have haccounts := runFiles_accounts (.ofRegistry registry) (.steady workers) given
  refine ⟨part_runFiles Result.specifications Product.specification? ?_ ?_ (fun _ => rfl) _ _ _,
    part_runFiles Result.plans Product.plan? ?_ ?_ (fun _ => rfl) _ _ _, ?_, ?_⟩
  · rintro r ⟨f, _ | _ | _⟩ <;> rfl
  · rintro r ⟨⟨path, u⟩, _ | failure | (s | p)⟩ <;>
      simp [Result.noteMap, Result.add, Result.skip, Result.fail, Result.countFailure,
        Product.specification?, Except.toOption]
  · rintro r ⟨f, _ | _ | _⟩ <;> rfl
  · rintro r ⟨⟨path, u⟩, _ | failure | (s | p)⟩ <;>
      simp [Result.noteMap, Result.add, Result.skip, Result.fail, Result.countFailure,
        Product.plan?, Except.toOption]
  · rw [haccounts.problems, mapLog_steady, readLog_steady, List.nil_append]
    refine congrArg (· ++ _) ?_
    exact filterMap_fates _ _ _ _ fun _ => rfl
  · rw [haccounts.skipped, mapLog_steady, readLog_steady, left_fates]
    simp [left, List.countP_map, Function.comp_def]

/-! ## Isolation -/

theorem distinctFiles_perm_self {given : List SourceFile} (h : (given.map SourceFile.path).Nodup) :
    (distinctFiles given).Perm given := by
  have hkeys : ((given.map fileEntry).map Prod.fst).Nodup := by
    rw [List.map_map]
    exact h
  have hperm := (KeyMap.perm_ofList hkeys).map Prod.snd
  rw [List.map_map] at hperm
  exact hperm.trans (by rw [show Prod.snd ∘ fileEntry = id from rfl, List.map_id])

/-- **A bad file costs the batch only the files in the share of a worker that is lost with it.** Take
a batch over files with different paths that is not called off. Its files are the spared ones and
the lost ones, that is, those of the workers of which no reader or some reader is lost. The spared
ones leave behind what they would without the others: each unit of a file that can be read ends as
a specification, as a plan or as a problem, and a file that cannot be read is one problem. The lost
ones are skipped. Where no reader is lost there are none of them. -/
theorem executes_isolates (registry : Source.Registry) (workers : Nat) (given : List SourceFile)
    (hpaths : (given.map SourceFile.path).Nodup) (r : Result)
    (hexecutes : Executes (.ofRegistry registry) workers given r) (hsteady : r.cancelled = false) :
    (spared (readAlone registry) workers (distinctFiles given) ++
        lost (readAlone registry) workers (distinctFiles given)).Perm given ∧
      Isolates registry (spared (readAlone registry) workers (distinctFiles given))
        (lost (readAlone registry) workers (distinctFiles given)) r ∧
      ((∀ f ∈ given, readAlone registry f ≠ none) →
        lost (readAlone registry) workers (distinctFiles given) = []) := by
  have hfiles := distinctFiles_perm_self hpaths
  refine ⟨(spared_append_lost_perm _ _ _).trans hfiles, ?_, fun hnone => ?_⟩
  · rw [executes_iff_steady.1 ⟨hexecutes, hsteady⟩]
    exact runFiles_isolates registry workers given
  · exact lost_eq_nil (fun f hf => hnone f (hfiles.mem_iff.1 hf)) workers

/-- A file whose reader is lost, one that can be read and one that no reader takes. The last line of
the literal in the first begins with a blank of two bytes, and one byte is cut off. -/
def labels : List SourceFile := [
  ⟨"label.py", "class Label:\n    def text(self):\n        return '''a\n\u00a0b'''\n"⟩,
  ⟨"lead.py", "class Lead:\n    name: str\n"⟩,
  ⟨"notes.txt", "call back"⟩]

/-- Each of three workers takes one of the files, so that only the first is lost. -/
theorem executes_isolates_labels :
    (labels.map SourceFile.path).Nodup ∧
      (runFiles (.ofRegistry .builtIn) (.steady 3) labels).skipped = 1 ∧
      (runFiles (.ofRegistry .builtIn) (.steady 3) labels).problems.map Problem.path = ["notes.txt"] ∧
      (runFiles (.ofRegistry .builtIn) (.steady 3) labels).specifications.map
        Specification.entity = ["Lead"] := by
  have hpaths : (labels.map SourceFile.path).Nodup := by decide
  have hrun := executes_iff_steady.2 (rfl : runFiles (.ofRegistry .builtIn) (.steady 3) labels = _)
  obtain ⟨-, hisolates, -⟩ := executes_isolates .builtIn 3 labels hpaths _ hrun.1 hrun.2
  refine ⟨hpaths, ?_, ?_, ?_⟩
  · rw [hisolates.skipped]
    decide +kernel
  · rw [hisolates.problems]
    decide +kernel
  · rw [hisolates.specifications]
    decide +kernel

/-- Of two workers the first takes the lost file and its neighbour. The neighbour can be read alone,
and yet it leaves nothing behind; nor is there a problem for the file that is lost. -/
theorem neighbour_lost :
    (labels.map fun f => (readAlone .builtIn f).map Except.isOk) = [none, some true, some false] ∧
      (runFiles (.ofRegistry .builtIn) (.steady 2) labels).cancelled = false ∧
      (runFiles (.ofRegistry .builtIn) (.steady 2) labels).specifications.length = 0 ∧
      (runFiles (.ofRegistry .builtIn) (.steady 2) labels).plans.length = 0 ∧
      (runFiles (.ofRegistry .builtIn) (.steady 2) labels).problems.map Problem.path =
        ["notes.txt"] ∧
      (runFiles (.ofRegistry .builtIn) (.steady 2) labels).skipped = 2 := by
  decide +kernel

end Concord.Batch
