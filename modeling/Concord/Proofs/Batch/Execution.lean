/-
Executions of a batch. Reading the files and mapping their units are shared among workers,
one after the other, in any schedule; the rest is done by one alone. Every execution is
`runFiles` under conditions in which a call to stop is never taken back
(`Executes.exists_conditions`). One that is not called off and in which no work is lost
has only one result, whatever the schedule, the number of workers and the order of the files
(`executes_iff_runFiles`).
-/
import Concord.Batch.Run
import Concord.Proofs.Batch.Schedule
import Concord.Proofs.Order.KeyMap

namespace Concord.Batch

/-! ## The files of a batch -/

/-- A file under its path. -/
def fileEntry (f : SourceFile) : String × SourceFile := (f.path, f)

/-- Of several files with one path only the last. -/
def lastOfEach : List SourceFile → List SourceFile
  | [] => []
  | f :: rest =>
    if f.path ∈ rest.map SourceFile.path then lastOfEach rest else f :: lastOfEach rest

theorem distinctFiles_eq (files : List SourceFile) :
    distinctFiles files = (KeyMap.ofList (files.map fileEntry)).members.map Prod.snd := rfl

/-- The order in which files are given does not matter where their paths are different. -/
theorem distinctFiles_perm {files given : List SourceFile} (h : files.Perm given)
    (hpaths : (given.map SourceFile.path).Nodup) : distinctFiles files = distinctFiles given := by
  have hkeys : ((given.map fileEntry).map Prod.fst).Nodup := by
    rw [List.map_map]
    exact hpaths
  rw [distinctFiles_eq, distinctFiles_eq, KeyMap.ofList_perm hkeys (h.map _).symm]

theorem ofList_lastOfEach (files : List SourceFile) :
    KeyMap.ofList ((lastOfEach files).map fileEntry) =
      KeyMap.ofList (files.map fileEntry) := by
  induction files with
  | nil => rfl
  | cons f rest ih =>
    refine KeyMap.eq_of_get? fun path => ?_
    have hcons := KeyMap.get?_ofList_cons (fileEntry f) (rest.map fileEntry) path
    unfold lastOfEach
    split
    · rename_i hlater
      rw [ih, List.map_cons, hcons]
      split
      · rename_i hpath
        have hsome : ((KeyMap.ofList (rest.map fileEntry)).get? path).isSome = true := by
          rw [KeyMap.isSome_get?_ofList, List.map_map, hpath]
          exact hlater
        obtain ⟨g, hg⟩ := Option.isSome_iff_exists.1 hsome
        rw [hg]
        rfl
      · rw [Option.or_none]
    · rw [List.map_cons, List.map_cons, hcons, KeyMap.get?_ofList_cons, ih]

theorem distinctFiles_lastOfEach (files : List SourceFile) :
    distinctFiles (lastOfEach files) = distinctFiles files := by
  rw [distinctFiles_eq, distinctFiles_eq, ofList_lastOfEach]

/-! ## Executions -/

/-- The units of the files that were read, in the order of the files. -/
def unitsRead (given : List SourceFile) (reads : List (Option (Except Failure (List Source.Unit)))) :
    List (String × Source.Unit) := ((distinctFiles given).zip reads).flatMap readUnits

/-- What the outcomes of reading and of mapping add up to. -/
def Result.ofOutcomes (given : List SourceFile)
    (reads : List (Option (Except Failure (List Source.Unit))))
    (maps : List (Option (Except Failure Product))) (cancelled : Bool) : Result :=
  { ((unitsRead given reads).zip maps).foldl Result.noteMap
      (((distinctFiles given).zip reads).foldl Result.noteRead
        { files := (distinctFiles given).length }) with cancelled }

/-- The outcomes of reading the files of a batch. -/
def readOutcomes (stages : Stages) (c : Conditions) (given : List SourceFile) :
    List (Option (Except Failure (List Source.Unit))) :=
  workAll c.workers c.stopsFile stages.read (distinctFiles given)

/-- The units that a run finds in the files it reads. -/
def unitsOf (stages : Stages) (c : Conditions) (given : List SourceFile) :
    List (String × Source.Unit) := unitsRead given (readOutcomes stages c given)

/-- How a run maps a unit: against the catalog of all of them. -/
def mapOf (stages : Stages) (units : List (String × Source.Unit)) (u : String × Source.Unit) :
    Option (Except Failure Product) := stages.map (catalogOf units) u.2

/-- The outcomes of mapping the units of a batch. -/
def mapOutcomes (stages : Stages) (c : Conditions) (given : List SourceFile) :
    List (Option (Except Failure Product)) :=
  workAll c.workers c.stopsUnit (mapOf stages (unitsOf stages c given)) (unitsOf stages c given)

theorem runFiles_eq (stages : Stages) (c : Conditions) (given : List SourceFile) :
    runFiles stages c given =
      .ofOutcomes given (readOutcomes stages c given) (mapOutcomes stages c given) c.stopped := rfl

/-- Some execution of a batch over the given files ends with this result. Whether the batch was
called off is looked up at the very end. -/
inductive Executes (stages : Stages) (workers : Nat) (given : List SourceFile) : Result → Prop where
  | intro {first middle last cancelled : Bool}
      {reads : List (Option (Except Failure (List Source.Unit)))}
      {maps : List (Option (Except Failure Product))}
      (read : Completes stages.read workers (distinctFiles given) first middle reads)
      (map : Completes (mapOf stages (unitsRead given reads)) workers (unitsRead given reads)
        middle last maps)
      (ended : last = true → cancelled = true) :
      Executes stages workers given (.ofOutcomes given reads maps cancelled)

/-- An execution is a run under conditions in which a call to stop is not taken back. -/
theorem Executes.exists_conditions {stages : Stages} {workers : Nat} {given : List SourceFile}
    {r : Result} (h : Executes stages workers given r) :
    ∃ c : Conditions, c.workers = workers ∧ c.Lasting ∧ r = runFiles stages c given := by
  obtain ⟨hread, hmap, hended⟩ := h
  obtain ⟨stopsFile, rfl, hfile, -⟩ := hread.exists_stops
  obtain ⟨stopsUnit, rfl, hunit, hmiddle⟩ := hmap.exists_stops
  rename_i first middle last cancelled
  have hlast : ∀ i, stopsUnit i = true → cancelled = true := fun i hi => hended (hunit i hi)
  have hunits : ∀ i j, stopsFile i = true → stopsUnit j = true := fun i j hi =>
    hmiddle (hfile i hi) j
  refine ⟨⟨workers, stopsFile, stopsUnit, cancelled⟩, rfl, ⟨hunits, ?_, hlast⟩, rfl⟩
  exact fun i hi => hlast 0 (hunits i 0 hi)

/-- Conditions in which the call to stop never came are steady. -/
theorem Conditions.Lasting.eq_steady {c : Conditions} (h : c.Lasting) (hstopped : c.stopped = false) :
    c = .steady c.workers := by
  obtain ⟨workers, stopsFile, stopsUnit, stopped⟩ := c
  obtain rfl : stopped = false := hstopped
  have hfile : stopsFile = fun _ => false :=
    funext fun i => Bool.eq_false_iff.2 fun hi => Bool.false_ne_true (h.end_of_file i hi)
  have hunit : stopsUnit = fun _ => false :=
    funext fun i => Bool.eq_false_iff.2 fun hi => Bool.false_ne_true (h.end_of_unit i hi)
  rw [hfile, hunit]
  rfl

/-- The executions that are not called off have the result of a steady run. -/
theorem executes_iff_steady {stages : Stages} {workers : Nat} {given : List SourceFile} {r : Result} :
    Executes stages workers given r ∧ r.cancelled = false ↔
      r = runFiles stages (.steady workers) given := by
  constructor
  · rintro ⟨h, hcancelled⟩
    obtain ⟨c, rfl, hlasting, rfl⟩ := h.exists_conditions
    rw [← hlasting.eq_steady hcancelled]
  · rintro rfl
    refine ⟨?_, rfl⟩
    rw [runFiles_eq]
    exact .intro (completes_steady _ _ _) (completes_steady _ _ _) (by simp)

/-! ## Batches in which no work is lost -/

/-- Nothing that a run begins is lost: neither reading a file nor mapping a unit. -/
structure Undisturbed (stages : Stages) (c : Conditions) (given : List SourceFile) : Prop where
  read : Lossless c.stopsFile stages.read (distinctFiles given)
  map : Lossless c.stopsUnit (mapOf stages (unitsOf stages c given)) (unitsOf stages c given)

/-- Where nothing is lost, the number of workers does not matter. -/
theorem runFiles_steady {stages : Stages} {workers : Nat} {given : List SourceFile}
    (h : Undisturbed stages (.steady workers) given) (others : Nat) :
    runFiles stages (.steady others) given = runFiles stages (.steady workers) given := by
  have hread : readOutcomes stages (.steady others) given =
      readOutcomes stages (.steady workers) given := by
    unfold readOutcomes
    exact (workAll_steady h.read _).trans (workAll_steady h.read _).symm
  have hunits : unitsOf stages (.steady others) given = unitsOf stages (.steady workers) given := by
    rw [unitsOf, hread, unitsOf]
  have hmap : mapOutcomes stages (.steady others) given =
      mapOutcomes stages (.steady workers) given := by
    unfold mapOutcomes
    rw [hunits]
    exact (workAll_steady h.map _).trans (workAll_steady h.map _).symm
  rw [runFiles_eq, runFiles_eq, hread, hmap]
  rfl

/-- Batches with the same files by path have the same result. -/
theorem runFiles_congr {stages : Stages} {files given : List SourceFile}
    (h : distinctFiles files = distinctFiles given) (c : Conditions) :
    runFiles stages c files = runFiles stages c given := by
  simp only [runFiles, h]

/-- **A batch depends neither on scheduling nor on the order of its files.** Take a batch in which
no reader and no mapper is lost. Over files with different paths, in any order, the executions that
are not called off end with one result, that of a run with any number of workers; and over files of
which some have the same path, with the result of only the last of each path. -/
theorem executes_iff_runFiles (stages : Stages) (given : List SourceFile) (workers others : Nat)
    (hundisturbed : Undisturbed stages (.steady workers) given) (r : Result) :
    (∀ files : List SourceFile, (given.map SourceFile.path).Nodup → files.Perm given →
      (Executes stages workers files r ∧ r.cancelled = false ↔
        r = runFiles stages (.steady others) given)) ∧
    (Executes stages workers given r ∧ r.cancelled = false ↔
      r = runFiles stages (.steady others) (lastOfEach given)) := by
  have hworkers := runFiles_steady hundisturbed others
  constructor
  · intro files hpaths hperm
    rw [executes_iff_steady, runFiles_congr (distinctFiles_perm hperm hpaths), hworkers]
  · rw [executes_iff_steady, runFiles_congr (distinctFiles_lastOfEach given), hworkers]

/-- A path that comes twice, and a file that no reader takes. -/
def leads : List SourceFile := [
  ⟨"crm/lead.py", "class Lead:\n    name: str\n"⟩,
  ⟨"notes.txt", "call back"⟩,
  ⟨"crm/lead.py", "class Lead:\n    name: str\n    owner: str\n"⟩]

theorem undisturbed_ofRegistry {registry : Source.Registry} {given : List SourceFile}
    (c : Conditions)
    (h : ∀ f ∈ distinctFiles given, ((Stages.ofRegistry registry).read f).isSome = true) :
    Undisturbed (.ofRegistry registry) c given where
  read x hx _ := Option.isSome_iff_ne_none.1 (h x.1 (List.fst_mem_of_mem_zipIdx hx))
  map _ _ _ := Option.some_ne_none _

theorem executes_iff_runFiles_leads :
    (∀ r, Executes (.ofRegistry .builtIn) 2 leads.tail.reverse r ∧ r.cancelled = false ↔
      r = runFiles (.ofRegistry .builtIn) (.steady 3) leads.tail) ∧
    ∀ r, Executes (.ofRegistry .builtIn) 3 leads r ∧ r.cancelled = false ↔
      r = runFiles (.ofRegistry .builtIn) (.steady 1) (lastOfEach leads) := by
  have htail : Undisturbed (.ofRegistry .builtIn) (.steady 2) leads.tail :=
    undisturbed_ofRegistry _ (by decide +kernel)
  have hleads : Undisturbed (.ofRegistry .builtIn) (.steady 3) leads :=
    undisturbed_ofRegistry _ (by decide +kernel)
  refine ⟨fun r => ?_, fun r => (executes_iff_runFiles _ leads 3 1 hleads r).2⟩
  exact (executes_iff_runFiles _ leads.tail 2 3 htail r).1 _ (by decide) (List.reverse_perm _)

end Concord.Batch
