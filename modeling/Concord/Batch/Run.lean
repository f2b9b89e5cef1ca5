/-
A batch: all files are read, their entities make up one catalog, and every unit is
mapped against it. A file or unit that fails is a problem of the result and stops
nothing else.
-/
import Concord.Batch.Basic
import Concord.Batch.Work
import Concord.Mapping.Entity
import Concord.Scenario.Suite
import Concord.Source.Registry
import Concord.Walk

namespace Concord.Batch

/-- How files are read and units are mapped. Where nothing is given the work is lost. -/
structure Stages where
  read : SourceFile → Option (Except Failure (List Source.Unit))
  map : Catalog → Source.Unit → Option (Except Failure Product)

namespace Stages

/-- Maps an entity with its patterns, and a test module to its plan. -/
def mapUnit (catalog : Catalog) : Source.Unit → Except Failure Product
  | .entity e => (Mapping.specifyDetected catalog e).map .specification
  | .suite s => .ok (.plan (.ofSuite s))

/-- The stages with the readers of a registry. -/
def ofRegistry (registry : Source.Registry) : Stages where
  read file :=
    match registry.parsePath file.path file.content with
    | .ok units => some (.ok units)
    | .error fault => fault.failure?.map .error
  map catalog u := some (mapUnit catalog u)

end Stages

/-- How a batch happens to be run: among how many workers, which files and units come up after the
call to stop, and whether it has come in the end. -/
structure Conditions where
  workers : Nat := 1
  stopsFile : Nat → Bool := fun _ => false
  stopsUnit : Nat → Bool := fun _ => false
  stopped : Bool := false

namespace Conditions

/-- A run that is called off before it begins. -/
def calledOff (workers : Nat) : Conditions := ⟨workers, fun _ => true, fun _ => true, true⟩

/-- A run that is never called off. -/
def steady (workers : Nat) : Conditions := { workers }

/-- A call to stop is never taken back: once seen it is seen by everything that begins later. -/
structure Lasting (c : Conditions) : Prop where
  units_of_file : ∀ i j, c.stopsFile i → c.stopsUnit j
  end_of_file : ∀ i, c.stopsFile i → c.stopped
  end_of_unit : ∀ i, c.stopsUnit i → c.stopped

end Conditions

/-- The files by increasing path; of several with one path the last counts. -/
def distinctFiles (files : List SourceFile) : List SourceFile :=
  (KeyMap.sortMembers (files.map fun f => (f.path, f))).map Prod.snd

/-- Takes the outcome of reading a file into a result. -/
def Result.noteRead (r : Result) :
    SourceFile × Option (Except Failure (List Source.Unit)) → Result
  | (_, some (.ok _)) => r
  | (file, some (.error failure)) => r.fail (.of file.path none failure)
  | (_, none) => r.skip

/-- Takes the outcome of mapping a unit into a result. -/
def Result.noteMap (r : Result) :
    (String × Source.Unit) × Option (Except Failure Product) → Result
  | (_, some (.ok product)) => r.add product
  | ((path, u), some (.error failure)) => r.fail (.of path (some u.name) failure)
  | (_, none) => r.skip

/-- The units of a file that was read, each with the path of the file. -/
def readUnits : SourceFile × Option (Except Failure (List Source.Unit)) →
    List (String × Source.Unit)
  | (file, some (.ok units)) => units.map (file.path, ·)
  | _ => []

/-- The catalog of the entities among some units. -/
def catalogOf (units : List (String × Source.Unit)) : Catalog :=
  .ofNames ((units.filterMap (·.2.entity?)).map (·.name))

/-- Runs a batch over files. -/
def runFiles (stages : Stages) (c : Conditions) (given : List SourceFile) : Result :=
  let files := distinctFiles given
  let reads := files.zip (workAll c.workers c.stopsFile stages.read files)
  let units := reads.flatMap readUnits
  let maps := units.zip (workAll c.workers c.stopsUnit (stages.map (catalogOf units) ·.2) units)
  let read := reads.foldl Result.noteRead { files := files.length }
  { maps.foldl Result.noteMap read with cancelled := c.stopped }

/-- The problems of walking one root: a root that cannot be walked, or entries below it. -/
def walkProblems (root : String) : Except Failure Walk → List Problem
  | .ok walk => walk.failures.map fun f => .of f.1 none f.2
  | .error failure => [.of root none failure]

/-- The sources that walking one root found. -/
def walkSources : Except Failure Walk → List SourceFile
  | .ok walk => walk.sources
  | .error _ => []

/-- Runs a batch over what is found under some roots. The problems of walking come first. -/
def runPaths (stages : Stages) (c : Conditions) (walk : String → Except Failure Walk)
    (roots : List String) : Result :=
  let problems := roots.flatMap fun root => walkProblems root (walk root)
  let ran := runFiles stages c (roots.flatMap fun root => walkSources (walk root))
  let counted := problems.foldl (fun r p => r.countFailure p.failure.category) ran
  { counted with problems := problems ++ ran.problems }

end Concord.Batch
