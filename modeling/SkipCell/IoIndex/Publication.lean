import SkipCell.Foundation.Directory
import SkipCell.IoIndex.LaidOut

/-! # Publishing the artifacts

A build writes the vector and topology files under temporary names, and then puts them,
one after the other, in the place of the files of an earlier build. Every step on the
file system can fail, and the process can end at any of them.
-/

namespace SkipCell.IoIndex

open Foundation Sidecar

structure BuildPaths where
  disk : String
  vector : String
  topology : String

namespace BuildPaths

variable (paths : BuildPaths)

def temporaryVector : String := paths.vector ++ ".tmp"

def temporaryTopology : String := paths.topology ++ ".tmp"

def temporaryRawVectors : String := paths.vector ++ ".raw_vectors.tmp"

/-- The names that only a build uses. -/
def temporaries : List String :=
  [paths.temporaryVector, paths.temporaryTopology, paths.temporaryRawVectors]

/-- Neither artifact has the name of a temporary file. -/
def Apart : Prop := paths.vector ∉ paths.temporaries ∧ paths.topology ∉ paths.temporaries

instance : Decidable paths.Apart := inferInstanceAs (Decidable (_ ∧ _))

end BuildPaths

inductive BuildStep
  | checkInput
  | dropTemporaryVector
  | dropTemporaryTopology
  | dropTemporaryRawVectors
  | openVectors
  | openRawVectors
  | checkOpened
  | spoolVectors
  | writeVectors
  | removeSpool
  | checkVectors
  | openTopology
  | writeTopology
  | removeVector
  | renameVector
  | removeTopology
  | renameTopology
  | cleanTemporaryVector
  | cleanTemporaryTopology
  | cleanTemporaryRawVectors
  deriving DecidableEq

inductive Fate
  | succeeds
  | fails
  /-- The process ends here, without the `catch` block. -/
  | crashes
  deriving DecidableEq

def checkInput (input : BuildInput) (compress : Option Compress) : Except Error Unit := do
  checkOptions input compress
  let metadata ← readDiskLayoutMetadata input.disk
  let _ ← multiplyChecked metadata.dimension.toNat 4 "source vector bytes"
  let width := vectorBytes input.layout metadata
  reject (width = 0 ∨ kIoVectorPageSize < width)
    (.runtimeError "IO-1 requires one complete vector to fit in a 4-KiB page")
  let _ ← multiplyChecked metadata.pointCount.toNat width "raw-vector spool size"
  match ← openIndex input metadata with
  | none => .ok ()
  | some index => discard (placementOrder index metadata.pointCount.toNat)

def checkPaths (paths : BuildPaths) : Except Error Unit :=
  reject (paths.topology = paths.vector ∨ paths.topology = paths.disk ∨ paths.vector = paths.disk)
    (.runtimeError "IO artifact paths must be distinct from each other and the Base index")

structure BuildRun where
  input : BuildInput
  compress : Option Compress
  paths : BuildPaths
  fate : BuildStep → Fate
  /-- What a write leaves in its file where it does not write the artifact. -/
  left : BuildStep → List UInt8

namespace BuildRun

variable (run : BuildRun)

def succeeds (step : BuildStep) : Bool := run.fate step = .succeeds

def built : Option Artifacts := (build run.input run.compress).toOption

/-- The steps whose failure is an exception. Whatever makes the artifacts impossible is
found before the topology is written. -/
def raises : BuildStep → Bool
  | .checkInput =>
    !run.succeeds .checkInput || (checkPaths run.paths).toOption.isNone ||
      (IoIndex.checkInput run.input run.compress).toOption.isNone
  | .checkOpened =>
    !run.succeeds .checkOpened || !run.succeeds .openVectors ||
      run.input.layout.isCell && !run.succeeds .openRawVectors
  | .spoolVectors => !run.succeeds .spoolVectors
  | .writeVectors => !run.succeeds .writeVectors
  | .checkVectors => !run.succeeds .checkVectors
  | .writeTopology =>
    !run.succeeds .writeTopology || !run.succeeds .openTopology || run.built.isNone
  | .renameVector => !run.succeeds .renameVector
  | .renameTopology => !run.succeeds .renameTopology
  | _ => false

def stops (step : BuildStep) : Option Stop :=
  if run.fate step = .crashes then some .crashed
  else if run.raises step then some .failed
  else none

/-- The bytes of an artifact, where the step that writes it succeeds. -/
def written (step : BuildStep) (artifact : Artifacts → List UInt8) : List UInt8 :=
  match run.succeeds step, run.built with
  | true, some artifacts => artifact artifacts
  | _, _ => run.left step

/-- A removal, whose error is ignored. -/
def dropFile (step : BuildStep) (path : String) : List (Change String) :=
  if run.succeeds step then [.remove path] else []

/-- `std::ofstream` on a path, truncated. -/
def openFile (step : BuildStep) (path : String) : List (Change String) :=
  if run.succeeds step then [.write path []] else []

/-- `std::filesystem::rename`, which needs a file under the first path. -/
def renameFile (step : BuildStep) (source target : String) (directory : Directory String) :
    List (Change String) × Option Stop :=
  match run.stops step, directory.files source with
  | none, some file => ([.rename source target file.bytes], none)
  | none, none => ([], some .failed)
  | some stop, _ => ([], some stop)

def perform (step : BuildStep) (directory : Directory String) :
    List (Change String) × Option Stop :=
  match step with
  | .checkInput => ([], run.stops .checkInput)
  | .dropTemporaryVector =>
    (run.dropFile .dropTemporaryVector run.paths.temporaryVector, run.stops .dropTemporaryVector)
  | .dropTemporaryTopology =>
    (run.dropFile .dropTemporaryTopology run.paths.temporaryTopology,
      run.stops .dropTemporaryTopology)
  | .dropTemporaryRawVectors =>
    (run.dropFile .dropTemporaryRawVectors run.paths.temporaryRawVectors,
      run.stops .dropTemporaryRawVectors)
  | .openVectors =>
    (run.openFile .openVectors run.paths.temporaryVector, run.stops .openVectors)
  | .openRawVectors =>
    (run.openFile .openRawVectors run.paths.temporaryRawVectors, run.stops .openRawVectors)
  | .checkOpened => ([], run.stops .checkOpened)
  | .spoolVectors =>
    ([.write run.paths.temporaryRawVectors (run.left .spoolVectors)], run.stops .spoolVectors)
  | .writeVectors =>
    ([.write run.paths.temporaryVector (run.written .writeVectors Artifacts.vectors)],
      run.stops .writeVectors)
  | .removeSpool =>
    (run.dropFile .removeSpool run.paths.temporaryRawVectors, run.stops .removeSpool)
  | .checkVectors => ([], run.stops .checkVectors)
  | .openTopology =>
    (run.openFile .openTopology run.paths.temporaryTopology, run.stops .openTopology)
  | .writeTopology =>
    (if run.succeeds .openTopology then
      [.write run.paths.temporaryTopology (run.written .writeTopology Artifacts.topology)]
    else [], run.stops .writeTopology)
  | .removeVector => (run.dropFile .removeVector run.paths.vector, run.stops .removeVector)
  | .renameVector =>
    run.renameFile .renameVector run.paths.temporaryVector run.paths.vector directory
  | .removeTopology => (run.dropFile .removeTopology run.paths.topology, run.stops .removeTopology)
  | .renameTopology =>
    run.renameFile .renameTopology run.paths.temporaryTopology run.paths.topology directory
  | .cleanTemporaryVector =>
    (run.dropFile .cleanTemporaryVector run.paths.temporaryVector,
      run.stops .cleanTemporaryVector)
  | .cleanTemporaryTopology =>
    (run.dropFile .cleanTemporaryTopology run.paths.temporaryTopology,
      run.stops .cleanTemporaryTopology)
  | .cleanTemporaryRawVectors =>
    (run.dropFile .cleanTemporaryRawVectors run.paths.temporaryRawVectors,
      run.stops .cleanTemporaryRawVectors)

def vectorSteps : List BuildStep :=
  [.dropTemporaryVector, .dropTemporaryTopology, .dropTemporaryRawVectors, .openVectors] ++
    (if run.input.layout.isCell then [.openRawVectors] else []) ++ [.checkOpened] ++
    (if run.input.layout.isCell then [.spoolVectors] else []) ++ [.writeVectors]

def topologySteps : List BuildStep :=
  (if run.input.layout.isCell then [.removeSpool] else []) ++
    [.checkVectors, .openTopology, .writeTopology]

/-- `publish_file` for the vectors, and for the topology. -/
def publicationSteps : List BuildStep :=
  [.removeVector, .renameVector, .removeTopology, .renameTopology]

/-- The `catch` block. -/
def cleanupSteps : List BuildStep :=
  [.cleanTemporaryVector, .cleanTemporaryTopology, .cleanTemporaryRawVectors]

/-- The changes of the steps inside and in front of the `try` block, with those of the
`catch` block. -/
def writeAndPublish (directory : Directory String) : List (Change String) × Option Stop :=
  let (made, stop) :=
    execute run.perform (run.vectorSteps ++ run.topologySteps ++ publicationSteps) directory
  match stop with
  | some .failed =>
    let (cleaned, stop) := execute run.perform cleanupSteps (directory.changes made)
    (made ++ cleaned, some (stop.getD .failed))
  | stop => (made, stop)

/-- The changes that a build makes, and how it ends where it does not return. -/
def changes (directory : Directory String) : List (Change String) × Option Stop :=
  match run.stops .checkInput with
  | some stop => ([], some stop)
  | none => run.writeAndPublish directory

def leaves (directory : Directory String) : Directory String :=
  directory.changes (run.changes directory).1

variable {run} {directory : Directory String}

theorem names_temporary {step : BuildStep} (hstep : step ∉ publicationSteps)
    (directory : Directory String) :
    ∀ change ∈ (run.perform step directory).1, ∀ name ∈ change.names,
      name ∈ run.paths.temporaries := by
  cases step <;>
    simp_all [perform, dropFile, openFile, publicationSteps, Change.names, BuildPaths.temporaries]

theorem before_publication :
    ∀ step ∈ run.vectorSteps ++ run.topologySteps, step ∉ publicationSteps := by
  unfold vectorSteps topologySteps
  split <;> decide

theorem perform_stops {step : BuildStep} (hstep : step ∉ publicationSteps)
    (directory : Directory String) : (run.perform step directory).2 = run.stops step := by
  cases step with
  | renameVector => exact absurd (by decide) hstep
  | renameTopology => exact absurd (by decide) hstep
  | _ => rfl

theorem before_completed_iff (directory : Directory String) :
    (execute run.perform (run.vectorSteps ++ run.topologySteps) directory).2 = none ↔
      ∀ step ∈ run.vectorSteps ++ run.topologySteps, run.stops step = none :=
  execute_completed_iff (fun step hstep => perform_stops (before_publication step hstep)) directory

theorem execute_temporary {steps : List BuildStep} (hsteps : ∀ step ∈ steps, step ∉ publicationSteps)
    (directory : Directory String) :
    ∀ change ∈ (execute run.perform steps directory).1, ∀ name ∈ change.names,
      name ∈ run.paths.temporaries :=
  mem_execute fun step hstep => names_temporary (hsteps step hstep)

theorem writeAndPublish_changes (directory : Directory String) :
    ∃ cleaned, (run.writeAndPublish directory).1 =
        (execute run.perform (run.vectorSteps ++ run.topologySteps ++ publicationSteps)
          directory).1 ++ cleaned ∧
      ∀ change ∈ cleaned, ∀ name ∈ change.names, name ∈ run.paths.temporaries := by
  unfold writeAndPublish
  rcases execute run.perform (run.vectorSteps ++ run.topologySteps ++ publicationSteps) directory
    with ⟨made, _ | _ | _⟩
  · exact ⟨[], (List.append_nil _).symm, by simp⟩
  · exact ⟨_, rfl, execute_temporary (by decide) _⟩
  · exact ⟨[], (List.append_nil _).symm, by simp⟩

theorem temporaryVector_ne_raw (paths : BuildPaths) :
    paths.temporaryVector ≠ paths.temporaryRawVectors := by
  intro hsame
  have hlist := congrArg String.toList hsame
  simp only [BuildPaths.temporaryVector, BuildPaths.temporaryRawVectors, String.toList_append] at hlist
  exact absurd (List.append_cancel_left hlist) (by decide)

theorem temporaryVector_ne_topology {paths : BuildPaths} (hpaths : checkPaths paths = .ok ()) :
    paths.temporaryVector ≠ paths.temporaryTopology := by
  intro hsame
  have hlist := congrArg String.toList hsame
  simp only [BuildPaths.temporaryVector, BuildPaths.temporaryTopology, String.toList_append] at hlist
  have hdistinct := reject_ok.mp hpaths
  exact hdistinct (.inl (String.toList_inj.mp (List.append_cancel_right hlist).symm))

theorem names_topologySteps {step : BuildStep} (hstep : step ∈ run.topologySteps)
    (directory : Directory String) :
    ∀ change ∈ (run.perform step directory).1, ∀ name ∈ change.names,
      name ∈ [run.paths.temporaryTopology, run.paths.temporaryRawVectors] := by
  unfold topologySteps at hstep
  split at hstep <;>
    simp only [List.cons_append, List.nil_append, List.mem_cons, List.not_mem_nil, or_false] at hstep
  · rcases hstep with rfl | rfl | rfl | rfl <;> simp [perform, dropFile, openFile, Change.names]
  · rcases hstep with rfl | rfl | rfl <;> simp [perform, openFile, Change.names]

theorem temporaryVector_written (hpaths : checkPaths run.paths = .ok ())
    (hcompleted : (execute run.perform (run.vectorSteps ++ run.topologySteps) directory).2 = none) :
    ∃ file, (directory.changes (execute run.perform (run.vectorSteps ++ run.topologySteps)
        directory).1).files run.paths.temporaryVector = some file ∧
      file.bytes = run.written .writeVectors Artifacts.vectors := by
  have hlater : ∀ change ∈ (execute run.perform run.topologySteps
      (directory.changes (execute run.perform run.vectorSteps directory).1)).1,
      run.paths.temporaryVector ∉ change.names := by
    apply mem_execute
    intro step hstep directory change hmem hnamed
    have hnames := names_topologySteps hstep directory change hmem _ hnamed
    simp only [List.mem_cons, List.not_mem_nil, or_false] at hnames
    rcases hnames with htopology | hraw
    · exact temporaryVector_ne_topology hpaths htopology
    · exact temporaryVector_ne_raw run.paths hraw
  rw [execute_append_completed hcompleted, Directory.changes_append, Directory.files_changes hlater]
  have hvectors := execute_first_completed hcompleted
  unfold vectorSteps at hvectors ⊢
  rw [execute_append_completed hvectors, Directory.changes_append]
  -- the last of these steps writes the vectors
  rcases hstops : run.stops .writeVectors with _ | stop
  all_goals
    simp only [execute, perform, hstops]
    exact ⟨_, Directory.files_write_self _, rfl⟩

/-- No step before the publication ends the run. -/
def Publishes (run : BuildRun) : Prop :=
  run.stops .checkInput = none ∧
    ∀ step ∈ run.vectorSteps ++ run.topologySteps, run.stops step = none

/-- The run ends before the publication has removed or replaced the previous vectors. -/
def StopsBeforeReplacing (run : BuildRun) : Prop :=
  ¬ run.Publishes ∨ run.fate .removeVector = .crashes ∨
    run.fate .removeVector = .fails ∧ run.fate .renameVector ≠ .succeeds

/-- No change of the run names one of the artifacts. -/
def LeavesAlone (run : BuildRun) (directory : Directory String) : Prop :=
  ∀ change ∈ (run.changes directory).1,
    run.paths.vector ∉ change.names ∧ run.paths.topology ∉ change.names

theorem publication_names (hfile : ∃ file, directory.files run.paths.temporaryVector = some file) :
    (∀ change ∈ (execute run.perform publicationSteps directory).1,
      run.paths.vector ∉ change.names ∧ run.paths.topology ∉ change.names) ↔
    run.fate .removeVector = .crashes ∨
      run.fate .removeVector = .fails ∧ run.fate .renameVector ≠ .succeeds := by
  obtain ⟨file, hfile⟩ := hfile
  cases hremove : run.fate .removeVector with
  | succeeds =>
    simp [publicationSteps, execute, perform, dropFile, stops, raises, succeeds, hremove,
      Change.names]
  | crashes =>
    simp [publicationSteps, execute, perform, dropFile, stops, succeeds, hremove]
  | fails =>
    cases hrename : run.fate .renameVector with
    | succeeds =>
      simp [publicationSteps, execute, perform, dropFile, renameFile, stops, raises, succeeds,
        hremove, hrename, hfile, Change.names]
    | fails =>
      simp [publicationSteps, execute, perform, dropFile, renameFile, stops, raises, succeeds,
        hremove, hrename]
    | crashes =>
      simp [publicationSteps, execute, perform, dropFile, renameFile, stops, raises, succeeds,
        hremove, hrename]

theorem checkPaths_ok (hinput : run.stops .checkInput = none) : checkPaths run.paths = .ok () := by
  unfold stops at hinput
  split at hinput
  · cases hinput
  · split at hinput
    · cases hinput
    next hpasses =>
      rw [raises] at hpasses
      cases hcheck : checkPaths run.paths with
      | ok _ => rfl
      | error failure => simp [hcheck, Except.toOption] at hpasses

theorem not_named_of_temporary (hapart : run.paths.Apart) {change : Change String}
    (htemporary : ∀ name ∈ change.names, name ∈ run.paths.temporaries) :
    run.paths.vector ∉ change.names ∧ run.paths.topology ∉ change.names :=
  ⟨fun hnamed => hapart.1 (htemporary _ hnamed), fun hnamed => hapart.2 (htemporary _ hnamed)⟩

/-- Of a run with names of its own for the temporary files, only the publication can name
an artifact. -/
theorem leavesAlone_iff (hapart : run.paths.Apart) (directory : Directory String) :
    run.LeavesAlone directory ↔ run.StopsBeforeReplacing := by
  unfold LeavesAlone changes
  rcases hinput : run.stops .checkInput with _ | stop
  · obtain ⟨cleaned, hchanges, hcleaned⟩ := run.writeAndPublish_changes directory
    have hpaths := checkPaths_ok hinput
    have hbefore : ∀ change ∈
        (execute run.perform (run.vectorSteps ++ run.topologySteps) directory).1,
        ∀ name ∈ change.names, name ∈ run.paths.temporaries :=
      execute_temporary before_publication directory
    rw [hchanges, execute_append]
    rcases hstop : (execute run.perform (run.vectorSteps ++ run.topologySteps) directory).2 with
      _ | stop
    · obtain ⟨file, hfile, -⟩ := temporaryVector_written hpaths hstop
      have hpublishes : run.Publishes := ⟨hinput, (before_completed_iff directory).mp hstop⟩
      rw [StopsBeforeReplacing, ← publication_names ⟨file, hfile⟩]
      simp only [hpublishes, not_true_eq_false, false_or, List.forall_mem_append]
      constructor
      · rintro ⟨⟨-, hpublication⟩, -⟩
        exact hpublication
      · intro hpublication
        exact ⟨⟨fun change hmem => not_named_of_temporary hapart (hbefore change hmem), hpublication⟩,
          fun change hmem => not_named_of_temporary hapart (hcleaned change hmem)⟩
    · have hunpublished : ¬ run.Publishes := by
        intro hpublishes
        rw [(before_completed_iff directory).mpr hpublishes.2] at hstop
        cases hstop
      refine iff_of_true ?_ (.inl hunpublished)
      intro change hmem
      rcases List.mem_append.mp hmem with hmade | hclean
      · exact not_named_of_temporary hapart (hbefore change hmade)
      · exact not_named_of_temporary hapart (hcleaned change hclean)
  · have hunpublished : ¬ run.Publishes := by
      intro hpublishes
      rw [hpublishes.1] at hinput
      cases hinput
    exact iff_of_true (by simp) (.inl hunpublished)

/-- Both artifacts are the files that they were. -/
def KeepsPrevious (run : BuildRun) (directory : Directory String) : Prop :=
  (run.leaves directory).files run.paths.vector = directory.files run.paths.vector ∧
    (run.leaves directory).files run.paths.topology = directory.files run.paths.topology

/-- The artifacts of an earlier build are kept exactly by the runs that change neither of
their names. Where the temporary files have other names, these are the runs that end
before the previous vectors are removed or replaced. -/
theorem keepsPrevious_iff {vector topology : StoredFile}
    (hvector : directory.files run.paths.vector = some vector)
    (htopology : directory.files run.paths.topology = some topology) :
    (run.KeepsPrevious directory ↔ run.LeavesAlone directory) ∧
      (run.paths.Apart → (run.KeepsPrevious directory ↔ run.StopsBeforeReplacing)) := by
  have hkeeps : run.KeepsPrevious directory ↔ run.LeavesAlone directory := by
    rw [KeepsPrevious, hvector, htopology, leaves, Directory.kept_iff hvector,
      Directory.kept_iff htopology]
    exact ⟨fun hboth change hmem => ⟨hboth.1 change hmem, hboth.2 change hmem⟩,
      fun hall => ⟨fun change hmem => (hall change hmem).1, fun change hmem => (hall change hmem).2⟩⟩
  exact ⟨hkeeps, fun hapart => hkeeps.trans (leavesAlone_iff hapart directory)⟩

def earlierBuild : Directory String where
  files name :=
    if name = "index.io_vectors.bin" then some ⟨[1], 0⟩
    else if name = "index.io_topology.bin" then some ⟨[2], 1⟩
    else none
  clock := 2
  past name file hfile := by
    split at hfile
    · obtain rfl := Option.some.inj hfile
      decide
    · split at hfile
      · obtain rfl := Option.some.inj hfile
        decide
      · cases hfile

def indexPaths : BuildPaths :=
  ⟨"index_disk.index", "index.io_vectors.bin", "index.io_topology.bin"⟩

def secondBuild (fate : BuildStep → Fate) : BuildRun where
  input := pairInput .originalId
  compress := none
  paths := indexPaths
  fate
  left _ := []

theorem keepsPrevious_iff_secondBuild :
    (secondBuild fun _ => .crashes).KeepsPrevious earlierBuild ↔
      (secondBuild fun _ => .crashes).StopsBeforeReplacing := by
  have hapart : indexPaths.Apart := by decide
  have hvector : earlierBuild.files "index.io_vectors.bin" = some ⟨[1], 0⟩ := by decide
  have htopology : earlierBuild.files "index.io_topology.bin" = some ⟨[2], 1⟩ := by decide
  exact (keepsPrevious_iff hvector htopology).2 hapart

instance (run : BuildRun) (directory : Directory String) : Decidable (run.KeepsPrevious directory) :=
  inferInstanceAs (Decidable (_ ∧ _))

def failsAt (step other : BuildStep) : Fate := if other = step then .fails else .succeeds

set_option maxRecDepth 100000 in
/-- Where the vectors cannot be renamed, the previous ones are gone; where the topology
cannot be renamed, the new vectors have no topology. -/
theorem secondBuild_loses :
    (((secondBuild (failsAt .renameVector)).changes earlierBuild).2 = some .failed ∧
      ¬ (secondBuild (failsAt .renameVector)).KeepsPrevious earlierBuild ∧
      ((secondBuild (failsAt .renameVector)).leaves earlierBuild).files
        indexPaths.vector = none) ∧
    ((secondBuild (failsAt .renameTopology)).changes earlierBuild).2 = some .failed ∧
      ¬ (secondBuild (failsAt .renameTopology)).KeepsPrevious earlierBuild ∧
      ((secondBuild (failsAt .renameTopology)).leaves earlierBuild).files
        indexPaths.topology = none := by
  decide +kernel

end BuildRun

end SkipCell.IoIndex
