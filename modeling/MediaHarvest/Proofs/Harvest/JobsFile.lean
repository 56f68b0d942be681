import MediaHarvest.Harvest.JobsFile
import MediaHarvest.Proofs.Hub.Completeness
import MediaHarvest.Proofs.Ledger.Codecs
import Mathlib.Algebra.GroupWithZero.Nat
import Mathlib.Data.List.Nodup

/-!
# What jobs files list

A jobs file that was read lists jobs with limits in whole milliseconds.  If no two of its jobs have
the same name, no two of their tasks have.
-/

namespace MediaHarvest

open Json

/-! ## Reading -/

/-- The limits of a job that was read are whole. -/
theorem JobDefinition.codec_yields :
    JobDefinition.codec.Yields fun definition => definition.limits.Whole :=
  Shape.codec_yields
    (Shape.field_yields_true.map mk (by intros; assumption)
      |>.seq Shape.field_yields_true
      |>.seq Shape.field_yields_true
      |>.seq limits_field_yields
      |>.seq Shape.field_yields_true)

theorem JobsFile.codec_yields :
    JobsFile.codec.Yields fun file => ∀ definition ∈ file.jobs, definition.limits.Whole :=
  Shape.codec_yields
    (Shape.field_yields_true.map mk (fun _ _ _ whole => whole)
      |>.seq (Shape.required_yields JobDefinition.codec_yields.list))

/-- The limits in a jobs file that was read are whole. -/
theorem JobsFile.whole_of_ofBytes {bytes : Bytes} {jobs : JobsFile}
    (read : ofBytes bytes = .ok jobs) : ∀ definition ∈ jobs.jobs, definition.limits.Whole := by
  rw [ofBytes] at read
  split at read
  · cases read
  · exact codec_yields.of_readText (mapError_eq_ok_iff.1 read)

/-! ## Jobs and tasks -/

/-- The tasks of a job, each with the job. -/
def Job.subjects (job : Job) : List (String × String) := job.taskIds.map fun task => (job.id, task)

/-- The job that is made of a definition, but for the times. -/
def JobDefinition.job (entry : String × JobDefinition) : Job := entry.2.toJob entry.1 .epoch

/-- Jobs that can be written down one after another. -/
structure Job.Listing (file : List Job) : Prop where
  /-- No two jobs have the same name. -/
  distinct : (file.map Job.id).Nodup
  whole : ∀ job ∈ file, job.limits.Whole

/-- Jobs of different names have different tasks. -/
theorem Job.nodup_subjects {jobs : List Job} (distinct : (jobs.map Job.id).Nodup) :
    (jobs.flatMap Job.subjects).Nodup := by
  rw [List.nodup_flatMap]
  constructor
  · intro job _
    exact job.nodup_taskIds.map fun _ _ same => (Prod.mk.inj same).2
  · apply (List.pairwise_map.1 distinct).imp
    intro job other differ
    apply List.disjoint_left.2
    intro subject own strange
    rcases List.mem_map.1 own with ⟨task, _, rfl⟩
    rcases List.mem_map.1 strange with ⟨task', _, same⟩
    exact differ (Prod.mk.inj same).1.symm

/-- The names of the jobs of a file; `newName` gives the name of the job at a position if it has
none. -/
def JobsFile.names (newName : Nat → String) (jobs : JobsFile) : List String :=
  jobs.jobs.zipIdx.map fun entry => entry.1.id.getD (newName entry.2)

/-- The jobs that are made of a file, but for the times. -/
def JobsFile.listed (newName : Nat → String) (jobs : JobsFile) : List Job :=
  (jobs.jobs.zipIdx.map fun entry => (newName entry.2, entry.1)).map JobDefinition.job

/-- How many tasks the jobs of a file declare. -/
def JobsFile.taskCount (jobs : JobsFile) : Nat :=
  (jobs.jobs.map fun definition => definition.tasks.length).sum

/-- How many jobs of a file have tasks. -/
def JobsFile.busyJobs (jobs : JobsFile) : Nat :=
  jobs.jobs.countP fun definition => definition.tasks ≠ []

namespace JobsFile

variable (newName : Nat → String) (jobs : JobsFile)

theorem map_id_listed : (jobs.listed newName).map Job.id = jobs.names newName := by
  rw [listed, List.map_map, List.map_map]
  rfl

theorem map_tasks_listed :
    (jobs.listed newName).map Job.tasks = jobs.jobs.map JobDefinition.tasks := by
  conv_rhs => rw [← List.zipIdx_map_fst 0 jobs.jobs]
  rw [listed, List.map_map, List.map_map, List.map_map]
  rfl

/-- The tasks of the jobs are as many as are declared. -/
theorem length_subjects_listed :
    ((jobs.listed newName).flatMap Job.subjects).length = jobs.taskCount := by
  have sizes : (jobs.listed newName).map (fun job => job.subjects.length) =
      ((jobs.listed newName).map Job.tasks).map List.length := by
    rw [List.map_map]
    apply List.map_congr_left
    intro job _
    simp [Job.subjects, Job.taskIds]
  rw [List.length_flatMap, sizes, map_tasks_listed, taskCount, List.map_map]
  rfl

theorem length_busy_listed :
    (((jobs.listed newName).filter fun job => job.tasks ≠ []).map Job.id).length =
      jobs.busyJobs := by
  have busy : (jobs.listed newName).countP (fun job => job.tasks ≠ []) =
      ((jobs.listed newName).map Job.tasks).countP fun tasks => tasks ≠ [] := by
    rw [List.countP_map]
    rfl
  rw [List.length_map, ← List.countP_eq_length_filter, busy, map_tasks_listed, List.countP_map]
  rfl

/-- The jobs of a file that was read can be written down, if their names are distinct. -/
theorem listing_listed {jobs : JobsFile} {newName : Nat → String} {bytes : Bytes}
    (read : ofBytes bytes = .ok jobs) (distinct : (jobs.names newName).Nodup) :
    Job.Listing (jobs.listed newName) where
  distinct := by
    rw [map_id_listed]
    exact distinct
  whole := by
    intro job mem
    rcases List.mem_map.1 mem with ⟨_, entry, rfl⟩
    rcases List.mem_map.1 entry with ⟨⟨definition, index⟩, indexed, rfl⟩
    exact whole_of_ofBytes read definition (List.fst_mem_of_mem_zipIdx indexed)

end JobsFile

end MediaHarvest
