import MediaHarvest.Job.Basic

/-!
# Accounting of outstanding tasks

The accountant knows for every job which tasks were handed out, to which node, and where each
stands.  A job that was retired is never accounted again.  For every node it keeps the load: the
number of tasks that were handed to the node and have not ended.

A task that has ended keeps its state, whatever arrives later.
-/

namespace MediaHarvest

/-- A task that was handed out. -/
structure TaskRecord where
  task : Task
  node : String
  state : TaskState
deriving DecidableEq

/-- The account of a job. -/
structure JobAccount where
  /-- The tasks by their names. -/
  tasks : SortedMap String TaskRecord
  removed : Bool
deriving DecidableEq

/-- What the end of a task changed. -/
inductive Recorded where
  | updated
  | duplicate
  | unknown
deriving DecidableEq, Repr

/-- Why the accountant refuses. -/
inductive AccountingError where
  | unknownJob (job : String)
deriving DecidableEq, Repr

/-- The wording of a refusal of the accountant. -/
def AccountingError.message : AccountingError → String
  | .unknownJob job => s!"Unknown job: {job}"

namespace JobAccount

/-- The account without tasks. -/
def empty : JobAccount := ⟨∅, false⟩

instance : Inhabited JobAccount := ⟨empty⟩

/-- The states of the tasks. -/
def states (account : JobAccount) : List TaskState := account.tasks.values.map (·.state)

/-- Whether every task has ended. -/
def allTerminal (account : JobAccount) : Bool := account.states.all (·.isTerminal)

/-- The tasks that have not ended. -/
def outstanding (account : JobAccount) : List TaskRecord :=
  account.tasks.values.filter fun record => !record.state.isTerminal

/-- Notes the end of a task.  The node is given if the task has ended now. -/
def record (account : JobAccount) (task : String) (state : TaskState) :
    JobAccount × Recorded × Option String :=
  match account.tasks.get? task with
  | none => (account, .unknown, none)
  | some entry =>
      if entry.state.isTerminal then (account, .duplicate, none)
      else
        ({ account with tasks := account.tasks.insert task { entry with state := state } },
          .updated, some entry.node)

end JobAccount

/-- The accounts of all jobs. -/
structure Accountant where
  jobs : SortedMap String JobAccount
  retired : SortedMap String Unit
  loads : SortedMap String Nat
  /-- The job whose account someone holds, so that others have to wait for it. -/
  holder : Option String
deriving DecidableEq

namespace Accountant

/-- No accounts. -/
def empty : Accountant := ⟨∅, ∅, ∅, none⟩

instance : Inhabited Accountant := ⟨empty⟩

/-- The account of a job, unless it is closed. -/
def account? (accountant : Accountant) (job : String) : Option JobAccount :=
  match accountant.jobs.get? job with
  | some account => if account.removed then none else some account
  | none => none

/-- Writes the account of a job. -/
def setAccount (accountant : Accountant) (job : String) (account : JobAccount) : Accountant :=
  { accountant with jobs := accountant.jobs.insert job account }

/-- The load of a node. -/
def load (accountant : Accountant) (node : String) : Nat := (accountant.loads.get? node).getD 0

/-- Takes tasks off the load of a node. -/
def release (accountant : Accountant) (node : String) (count : Nat) : Accountant :=
  match accountant.loads.get? node with
  | none => accountant
  | some load => { accountant with loads := accountant.loads.insert node (load - count) }

/-- Accounts a task that is handed to a node.  One that is already accounted stays as it is. -/
def assign (accountant : Accountant) (job id : String) (task : Task) (node : String) :
    Except AccountingError Accountant :=
  if accountant.retired.contains job then .error (.unknownJob job)
  else
    let account := (accountant.jobs.get? job).getD .empty
    if account.removed then .error (.unknownJob job)
    else if account.tasks.contains id then .ok accountant
    else
      let account := { account with tasks := account.tasks.insert id ⟨task, node, .pending⟩ }
      let accountant := accountant.setAccount job account
      .ok { accountant with loads := accountant.loads.insert node (accountant.load node + 1) }

/-- Notes that a node has begun with a task. -/
def markRunning (accountant : Accountant) (job id : String) : Accountant :=
  match accountant.account? job with
  | none => accountant
  | some account =>
      match account.tasks.get? id with
      | some record =>
          if record.state = .pending then
            accountant.setAccount job
              { account with tasks := account.tasks.insert id { record with state := .running } }
          else accountant
      | none => accountant

/-- Notes the end of a task in an account, without a change of loads. -/
def recordOnly (accountant : Accountant) (job id : String) (state : TaskState) :
    Accountant × Recorded × Option String :=
  let account := (accountant.jobs.get? job).getD .empty
  let (account, recorded, node) := account.record id state
  match recorded with
  | .updated => (accountant.setAccount job account, recorded, node)
  | _ => (accountant, recorded, node)

/-- Notes the end of a task in an account, and takes it off the load of its node. -/
def apply (accountant : Accountant) (job id : String) (state : TaskState) :
    Accountant × Recorded :=
  match accountant.recordOnly job id state with
  | (accountant, .updated, some node) => (accountant.release node 1, .updated)
  | (accountant, recorded, _) => (accountant, recorded)

/-- Notes the end of a task.  Unknown jobs and tasks change nothing. -/
def recordCompletion (accountant : Accountant) (job id : String) (state : TaskState) :
    Accountant × Recorded :=
  match accountant.account? job with
  | none => (accountant, .unknown)
  | some _ => accountant.apply job id state

/-- The states of the tasks of a job; none if it is not accounted. -/
def states? (accountant : Accountant) (job : String) : Option (List TaskState) :=
  (accountant.account? job).map (·.states)

/-- An accounted task. -/
def task? (accountant : Accountant) (job id : String) : Option TaskRecord := do
  (← accountant.account? job).tasks.get? id

/-- Whether a task is accounted. -/
def hasTask (accountant : Accountant) (job id : String) : Bool :=
  (accountant.task? job id).isSome

/-- Forgets a task that did not reach its node. -/
def withdraw (accountant : Accountant) (job id : String) : Accountant :=
  match accountant.account? job with
  | none => accountant
  | some account =>
      match account.tasks.get? id with
      | none => accountant
      | some record =>
          let accountant :=
            accountant.setAccount job { account with tasks := account.tasks.erase id }
          if record.state.isTerminal then accountant else accountant.release record.node 1

/-- Takes the outstanding tasks of an account off the loads of their nodes. -/
def releaseAll (accountant : Accountant) (records : List TaskRecord) : Accountant :=
  records.foldl (fun accountant record => accountant.release record.node 1) accountant

/-- Closes the account of `job` and retires the job `name`. -/
def retire (accountant : Accountant) (job name : String) : Accountant :=
  match accountant.account? job with
  | none => accountant
  | some account =>
      let closed := accountant.setAccount job ⟨∅, true⟩
      let retired :=
        { closed with
          jobs := closed.jobs.erase name
          retired := closed.retired.insert name () }
      retired.releaseAll account.outstanding

/-- Retires a job, accounted or not. -/
def removeJob (accountant : Accountant) (job : String) : Accountant :=
  match accountant.account? job with
  | some _ => accountant.retire job job
  | none => { accountant with retired := accountant.retired.insert job () }

/-! ## Holding an account -/

/-- Holds the account of a job; tells whether it is accounted. -/
def hold (accountant : Accountant) (job : String) : Accountant × Bool :=
  match accountant.account? job with
  | some _ => ({ accountant with holder := some job }, true)
  | none => ({ accountant with holder := none }, false)

/-- Lets go of the account that is held. -/
def letGo (accountant : Accountant) : Accountant := { accountant with holder := none }

/-- The account that is held. -/
def held? (accountant : Accountant) : Option JobAccount := do
  accountant.jobs.get? (← accountant.holder)

/-- Whether someone holds the account of a job. -/
def isHeld (accountant : Accountant) (job : String) : Bool := accountant.holder == some job

/-- Closes the account that is held and retires the job `name`. -/
def retireHeld (accountant : Accountant) (name : String) : Accountant :=
  match accountant.holder with
  | none => accountant
  | some job => (accountant.retire job name).letGo

end Accountant

end MediaHarvest
