import HyperQueue.Autoalloc.State

/-!
# The `hq alloc` command

The client side of the allocation queues, following
`src/crates/hyperqueue/src/client/commands/autoalloc.rs`: each subcommand becomes one
`AutoAllocRequest` to the server (`commandRequest`), `add` checks the backlog first, and `info`
filters the allocations the server returns by state.

The command first connects to the server (`get_client_connection`, whose code is not among the
sources: its answer is a parameter), and fails with the connection's error before any
subcommand runs.

**Theorem (`commandRequest_eq_error`).** `hq alloc` fails exactly with the connection's error,
or, once connected, for an `add` whose backlog is above `100`, with the backlog message: with
no server, the backlog check is never reached.

The printing of the server's answers, and `rpc_call!`, are left out: they do not change what
is sent.
-/

namespace HyperQueue

/-! ## Requests -/

/-- The batch system of a queue. -/
inductive ManagerType
  | pbs
  | slurm
  deriving DecidableEq, Repr

/-- `SharedQueueOpts`, with the defaults clap gives. `time_limit` is in seconds. -/
structure SharedQueueOpts where
  backlog : UInt32 := 4
  timeLimit : Option Nat := none
  workersPerAlloc : UInt32 := 1
  name : Option String := none
  deriving DecidableEq, Repr

/-- `AddQueueCommand`: the PBS queue or SLURM partition, the shared options, and the arguments
passed to `qsub` or `sbatch`. -/
inductive AddQueueCommand
  | pbs (queue : String) (shared : SharedQueueOpts) (qsubArgs : List String)
  | slurm (partition : String) (shared : SharedQueueOpts) (sbatchArgs : List String)
  deriving DecidableEq, Repr

/-- `AddQueueParams`. -/
structure AddQueueParams where
  workersPerAlloc : UInt32
  backlog : UInt32
  queue : String
  timelimit : Option Nat
  name : Option String
  additionalArgs : List String
  deriving DecidableEq, Repr

/-- `AddQueueRequest`. -/
inductive AddQueueRequest
  | pbs (params : AddQueueParams)
  | slurm (params : AddQueueParams)
  deriving DecidableEq, Repr

/-- `AutoAllocRequest`. -/
inductive AutoAllocRequest
  | list
  | events (descriptor : DescriptorId)
  | info (descriptor : DescriptorId)
  | addQueue (request : AddQueueRequest)
  | removeQueue (descriptor : DescriptorId)
  deriving DecidableEq, Repr

/-- `AllocationStateFilter`. -/
inductive AllocationStateFilter
  | queued
  | running
  | finished
  | failed
  deriving DecidableEq, Repr

/-- `AutoAllocCommand`, the subcommands of `hq alloc`. -/
inductive AutoAllocCommand
  | list
  | events (queue : DescriptorId)
  | info (queue : DescriptorId) (filter : Option AllocationStateFilter)
  | add (subcmd : AddQueueCommand)
  | remove (queueId : DescriptorId)
  deriving DecidableEq, Repr

/-- `create_queue_params`. -/
def createQueueParams : AddQueueCommand → AddQueueParams × ManagerType
  | .pbs queue shared qsubArgs =>
    (⟨shared.workersPerAlloc, shared.backlog, queue, shared.timeLimit, shared.name, qsubArgs⟩, .pbs)
  | .slurm partition shared sbatchArgs =>
    (⟨shared.workersPerAlloc, shared.backlog, partition, shared.timeLimit, shared.name, sbatchArgs⟩,
      .slurm)

/-- `add_queue` up to the call: the request it sends, or its error. -/
def addQueue (subcmd : AddQueueCommand) : Except String AutoAllocRequest :=
  let (params, manager) := createQueueParams subcmd
  if params.backlog > 100 then
    .error "Backlog size is limited to 100 to avoid overloading the job manager"
  else
    match manager with
    | .pbs => .ok (.addQueue (.pbs params))
    | .slurm => .ok (.addQueue (.slurm params))

/-- `command_autoalloc`: the request each subcommand sends. The command first connects to the
server; `connection` is what `get_client_connection` answers (its code is not among the
sources), and its error ends the command before any subcommand runs. -/
def commandRequest (connection : Except String Unit) (subcmd : AutoAllocCommand) :
    Except String AutoAllocRequest := do
  connection
  match subcmd with
  | .list => .ok .list
  | .add subcmd => addQueue subcmd
  | .events queue => .ok (.events queue)
  | .info queue _ => .ok (.info queue)
  | .remove queueId => .ok (.removeQueue queueId)

/-- **The command's failures.** `hq alloc` fails with the connection's error if it cannot
connect, whatever the subcommand; connected, only `add` can fail, with the backlog message,
for a backlog above `100`. -/
theorem commandRequest_eq_error (connection : Except String Unit) (subcmd : AutoAllocCommand)
    (e : String) :
    commandRequest connection subcmd = .error e ↔
      connection = .error e ∨
      connection = .ok () ∧ ∃ add, subcmd = .add add ∧ (createQueueParams add).1.backlog > 100 ∧
        e = "Backlog size is limited to 100 to avoid overloading the job manager" := by
  rcases connection with e' | ⟨⟩
  · simp [commandRequest, bind, Except.bind]
  · cases subcmd with
    | add add =>
      cases add with
      | pbs queue shared args | slurm queue shared args =>
        by_cases h : shared.backlog > 100 <;>
          simp [commandRequest, addQueue, createQueueParams, bind, Except.bind, h, eq_comm]
    | _ => simp [commandRequest, bind, Except.bind, pure, Except.pure]

/-- The default options pass the check; so do a backlog and a worker count of `0`. -/
example (queue : String) (args : List String) :
    commandRequest (.ok ()) (.add (.pbs queue {} args)) =
      .ok (.addQueue (.pbs ⟨1, 4, queue, none, none, args⟩)) ∧
    commandRequest (.ok ()) (.add (.slurm queue { backlog := 0, workersPerAlloc := 0 } args)) =
      .ok (.addQueue (.slurm ⟨0, 0, queue, none, none, args⟩)) :=
  ⟨rfl, rfl⟩

/-- Without a server, the connection's error is the failure, not the backlog message. -/
example : commandRequest (.error "No server") (.add (.pbs "q" { backlog := 200 } [])) =
    .error "No server" := rfl

/-! ## Filters -/

/-- `AllocationStateFilter::from_str`. -/
def AllocationStateFilter.fromStr : String → Except String AllocationStateFilter
  | "queued" => .ok .queued
  | "running" => .ok .running
  | "finished" => .ok .finished
  | "failed" => .ok .failed
  | _ => .error "Invalid allocation state filter"

/-- The words are matched exactly: a capitalised state is rejected. -/
example : AllocationStateFilter.fromStr "Queued" = .error "Invalid allocation state filter" := rfl

/-- `matches!` of a filter's state against a status. -/
def AllocationStateFilter.matches : AllocationStateFilter → AllocationStatus → Bool
  | .queued, .queued | .running, .running | .finished, .finished | .failed, .failed => true
  | _, _ => false

/-- `filter_allocations`. -/
def filterAllocations (allocations : List Allocation) :
    Option AllocationStateFilter → List Allocation
  | none => allocations
  | some filter => allocations.filter fun allocation => filter.matches allocation.status

example : filterAllocations [⟨"a", 1, .queued, ""⟩, ⟨"b", 1, .running, ""⟩] (some .running) =
    [⟨"b", 1, .running, ""⟩] := by
  decide

end HyperQueue
