import Mathlib.Data.List.Nodup

/-!
# Job files: task ids and the submit request

`build_job_desc_individual_tasks`, following `src/crates/hyperqueue/src/client/commands/submit/jobfile.rs`,
turns the `[[task]]` entries of a job file into a `Graph` of tasks. An entry may give its id;
one that does not gets the next id after `max_id`, a counter that starts at the largest given
id (or `0`) and goes up by one for each such entry.

The ids are `u32`, and `max_id.as_num() + 1` is a `u32` addition: a debug build panics when it
overflows and a release build wraps. The model takes the build as a `Profile`, and a failed
addition is `none`.

**Theorem (`buildJobDescIndividualTasks_ids`).** When `max + k < 2³²`, where `max` is the
largest given id and `k` the number of entries without one, both builds return one task per
entry, in order, each with its entry's description and dependencies; the given ids are kept
and the others are `max + 1, max + 2, …`; and if the given ids are distinct, all ids are.

Without the bound the counter overflows: with the ids `u32::MAX` and `0` given and a third
entry without one, a debug build panics and a release build gives the third task the id `0`
a second time (`buildJobDescIndividualTasks_wraps`).

**Theorem (`buildJobDescIndividualTasks_builds`).** For every list of entries, a debug build
returns exactly when `max + k < 2³²`, and a release build always returns, with the ids above
taken modulo `2³²`.

`build_job_submit` builds the submit request: the array's tasks if the job file has an array,
the graph of its `[[task]]` entries otherwise. `build_task` hands an entry's configuration to
`build_task_description` and its dependencies on unchanged, so the results about ids take the
description function and these types as parameters; `buildTaskDescription` is the code's
description function.
-/

namespace HyperQueue

/-- `JobTaskId`, a `u32`. -/
abbrev JobTaskId := UInt32

/-- The build: a debug build checks `u32` arithmetic and panics on overflow; a release build
wraps. -/
inductive Profile
  | debug
  | release
  deriving DecidableEq, Repr

/-- `x + 1` on a `u32` under a build profile; `none` is the debug build's panic. -/
def Profile.addOne : Profile → UInt32 → Option UInt32
  | .debug, x => if x.toNat + 1 < UInt32.size then some (x + 1) else none
  | .release, x => some (x + 1)

theorem Profile.addOne_of_lt (p : Profile) {x : UInt32} (h : x.toNat + 1 < UInt32.size) :
    p.addOne x = some (x + 1) ∧ (x + 1).toNat = x.toNat + 1 := by
  refine ⟨by cases p <;> simp [addOne, h], ?_⟩
  show (x.toBitVec + (1 : UInt32).toBitVec).toNat = _
  rw [BitVec.toNat_add]
  exact Nat.mod_eq_of_lt h

theorem Profile.toNat_add_one (x : UInt32) : (x + 1).toNat = (x.toNat + 1) % UInt32.size := by
  show (x.toBitVec + (1 : UInt32).toBitVec).toNat = _
  rw [BitVec.toNat_add]
  rfl

/-- `TaskDef`: one `[[task]]` entry of a job file. -/
structure TaskDef (Config DataDep : Type) where
  id : Option JobTaskId
  config : Config
  deps : List JobTaskId
  dataDeps : List DataDep

/-- `TaskWithDependencies`: one task of the submitted graph. -/
structure TaskWithDependencies (Flags Desc DataDep : Type) where
  id : JobTaskId
  dataFlags : Flags
  taskDesc : Desc
  taskDeps : List JobTaskId
  dataDeps : List DataDep

/-- `Ord::max` on `Option<JobTaskId>`, where `None` is below every `Some`; of two equal
values it returns the second. -/
def maxOption : Option JobTaskId → Option JobTaskId → Option JobTaskId
  | none, b => b
  | some a, none => some a
  | some a, some b => some (if a ≤ b then b else a)

/-! ## Task descriptions -/

/-- `StdioDefInput`: what a job file says about a stream. -/
inductive StdioDefInput (OnClose : Type)
  | none
  | path (path : String)
  | full (path : String) (onClose : OnClose)
  deriving DecidableEq, Repr

/-- `StdioDef`: where a task's stream goes. -/
inductive StdioDef (OnClose : Type)
  | null
  | pipe
  | file (path : String) (onClose : OnClose)
  deriving DecidableEq, Repr

/-- `PinModeDef` of a job file, and tako's `PinMode`. -/
inductive PinModeDef
  | none
  | taskSet
  | openMP
  deriving DecidableEq, Repr

inductive PinMode
  | none
  | taskSet
  | openMP
  deriving DecidableEq, Repr

/-- `TaskConfigDef`: a task's configuration in a job file. `time_limit` is in seconds. -/
structure TaskConfigDef (OnClose RequestDef : Type) where
  command : List String
  env : List (String × String)
  stdout : Option (StdioDefInput OnClose)
  stderr : Option (StdioDefInput OnClose)
  stdin : Option String
  cwd : Option String
  pin : PinModeDef
  taskDir : Bool
  request : List RequestDef
  timeLimit : Option Nat
  priority : Int
  crashLimit : Nat

/-- `ProgramDefinition`. -/
structure ProgramDefinition (OnClose : Type) where
  args : List String
  env : List (String × String)
  stdout : StdioDef OnClose
  stderr : StdioDef OnClose
  stdin : List UInt8
  cwd : String

/-- `TaskKindProgram`. -/
structure TaskKindProgram (OnClose : Type) where
  program : ProgramDefinition OnClose
  pinMode : PinMode
  taskDir : Bool

/-- `TaskDescription`, whose kind is always an external program here. -/
structure TaskDescription (OnClose Request : Type) where
  kind : TaskKindProgram OnClose
  resources : List Request
  timeLimit : Option Nat
  priority : Int
  crashLimit : Nat

section Description

variable {OnClose RequestDef Request : Type} [Inhabited OnClose] [Inhabited Request]

/-- `create_stdio`: an unset stream goes to a pipe for a log and to the default file otherwise;
the file's on-close behaviour is `FileOnCloseBehavior::default()` unless given. -/
def createStdio (stdio : Option (StdioDefInput OnClose)) (default : String) (isLog : Bool) :
    StdioDef OnClose :=
  match stdio with
  | none => if isLog then .pipe else .file default Inhabited.default
  | some .none => .null
  | some (.path path) => .file path Inhabited.default
  | some (.full path onClose) => .file path onClose

/-- `build_task_description`, with `DEFAULT_STDOUT_PATH`, `DEFAULT_STDERR_PATH`, the current
directory and `into_request` as parameters. -/
def buildTaskDescription (intoRequest : RequestDef → Request)
    (defaultStdoutPath defaultStderrPath currentDir : String) (cfg : TaskConfigDef OnClose RequestDef) :
    TaskDescription OnClose Request where
  kind :=
    { program :=
        { args := cfg.command
          env := cfg.env
          stdout := createStdio cfg.stdout defaultStdoutPath false
          stderr := createStdio cfg.stderr defaultStderrPath false
          stdin := (cfg.stdin.map fun s => s.toUTF8.toList).getD []
          cwd := cfg.cwd.getD currentDir }
      pinMode := match cfg.pin with
        | .none => .none
        | .taskSet => .taskSet
        | .openMP => .openMP
      taskDir := cfg.taskDir }
  resources := if cfg.request.isEmpty then [Inhabited.default] else cfg.request.map intoRequest
  timeLimit := cfg.timeLimit
  priority := cfg.priority
  crashLimit := cfg.crashLimit

end Description

section Build

variable {Config Desc DataDep Flags : Type} (buildTaskDescription : Config → Desc)
  (p : Profile) (dataFlags : Flags)

/-- `tasks.iter().map(|t| t.id).max().flatten().unwrap_or(JobTaskId(0))`: `max` folds the
iterator, and is `None` when it is empty. -/
def initialMaxId (tasks : List (TaskDef Config DataDep)) : JobTaskId :=
  ((tasks.map (·.id)).foldl (fun m id => some (m.elim id (maxOption · id))) none).join.getD 0

/-- `build_task`: the task, and `max_id` after it. -/
def buildTask (tdef : TaskDef Config DataDep) (maxId : JobTaskId) :
    Option (TaskWithDependencies Flags Desc DataDep × JobTaskId) := do
  let (id, maxId) ← match tdef.id with
    | some id => pure (id, maxId)
    | none => do
      let maxId ← p.addOne maxId
      pure (maxId, maxId)
  pure (⟨id, dataFlags, buildTaskDescription tdef.config, tdef.deps, tdef.dataDeps⟩, maxId)

/-- `tasks.into_iter().map(|t| build_task(t, &mut max_id, data_flags)).collect()`. -/
def buildTasks : List (TaskDef Config DataDep) → JobTaskId →
    Option (List (TaskWithDependencies Flags Desc DataDep))
  | [], _ => some []
  | tdef :: tdefs, maxId => do
    let (task, maxId) ← buildTask buildTaskDescription p dataFlags tdef maxId
    let tasks ← buildTasks tdefs maxId
    pure (task :: tasks)

/-- `build_job_desc_individual_tasks`: the tasks of the `Graph`. -/
def buildJobDescIndividualTasks (tasks : List (TaskDef Config DataDep)) :
    Option (List (TaskWithDependencies Flags Desc DataDep)) :=
  buildTasks buildTaskDescription p dataFlags tasks (initialMaxId tasks)

/-! ## The largest given id -/

/-- The number an optional id stands for in `max_id`, `0` for none. -/
def idValue (o : Option JobTaskId) : Nat := (o.map UInt32.toNat).getD 0

theorem idValue_maxOption (a b : Option JobTaskId) :
    idValue (maxOption a b) = max (idValue a) (idValue b) := by
  cases a with
  | none => simp [maxOption, idValue]
  | some a =>
    cases b with
    | none => simp [maxOption, idValue]
    | some b =>
      simp only [maxOption, idValue, Option.map_some', Option.getD_some]
      split
      · exact (Nat.max_eq_right ‹a ≤ b›).symm
      · exact (Nat.max_eq_left (Nat.le_of_lt (Nat.lt_of_not_le ‹¬a ≤ b›))).symm

theorem idValue_le_foldl (l : List (Option JobTaskId)) (acc : Option JobTaskId) :
    ∀ o ∈ acc :: l, idValue o ≤ idValue (l.foldl maxOption acc) := by
  induction l generalizing acc with
  | nil => intro o ho; rw [List.mem_singleton.1 ho]; rfl
  | cons x l ih =>
    have hacc := ih (maxOption acc x) _ (List.mem_cons_self _ _)
    rw [idValue_maxOption] at hacc
    intro o ho
    rcases List.mem_cons.1 ho with rfl | ho
    · exact (le_max_left _ _).trans hacc
    rcases List.mem_cons.1 ho with rfl | ho
    · exact (le_max_right _ _).trans hacc
    · exact ih _ o (List.mem_cons_of_mem _ ho)

/-- `max().flatten()` is the fold of `maxOption` from `None`, the least value. -/
theorem initialMaxId_eq (tasks : List (TaskDef Config DataDep)) :
    initialMaxId tasks = ((tasks.map (·.id)).foldl maxOption none).getD 0 := by
  have hsome : ∀ (l : List (Option JobTaskId)) acc,
      l.foldl (fun m id => some (m.elim id (maxOption · id))) (some acc) = some (l.foldl maxOption acc) := by
    intro l
    induction l with
    | nil => intro; rfl
    | cons x l ih => intro acc; exact ih _
  rw [initialMaxId]
  cases tasks.map (·.id) with
  | nil => rfl
  | cons x l => rw [List.foldl_cons, List.foldl_cons, Option.elim_none, hsome]; rfl

/-- Every given id is at most `max_id`'s start. -/
theorem le_initialMaxId (tasks : List (TaskDef Config DataDep)) (v : JobTaskId)
    (hv : some v ∈ tasks.map (·.id)) : v.toNat ≤ (initialMaxId tasks).toNat := by
  have := idValue_le_foldl (tasks.map (·.id)) none _ (List.mem_cons_of_mem _ hv)
  rw [initialMaxId_eq]
  cases h : (tasks.map (·.id)).foldl maxOption none with
  | none => rw [h] at this; exact this
  | some m => rw [h] at this; exact this

/-! ## The ids, when the counter does not overflow -/

/-- The ids the entries receive when no addition overflows: a given id is kept, and the entries
without one get `m + 1`, `m + 2`, … in order. -/
def assignIds : Nat → List (Option JobTaskId) → List Nat
  | _, [] => []
  | m, some id :: ids => id.toNat :: assignIds m ids
  | m, none :: ids => (m + 1) :: assignIds (m + 1) ids

theorem mem_assignIds {m x : Nat} {ids : List (Option JobTaskId)} (hx : x ∈ assignIds m ids) :
    (∃ v, some v ∈ ids ∧ v.toNat = x) ∨ m < x := by
  induction ids generalizing m with
  | nil => simp [assignIds] at hx
  | cons o ids ih =>
    cases o with
    | some v =>
      rcases List.mem_cons.1 hx with rfl | hx
      · exact .inl ⟨v, List.mem_cons_self _ _, rfl⟩
      · exact (ih hx).imp (fun ⟨w, hw, hwx⟩ => ⟨w, List.mem_cons_of_mem _ hw, hwx⟩) id
    | none =>
      rcases List.mem_cons.1 hx with rfl | hx
      · exact .inr (Nat.lt_succ_self _)
      · exact (ih hx).imp (fun ⟨w, hw, hwx⟩ => ⟨w, List.mem_cons_of_mem _ hw, hwx⟩)
          (Nat.lt_of_succ_lt)

/-- Distinct given ids, all at most `m`, give distinct ids. -/
theorem assignIds_nodup (m : Nat) (ids : List (Option JobTaskId))
    (hle : ∀ v, some v ∈ ids → v.toNat ≤ m) (hnd : (ids.filterMap id).Nodup) :
    (assignIds m ids).Nodup := by
  induction ids generalizing m with
  | nil => exact List.nodup_nil
  | cons o ids ih =>
    have hle' : ∀ v, some v ∈ ids → v.toNat ≤ m := fun v hv => hle v (List.mem_cons_of_mem _ hv)
    cases o with
    | some v =>
      rw [show (some v :: ids).filterMap id = v :: ids.filterMap id from rfl, List.nodup_cons] at hnd
      refine List.nodup_cons.2 ⟨fun hv => ?_, ih m hle' hnd.2⟩
      rcases mem_assignIds hv with ⟨w, hw, hwv⟩ | hlt
      · obtain rfl : w = v := UInt32.toNat.inj hwv
        exact hnd.1 (List.mem_filterMap.2 ⟨_, hw, rfl⟩)
      · exact absurd (hle v (List.mem_cons_self _ _)) (Nat.not_le_of_lt hlt)
    | none =>
      rw [show (none :: ids).filterMap id = ids.filterMap id from rfl] at hnd
      refine List.nodup_cons.2 ⟨fun hm => ?_, ih (m + 1) (fun v hv => (hle' v hv).trans
        (Nat.le_succ m)) hnd⟩
      rcases mem_assignIds hm with ⟨w, hw, hwm⟩ | hlt
      · exact absurd (hle' w hw) (by omega)
      · exact absurd hlt (Nat.lt_irrefl _)

/-- The loop over the entries from a counter at `m`, when the counter stays below `2³²`. -/
theorem buildTasks_of_lt (tdefs : List (TaskDef Config DataDep)) (m : JobTaskId)
    (h : m.toNat + (tdefs.map (·.id)).countP (·.isNone) < UInt32.size) :
    ∃ tasks, buildTasks buildTaskDescription p dataFlags tdefs m = some tasks ∧
      tasks.map (fun t => (t.dataFlags, t.taskDesc, t.taskDeps, t.dataDeps)) =
        tdefs.map (fun t => (dataFlags, buildTaskDescription t.config, t.deps, t.dataDeps)) ∧
      tasks.map (·.id.toNat) = assignIds m.toNat (tdefs.map (·.id)) := by
  induction tdefs generalizing m with
  | nil => exact ⟨[], rfl, rfl, rfl⟩
  | cons tdef tdefs ih =>
    cases hid : tdef.id with
    | some v =>
      have hcount : (tdefs.map (·.id)).countP (·.isNone) = ((tdef :: tdefs).map (·.id)).countP (·.isNone) := by
        simp [hid]
      obtain ⟨tasks, hb, hrest, hids⟩ := ih m (hcount ▸ h)
      refine ⟨⟨v, dataFlags, buildTaskDescription tdef.config, tdef.deps, tdef.dataDeps⟩ :: tasks,
        ?_, by simp [hrest], by simp [hids, hid, assignIds]⟩
      simp [buildTasks, buildTask, hid, hb]
    | none =>
      have hcount : ((tdef :: tdefs).map (·.id)).countP (·.isNone) = (tdefs.map (·.id)).countP (·.isNone) + 1 := by
        simp [hid]
      obtain ⟨hadd, hnext⟩ := p.addOne_of_lt (x := m) (by omega)
      obtain ⟨tasks, hb, hrest, hids⟩ := ih (m + 1) (by omega)
      refine ⟨⟨m + 1, dataFlags, buildTaskDescription tdef.config, tdef.deps, tdef.dataDeps⟩ :: tasks,
        ?_, by simp [hrest], by simp [hids, hid, assignIds, hnext]⟩
      simp [buildTasks, buildTask, hid, hadd, hb]

/-- **Task ids.** If `max + k < 2³²`, where `max` is the largest given id (or `0`) and `k` the
number of entries without one, either build returns one task per entry, in order, with the
entry's description and dependencies; the given ids are kept, the others are `max + 1`,
`max + 2`, … in order; and distinct given ids make all ids distinct. -/
theorem buildJobDescIndividualTasks_ids (tasks : List (TaskDef Config DataDep))
    (h : (initialMaxId tasks).toNat + (tasks.map (·.id)).countP (·.isNone) < UInt32.size) :
    ∃ graph, buildJobDescIndividualTasks buildTaskDescription p dataFlags tasks = some graph ∧
      graph.map (fun t => (t.dataFlags, t.taskDesc, t.taskDeps, t.dataDeps)) =
        tasks.map (fun t => (dataFlags, buildTaskDescription t.config, t.deps, t.dataDeps)) ∧
      graph.map (·.id.toNat) = assignIds (initialMaxId tasks).toNat (tasks.map (·.id)) ∧
      (((tasks.map (·.id)).filterMap id).Nodup → (graph.map (·.id)).Nodup) := by
  obtain ⟨graph, hb, hrest, hids⟩ := buildTasks_of_lt buildTaskDescription p dataFlags tasks _ h
  refine ⟨graph, hb, hrest, hids, fun hnd => ?_⟩
  have := assignIds_nodup _ _ (le_initialMaxId tasks) hnd
  rw [← hids] at this
  exact List.Nodup.of_map UInt32.toNat (by rw [List.map_map]; exact this)

/-! ## Every list of entries, in both builds -/

/-- The ids modulo `2³²` depend on the counter's start modulo `2³²` only. -/
theorem assignIds_mod (m : Nat) (ids : List (Option JobTaskId)) :
    (assignIds (m % UInt32.size) ids).map (· % UInt32.size) =
      (assignIds m ids).map (· % UInt32.size) := by
  induction ids generalizing m with
  | nil => rfl
  | cons o ids ih =>
    cases o with
    | some v => simp only [assignIds, List.map_cons, ih]
    | none =>
      simp only [assignIds, List.map_cons, Nat.mod_add_mod]
      rw [← ih (m % UInt32.size + 1), Nat.mod_add_mod, ih]

theorem isSome_bind_some {α β : Type} (o : Option α) (f : α → β) :
    (o.bind fun a => some (f a)).isSome = o.isSome := by
  cases o <;> rfl

/-- In a debug build the loop returns exactly when its counter stays below `2³²`. -/
theorem buildTasks_debug_isSome (tdefs : List (TaskDef Config DataDep)) (m : JobTaskId) :
    (buildTasks buildTaskDescription .debug dataFlags tdefs m).isSome ↔
      m.toNat + (tdefs.map (·.id)).countP (·.isNone) < UInt32.size := by
  induction tdefs generalizing m with
  | nil => simpa [buildTasks] using m.toNat_lt_size
  | cons tdef tdefs ih =>
    cases hid : tdef.id with
    | some v => simpa [buildTasks, buildTask, hid, isSome_bind_some] using ih m
    | none =>
      by_cases h : m.toNat + 1 < UInt32.size
      · obtain ⟨hadd, hnext⟩ := Profile.addOne_of_lt .debug h
        have := ih (m + 1)
        rw [hnext] at this
        simp only [buildTasks, buildTask, hid, hadd, List.map_cons, List.countP_cons,
          Option.isNone_none, if_true, Option.pure_def, Option.bind_eq_bind, Option.some_bind,
          isSome_bind_some, this]
        omega
      · have hadd : Profile.debug.addOne m = none := by simp [Profile.addOne, h]
        simp only [buildTasks, buildTask, hid, hadd, List.map_cons, List.countP_cons,
          Option.isNone_none, if_true, Option.bind_eq_bind, Option.none_bind, Option.isSome_none]
        exact ⟨fun hf => Bool.noConfusion hf, fun hlt => absurd hlt (by omega)⟩

/-- In a release build the loop always returns; the counter wraps. -/
theorem buildTasks_release (tdefs : List (TaskDef Config DataDep)) (m : JobTaskId) :
    ∃ tasks, buildTasks buildTaskDescription .release dataFlags tdefs m = some tasks ∧
      tasks.map (fun t => (t.dataFlags, t.taskDesc, t.taskDeps, t.dataDeps)) =
        tdefs.map (fun t => (dataFlags, buildTaskDescription t.config, t.deps, t.dataDeps)) ∧
      tasks.map (·.id.toNat) = (assignIds m.toNat (tdefs.map (·.id))).map (· % UInt32.size) := by
  induction tdefs generalizing m with
  | nil => exact ⟨[], rfl, rfl, rfl⟩
  | cons tdef tdefs ih =>
    cases hid : tdef.id with
    | some v =>
      obtain ⟨tasks, hb, hrest, hids⟩ := ih m
      refine ⟨⟨v, dataFlags, buildTaskDescription tdef.config, tdef.deps, tdef.dataDeps⟩ :: tasks,
        by simp [buildTasks, buildTask, hid, hb], by simp [hrest], ?_⟩
      simp [hids, hid, assignIds, Nat.mod_eq_of_lt v.toNat_lt_size]
    | none =>
      obtain ⟨tasks, hb, hrest, hids⟩ := ih (m + 1)
      refine ⟨⟨m + 1, dataFlags, buildTaskDescription tdef.config, tdef.deps, tdef.dataDeps⟩ :: tasks,
        by simp [buildTasks, buildTask, hid, Profile.addOne, hb], by simp [hrest], ?_⟩
      rw [Profile.toNat_add_one, ← assignIds_mod] at hids
      simp [hids, hid, assignIds, Profile.toNat_add_one, assignIds_mod]

/-- **Both builds, every list.** A debug build returns exactly when `max + k < 2³²`; a release
build always returns one task per entry, in order, with the entry's description and
dependencies, keeping the given ids and giving the others `max + 1`, `max + 2`, … modulo
`2³²`. -/
theorem buildJobDescIndividualTasks_builds (tasks : List (TaskDef Config DataDep)) :
    ((buildJobDescIndividualTasks buildTaskDescription .debug dataFlags tasks).isSome ↔
      (initialMaxId tasks).toNat + (tasks.map (·.id)).countP (·.isNone) < UInt32.size) ∧
    ∃ graph, buildJobDescIndividualTasks buildTaskDescription .release dataFlags tasks = some graph ∧
      graph.map (fun t => (t.dataFlags, t.taskDesc, t.taskDeps, t.dataDeps)) =
        tasks.map (fun t => (dataFlags, buildTaskDescription t.config, t.deps, t.dataDeps)) ∧
      graph.map (·.id.toNat) =
        (assignIds (initialMaxId tasks).toNat (tasks.map (·.id))).map (· % UInt32.size) :=
  ⟨buildTasks_debug_isSome buildTaskDescription dataFlags tasks _,
    buildTasks_release buildTaskDescription dataFlags tasks _⟩

end Build

/-- Four entries, two of them without an id. -/
def sampleTasks : List (TaskDef Unit Unit) :=
  [⟨some 3, (), [], []⟩, ⟨none, (), [3], []⟩, ⟨some 1, (), [], []⟩, ⟨none, (), [], []⟩]

/-- The entries without an id get `4` and `5`. -/
theorem buildJobDescIndividualTasks_ids_sample :
    (initialMaxId sampleTasks).toNat + (sampleTasks.map (·.id)).countP (·.isNone) < UInt32.size ∧
    ∃ graph, buildJobDescIndividualTasks id .debug () sampleTasks = some graph ∧
      graph.map (fun t => (t.dataFlags, t.taskDesc, t.taskDeps, t.dataDeps)) =
        sampleTasks.map (fun t => ((), t.config, t.deps, t.dataDeps)) ∧
      graph.map (·.id.toNat) = [3, 4, 1, 5] ∧
      (((sampleTasks.map (·.id)).filterMap id).Nodup → (graph.map (·.id)).Nodup) :=
  ⟨by decide, buildJobDescIndividualTasks_ids id .debug () sampleTasks (by decide)⟩

/-! ## The counter overflows -/

/-- Entries with the ids `u32::MAX` and `0`, and one without an id. -/
def wrapTasks : List (TaskDef Unit Unit) :=
  [⟨some 4294967295, (), [], []⟩, ⟨some 0, (), [], []⟩, ⟨none, (), [], []⟩]

/-- With distinct given ids `u32::MAX` and `0`, a debug build panics on `max_id + 1`, and a
release build gives the third task the id `0` twice over. -/
theorem buildJobDescIndividualTasks_wraps :
    ((wrapTasks.map (·.id)).filterMap id).Nodup ∧
    (buildJobDescIndividualTasks id .debug () wrapTasks).map (·.map (·.id)) = none ∧
    (buildJobDescIndividualTasks id .release () wrapTasks).map (·.map (·.id)) =
      some [4294967295, 0, 0] := by
  decide

/-! ## The submit request -/

/-- `JobId`, a `u32`. -/
abbrev JobId := UInt32

/-- `JobTaskCount`, a `u32`. -/
abbrev JobTaskCount := UInt32

/-- `TaskDataFlags`, a set of bit flags, of which the job file sets only `ENABLE_DATA_LAYER`. -/
structure TaskDataFlags where
  enableDataLayer : Bool
  deriving DecidableEq, Repr

/-- `TaskDataFlags::empty()`. -/
def TaskDataFlags.empty : TaskDataFlags := ⟨false⟩

/-- `flags.insert(TaskDataFlags::ENABLE_DATA_LAYER)`. -/
def TaskDataFlags.insertEnableDataLayer (flags : TaskDataFlags) : TaskDataFlags :=
  { flags with enableDataLayer := true }

/-- `ArrayDef`: the `[array]` table of a job file, with the `IntArray` of its ids if given. -/
structure ArrayDef (IntArray Config : Type) where
  ids : Option IntArray
  entries : List String
  config : Config

/-- `JobDef`: a parsed job file, with the fields `build_job_submit` reads. -/
structure JobDef (IntArray Config DataDep : Type) where
  name : String
  maxFails : Option JobTaskCount
  array : Option (ArrayDef IntArray Config)
  tasks : List (TaskDef Config DataDep)
  dataLayer : Bool
  stream : Option String

/-- `JobTaskDescription`: an array of tasks sharing one description, or a graph of tasks. -/
inductive JobTaskDescription (IntArray Desc Task : Type)
  | array (ids : IntArray) (entries : Option (List String)) (taskDesc : Desc)
  | graph (tasks : List Task)

/-- `JobDescription`. -/
structure JobDescription where
  name : String
  maxFails : Option JobTaskCount

/-- `JobSubmitDescription`. -/
structure JobSubmitDescription (TaskDesc : Type) where
  taskDesc : TaskDesc
  submitDir : String
  streamPath : Option String

/-- `SubmitRequest`. -/
structure SubmitRequest (TaskDesc : Type) where
  jobDesc : JobDescription
  submitDesc : JobSubmitDescription TaskDesc
  jobId : Option JobId

section Submit

variable {IntArray Config Desc DataDep : Type} (fromRange : JobTaskCount → JobTaskCount → IntArray)
  (buildTaskDescription : Config → Desc) (p : Profile) (currentDir : String)

/-- `build_job_desc_array`. `IntArray::from_range` is a parameter; the entries are counted by
`len() as JobTaskCount`, which keeps the count modulo `2³²`. -/
def buildJobDescArray (array : ArrayDef IntArray Config) {Task : Type} :
    JobTaskDescription IntArray Desc Task :=
  let ids := array.ids.getD (fromRange 0 (UInt32.ofNat array.entries.length))
  let entries := if array.entries.isEmpty then none else some array.entries
  .array ids entries (buildTaskDescription array.config)

/-- `build_job_submit`, with `get_current_dir()` as `currentDir`; `none` is a debug build's
panic in `build_job_desc_individual_tasks`. -/
def buildJobSubmit (jdef : JobDef IntArray Config DataDep) (jobId : Option JobId) :
    Option (SubmitRequest
      (JobTaskDescription IntArray Desc (TaskWithDependencies TaskDataFlags Desc DataDep))) := do
  let taskDesc ← match jdef.array with
    | some array => pure (buildJobDescArray fromRange buildTaskDescription array)
    | none =>
      let dataFlags :=
        if jdef.dataLayer then TaskDataFlags.empty.insertEnableDataLayer else TaskDataFlags.empty
      (buildJobDescIndividualTasks buildTaskDescription p dataFlags jdef.tasks).map .graph
  pure ⟨⟨jdef.name, jdef.maxFails⟩, ⟨taskDesc, currentDir, jdef.stream⟩, jobId⟩

end Submit

/-- A job file with both an array of two entries and a `[[task]]` entry submits the array. -/
example :
    (buildJobSubmit (fun start count => (start, count)) id .debug "/home"
      (⟨"job", none, some ⟨none, ["a", "b"], ()⟩, [⟨none, (), [], []⟩], true, none⟩ :
        JobDef (UInt32 × UInt32) Unit Unit) none).map (·.submitDesc.taskDesc) =
      some (.array (0, 2) (some ["a", "b"]) ()) := rfl

end HyperQueue
