import HyperQueue.Autoalloc.State

/-!
# Autoalloc: scheduling new allocations

`schedule_new_allocations` tops a descriptor's queue up to its backlog. It counts the waiting
tasks that a worker of the queue could serve (`count_available_tasks`), and, if there are any,
calls `schedule_allocation` at most `backlog ⊖ queued` times. Each success adds a queued
allocation of `workers_per_alloc` workers and takes that many tasks off the count, and the loop
stops once the count reaches zero. A failure logs `QueueFail` and the loop goes on.

`u32` and `u64` values are natural numbers here, with the wrap-around written out where the code
can overflow: the `usize` count of queued allocations is cast `as u32` before the subtraction,
and the `u64` sum of waiting tasks wraps. `waiting_tasks.saturating_sub(..)` is truncated
subtraction.

**Law (`scheduleNewAllocations_law`).** With `W` the available tasks, `w` the workers per
allocation, `c` the number of calls and `s` the number that succeed: no call if `W = 0`;
`c ≤ backlog ⊖ (queued mod 2³²)`; `(s - 1) · w < W` once `s ≥ 1`; the `i`-th event appended is
the `i`-th call's outcome; the `s` allocations added are queued with `w` workers; and when every
call succeeds, `s = c = min (backlog ⊖ (queued mod 2³²)) ⌈W / w⌉`. It is assembled from the
count of calls (`scheduleNewAllocations_calls`), which holds whatever the answers, and the
log (`scheduleNewAllocations_log`), which needs fresh ids.

**Theorem (`scheduleNewAllocations_law_of_lt`).** For a descriptor holding fewer than `2³²`
queued allocations the cast is exact, and the law holds with `backlog ⊖ queued`; moreover
`s ≤ ⌈W / w⌉`.
-/

namespace HyperQueue

/-- The fields of a job the loop reads: `resources.min_time`, and
`counters.n_waiting_tasks(n_tasks())`, whose code is not among the sources. -/
structure Job where
  minTime : Nat
  nWaitingTasks : UInt32
  deriving DecidableEq, Repr

/-- Whether a worker of the queue can run the job's tasks: the job's minimal time is below the
queue's time limit. -/
def canProvideWorker (job : Job) (queueInfo : QueueInfo) : Bool :=
  job.minTime < queueInfo.timelimit

/-- The waiting tasks of the jobs a worker of the queue can serve, summed as `u64`. -/
def countAvailableTasks (jobs : List Job) (queueInfo : QueueInfo) : Nat :=
  (jobs.map fun job =>
    if canProvideWorker job queueInfo then job.nWaitingTasks.toNat else 0).foldl (· + ·) 0 %
    UInt64.size

/-- What `schedule_allocation` returns on success. -/
structure CreatedAllocation where
  id : AllocationId
  workingDir : String
  deriving DecidableEq, Repr

/-- The answer of `schedule_allocation`: an error (its `{:?}` rendering) or the allocation. -/
abbrev ScheduleResult := Except String CreatedAllocation

/-- The allocation the loop adds for a created one. -/
def newAllocation (workersPerAlloc : Nat) (created : CreatedAllocation) : Allocation where
  id := created.id
  workerCount := workersPerAlloc
  status := .queued
  workingDir := created.workingDir

/-- The event the loop logs for the answer of one call. -/
def scheduleEvent : ScheduleResult → AllocationEvent
  | .ok created => .allocationQueued created.id
  | .error err => .queueFail err

namespace DescriptorState

/-- The loop of `schedule_new_allocations` from call `i` with `n` iterations left and
`waitingTasks` tasks still to cover; `results i` is the answer to call `i`. It returns the
descriptor and the number of calls made. -/
def scheduleLoop (results : Nat → ScheduleResult) (workersPerAlloc : Nat) :
    Nat → Nat → Nat → DescriptorState → DescriptorState × Nat
  | i, 0, _, d => (d, i)
  | i, n + 1, waitingTasks, d =>
    match results i with
    | .ok created =>
      let d := (d.addEvent (.allocationQueued created.id)).addAllocation
        (newAllocation workersPerAlloc created)
      let waitingTasks := waitingTasks - workersPerAlloc
      if waitingTasks = 0 then (d, i + 1)
      else scheduleLoop results workersPerAlloc (i + 1) n waitingTasks d
    | .error err =>
      scheduleLoop results workersPerAlloc (i + 1) n waitingTasks (d.addEvent (.queueFail err))

/-- `allocations_to_create`: `backlog.saturating_sub(allocs_in_queue as u32)`. -/
def allocationsToCreate (d : DescriptorState) : Nat :=
  d.info.backlog.toNat - d.queuedCount % UInt32.size

/-- `schedule_new_allocations`: the descriptor after the loop, and the number of calls made. -/
def scheduleNewAllocations (results : Nat → ScheduleResult) (jobs : List Job)
    (d : DescriptorState) : DescriptorState × Nat :=
  let waitingTasks := countAvailableTasks jobs d.info
  if waitingTasks = 0 then (d, 0)
  else scheduleLoop results d.info.workersPerAlloc.toNat 0 d.allocationsToCreate waitingTasks d

/-! ## The loop -/

section Loop

variable (results : Nat → ScheduleResult) (w : Nat)

/-- How many of the calls `i, …, i + k - 1` succeed. -/
def okCount (i k : Nat) : Nat :=
  (List.range' i k).countP fun j => (results j).isOk

theorem okCount_succ (i k : Nat) :
    okCount results i (k + 1) = (if (results i).isOk then 1 else 0) + okCount results (i + 1) k := by
  simp only [okCount, List.range'_succ, List.countP_cons]
  omega

@[simp] theorem okCount_zero (i : Nat) : okCount results i 0 = 0 := rfl

/-- Unfolding one iteration of the loop. -/
theorem scheduleLoop_succ (i n W : Nat) (d : DescriptorState) :
    scheduleLoop results w i (n + 1) W d =
      match results i with
      | .ok created =>
        if W - w = 0 then ((d.addEvent (.allocationQueued created.id)).addAllocation
          (newAllocation w created), i + 1)
        else scheduleLoop results w (i + 1) n (W - w)
          ((d.addEvent (.allocationQueued created.id)).addAllocation (newAllocation w created))
      | .error err => scheduleLoop results w (i + 1) n W (d.addEvent (.queueFail err)) := rfl

theorem scheduleLoop_calls (i n W : Nat) (d : DescriptorState) :
    i ≤ (scheduleLoop results w i n W d).2 ∧ (scheduleLoop results w i n W d).2 ≤ i + n := by
  induction n generalizing i W d with
  | zero => simp [scheduleLoop]
  | succ n ih =>
    rw [scheduleLoop_succ]
    cases results i with
    | ok created =>
      dsimp only
      split
      · simp
      · have := ih (i + 1) (W - w)
          ((d.addEvent (.allocationQueued created.id)).addAllocation (newAllocation w created))
        omega
    | error err => dsimp only; have := ih (i + 1) W (d.addEvent (.queueFail err)); omega

/-- A loop with an iteration to go makes at least one call. -/
theorem scheduleLoop_calls_succ (i n W : Nat) (d : DescriptorState) :
    i + 1 ≤ (scheduleLoop results w i (n + 1) W d).2 := by
  rw [scheduleLoop_succ]
  cases results i with
  | ok created =>
    dsimp only
    split
    · exact le_rfl
    · exact (scheduleLoop_calls _ _ _ _ _ _).1
  | error err => exact (scheduleLoop_calls _ _ _ _ _ _).1

@[simp] theorem scheduleLoop_info (i n W : Nat) (d : DescriptorState) :
    (scheduleLoop results w i n W d).1.info = d.info := by
  induction n generalizing i W d with
  | zero => rfl
  | succ n ih =>
    rw [scheduleLoop_succ]
    cases results i with
    | ok created => dsimp only; split <;> simp [ih]
    | error err => simp [ih]

theorem range'_sub_eq_cons {i c : Nat} (h : i < c) :
    List.range' i (c - i) = i :: List.range' (i + 1) (c - (i + 1)) := by
  rw [show c - i = c - (i + 1) + 1 by omega, List.range'_succ]

theorem okCount_sub_eq_succ {i c : Nat} (h : i < c) :
    okCount results i (c - i) =
      (if (results i).isOk then 1 else 0) + okCount results (i + 1) (c - (i + 1)) := by
  rw [show c - i = c - (i + 1) + 1 by omega, okCount_succ]

theorem scheduleLoop_events (i n W : Nat) (d : DescriptorState) :
    (scheduleLoop results w i n W d).1.events = d.events ++
      (List.range' i ((scheduleLoop results w i n W d).2 - i)).map (scheduleEvent ∘ results) := by
  induction n generalizing i W d with
  | zero => simp [scheduleLoop]
  | succ n ih =>
    rw [scheduleLoop_succ]
    cases h : results i with
    | ok created =>
      dsimp only
      split
      · simp [scheduleEvent, h]
      · have hc := (scheduleLoop_calls results w (i + 1) n (W - w)
          ((d.addEvent (.allocationQueued created.id)).addAllocation (newAllocation w created))).1
        rw [ih, range'_sub_eq_cons hc]
        simp [scheduleEvent, h]
    | error err =>
      dsimp only
      have hc := (scheduleLoop_calls results w (i + 1) n W (d.addEvent (.queueFail err))).1
      rw [ih, range'_sub_eq_cons hc]
      simp [scheduleEvent, h]

/-- While tasks remain, every success covers `w` of them: the successes before the last one
cover fewer than `W`. -/
theorem scheduleLoop_okCount_mul_lt (i n W : Nat) (d : DescriptorState) (hW : 0 < W) :
    okCount results i ((scheduleLoop results w i n W d).2 - i) * w < W + w := by
  induction n generalizing i W d with
  | zero => simpa [scheduleLoop] using Nat.add_pos_left hW w
  | succ n ih =>
    rw [scheduleLoop_succ]
    cases h : results i with
    | ok created =>
      dsimp only
      split
      · simp [okCount, h, Except.isOk, Except.toBool]
        omega
      · rename_i hw
        set d' := (d.addEvent (.allocationQueued created.id)).addAllocation (newAllocation w created)
        have hc := (scheduleLoop_calls results w (i + 1) n (W - w) d').1
        have := ih (i + 1) (W - w) d' (by omega)
        rw [okCount_sub_eq_succ results hc]
        simp only [h, Except.isOk, Except.toBool, if_true, Nat.add_mul, Nat.one_mul]
        omega
    | error err =>
      dsimp only
      have hc := (scheduleLoop_calls results w (i + 1) n W (d.addEvent (.queueFail err))).1
      have := ih (i + 1) W (d.addEvent (.queueFail err)) hW
      rw [okCount_sub_eq_succ results hc]
      simpa [h, Except.isOk, Except.toBool] using this

/-- When every call succeeds, the loop makes `⌈W / w⌉` calls, or all `n` if that is fewer. -/
theorem scheduleLoop_calls_of_ok (hok : ∀ j, (results j).isOk) (hw : 0 < w) (i n W : Nat)
    (d : DescriptorState) (hW : 0 < W) :
    (scheduleLoop results w i n W d).2 - i = min n ((W + w - 1) / w) := by
  induction n generalizing i W d with
  | zero => simp [scheduleLoop]
  | succ n ih =>
    rw [scheduleLoop_succ]
    cases h : results i with
    | error err => simpa [h, Except.isOk, Except.toBool] using hok i
    | ok created =>
      dsimp only
      split
      · have : (W + w - 1) / w = 1 := Nat.div_eq_of_lt_le (by omega) (by omega)
        simp only [this]
        omega
      · set d' := (d.addEvent (.allocationQueued created.id)).addAllocation (newAllocation w created)
        have hc := (scheduleLoop_calls results w (i + 1) n (W - w) d').1
        have := ih (i + 1) (W - w) d' (by omega)
        have hdiv : (W + w - 1) / w = (W - w + w - 1) / w + 1 := by
          rw [← Nat.add_div_right _ hw]; congr 1; omega
        omega

theorem getAllocation_eq_none_iff {d : DescriptorState} {id : AllocationId} :
    d.getAllocation id = none ↔ ∀ a ∈ d.allocations.toList, a.id ≠ id := by
  simp [getAllocation, AllocationMap.get, List.find?_eq_none]

theorem addAllocation_of_fresh {d : DescriptorState} {a : Allocation}
    (h : d.getAllocation a.id = none) :
    (d.addAllocation a).allocations.toList = d.allocations.toList ++ [a] := by
  simp only [addAllocation_allocations, AllocationMap.insert]
  rw [List.filter_eq_self.2 fun x hx => by simpa using getAllocation_eq_none_iff.1 h x hx]

/-- Distinct calls that succeed answer distinct ids. -/
def DistinctIds : Prop :=
  ∀ j k cj ck, results j = .ok cj → results k = .ok ck → cj.id = ck.id → j = k

theorem distinctIds_single (c : CreatedAllocation) (e : String) :
    DistinctIds fun j => if j = 0 then .ok c else .error e := by
  intro j k _ _ hj hk _
  dsimp only at hj hk
  split_ifs at hj hk with h₁ h₂
  exact h₁.trans h₂.symm

/-- The allocations the calls `i, …, i + k - 1` create, in order. -/
def createdAllocations (i k : Nat) : List Allocation :=
  (List.range' i k).filterMap fun j => (results j).toOption.map (newAllocation w)

/-- With fresh ids, the loop appends the allocations of the successful calls to the map. -/
theorem scheduleLoop_allocations (hd : DistinctIds results) (i n W : Nat) (d : DescriptorState)
    (hf : ∀ j, i ≤ j → ∀ c, results j = .ok c → d.getAllocation c.id = none) :
    (scheduleLoop results w i n W d).1.allocations.toList = d.allocations.toList ++
      createdAllocations results w i ((scheduleLoop results w i n W d).2 - i) := by
  induction n generalizing i W d with
  | zero => simp [scheduleLoop, createdAllocations]
  | succ n ih =>
    rw [scheduleLoop_succ]
    cases h : results i with
    | ok created =>
      dsimp only
      have hnew : ((d.addEvent (.allocationQueued created.id)).addAllocation
          (newAllocation w created)).allocations.toList =
          d.allocations.toList ++ [newAllocation w created] :=
        addAllocation_of_fresh (hf i le_rfl created h)
      split
      · rw [hnew]; simp [createdAllocations, h, Except.toOption]
      · set d' := (d.addEvent (.allocationQueued created.id)).addAllocation (newAllocation w created)
        have hc := (scheduleLoop_calls results w (i + 1) n (W - w) d').1
        rw [ih (i + 1) (W - w) d' fun j hj c hc => ?_, hnew, createdAllocations, createdAllocations,
          range'_sub_eq_cons hc]
        · simp [h, Except.toOption]
        · simp only [d', getAllocation, addAllocation_allocations, addEvent_allocations,
            AllocationMap.get_insert]
          rw [if_neg fun he => by have := hd i j created c h hc he; omega]
          exact hf j (by omega) c hc
    | error err =>
      dsimp only
      have hc := (scheduleLoop_calls results w (i + 1) n W (d.addEvent (.queueFail err))).1
      rw [ih (i + 1) W (d.addEvent (.queueFail err)) fun j hj c hc => hf j (by omega) c hc,
        createdAllocations,
        createdAllocations, range'_sub_eq_cons hc]
      simp [h, Except.toOption]

/-- Failures never end the loop early: it stops before its last iteration only after a success
that leaves no task uncovered. -/
theorem scheduleLoop_early_exit (i n W : Nat) (d : DescriptorState)
    (h : (scheduleLoop results w i n W d).2 < i + n) :
    i < (scheduleLoop results w i n W d).2 ∧
      (results ((scheduleLoop results w i n W d).2 - 1)).isOk ∧
      W ≤ okCount results i ((scheduleLoop results w i n W d).2 - i) * w := by
  induction n generalizing i W d with
  | zero => simp [scheduleLoop] at h
  | succ n ih =>
    rw [scheduleLoop_succ] at h ⊢
    cases hr : results i with
    | ok created =>
      simp only [hr] at h ⊢
      split
      · simp [hr, okCount, Except.isOk, Except.toBool]
        omega
      · rename_i hw
        rw [if_neg hw] at h
        set d' := (d.addEvent (.allocationQueued created.id)).addAllocation (newAllocation w created)
        obtain ⟨hi, hok, hle⟩ := ih (i + 1) (W - w) d' (by omega)
        refine ⟨by omega, hok, ?_⟩
        rw [okCount_sub_eq_succ results (by omega)]
        simp only [hr, Except.isOk, Except.toBool, if_true, Nat.add_mul, Nat.one_mul]
        omega
    | error err =>
      simp only [hr] at h ⊢
      obtain ⟨hi, hok, hle⟩ := ih (i + 1) W (d.addEvent (.queueFail err)) (by omega)
      refine ⟨by omega, hok, ?_⟩
      rw [okCount_sub_eq_succ results (by omega)]
      simpa [hr, Except.isOk, Except.toBool] using hle

/-- Each call adds at most one queued allocation, whatever the ids. -/
theorem queuedCount_scheduleLoop_le (i n W : Nat) (d : DescriptorState) :
    (scheduleLoop results w i n W d).1.queuedCount ≤
      d.queuedCount + ((scheduleLoop results w i n W d).2 - i) := by
  have hadd : ∀ (d : DescriptorState) (a : Allocation),
      (d.addAllocation a).queuedCount ≤ d.queuedCount + 1 := fun d a => by
    have := d.allocations.count_insert a (·.status = .queued)
    simp only [queuedCount, addAllocation_allocations]
    split_ifs at this <;> omega
  induction n generalizing i W d with
  | zero => simp [scheduleLoop]
  | succ n ih =>
    rw [scheduleLoop_succ]
    cases results i with
    | ok created =>
      dsimp only
      have h1 := hadd (d.addEvent (.allocationQueued created.id)) (newAllocation w created)
      split
      · simp only [queuedCount, addEvent_allocations] at h1 ⊢; omega
      · set d' := (d.addEvent (.allocationQueued created.id)).addAllocation (newAllocation w created)
        have := ih (i + 1) (W - w) d'
        have hc := (scheduleLoop_calls results w (i + 1) n (W - w) d').1
        simp only [queuedCount, addEvent_allocations] at h1 this ⊢; omega
    | error err =>
      dsimp only
      have := ih (i + 1) W (d.addEvent (.queueFail err))
      have hc := (scheduleLoop_calls results w (i + 1) n W (d.addEvent (.queueFail err))).1
      simp only [queuedCount, addEvent_allocations] at this ⊢; omega

theorem createdAllocations_succ (i k : Nat) :
    createdAllocations results w i (k + 1) =
      ((results i).toOption.map (newAllocation w)).toList ++ createdAllocations results w (i + 1) k := by
  cases h : results i <;> simp [createdAllocations, List.range'_succ, h, Except.toOption]

/-- The created allocations are queued, one for each successful call. -/
theorem countP_queued_createdAllocations (i k : Nat) :
    (createdAllocations results w i k).countP (·.status = .queued) = okCount results i k := by
  induction k generalizing i with
  | zero => rfl
  | succ k ih =>
    rw [createdAllocations_succ, okCount_succ, List.countP_append, ih]
    cases results i <;> simp [Except.toOption, Except.isOk, Except.toBool, newAllocation]

theorem okCount_of_ok (hok : ∀ j, (results j).isOk) (i k : Nat) : okCount results i k = k := by
  simp [okCount, List.countP_eq_length.2 fun j _ => hok j]

end Loop

/-- A descriptor that holds fewer than `2³²` queued allocations ends the loop with at most
`backlog` of them, or with as many as it had. -/
theorem queuedCount_scheduleNewAllocations_le (results : Nat → ScheduleResult) (jobs : List Job)
    (d : DescriptorState) (hq : d.queuedCount < UInt32.size) :
    (d.scheduleNewAllocations results jobs).1.queuedCount ≤
      max d.queuedCount d.info.backlog.toNat := by
  dsimp only [scheduleNewAllocations]
  split
  · exact le_max_left _ _
  · have h := queuedCount_scheduleLoop_le results d.info.workersPerAlloc.toNat 0
      d.allocationsToCreate (countAvailableTasks jobs d.info) d
    have hc := (scheduleLoop_calls results d.info.workersPerAlloc.toNat 0 d.allocationsToCreate
      (countAvailableTasks jobs d.info) d).2
    simp only [allocationsToCreate, Nat.mod_eq_of_lt hq] at h hc ⊢
    omega

/-- With fresh ids, `schedule_new_allocations` appends one event per call, in call order, and
the allocations of the successful calls. -/
theorem scheduleNewAllocations_log (results : Nat → ScheduleResult) (jobs : List Job)
    (d : DescriptorState) (hd : DistinctIds results)
    (hf : ∀ j c, results j = .ok c → d.getAllocation c.id = none) :
    (d.scheduleNewAllocations results jobs).1.events = d.events ++
      (List.range (d.scheduleNewAllocations results jobs).2).map (scheduleEvent ∘ results) ∧
    (d.scheduleNewAllocations results jobs).1.allocations.toList = d.allocations.toList ++
      createdAllocations results d.info.workersPerAlloc.toNat 0 (d.scheduleNewAllocations results jobs).2 := by
  simp only [scheduleNewAllocations]
  split
  · simp [createdAllocations]
  · have hev := scheduleLoop_events results d.info.workersPerAlloc.toNat 0 d.allocationsToCreate
      (countAvailableTasks jobs d.info) d
    have hal := scheduleLoop_allocations results d.info.workersPerAlloc.toNat hd 0
      d.allocationsToCreate (countAvailableTasks jobs d.info) d fun j _ c hc => hf j c hc
    rw [Nat.sub_zero, ← List.range_eq_range'] at hev
    rw [Nat.sub_zero] at hal
    exact ⟨hev, hal⟩

@[simp] theorem scheduleNewAllocations_info (results : Nat → ScheduleResult) (jobs : List Job)
    (d : DescriptorState) : (d.scheduleNewAllocations results jobs).1.info = d.info := by
  simp only [scheduleNewAllocations]
  split <;> simp

/-- With fresh ids, each successful call adds one queued allocation. -/
theorem queuedCount_scheduleNewAllocations (results : Nat → ScheduleResult) (jobs : List Job)
    (d : DescriptorState) (hd : DistinctIds results)
    (hf : ∀ j c, results j = .ok c → d.getAllocation c.id = none) :
    (d.scheduleNewAllocations results jobs).1.queuedCount =
      d.queuedCount + okCount results 0 (d.scheduleNewAllocations results jobs).2 := by
  simp only [queuedCount, AllocationMap.count, (scheduleNewAllocations_log results jobs d hd hf).2,
    List.countP_append, countP_queued_createdAllocations]

/-- The calls of `schedule_new_allocations`, whatever the answers: none without available
tasks; at most `allocations_to_create`; a success only while tasks are left uncovered; fewer
calls only once a success covers the tasks; and, when every call succeeds, as many as the
tasks need. -/
theorem scheduleNewAllocations_calls (results : Nat → ScheduleResult) (jobs : List Job)
    (d : DescriptorState) :
    let W := countAvailableTasks jobs d.info
    let w := d.info.workersPerAlloc.toNat
    let c := (d.scheduleNewAllocations results jobs).2
    let s := okCount results 0 c
    (W = 0 → c = 0) ∧ c ≤ d.allocationsToCreate ∧ (1 ≤ s → (s - 1) * w < W) ∧
    (0 < W → c < d.allocationsToCreate → 0 < c ∧ (results (c - 1)).isOk ∧ W ≤ s * w) ∧
    ((∀ j, (results j).isOk) → 0 < w → s = c ∧ c = min d.allocationsToCreate ((W + w - 1) / w)) := by
  intro W w c s
  by_cases hW : W = 0
  · have hc : c = 0 := by simp [c, scheduleNewAllocations, show countAvailableTasks jobs d.info = 0 from hW]
    refine ⟨fun _ => hc, by omega, by simp [s, hc], fun h => absurd hW (by omega), fun _ hw => ?_⟩
    have : (w - 1) / w = 0 := Nat.div_eq_of_lt (by omega)
    simp [s, hc, hW, this]
  · have hc : c = (scheduleLoop results w 0 d.allocationsToCreate W d).2 := by
      simp [c, scheduleNewAllocations, show ¬countAvailableTasks jobs d.info = 0 from hW, w, W]
    have hcalls := scheduleLoop_calls results w 0 d.allocationsToCreate W d
    have hmul := scheduleLoop_okCount_mul_lt results w 0 d.allocationsToCreate W d (by omega)
    rw [← hc] at hcalls
    rw [← hc, Nat.sub_zero] at hmul
    refine ⟨fun h => absurd h hW, by omega, fun hs => ?_, fun _ hlt => ?_, fun hok hw => ?_⟩
    · show (okCount results 0 c - 1) * w < W
      rw [Nat.sub_one_mul]; omega
    · have := scheduleLoop_early_exit results w 0 d.allocationsToCreate W d (by omega)
      rwa [← hc, Nat.sub_zero] at this
    · have := scheduleLoop_calls_of_ok results w hok hw 0 d.allocationsToCreate W d (by omega)
      rw [← hc, Nat.sub_zero] at this
      exact ⟨okCount_of_ok results hok 0 c, this⟩

/-- **The scheduling law.** `W` is the count of available tasks, `w` the workers per
allocation, `c` the number of `schedule_allocation` calls and `s` the number that succeed;
the ids of successful calls are distinct and not in the map. -/
theorem scheduleNewAllocations_law (results : Nat → ScheduleResult) (jobs : List Job)
    (d : DescriptorState) (hd : DistinctIds results)
    (hf : ∀ j c, results j = .ok c → d.getAllocation c.id = none) :
    let W := countAvailableTasks jobs d.info
    let w := d.info.workersPerAlloc.toNat
    let d' := (d.scheduleNewAllocations results jobs).1
    let c := (d.scheduleNewAllocations results jobs).2
    let s := okCount results 0 c
    (W = 0 → c = 0) ∧ c ≤ d.allocationsToCreate ∧ (1 ≤ s → (s - 1) * w < W) ∧
    (0 < W → c < d.allocationsToCreate → 0 < c ∧ (results (c - 1)).isOk ∧ W ≤ s * w) ∧
    d'.info = d.info ∧
    d'.events = d.events ++ (List.range c).map (scheduleEvent ∘ results) ∧
    d'.allocations.toList = d.allocations.toList ++ createdAllocations results w 0 c ∧
    d'.queuedCount = d.queuedCount + s ∧
    ((∀ j, (results j).isOk) → 0 < w → s = c ∧ c = min d.allocationsToCreate ((W + w - 1) / w)) :=
  have ⟨h0, hle, hmul, hexit, hok⟩ := scheduleNewAllocations_calls results jobs d
  have ⟨hev, hal⟩ := scheduleNewAllocations_log results jobs d hd hf
  ⟨h0, hle, hmul, hexit, scheduleNewAllocations_info results jobs d, hev, hal,
    queuedCount_scheduleNewAllocations results jobs d hd hf, hok⟩

/-- The law for a new descriptor of backlog two and one worker per allocation, three tasks,
and a handler that succeeds once and then fails: the calls' events, in order. -/
theorem scheduleNewAllocations_law_single :
    DistinctIds (fun j => if j = 0 then .ok ⟨"a", ""⟩ else .error "") ∧
    (∀ j c, (if j = 0 then .ok ⟨"a", ""⟩ else .error "" : ScheduleResult) = .ok c →
      (new ⟨2, 1, 1⟩).getAllocation c.id = none) ∧
    ((new ⟨2, 1, 1⟩).scheduleNewAllocations (fun j => if j = 0 then .ok ⟨"a", ""⟩ else .error "")
      [⟨0, 3⟩]).1.events =
      (List.range ((new ⟨2, 1, 1⟩).scheduleNewAllocations
        (fun j => if j = 0 then .ok ⟨"a", ""⟩ else .error "") [⟨0, 3⟩]).2).map
        (scheduleEvent ∘ fun j => if j = 0 then .ok ⟨"a", ""⟩ else .error "") :=
  ⟨distinctIds_single _ _, fun _ _ _ => rfl,
    (scheduleNewAllocations_law _ [⟨0, 3⟩] (new ⟨2, 1, 1⟩) (distinctIds_single _ _)
      fun _ _ _ => rfl).2.2.2.2.2.1⟩

/-- Five tasks, two workers per allocation and a backlog of five: three calls, `⌈5 / 2⌉`. -/
example : ((new ⟨5, 2, 60⟩).scheduleNewAllocations (fun j => .ok ⟨toString j, ""⟩) [⟨0, 5⟩]).2 = 3 := by
  decide

/-! ## The law with `backlog ⊖ queued`

`allocs_in_queue as u32` keeps the count's low 32 bits, so the law reads with
`backlog ⊖ queued` for every descriptor holding fewer than `2³²` queued allocations: every
queue a server can hold, since each allocation is a job submitted to the manager. The premise is
where the cast is exact, and is not dropped: with `2³²` queued allocations the loop still calls
the handler (`scheduleNewAllocations_calls_of_wrap`). -/

/-- A success count whose calls leave tasks uncovered is at most `⌈W / w⌉`. -/
theorem le_ceil_of_pred_mul_lt {s w W : Nat} (hw : 0 < w) (h : 1 ≤ s → (s - 1) * w < W) :
    s ≤ (W + w - 1) / w := by
  rcases Nat.eq_zero_or_pos s with rfl | hs
  · exact Nat.zero_le _
  · have hsw : s * w = (s - 1) * w + w := by
      rw [Nat.sub_one_mul, Nat.sub_add_cancel (Nat.le_mul_of_pos_left w hs)]
    rw [Nat.le_div_iff_mul_le hw]
    have := h hs
    omega

/-- **The scheduling law, for every queue the code can hold.** With `q < 2³²` queued
allocations, backlog `b`, `W` available tasks and `w` workers per allocation, of the `c` calls
`s` succeed: `c ≤ b ⊖ q`, no call without tasks, `s ≤ ⌈W / w⌉`, a failure does not end the
loop, the events and the allocations are the calls' in order, and with every call successful,
`s = c = min (b ⊖ q) ⌈W / w⌉` and the queue ends with `q + s` queued allocations. -/
theorem scheduleNewAllocations_law_of_lt (results : Nat → ScheduleResult) (jobs : List Job)
    (d : DescriptorState) (hq : d.queuedCount < UInt32.size) (hd : DistinctIds results)
    (hf : ∀ j c, results j = .ok c → d.getAllocation c.id = none) :
    let W := countAvailableTasks jobs d.info
    let w := d.info.workersPerAlloc.toNat
    let b := d.info.backlog.toNat
    let q := d.queuedCount
    let d' := (d.scheduleNewAllocations results jobs).1
    let c := (d.scheduleNewAllocations results jobs).2
    let s := okCount results 0 c
    (W = 0 → c = 0) ∧ c ≤ b - q ∧ (1 ≤ s → (s - 1) * w < W) ∧ (0 < w → s ≤ (W + w - 1) / w) ∧
    (0 < W → c < b - q → 0 < c ∧ (results (c - 1)).isOk ∧ W ≤ s * w) ∧
    d'.events = d.events ++ (List.range c).map (scheduleEvent ∘ results) ∧
    d'.allocations.toList = d.allocations.toList ++ createdAllocations results w 0 c ∧
    d'.queuedCount = q + s ∧
    ((∀ j, (results j).isOk) → 0 < w → s = c ∧ c = min (b - q) ((W + w - 1) / w)) := by
  intro W w b q d' c s
  have hA : d.allocationsToCreate = b - q := by rw [allocationsToCreate, Nat.mod_eq_of_lt hq]
  obtain ⟨h0, hle, hmul, hexit, hok⟩ := scheduleNewAllocations_calls results jobs d
  obtain ⟨hev, hal⟩ := scheduleNewAllocations_log results jobs d hd hf
  rw [hA] at hle hexit hok
  exact ⟨h0, hle, hmul, fun hw => le_ceil_of_pred_mul_lt hw hmul, hexit, hev, hal,
    queuedCount_scheduleNewAllocations results jobs d hd hf, hok⟩

/-- A queue of backlog four holding one queued allocation, two workers per allocation and five
tasks, with a handler that succeeds once and then fails: three calls, the failures after the
success included, within `backlog ⊖ queued`. -/
theorem scheduleNewAllocations_law_of_lt_queued :
    let d := (new ⟨4, 2, 60⟩).addAllocation ⟨"a", 2, .queued, ""⟩
    let results : Nat → ScheduleResult := fun j => if j = 0 then .ok ⟨"b", ""⟩ else .error "qsub"
    d.queuedCount < UInt32.size ∧ DistinctIds results ∧
    (∀ j c, results j = .ok c → d.getAllocation c.id = none) ∧
    (d.scheduleNewAllocations results [⟨0, 5⟩]).2 ≤ d.info.backlog.toNat - d.queuedCount ∧
    (d.scheduleNewAllocations results [⟨0, 5⟩]).1.events = d.events ++
      (List.range (d.scheduleNewAllocations results [⟨0, 5⟩]).2).map (scheduleEvent ∘ results) := by
  intro d results
  have hq : d.queuedCount < UInt32.size := by decide
  have hf : ∀ j c, results j = .ok c → d.getAllocation c.id = none := fun j c h => by
    simp only [results] at h; split_ifs at h; cases h; decide
  have h := scheduleNewAllocations_law_of_lt results [⟨0, 5⟩] d hq (distinctIds_single _ _) hf
  exact ⟨hq, distinctIds_single _ _, hf, h.2.1, h.2.2.2.2.2.1⟩

example : (((new ⟨4, 2, 60⟩).addAllocation ⟨"a", 2, .queued, ""⟩).scheduleNewAllocations
    (fun j => if j = 0 then .ok ⟨"b", ""⟩ else .error "qsub") [⟨0, 5⟩]).2 = 3 := by
  decide

/-- With `2³²` queued allocations, backlog one and one task, the loop makes one call. -/
theorem scheduleNewAllocations_calls_of_wrap (results : Nat → ScheduleResult) (jobs : List Job)
    (d : DescriptorState) (hq : d.queuedCount = UInt32.size) (hb : d.info.backlog.toNat = 1)
    (hw : d.info.workersPerAlloc.toNat = 1) (hW : countAvailableTasks jobs d.info = 1)
    (hr : (results 0).isOk) : (d.scheduleNewAllocations results jobs).2 = 1 := by
  cases h : results 0 with
  | error e => simp [h, Except.isOk, Except.toBool] at hr
  | ok c =>
    rw [scheduleNewAllocations, allocationsToCreate, hq, hb, hw, hW, if_neg Nat.one_ne_zero,
      Nat.mod_self, Nat.sub_zero, scheduleLoop_succ, h]
    rfl

end DescriptorState

end HyperQueue
