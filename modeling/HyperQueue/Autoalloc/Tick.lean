import HyperQueue.Autoalloc.Refresh
import HyperQueue.Autoalloc.Schedule

/-!
# Autoalloc: ticks and runs

`process_descriptor` refreshes a descriptor's allocations and then schedules new ones; a tick
does this for every descriptor. A run starts from a descriptor with no allocations and goes
through any number of ticks, each with its own handler answers and its own set of jobs.

**Theorem (`queuedCount_le_backlog`).** In every run in which no status query answers
`Queued` for an allocation that is running, a descriptor never holds more than `backlog` queued
allocations.

The proviso is needed. A refresh writes the answered status over the old one, so a running
allocation can become queued again, and the allocation scheduled meanwhile into its slot is
then one too many (`requeueRun`).

**Theorem (`queuedCount_runTicks_le`).** The excess is bounded by the requeues: along any run,
whatever the answers and ids, the queued allocations number at most `backlog` plus the answers
so far that wrote `Queued` over a running allocation (while that sum stays below `2³²`, where
the `u32` count of `schedule_new_allocations` is exact).

**Theorem (`queuedCount_processDescriptor_eq_backlog`).** The bound is also reached: from a
descriptor within it, a tick without requeues whose scheduling calls all succeed with fresh ids,
and with enough waiting tasks, ends with exactly `backlog` queued allocations.
-/

namespace HyperQueue

/-- The handler's answers during one tick of one descriptor: the status of each allocation id,
and the answer to the `i`-th `schedule_allocation` call. A tick asks for the status of each
allocation at most once, so a function of the id is as general as a stream of answers. -/
structure Responses where
  status : AllocationId → StatusResult
  schedule : Nat → ScheduleResult

namespace DescriptorState

/-- `process_descriptor`, for a descriptor that stays present. -/
def processDescriptor (rs : Responses) (jobs : List Job) (d : DescriptorState) :
    DescriptorState :=
  ((d.refreshAllocations rs.status).scheduleNewAllocations rs.schedule jobs).1

@[simp] theorem refreshAllocations_info (status : AllocationId → StatusResult)
    (d : DescriptorState) : (d.refreshAllocations status).info = d.info :=
  refreshAll_info status _ d

@[simp] theorem processDescriptor_info (rs : Responses) (jobs : List Job) (d : DescriptorState) :
    (d.processDescriptor rs jobs).info = d.info := by
  simp [processDescriptor, scheduleNewAllocations, refreshAllocations_eq]
  split <;> simp

/-- `schedule_allocation` answers fresh ids: distinct across calls, and unknown to the
descriptor, which has neither an allocation nor an event with that id. -/
def Fresh (d : DescriptorState) (rs : Responses) : Prop :=
  DistinctIds rs.schedule ∧ ∀ j c, rs.schedule j = .ok c →
    d.getAllocation c.id = none ∧ ∀ e ∈ d.events, e.allocationId? ≠ some c.id

/-- No status answer takes a running allocation back to queued. -/
def NoRequeue (d : DescriptorState) (rs : Responses) : Prop :=
  ∀ a ∈ d.allocations.toList, a.status = .running → rs.status a.id ≠ .ok (some .queued)

/-- The descriptor states of runs from a new descriptor whose ticks' answers satisfy
`Allowed`. -/
inductive Run (Allowed : DescriptorState → Responses → Prop) : DescriptorState → Prop
  | new (info : QueueInfo) : Run Allowed (new info)
  | tick {d : DescriptorState} (rs : Responses) (jobs : List Job) :
      Run Allowed d → Allowed d rs → Run Allowed (d.processDescriptor rs jobs)

/-! ## The backlog bound -/

theorem mem_activeAllocationIds {d : DescriptorState} {id : AllocationId} :
    id ∈ d.activeAllocationIds ↔ ∃ a, d.getAllocation id = some a ∧ a.status.isActive := by
  simp only [activeAllocationIds, List.mem_map, List.mem_filter, getAllocation,
    AllocationMap.get_eq_some_iff]
  constructor
  · rintro ⟨a, ⟨ha, hact⟩, rfl⟩; exact ⟨a, ⟨ha, rfl⟩, hact⟩
  · rintro ⟨a, ⟨ha, rfl⟩, hact⟩; exact ⟨a, ⟨ha, hact⟩, rfl⟩

/-- A refresh never brings back an allocation the map does not hold. -/
theorem refreshAllocations_get_none (status : AllocationId → StatusResult) {d : DescriptorState}
    {aid : AllocationId} (h : d.getAllocation aid = none) :
    (d.refreshAllocations status).getAllocation aid = none := by
  rw [refreshAllocations_eq, getAllocation_refreshAll status (nodup_activeAllocationIds d), h]
  rcases status aid with _ | _ | _ <;> simp [refreshedEntry]

/-- Without requeues, a refresh adds no queued allocation. -/
theorem queuedCount_refreshAllocations_le (rs : Responses) (d : DescriptorState)
    (h : NoRequeue d rs) : (d.refreshAllocations rs.status).queuedCount ≤ d.queuedCount := by
  rw [refreshAllocations_eq]
  refine queuedCount_refreshAll_le _ (nodup_activeAllocationIds d) d fun id hid hq a ha => ?_
  obtain ⟨b, hb, hact⟩ := mem_activeAllocationIds.1 hid
  obtain rfl : b = a := Option.some.inj (hb.symm.trans ha)
  obtain ⟨hmem, rfl⟩ := AllocationMap.get_eq_some_iff.1 ha
  cases hs : b.status with
  | queued => rfl
  | running => exact absurd hq (h b hmem hs)
  | finished | failed => simp [hs, AllocationStatus.isActive] at hact

@[simp] theorem queuedCount_new (info : QueueInfo) : (new info).queuedCount = 0 := rfl

/-- **The backlog bound.** -/
theorem queuedCount_le_backlog {d : DescriptorState} (h : Run NoRequeue d) :
    d.queuedCount ≤ d.info.backlog.toNat := by
  induction h with
  | new info => simp
  | @tick d rs jobs _ hrs ih =>
    have h1 := queuedCount_refreshAllocations_le rs d hrs
    have hlt : (d.refreshAllocations rs.status).queuedCount < UInt32.size := by
      have := d.info.backlog.toNat_lt_size; omega
    have h2 := queuedCount_scheduleNewAllocations_le rs.schedule jobs _ hlt
    simp only [refreshAllocations_eq, refreshAll_info] at h2
    rw [processDescriptor_info]
    exact h2.trans (max_le (h1.trans ih) le_rfl)

/-- After one tick from a new descriptor of backlog four whose handler always succeeds, the
bound holds. -/
theorem queuedCount_le_backlog_first_tick :
    ((new ⟨4, 1, 1⟩).processDescriptor ⟨fun _ => .error "", fun j => .ok ⟨toString j, ""⟩⟩
      [⟨0, 9⟩]).queuedCount ≤ 4 :=
  queuedCount_le_backlog (.tick _ _ (.new _) fun _ h => absurd h (List.not_mem_nil _))

/-- A backlog of four with two workers per allocation fills in one tick and stays full over
three more ticks whose answers are all `Queued`. -/
example :
    let rs : Responses := ⟨fun _ => .ok (some .queued), fun j => .ok ⟨toString j, ""⟩⟩
    let d := (new ⟨4, 2, 60⟩).processDescriptor rs [⟨0, 1000⟩]
    d.allocations.toList.map (·.workerCount) = [2, 2, 2, 2] ∧
      (((d.processDescriptor rs [⟨0, 1000⟩]).processDescriptor rs [⟨0, 1000⟩]).processDescriptor rs
        [⟨0, 1000⟩]).allocations.toList.length = 4 := by
  decide

/-! ## Filling the backlog -/

/-- **Filling the backlog.** From a descriptor holding at most `backlog` queued allocations (as
every descriptor of a run without requeues does), a tick without requeues whose
`schedule_allocation` calls all succeed with fresh ids, with at least one worker per allocation
and at least `backlog × workers_per_alloc` waiting tasks, ends with exactly `backlog` queued
allocations, however many of them started, finished or disappeared in its refresh. -/
theorem queuedCount_processDescriptor_eq_backlog (d : DescriptorState) (rs : Responses)
    (jobs : List Job) (hq : d.queuedCount ≤ d.info.backlog.toNat) (hr : NoRequeue d rs)
    (hf : Fresh d rs) (hok : ∀ j, (rs.schedule j).isOk) (hw : 0 < d.info.workersPerAlloc.toNat)
    (hW : d.info.backlog.toNat * d.info.workersPerAlloc.toNat ≤ countAvailableTasks jobs d.info) :
    (d.processDescriptor rs jobs).queuedCount = d.info.backlog.toNat := by
  set d₁ := d.refreshAllocations rs.status
  have hinfo : d₁.info = d.info := refreshAllocations_info _ _
  have hq₁ : d₁.queuedCount ≤ d.info.backlog.toNat :=
    (queuedCount_refreshAllocations_le rs d hr).trans hq
  obtain ⟨-, hal⟩ := scheduleNewAllocations_log rs.schedule jobs d₁ hf.1
    fun j c h => refreshAllocations_get_none rs.status (hf.2 j c h).1
  have hqueued : (d.processDescriptor rs jobs).queuedCount =
      d₁.queuedCount + okCount rs.schedule 0 (d₁.scheduleNewAllocations rs.schedule jobs).2 := by
    simp only [processDescriptor, queuedCount, AllocationMap.count, hal, List.countP_append,
      countP_queued_createdAllocations, d₁]
  rw [hqueued, okCount_of_ok rs.schedule hok]
  by_cases hW0 : countAvailableTasks jobs d.info = 0
  · /- No waiting task: then the backlog is `0`, and nothing is scheduled. -/
    have hb : d.info.backlog.toNat = 0 :=
      (Nat.mul_eq_zero.1 (Nat.le_zero.1 (hW0 ▸ hW))).resolve_right hw.ne'
    have hc : (d₁.scheduleNewAllocations rs.schedule jobs).2 = 0 := by
      simp [scheduleNewAllocations, hinfo, hW0]
    omega
  · /- The loop makes `min (backlog - queued) ⌈W / w⌉` calls, all successful, and
    `⌈W / w⌉ ≥ backlog`. -/
    have hc := scheduleLoop_calls_of_ok rs.schedule _ hok hw 0 d₁.allocationsToCreate
      (countAvailableTasks jobs d.info) d₁ (Nat.pos_of_ne_zero hW0)
    have hcreate : d₁.allocationsToCreate = d.info.backlog.toNat - d₁.queuedCount := by
      rw [allocationsToCreate, hinfo,
        Nat.mod_eq_of_lt (hq₁.trans_lt d.info.backlog.toNat_lt_size)]
    have hdiv : d.info.backlog.toNat ≤
        (countAvailableTasks jobs d.info + d.info.workersPerAlloc.toNat - 1) /
          d.info.workersPerAlloc.toNat :=
      (Nat.le_div_iff_mul_le hw).2 (by omega)
    simp only [scheduleNewAllocations, hinfo, hW0, if_false]
    rw [Nat.sub_zero] at hc
    rw [hc, hcreate, inf_eq_left.2 (by omega)]
    omega

/-- A new descriptor of backlog two, one worker per allocation, five waiting tasks and a handler
that always succeeds with the distinct ids `a`, `aa`, …: the first tick fills the backlog. -/
theorem queuedCount_processDescriptor_eq_backlog_new :
    let d := new ⟨2, 1, 60⟩
    let rs : Responses :=
      ⟨fun _ => .error "", fun j => .ok ⟨String.mk (List.replicate (j + 1) 'a'), ""⟩⟩
    let jobs : List Job := [⟨0, 5⟩]
    d.queuedCount ≤ d.info.backlog.toNat ∧ NoRequeue d rs ∧ Fresh d rs ∧
      (∀ j, (rs.schedule j).isOk) ∧ 0 < d.info.workersPerAlloc.toNat ∧
      d.info.backlog.toNat * d.info.workersPerAlloc.toNat ≤ countAvailableTasks jobs d.info ∧
      (d.processDescriptor rs jobs).queuedCount = d.info.backlog.toNat := by
  intro d rs jobs
  have hq : d.queuedCount ≤ d.info.backlog.toNat := by decide
  have hr : NoRequeue d rs := fun _ h => absurd h (List.not_mem_nil _)
  have hf : Fresh d rs := by
    refine ⟨fun j k cj ck hj hk he => ?_, fun _ _ _ => ⟨rfl, fun _ h => absurd h (List.not_mem_nil _)⟩⟩
    cases hj
    cases hk
    simpa using congrArg String.length he
  have hok : ∀ j, (rs.schedule j).isOk := fun _ => rfl
  have hw : 0 < d.info.workersPerAlloc.toNat := by decide
  have hW : d.info.backlog.toNat * d.info.workersPerAlloc.toNat ≤ countAvailableTasks jobs d.info := by
    decide
  exact ⟨hq, hr, hf, hok, hw, hW,
    queuedCount_processDescriptor_eq_backlog d rs jobs hq hr hf hok hw hW⟩

/-! ## A requeue breaks the bound -/

/-- A queue of backlog one with one worker per allocation. -/
def requeueInfo : QueueInfo := ⟨1, 1, 1⟩

/-- Five tasks that fit the queue's time limit. -/
def requeueJobs : List Job := [⟨0, 5⟩]

/-- The first tick schedules `a`. -/
def requeueTick₁ : Responses := ⟨fun _ => .error "", fun j => if j = 0 then .ok ⟨"a", ""⟩ else .error ""⟩

/-- The second tick reports `a` running and schedules `b` into the free slot. -/
def requeueTick₂ : Responses :=
  ⟨fun _ => .ok (some .running), fun j => if j = 0 then .ok ⟨"b", ""⟩ else .error ""⟩

/-- The third tick reports both allocations queued. -/
def requeueTick₃ : Responses := ⟨fun _ => .ok (some .queued), fun _ => .error ""⟩

/-- The descriptor after the first two ticks: `a` running and `b` queued. -/
def requeueTwo : DescriptorState :=
  ((new requeueInfo).processDescriptor requeueTick₁ requeueJobs).processDescriptor requeueTick₂
    requeueJobs

/-- The descriptor after the three ticks. -/
def requeueRun : DescriptorState := requeueTwo.processDescriptor requeueTick₃ requeueJobs

theorem run_requeueTwo : Run Fresh requeueTwo := by
  have f₁ : Fresh (new requeueInfo) requeueTick₁ := ⟨distinctIds_single _ _, fun j c h => by
    simp only [requeueTick₁] at h; split_ifs at h; cases h; decide⟩
  have f₂ : Fresh ((new requeueInfo).processDescriptor requeueTick₁ requeueJobs) requeueTick₂ :=
    ⟨distinctIds_single _ _, fun j c h => by
      simp only [requeueTick₂] at h; split_ifs at h; cases h; decide⟩
  exact .tick _ _ (.tick _ _ (.new _) f₁) f₂

theorem run_requeueRun : Run Fresh requeueRun :=
  .tick _ _ run_requeueTwo ⟨fun _ _ _ _ h => (nomatch h), fun _ _ h => (nomatch h)⟩

/-- A run with fresh ids that ends a tick with two queued allocations under a backlog of one. -/
theorem requeueRun_exceeds_backlog :
    Run Fresh requeueRun ∧ requeueRun.queuedCount = 2 ∧ requeueRun.info.backlog.toNat = 1 :=
  ⟨run_requeueRun, by decide, rfl⟩

/-! ## How far requeues take the count -/

/-- The status answers of a tick that write `Queued` over an active allocation that is not
queued, that is over a running one. -/
def requeueCount (d : DescriptorState) (rs : Responses) : Nat :=
  d.activeAllocationIds.countP fun id => requeues (d.getAllocation id) (rs.status id)

/-- A run of ticks from `d`, each with its handler's answers and its jobs. -/
def runTicks : DescriptorState → List (Responses × List Job) → DescriptorState
  | d, [] => d
  | d, (rs, jobs) :: ticks => runTicks (d.processDescriptor rs jobs) ticks

/-- The requeueing answers along a run of ticks. -/
def requeuesAlong : DescriptorState → List (Responses × List Job) → Nat
  | _, [] => 0
  | d, (rs, jobs) :: ticks => d.requeueCount rs + requeuesAlong (d.processDescriptor rs jobs) ticks

/-- One tick, whatever the answers and ids: the refresh adds at most the requeued allocations,
and the scheduling tops the queue up to the backlog at most. -/
theorem queuedCount_processDescriptor_le (d : DescriptorState) (rs : Responses) (jobs : List Job)
    (h : d.queuedCount + d.requeueCount rs < UInt32.size) :
    (d.processDescriptor rs jobs).queuedCount ≤
      max (d.queuedCount + d.requeueCount rs) d.info.backlog.toNat := by
  have h₁ : (d.refreshAllocations rs.status).queuedCount ≤ d.queuedCount + d.requeueCount rs :=
    queuedCount_refreshAll_le_requeues rs.status (nodup_activeAllocationIds d) d
  have h₂ := queuedCount_scheduleNewAllocations_le rs.schedule jobs _ (h₁.trans_lt h)
  rw [refreshAllocations_info] at h₂
  exact h₂.trans (Nat.max_le.2 ⟨h₁.trans (Nat.le_max_left _ _), Nat.le_max_right _ _⟩)

theorem queuedCount_runTicks_le_add (d : DescriptorState) (ticks : List (Responses × List Job))
    (e : Nat) (hq : d.queuedCount ≤ d.info.backlog.toNat + e)
    (h : d.info.backlog.toNat + e + d.requeuesAlong ticks < UInt32.size) :
    (d.runTicks ticks).queuedCount ≤ d.info.backlog.toNat + e + d.requeuesAlong ticks := by
  induction ticks generalizing d e with
  | nil => simpa [runTicks, requeuesAlong] using hq
  | cons t ticks ih =>
    obtain ⟨rs, jobs⟩ := t
    simp only [runTicks, requeuesAlong] at h ⊢
    have h₁ := queuedCount_processDescriptor_le d rs jobs (by omega)
    have h₂ := ih (d.processDescriptor rs jobs) (e + d.requeueCount rs)
      (by rw [processDescriptor_info]; exact h₁.trans (Nat.max_le.2 ⟨by omega, by omega⟩))
      (by rw [processDescriptor_info]; omega)
    rw [processDescriptor_info] at h₂
    omega

/-- **Requeues bound the excess.** Along every run from a new descriptor, whatever the handler
answers and the ids, the descriptor holds at most `backlog` queued allocations plus the number
of status answers so far that wrote `Queued` over a running allocation, as long as that sum
stays below `2³²`. Without such answers this is the backlog bound. -/
theorem queuedCount_runTicks_le (info : QueueInfo) (ticks : List (Responses × List Job))
    (h : info.backlog.toNat + (new info).requeuesAlong ticks < UInt32.size) :
    ((new info).runTicks ticks).queuedCount ≤ info.backlog.toNat + (new info).requeuesAlong ticks :=
  queuedCount_runTicks_le_add (new info) ticks 0 (Nat.zero_le _) h

/-- The run of `requeueRun` reaches the bound: one requeue, and two queued allocations under a
backlog of one. -/
theorem queuedCount_runTicks_le_requeueRun :
    let ticks := [(requeueTick₁, requeueJobs), (requeueTick₂, requeueJobs), (requeueTick₃, requeueJobs)]
    requeueInfo.backlog.toNat + (new requeueInfo).requeuesAlong ticks < UInt32.size ∧
      ((new requeueInfo).runTicks ticks).queuedCount ≤
        requeueInfo.backlog.toNat + (new requeueInfo).requeuesAlong ticks ∧
      (new requeueInfo).requeuesAlong ticks = 1 ∧ ((new requeueInfo).runTicks ticks).queuedCount = 2 := by
  intro ticks
  have h : requeueInfo.backlog.toNat + (new requeueInfo).requeuesAlong ticks < UInt32.size := by
    decide
  exact ⟨h, queuedCount_runTicks_le requeueInfo ticks h, by decide, by decide⟩

end DescriptorState

end HyperQueue
