import HyperQueue.Autoalloc.Tick

/-!
# Autoalloc: the descriptors' futures, interleaved

`autoalloc_tick` creates one `process_descriptor` future per descriptor id and runs them with
`join_all`. The futures suspend at each handler call, and while one is suspended the others,
and any other task of the server, may run. Here every future is a resumable machine: its
`Stage` is the `await` it is suspended at, and `resume` finishes that `await` with the handler's
answer and runs on to the next one. The code reads the descriptor afresh after each `await`
and returns (or skips) when it is gone; `resume` does the same with the descriptor's entry.

A tick is then any sequence of `TickEvent`s: a poll of some future, or the removal of some
descriptor by another task. Descriptor ids are not reused, so nothing adds a descriptor back.

**Theorem (`tick_interleaving`).** For every descriptor snapshot, handler answers and sequence
of events:
* the jobs are unchanged;
* a descriptor that is never removed and whose future is polled `n + b + 1` times, for `n`
  active allocations and backlog `b`, has ended; it holds what `processDescriptor` computes
  from its state at the start of the tick, and its future has made the handler calls that
  `process_descriptor` makes alone, in the same order;
* once a descriptor is removed it stays removed, its future makes no further handler call, and
  a poll of it changes no descriptor and only ends the future.

The second point rests on a measure and a simulation. Each poll lowers a measure of the work
left (`Stage.rank`), so the future ends (`run_of_polls`). Whatever the future's stage,
`finish` and `finishCalls` say what the sequential code still computes and calls from there,
and `resume` leaves both unchanged (`finish_resume`). A future moves only when it is polled, so its part of
any interleaving is a run of it alone (`run_future`).

**Theorem (`run_of_tick`).** The per-descriptor runs of `HyperQueue.Autoalloc.Tick` are
therefore what interleaved ticks produce: a descriptor reachable by runs is reachable after any
interleaved tick in which it is not removed, so every invariant of runs holds at the end of
every tick.

**Theorem (`future_noninterference`).** What a tick does to one descriptor depends only on
its own state, its own handler's answers and the subsequence of events about it: the other
descriptors, their answers and the way their polls interleave with its own change nothing
for it. A run is compared with the run of its events about the descriptor alone
(`run_filter_agree`).

**Theorem (`callsOf_prefix`).** At every point of any interleaving, the calls made for a
descriptor are a prefix of those `process_descriptor` makes alone, removed or not: an invariant
(`CallsInv`) that every event keeps.

**Theorem (`run_extends`).** Along any interleaving, from any state, a descriptor present at
some point was present before with the same queue settings, and its log is the log it had then
followed by new events: the futures only append to the log (`resume_extends`).

**Theorem (`stage_done_of_polls`).** A future ends after at most `n + b + 1` polls,
whatever the interleaving and the removals: `join_all` returns.

**Theorem (`run_eq_processDescriptor`).** Together: when every future is polled that often,
a tick, however interleaved, ends with the removed descriptors gone and every other one holding
what `processDescriptor` computes, as the sequential loop would leave it.

The results are instantiated on a sample tick (`twoDescriptors`, `twoEvents`): two
descriptors with a running and a queued allocation and waiting tasks, whose futures
interleave, one of them removed after its first status query.
-/

namespace HyperQueue

/-- Where a `process_descriptor` future is suspended: not yet polled; awaiting the status of
`allocationId` with `rest` still to query; awaiting call `i` of the scheduling loop with `left`
iterations after it and `waitingTasks` tasks to cover; or finished. -/
inductive Stage
  | start
  | awaitStatus (allocationId : AllocationId) (rest : List AllocationId)
  | awaitSchedule (i left workersPerAlloc waitingTasks : Nat)
  | done
  deriving DecidableEq, Repr

/-- A call to the handler that a future is waiting for. -/
inductive HandlerCall
  | getAllocationStatus (allocationId : AllocationId)
  | scheduleAllocation (i : Nat)
  deriving DecidableEq, Repr

/-- The handler call a future in this stage is waiting for. -/
def Stage.pendingCall : Stage → Option HandlerCall
  | .awaitStatus id _ => some (.getAllocationStatus id)
  | .awaitSchedule i _ _ _ => some (.scheduleAllocation i)
  | .start | .done => none

namespace Stage

/-- The scheduling loop at the top of call `i` with `left` iterations to go: another call
unless the loop is over or the descriptor is gone. -/
def scheduleFrom (o : Option DescriptorState) (i left workersPerAlloc waitingTasks : Nat) :
    Stage :=
  match left, o with
  | 0, _ => .done
  | _ + 1, none => .done
  | left + 1, some _ => .awaitSchedule i left workersPerAlloc waitingTasks

/-- `schedule_new_allocations` up to its first call. -/
def scheduleStart (jobs : List Job) : Option DescriptorState → Stage
  | none => .done
  | some d =>
    let waitingTasks := countAvailableTasks jobs d.info
    if waitingTasks = 0 then .done
    else scheduleFrom (some d) 0 d.allocationsToCreate d.info.workersPerAlloc.toNat waitingTasks

/-- The refresh loop at the top of an iteration with `ids` still to query; after it,
`schedule_new_allocations` starts. -/
def refreshFrom (jobs : List Job) (o : Option DescriptorState) : List AllocationId → Stage
  | [] => scheduleStart jobs o
  | id :: rest => if o.isSome then .awaitStatus id rest else scheduleStart jobs o

end Stage

open Stage

/-- One poll of a `process_descriptor` future: the pending `await` completes with the handler's
answer and the future runs to its next `await`. It returns the descriptor's entry and the new
stage. -/
def resume (rs : Responses) (jobs : List Job) (o : Option DescriptorState) :
    Stage → Option DescriptorState × Stage
  | .start =>
    match o with
    | none => (none, scheduleStart jobs none)
    | some d => (o, refreshFrom jobs o d.activeAllocationIds)
  | .awaitStatus id rest =>
    let o := o.map (·.refreshAllocation id (rs.status id))
    (o, refreshFrom jobs o rest)
  | .awaitSchedule i left w waitingTasks =>
    match o with
    | none => (none, .done)
    | some d =>
      match rs.schedule i with
      | .ok created =>
        let d := (d.addEvent (.allocationQueued created.id)).addAllocation (newAllocation w created)
        let waitingTasks := waitingTasks - w
        (some d, if waitingTasks = 0 then .done
          else scheduleFrom (some d) (i + 1) left w waitingTasks)
      | .error err =>
        let d := d.addEvent (.queueFail err)
        (some d, scheduleFrom (some d) (i + 1) left w waitingTasks)
  | .done => (o, .done)

/-- Once the descriptor is gone, a poll discards the pending answer and ends the future. -/
theorem resume_none (rs : Responses) (jobs : List Job) (st : Stage) :
    resume rs jobs none st = (none, .done) := by
  cases st with
  | awaitStatus id rest => cases rest <;> rfl
  | _ => rfl

/-- A poll changes no queue's settings and only appends to its event log. -/
theorem resume_extends (rs : Responses) (jobs : List Job) (d : DescriptorState) (st : Stage)
    {d' : DescriptorState} (h : (resume rs jobs (some d) st).1 = some d') :
    d'.info = d.info ∧ ∃ new, d'.events = d.events ++ new := by
  cases st with
  | start => cases h; exact ⟨rfl, [], (List.append_nil _).symm⟩
  | awaitStatus id rest =>
    cases h
    exact ⟨DescriptorState.refreshAllocation_info .., _, DescriptorState.refreshAllocation_events ..⟩
  | awaitSchedule i left w waitingTasks =>
    cases hr : rs.schedule i <;> simp only [resume, hr, Option.some.injEq] at h <;> subst h <;> simp
  | done => cases h; exact ⟨rfl, [], (List.append_nil _).symm⟩

/-! ## One future on its own -/

section Alone

variable (rs : Responses) (jobs : List Job)

/-- The calls of a scheduling loop from call `i` up to call `c`. -/
def scheduleCalls (i c : Nat) : List HandlerCall :=
  (List.range' i (c - i)).map .scheduleAllocation

/-- The handler calls `process_descriptor` makes when it runs alone: the status of each active
allocation, in order, then the scheduling loop's calls. -/
def processCalls (d : DescriptorState) : List HandlerCall :=
  d.activeAllocationIds.map .getAllocationStatus ++
    scheduleCalls 0 ((d.refreshAllocations rs.status).scheduleNewAllocations rs.schedule jobs).2

/-- What the sequential code still computes from a stage, for a descriptor that stays. -/
def finish : Stage → DescriptorState → DescriptorState
  | .start, d => d.processDescriptor rs jobs
  | .awaitStatus id rest, d =>
    ((DescriptorState.refreshAll rs.status rest (d.refreshAllocation id (rs.status id))).scheduleNewAllocations
      rs.schedule jobs).1
  | .awaitSchedule i left w waitingTasks, d =>
    (d.scheduleLoop rs.schedule w i (left + 1) waitingTasks).1
  | .done, d => d

/-- The handler calls the sequential code still makes from a stage, after the pending one. -/
def finishCalls : Stage → DescriptorState → List HandlerCall
  | .start, d => processCalls rs jobs d
  | .awaitStatus id rest, d =>
    rest.map .getAllocationStatus ++ scheduleCalls 0
      ((DescriptorState.refreshAll rs.status rest (d.refreshAllocation id (rs.status id))).scheduleNewAllocations
        rs.schedule jobs).2
  | .awaitSchedule i left w waitingTasks, d =>
    scheduleCalls (i + 1) (d.scheduleLoop rs.schedule w i (left + 1) waitingTasks).2
  | .done, _ => []

/-- A stage's pending call, then the calls still to come. -/
def stageCalls (st : Stage) (d : DescriptorState) : List HandlerCall :=
  st.pendingCall.toList ++ finishCalls rs jobs st d

theorem finish_scheduleFrom (d : DescriptorState) (i left w waitingTasks : Nat) :
    finish rs jobs (scheduleFrom (some d) i left w waitingTasks) d =
      (d.scheduleLoop rs.schedule w i left waitingTasks).1 ∧
    stageCalls rs jobs (scheduleFrom (some d) i left w waitingTasks) d =
      scheduleCalls i (d.scheduleLoop rs.schedule w i left waitingTasks).2 := by
  cases left with
  | zero => simp [scheduleFrom, stageCalls, pendingCall, finish, finishCalls, scheduleCalls,
      DescriptorState.scheduleLoop]
  | succ left =>
    refine ⟨rfl, ?_⟩
    have hc := DescriptorState.scheduleLoop_calls_succ rs.schedule w i left waitingTasks d
    simp only [scheduleFrom, stageCalls, pendingCall, finishCalls, scheduleCalls,
      DescriptorState.range'_sub_eq_cons hc]
    rfl

theorem finish_scheduleStart (d : DescriptorState) :
    finish rs jobs (scheduleStart jobs (some d)) d = (d.scheduleNewAllocations rs.schedule jobs).1 ∧
    stageCalls rs jobs (scheduleStart jobs (some d)) d =
      scheduleCalls 0 (d.scheduleNewAllocations rs.schedule jobs).2 := by
  simp only [scheduleStart, DescriptorState.scheduleNewAllocations]
  split
  · exact ⟨rfl, rfl⟩
  · exact finish_scheduleFrom rs jobs d _ _ _ _

theorem finish_refreshFrom (d : DescriptorState) (ids : List AllocationId) :
    finish rs jobs (refreshFrom jobs (some d) ids) d =
      ((DescriptorState.refreshAll rs.status ids d).scheduleNewAllocations rs.schedule jobs).1 ∧
    stageCalls rs jobs (refreshFrom jobs (some d) ids) d =
      ids.map .getAllocationStatus ++ scheduleCalls 0
        ((DescriptorState.refreshAll rs.status ids d).scheduleNewAllocations rs.schedule jobs).2 := by
  cases ids with
  | nil => exact finish_scheduleStart rs jobs d
  | cons id rest => exact ⟨rfl, rfl⟩

/-- **Simulation.** A poll keeps the descriptor, and leaves unchanged what the code still
computes and the calls it still makes, the one it has just made included. -/
theorem finish_resume (st : Stage) (d : DescriptorState) :
    ∃ d', (resume rs jobs (some d) st).1 = some d' ∧
      finish rs jobs (resume rs jobs (some d) st).2 d' = finish rs jobs st d ∧
      stageCalls rs jobs (resume rs jobs (some d) st).2 d' = finishCalls rs jobs st d := by
  cases st with
  | start => exact ⟨d, rfl, finish_refreshFrom rs jobs d _⟩
  | awaitStatus id rest => exact ⟨_, rfl, finish_refreshFrom rs jobs _ rest⟩
  | awaitSchedule i left w waitingTasks =>
    simp only [resume, finish, finishCalls]
    rw [DescriptorState.scheduleLoop_succ]
    cases rs.schedule i with
    | ok created =>
      refine ⟨_, rfl, ?_⟩
      by_cases hw : waitingTasks - w = 0
      · simp [hw, stageCalls, pendingCall, finish, finishCalls, scheduleCalls]
      · simp only [hw, if_false]; exact finish_scheduleFrom rs jobs _ _ _ _ _
    | error err => exact ⟨_, rfl, finish_scheduleFrom rs jobs _ _ _ _ _⟩
  | done => exact ⟨d, rfl, rfl, rfl⟩

/-- `k` polls of one future, with nothing else running: the future's entry and stage after
them, and the calls it makes. -/
def pollAlone : Nat → Option DescriptorState × Stage → (Option DescriptorState × Stage) × List HandlerCall
  | 0, p => (p, [])
  | k + 1, p =>
    let p' := resume rs jobs p.1 p.2
    ((pollAlone k p').1, p'.2.pendingCall.toList ++ (pollAlone k p').2)

/-- A future left alone keeps its descriptor, and what is still to compute and to call does not
change. -/
theorem pollAlone_finish (k : Nat) (st : Stage) (d : DescriptorState) :
    ∃ d', (pollAlone rs jobs k (some d, st)).1.1 = some d' ∧
      finish rs jobs (pollAlone rs jobs k (some d, st)).1.2 d' = finish rs jobs st d ∧
      (pollAlone rs jobs k (some d, st)).2 ++ finishCalls rs jobs (pollAlone rs jobs k (some d, st)).1.2 d' =
        finishCalls rs jobs st d := by
  induction k generalizing st d with
  | zero => exact ⟨d, rfl, rfl, rfl⟩
  | succ k ih =>
    obtain ⟨d₁, h₁, hfin₁, hcalls₁⟩ := finish_resume rs jobs st d
    obtain ⟨d', h', hfin', hcalls'⟩ := ih (resume rs jobs (some d) st).2 d₁
    have hp : resume rs jobs (some d) st = (some d₁, (resume rs jobs (some d) st).2) :=
      Prod.ext h₁ rfl
    refine ⟨d', ?_, ?_, ?_⟩ <;> simp only [pollAlone] <;> rw [hp]
    · exact h'
    · exact hfin'.trans hfin₁
    · rw [List.append_assoc, hcalls']; exact hcalls₁

/-- A future that runs alone to its end leaves what `process_descriptor` computes, and has made
the calls `process_descriptor` makes. -/
theorem pollAlone_done (k : Nat) (x : DescriptorState) {o : Option DescriptorState}
    (h : (pollAlone rs jobs k (some x, .start)).1 = (o, .done)) :
    o = some (x.processDescriptor rs jobs) ∧ (pollAlone rs jobs k (some x, .start)).2 = processCalls rs jobs x := by
  obtain ⟨d', hd', hfin, hcalls⟩ := pollAlone_finish rs jobs k .start x
  rw [h] at hd' hfin hcalls
  subst hd'
  exact ⟨congrArg some hfin, by simpa [finishCalls] using hcalls⟩

end Alone

/-! ## Every future ends -/

section Rank

variable (rs : Responses) (jobs : List Job)

/-- A bound on the polls a future still needs before it ends: one to start, one per status
still to query and one per scheduling call still possible. -/
def Stage.rank (o : Option DescriptorState) : Stage → Nat
  | .start => match o with
    | none => 1
    | some d => d.activeAllocationIds.length + d.info.backlog.toNat + 1
  | .awaitStatus _ rest => match o with
    | none => 1
    | some d => rest.length + d.info.backlog.toNat + 1
  | .awaitSchedule _ left _ _ => left + 1
  | .done => 0

theorem rank_scheduleFrom (d : DescriptorState) (i left w waitingTasks : Nat) :
    (scheduleFrom (some d) i left w waitingTasks).rank (some d) ≤ left := by
  cases left <;> simp [scheduleFrom, Stage.rank]

theorem rank_scheduleStart (d : DescriptorState) :
    (scheduleStart jobs (some d)).rank (some d) ≤ d.info.backlog.toNat := by
  simp only [scheduleStart]
  split
  · exact Nat.zero_le _
  · exact (rank_scheduleFrom d _ _ _ _).trans (Nat.sub_le _ _)

theorem rank_refreshFrom (d : DescriptorState) (ids : List AllocationId) :
    (refreshFrom jobs (some d) ids).rank (some d) ≤ ids.length + d.info.backlog.toNat := by
  cases ids with
  | nil => simpa using rank_scheduleStart jobs d
  | cons id rest => simp [refreshFrom, Stage.rank]; omega

/-- Each poll of an unfinished future lowers its rank. -/
theorem rank_resume (o : Option DescriptorState) (st : Stage) :
    (resume rs jobs o st).2.rank (resume rs jobs o st).1 ≤ st.rank o - 1 := by
  cases o with
  | none => rw [resume_none]; exact Nat.zero_le _
  | some d =>
    cases st with
    | start => exact rank_refreshFrom jobs d _
    | awaitStatus id rest =>
      have := rank_refreshFrom jobs (d.refreshAllocation id (rs.status id)) rest
      simpa [resume, Stage.rank] using this
    | awaitSchedule i left w waitingTasks =>
      simp only [resume, Stage.rank, Nat.add_sub_cancel]
      cases rs.schedule i with
      | ok created =>
        by_cases hw : waitingTasks - w = 0
        · simp [hw, Stage.rank]
        · simp only [hw, if_false]; exact rank_scheduleFrom _ _ _ _ _
      | error err => exact rank_scheduleFrom _ _ _ _ _
    | done => exact Nat.zero_le _

/-- Removing the descriptor does not raise the rank. -/
theorem rank_none_le (o : Option DescriptorState) (st : Stage) : st.rank none ≤ st.rank o := by
  cases st <;> cases o <;> simp [Stage.rank]

theorem eq_done_of_rank_eq_zero {o : Option DescriptorState} {st : Stage} (h : st.rank o = 0) :
    st = .done := by
  cases st <;> cases o <;> simp_all [Stage.rank]

end Rank

/-! ## The tick -/

/-- What happens next during a tick: `join_all` polls the future of a descriptor, or another
task removes a descriptor. -/
inductive TickEvent
  | poll (id : DescriptorId)
  | remove (id : DescriptorId)
  deriving DecidableEq, Repr

/-- The descriptor an event is about. -/
def TickEvent.descriptorId : TickEvent → DescriptorId
  | .poll id | .remove id => id

/-- The descriptors, the jobs the tick reads, each descriptor's future, and the handler calls
made so far, in order. -/
structure TickState where
  jobs : List Job
  descriptors : DescriptorId → Option DescriptorState
  stages : DescriptorId → Stage
  calls : List (DescriptorId × HandlerCall)

namespace TickState

/-- `autoalloc_tick` creates a future for every descriptor present. -/
def init (jobs : List Job) (descriptors : DescriptorId → Option DescriptorState) : TickState :=
  ⟨jobs, descriptors, fun id => if (descriptors id).isSome then .start else .done, []⟩

variable (rs : DescriptorId → Responses)

/-- One event. A poll resumes the future with its own descriptor's handler answers and logs the
call it is then waiting for; a removal drops the descriptor. -/
def step (s : TickState) : TickEvent → TickState
  | .poll id =>
    let r := resume (rs id) s.jobs (s.descriptors id) (s.stages id)
    { s with
      descriptors := Function.update s.descriptors id r.1
      stages := Function.update s.stages id r.2
      calls := s.calls ++ (r.2.pendingCall.map (id, ·)).toList }
  | .remove id => { s with descriptors := Function.update s.descriptors id none }

/-- A tick's events, in order. -/
def run (s : TickState) (es : List TickEvent) : TickState := es.foldl (step rs) s

/-- The future of descriptor `id`: its entry and its stage. -/
def future (s : TickState) (id : DescriptorId) : Option DescriptorState × Stage :=
  (s.descriptors id, s.stages id)

/-- The handler calls made for descriptor `id`. -/
def callsOf (s : TickState) (id : DescriptorId) : List HandlerCall :=
  (s.calls.filter (·.1 = id)).map (·.2)

@[simp] theorem run_nil (s : TickState) : s.run rs [] = s := rfl

@[simp] theorem run_cons (s : TickState) (e : TickEvent) (es : List TickEvent) :
    s.run rs (e :: es) = (s.step rs e).run rs es := rfl

theorem run_append (s : TickState) (es es' : List TickEvent) :
    s.run rs (es ++ es') = (s.run rs es).run rs es' := List.foldl_append _ _ _ _

@[simp] theorem step_jobs (s : TickState) (e : TickEvent) : (s.step rs e).jobs = s.jobs := by
  cases e <;> rfl

theorem run_jobs (s : TickState) (es : List TickEvent) : (s.run rs es).jobs = s.jobs := by
  induction es generalizing s with
  | nil => rfl
  | cons e es ih => rw [run_cons, ih, step_jobs]

/-- A poll of `id` moves its future by `resume` and logs the call it waits for next. -/
theorem step_poll_self (s : TickState) (id : DescriptorId) :
    (s.step rs (.poll id)).future id = resume (rs id) s.jobs (s.descriptors id) (s.stages id) ∧
    (s.step rs (.poll id)).callsOf id =
      s.callsOf id ++ (resume (rs id) s.jobs (s.descriptors id) (s.stages id)).2.pendingCall.toList := by
  refine ⟨by simp [step, future], ?_⟩
  simp only [step, callsOf]
  cases (resume (rs id) s.jobs (s.descriptors id) (s.stages id)).2.pendingCall <;> simp

/-- Any other event leaves the future of `id` and its calls alone. -/
theorem step_other (s : TickState) (id : DescriptorId) (e : TickEvent) (hp : e ≠ .poll id)
    (hr : e ≠ .remove id) : (s.step rs e).future id = s.future id ∧
      (s.step rs e).callsOf id = s.callsOf id := by
  cases e with
  | poll id' =>
    have hne : id ≠ id' := fun h => hp (h ▸ rfl)
    refine ⟨by simp [step, future, Function.update_noteq hne], ?_⟩
    simp only [step, callsOf]
    cases (resume (rs id') s.jobs (s.descriptors id') (s.stages id')).2.pendingCall <;>
      simp [Ne.symm hne]
  | remove id' =>
    have hne : id ≠ id' := fun h => hr (h ▸ rfl)
    exact ⟨by simp [step, future, Function.update_noteq hne], rfl⟩

/-- **Projection.** While `id` is not removed, its future moves only when it is polled, exactly
as if it ran alone. -/
theorem run_future (s : TickState) (id : DescriptorId) (es : List TickEvent)
    (h : .remove id ∉ es) :
    (s.run rs es).future id = (pollAlone (rs id) s.jobs (es.count (.poll id)) (s.future id)).1 ∧
    (s.run rs es).callsOf id =
      s.callsOf id ++ (pollAlone (rs id) s.jobs (es.count (.poll id)) (s.future id)).2 := by
  induction es generalizing s with
  | nil => exact ⟨rfl, (List.append_nil _).symm⟩
  | cons e es ih =>
    rw [List.mem_cons, not_or] at h
    obtain ⟨hf, hc⟩ := ih (s.step rs e) h.2
    rw [run_cons, hf, hc, step_jobs]
    by_cases hp : e = .poll id
    · subst hp
      obtain ⟨hf₁, hc₁⟩ := step_poll_self rs s id
      rw [hf₁, hc₁, List.count_cons_self, List.append_assoc]
      exact ⟨rfl, rfl⟩
    · obtain ⟨hf₁, hc₁⟩ := step_other rs s id e hp (Ne.symm h.1)
      rw [hf₁, hc₁, List.count_cons_of_ne (Ne.symm hp)]
      exact ⟨rfl, rfl⟩

/-- Once a descriptor is gone it stays gone, and its future makes no more calls. -/
theorem run_of_removed (s : TickState) (id : DescriptorId) (es : List TickEvent)
    (h : s.descriptors id = none) :
    (s.run rs es).descriptors id = none ∧ (s.run rs es).callsOf id = s.callsOf id := by
  induction es generalizing s with
  | nil => exact ⟨h, rfl⟩
  | cons e es ih =>
    suffices (s.step rs e).descriptors id = none ∧ (s.step rs e).callsOf id = s.callsOf id by
      obtain ⟨hd, hc⟩ := ih _ this.1
      exact ⟨hd, hc.trans this.2⟩
    by_cases hp : e = .poll id
    · subst hp
      obtain ⟨hf, hc⟩ := step_poll_self rs s id
      rw [h, resume_none] at hf hc
      exact ⟨congrArg Prod.fst hf, by simpa [pendingCall] using hc⟩
    by_cases hr : e = .remove id
    · subst hr; exact ⟨by simp [step], rfl⟩
    obtain ⟨hf, hc⟩ := step_other rs s id e hp hr
    exact ⟨(congrArg Prod.fst hf).trans h, hc⟩

/-- A removal of `id` drops its descriptor and leaves its stage and its calls. -/
theorem step_remove_self (s : TickState) (id : DescriptorId) :
    (s.step rs (.remove id)).future id = (none, (s.future id).2) ∧
    (s.step rs (.remove id)).callsOf id = s.callsOf id :=
  ⟨by simp [step, future], rfl⟩

/-- After the removal, a poll discards the future's pending answer and only ends it. -/
theorem step_poll_of_removed (s : TickState) (id : DescriptorId) (h : s.descriptors id = none) :
    s.step rs (.poll id) = { s with stages := Function.update s.stages id .done } := by
  have hs : Function.update s.descriptors id none = s.descriptors := h ▸ Function.update_eq_self _ _
  simp only [step, h, resume_none, pendingCall, Option.map_none', Option.toList_none,
    List.append_nil, hs]

/-- The rank of the future of `id`. -/
def futureRank (s : TickState) (id : DescriptorId) : Nat := (s.stages id).rank (s.descriptors id)

theorem futureRank_step (s : TickState) (id : DescriptorId) (e : TickEvent) :
    (s.step rs e).futureRank id ≤ s.futureRank id - if e = .poll id then 1 else 0 := by
  by_cases hp : e = .poll id
  · subst hp
    have hf := (step_poll_self rs s id).1
    simp only [future, Prod.ext_iff] at hf
    rw [if_pos rfl, futureRank, hf.1, hf.2]
    exact rank_resume _ _ _ _
  by_cases hr : e = .remove id
  · subst hr
    simpa [step, futureRank] using rank_none_le _ _
  rw [if_neg hp, Nat.sub_zero, futureRank, futureRank]
  have hf := (step_other rs s id e hp hr).1
  simp only [future, Prod.ext_iff] at hf
  rw [hf.1, hf.2]

theorem futureRank_run (s : TickState) (id : DescriptorId) (es : List TickEvent) :
    (s.run rs es).futureRank id ≤ s.futureRank id - es.count (.poll id) := by
  induction es generalizing s with
  | nil => exact le_rfl
  | cons e es ih =>
    have h₁ := ih (s.step rs e)
    have h₂ := futureRank_step rs s id e
    rw [run_cons, List.count_cons]
    by_cases hp : e = .poll id
    · subst hp; simp only [if_true, beq_self_eq_true] at h₂ ⊢; omega
    · simp only [hp, if_false, beq_iff_eq] at h₂ ⊢; omega

/-- A future polled at least its rank many times has ended. -/
theorem run_stages_done (s : TickState) (id : DescriptorId) (es : List TickEvent)
    (h : s.futureRank id ≤ es.count (.poll id)) : (s.run rs es).stages id = .done := by
  apply eq_done_of_rank_eq_zero (o := (s.run rs es).descriptors id)
  have := futureRank_run rs s id es
  rw [futureRank] at this
  omega

/-- At the start of a tick a future's rank is `n + b + 1`, for `n` active allocations and
backlog `b`, or `0` without a descriptor. -/
theorem futureRank_init_le (jobs : List Job) (descriptors : DescriptorId → Option DescriptorState)
    (id : DescriptorId) {k : Nat}
    (h : ∀ x, descriptors id = some x → x.activeAllocationIds.length + x.info.backlog.toNat + 1 ≤ k) :
    (init jobs descriptors).futureRank id ≤ k := by
  cases hx : descriptors id with
  | none => simp [futureRank, init, hx, Stage.rank]
  | some x => simpa [futureRank, init, hx, Stage.rank] using h x hx

/-- **Every future ends.** Whatever the interleaving and the removals, the future of a
descriptor with `n` active allocations and backlog `b` ends after at most `n + b + 1` polls;
so `join_all` returns. -/
theorem stage_done_of_polls (jobs : List Job) (descriptors : DescriptorId → Option DescriptorState)
    (es : List TickEvent) (id : DescriptorId)
    (h : ∀ x, descriptors id = some x →
      x.activeAllocationIds.length + x.info.backlog.toNat + 1 ≤ es.count (.poll id)) :
    ((init jobs descriptors).run rs es).stages id = .done :=
  run_stages_done rs _ id es (futureRank_init_le _ _ id h)

open DescriptorState (requeueTwo requeueJobs run_requeueTwo distinctIds_single)

/-- The answers of a tick after `requeueTwo`: `a` has finished, `b` runs, and the one
scheduling call queues `c`. -/
def finishTick : Responses :=
  ⟨fun id => if id = "a" then .ok (some .finished) else .ok (some .running),
    fun j => if j = 0 then .ok ⟨"c", ""⟩ else .error ""⟩

/-- Two descriptors in the state of `requeueTwo`: one running and one queued allocation, and a
free slot for the five waiting tasks of `requeueJobs`. -/
def twoDescriptors : DescriptorId → Option DescriptorState
  | 0 | 1 => some requeueTwo
  | _ => none

/-- Interleaved polls of both futures, with descriptor `1` removed after its first poll. -/
def twoEvents : List TickEvent :=
  [.poll 0, .poll 1, .poll 0, .remove 1, .poll 0, .poll 1, .poll 1, .poll 0, .poll 1]

theorem twoDescriptors_polls : ∀ id x, twoDescriptors id = some x →
    x.activeAllocationIds.length + x.info.backlog.toNat + 1 ≤ twoEvents.count (.poll id)
  | 0, _, rfl | 1, _, rfl => by decide

/-- The four polls of descriptor `0` end its future: two status queries, one scheduling call,
and the return. -/
theorem stage_done_of_polls_two :
    ((init requeueJobs twoDescriptors).run (fun _ => finishTick) twoEvents).stages 0 = .done :=
  stage_done_of_polls _ requeueJobs twoDescriptors twoEvents 0 (twoDescriptors_polls 0)

/-- A future never removed that has ended leaves its descriptor as `processDescriptor` leaves
it, after the calls `process_descriptor` makes alone. -/
theorem run_of_done (jobs : List Job) (descriptors : DescriptorId → Option DescriptorState)
    (es : List TickEvent) (id : DescriptorId) (x : DescriptorState) (hx : descriptors id = some x)
    (hrem : .remove id ∉ es) (hdone : ((init jobs descriptors).run rs es).stages id = .done) :
    ((init jobs descriptors).run rs es).descriptors id = some (x.processDescriptor (rs id) jobs) ∧
    ((init jobs descriptors).run rs es).callsOf id = processCalls (rs id) jobs x := by
  obtain ⟨hf, hc⟩ := run_future rs (init jobs descriptors) id es hrem
  have hinit : (init jobs descriptors).future id = (some x, .start) := by simp [init, future, hx]
  rw [hinit] at hf hc
  obtain ⟨ho, hcalls⟩ := pollAlone_done (rs id) jobs _ x (hf.symm.trans (Prod.ext rfl hdone))
  exact ⟨ho, hc.trans (hcalls ▸ List.nil_append _)⟩

/-- A future never removed and polled `n + b + 1` times has ended. -/
theorem run_of_polls (jobs : List Job) (descriptors : DescriptorId → Option DescriptorState)
    (es : List TickEvent) (id : DescriptorId) (x : DescriptorState) (hx : descriptors id = some x)
    (hrem : .remove id ∉ es)
    (hpolls : x.activeAllocationIds.length + x.info.backlog.toNat + 1 ≤ es.count (.poll id)) :
    ((init jobs descriptors).run rs es).stages id = .done ∧
    ((init jobs descriptors).run rs es).descriptors id = some (x.processDescriptor (rs id) jobs) ∧
    ((init jobs descriptors).run rs es).callsOf id = processCalls (rs id) jobs x :=
  have hdone := run_stages_done rs _ id es
    (futureRank_init_le jobs descriptors id fun y hy => by cases hx.symm.trans hy; exact hpolls)
  ⟨hdone, run_of_done rs jobs descriptors es id x hx hrem hdone⟩

/-- **The tick, interleaved.** For any descriptors, handler answers and order of polls and
removals: the jobs are unchanged; a descriptor never removed whose future is polled `n + b + 1`
times has ended, holds what `processDescriptor` computes, and its future made the calls that
`process_descriptor` makes alone; once a descriptor is removed it stays removed, its future
makes no further call, and a poll of it only ends it. -/
theorem tick_interleaving (jobs : List Job) (descriptors : DescriptorId → Option DescriptorState)
    (es : List TickEvent) :
    ((init jobs descriptors).run rs es).jobs = jobs ∧
    (∀ id x, descriptors id = some x → .remove id ∉ es →
      x.activeAllocationIds.length + x.info.backlog.toNat + 1 ≤ es.count (.poll id) →
      ((init jobs descriptors).run rs es).stages id = .done ∧
      ((init jobs descriptors).run rs es).descriptors id = some (x.processDescriptor (rs id) jobs) ∧
      ((init jobs descriptors).run rs es).callsOf id = processCalls (rs id) jobs x) ∧
    (∀ id pre post, es = pre ++ .remove id :: post →
      ((init jobs descriptors).run rs es).descriptors id = none ∧
      ((init jobs descriptors).run rs es).callsOf id = ((init jobs descriptors).run rs pre).callsOf id ∧
      ((init jobs descriptors).run rs es).step rs (.poll id) =
        { (init jobs descriptors).run rs es with
          stages := Function.update ((init jobs descriptors).run rs es).stages id .done }) := by
  refine ⟨run_jobs rs _ es, run_of_polls rs jobs descriptors es, fun id pre post hes => ?_⟩
  have hgone : (((init jobs descriptors).run rs pre).step rs (.remove id)).descriptors id = none := by
    simp [step]
  obtain ⟨hd, hc⟩ := run_of_removed rs _ id post hgone
  rw [hes, run_append, run_cons]
  exact ⟨hd, hc, step_poll_of_removed rs _ id hd⟩

/-- The sample tick: descriptor `0` refreshes both allocations and schedules one, as alone;
descriptor `1`, removed after its first status query, is gone and got no call after it. -/
theorem tick_interleaving_two :
    let s := (init requeueJobs twoDescriptors).run (fun _ => finishTick) twoEvents
    s.jobs = requeueJobs ∧
    (s.stages 0 = .done ∧ s.descriptors 0 = some (requeueTwo.processDescriptor finishTick requeueJobs) ∧
      s.callsOf 0 = processCalls finishTick requeueJobs requeueTwo) ∧
    s.descriptors 1 = none ∧
    s.callsOf 1 =
      ((init requeueJobs twoDescriptors).run (fun _ => finishTick) [.poll 0, .poll 1, .poll 0]).callsOf 1 :=
  have h := tick_interleaving (fun _ => finishTick) requeueJobs twoDescriptors twoEvents
  have h₁ := h.2.2 1 [.poll 0, .poll 1, .poll 0] [.poll 0, .poll 1, .poll 1, .poll 0, .poll 1] rfl
  ⟨h.1, h.2.1 0 _ rfl (by decide) (twoDescriptors_polls 0 _ rfl), h₁.1, h₁.2.1⟩

theorem step_extends (s : TickState) (e : TickEvent) (id : DescriptorId) {d' : DescriptorState}
    (h : (s.step rs e).descriptors id = some d') :
    ∃ d, s.descriptors id = some d ∧ d'.info = d.info ∧ ∃ new, d'.events = d.events ++ new := by
  by_cases hp : e = .poll id
  · subst hp
    have hf := (step_poll_self rs s id).1
    simp only [future, Prod.ext_iff] at hf
    rw [hf.1] at h
    cases hd : s.descriptors id with
    | none => rw [hd, resume_none] at h; cases h
    | some d => rw [hd] at h; exact ⟨d, rfl, resume_extends _ _ d _ h⟩
  by_cases hr : e = .remove id
  · subst hr; simp [step] at h
  have hf := (step_other rs s id e hp hr).1
  simp only [future, Prod.ext_iff] at hf
  exact ⟨d', hf.1 ▸ h, rfl, [], (List.append_nil _).symm⟩

/-- **Append-only logs.** At every point of any interleaving, a descriptor that is present was
present at the start, with the same queue settings, and its event log is the one it started
with followed by new events. -/
theorem run_extends (s : TickState) (es : List TickEvent) (id : DescriptorId) {d' : DescriptorState}
    (h : (s.run rs es).descriptors id = some d') :
    ∃ d, s.descriptors id = some d ∧ d'.info = d.info ∧ ∃ new, d'.events = d.events ++ new := by
  induction es generalizing s with
  | nil => exact ⟨d', h, rfl, [], (List.append_nil _).symm⟩
  | cons e es ih =>
    obtain ⟨d₁, h₁, hinfo₁, new₁, hev₁⟩ := ih (s.step rs e) h
    obtain ⟨d, hd, hinfo, new, hev⟩ := step_extends rs s e id h₁
    exact ⟨d, hd, hinfo₁.trans hinfo, new ++ new₁, by rw [hev₁, hev, List.append_assoc]⟩

/-- In the sample tick, descriptor `0` ends with its queue settings and its log extended by
the events of the refresh and of the scheduling call. -/
theorem run_extends_two :
    let s := init requeueJobs twoDescriptors
    let d' := requeueTwo.processDescriptor finishTick requeueJobs
    (s.run (fun _ => finishTick) twoEvents).descriptors 0 = some d' ∧
    ∃ d, s.descriptors 0 = some d ∧ d'.info = d.info ∧ ∃ new, d'.events = d.events ++ new :=
  have h := (run_of_polls (fun _ => finishTick) requeueJobs twoDescriptors twoEvents 0 requeueTwo rfl
    (by decide) (twoDescriptors_polls 0 _ rfl)).2.1
  ⟨h, run_extends _ _ twoEvents 0 h⟩

/-- **The tick refines the sequential tick.** When every future is polled as often as
`stage_done_of_polls` asks, a tick, however interleaved, ends with each descriptor removed
during it gone and each other one holding what `processDescriptor` computes from its state at
the start: the descriptors map of the sequential loop over `process_descriptor`. -/
theorem run_eq_processDescriptor (jobs : List Job)
    (descriptors : DescriptorId → Option DescriptorState) (es : List TickEvent)
    (h : ∀ id x, descriptors id = some x →
      x.activeAllocationIds.length + x.info.backlog.toNat + 1 ≤ es.count (.poll id))
    (id : DescriptorId) :
    ((init jobs descriptors).run rs es).descriptors id =
      if .remove id ∈ es then none else (descriptors id).map (·.processDescriptor (rs id) jobs) := by
  split_ifs with hrem
  · obtain ⟨pre, post, rfl⟩ := List.append_of_mem hrem
    rw [run_append, run_cons]
    exact (run_of_removed rs _ id post (by simp [step])).1
  cases hx : descriptors id with
  | none => exact (run_of_removed rs _ id es (by simp [init, hx])).1
  | some x => exact (run_of_polls rs jobs descriptors es id x hx hrem (h id x hx)).2.1

/-- The sample tick ends as the sequential loop would leave it: descriptor `0` processed,
descriptor `1` gone. -/
theorem run_eq_processDescriptor_two :
    ((init requeueJobs twoDescriptors).run (fun _ => finishTick) twoEvents).descriptors 0 =
      (if .remove 0 ∈ twoEvents then none
        else (twoDescriptors 0).map (·.processDescriptor finishTick requeueJobs)) ∧
    ((init requeueJobs twoDescriptors).run (fun _ => finishTick) twoEvents).descriptors 1 =
      (if .remove 1 ∈ twoEvents then none
        else (twoDescriptors 1).map (·.processDescriptor finishTick requeueJobs)) :=
  ⟨run_eq_processDescriptor _ requeueJobs twoDescriptors twoEvents twoDescriptors_polls 0,
    run_eq_processDescriptor _ requeueJobs twoDescriptors twoEvents twoDescriptors_polls 1⟩

/-- Two states that agree on the future of `id`, its calls and the jobs still agree after an
event about `id`, given the same answers for `id`. -/
theorem step_agree (rs' : DescriptorId → Responses) (id : DescriptorId) (hrs : rs id = rs' id)
    (e : TickEvent) (he : e.descriptorId = id) (s₁ s₂ : TickState) (hj : s₁.jobs = s₂.jobs)
    (hf : s₁.future id = s₂.future id) (hc : s₁.callsOf id = s₂.callsOf id) :
    (s₁.step rs e).future id = (s₂.step rs' e).future id ∧
      (s₁.step rs e).callsOf id = (s₂.step rs' e).callsOf id := by
  cases e with
  | poll id' =>
    obtain rfl : id' = id := he
    obtain ⟨hf₁, hc₁⟩ := step_poll_self rs s₁ id'
    obtain ⟨hf₂, hc₂⟩ := step_poll_self rs' s₂ id'
    simp only [future, Prod.mk.injEq] at hf
    rw [hf₁, hf₂, hc₁, hc₂, hc, hf.1, hf.2, hj, hrs]
    exact ⟨rfl, rfl⟩
  | remove id' =>
    obtain rfl : id' = id := he
    obtain ⟨hf₁, hc₁⟩ := step_remove_self rs s₁ id'
    obtain ⟨hf₂, hc₂⟩ := step_remove_self rs' s₂ id'
    rw [hf₁, hf₂, hc₁, hc₂, hf, hc]
    exact ⟨rfl, rfl⟩

/-- A run against the run of only its events about `id`: the future of `id` and its calls
agree at the end. -/
theorem run_filter_agree (rs' : DescriptorId → Responses) (id : DescriptorId)
    (hrs : rs id = rs' id) (es : List TickEvent) (s₁ s₂ : TickState) (hj : s₁.jobs = s₂.jobs)
    (hf : s₁.future id = s₂.future id) (hc : s₁.callsOf id = s₂.callsOf id) :
    (s₁.run rs es).future id = (s₂.run rs' (es.filter (·.descriptorId = id))).future id ∧
      (s₁.run rs es).callsOf id = (s₂.run rs' (es.filter (·.descriptorId = id))).callsOf id := by
  induction es generalizing s₁ s₂ with
  | nil => exact ⟨hf, hc⟩
  | cons e es ih =>
    rw [run_cons]
    by_cases he : e.descriptorId = id
    · rw [List.filter_cons_of_pos (by simpa using he), run_cons]
      obtain ⟨hf', hc'⟩ := step_agree rs rs' id hrs e he s₁ s₂ hj hf hc
      exact ih _ _ (by rw [step_jobs, step_jobs, hj]) hf' hc'
    · rw [List.filter_cons_of_neg (by simpa using he)]
      obtain ⟨hf', hc'⟩ := step_other rs s₁ id e (fun h => he (h ▸ rfl)) (fun h => he (h ▸ rfl))
      exact ih _ _ (by rw [step_jobs, hj]) (hf'.trans hf) (hc'.trans hc)

/-- **No interference between descriptors.** What a tick does to a descriptor, its entry, the
stage of its future and the handler calls made for it, depends only on its own state at the
start, its own handler's answers and the order of the polls and the removal of its own
future: not on the other descriptors, their answers, or how their polls and removals
interleave with its own. -/
theorem future_noninterference (jobs : List Job)
    (descriptors descriptors' : DescriptorId → Option DescriptorState)
    (rs' : DescriptorId → Responses) (es es' : List TickEvent) (id : DescriptorId)
    (hd : descriptors id = descriptors' id) (hrs : rs id = rs' id)
    (hes : es.filter (·.descriptorId = id) = es'.filter (·.descriptorId = id)) :
    ((init jobs descriptors).run rs es).future id =
        ((init jobs descriptors').run rs' es').future id ∧
      ((init jobs descriptors).run rs es).callsOf id =
        ((init jobs descriptors').run rs' es').callsOf id := by
  have hinit : (init jobs descriptors).future id = (init jobs descriptors').future id := by
    simp [init, future, hd]
  obtain ⟨hf₁, hc₁⟩ := run_filter_agree rs rs' id hrs es (init jobs descriptors)
    (init jobs descriptors') rfl hinit rfl
  obtain ⟨hf₂, hc₂⟩ := run_filter_agree rs' rs' id rfl es' (init jobs descriptors') _ rfl rfl rfl
  rw [hes] at hf₁ hc₁
  exact ⟨hf₁.trans hf₂.symm, hc₁.trans hc₂.symm⟩

/-- Descriptor `0` ends the same whether descriptor `1` is there, is polled and removed in
between, and answers otherwise, or is absent. -/
theorem future_noninterference_two :
    let rs : DescriptorId → Responses := fun _ => ⟨fun _ => .error "", fun j => .ok ⟨toString j, ""⟩⟩
    let rs' : DescriptorId → Responses :=
      fun id => if id = 0 then rs 0 else ⟨fun _ => .error "", fun _ => .error ""⟩
    let descriptors : DescriptorId → Option DescriptorState := fun _ => some (.new ⟨1, 1, 1⟩)
    let descriptors' : DescriptorId → Option DescriptorState :=
      fun id => if id = 0 then some (.new ⟨1, 1, 1⟩) else none
    let es := [TickEvent.poll 1, .poll 0, .remove 1, .poll 0]
    let es' := [TickEvent.poll 0, .poll 0]
    descriptors 0 = descriptors' 0 ∧ rs 0 = rs' 0 ∧
    es.filter (·.descriptorId = 0) = es'.filter (·.descriptorId = 0) ∧
    ((init [⟨0, 3⟩] descriptors).run rs es).future 0 =
        ((init [⟨0, 3⟩] descriptors').run rs' es').future 0 ∧
      ((init [⟨0, 3⟩] descriptors).run rs es).callsOf 0 =
        ((init [⟨0, 3⟩] descriptors').run rs' es').callsOf 0 := by
  intro rs rs' descriptors descriptors' es es'
  have hes : es.filter (·.descriptorId = 0) = es'.filter (·.descriptorId = 0) := by decide
  exact ⟨rfl, rfl, hes,
    future_noninterference rs [⟨0, 3⟩] descriptors descriptors' rs' es es' 0 rfl rfl hes⟩

/-- The calls made for `id` against those of `process_descriptor` run alone from `x`: while the
descriptor is present, the calls made and those its future still makes are exactly them; in
any case the calls made are a prefix of them. -/
def CallsInv (s : TickState) (id : DescriptorId) (x : DescriptorState) : Prop :=
  (∀ d, s.descriptors id = some d →
    s.callsOf id ++ finishCalls (rs id) s.jobs (s.stages id) d = processCalls (rs id) s.jobs x) ∧
  s.callsOf id <+: processCalls (rs id) s.jobs x

theorem callsInv_step (s : TickState) (id : DescriptorId) (x : DescriptorState) (e : TickEvent)
    (h : CallsInv rs s id x) : CallsInv rs (s.step rs e) id x := by
  rw [CallsInv, step_jobs]
  by_cases hp : e = .poll id
  · subst hp
    obtain ⟨hf, hc⟩ := step_poll_self rs s id
    simp only [future, Prod.ext_iff] at hf
    cases hd : s.descriptors id with
    | none =>
      rw [hd, resume_none] at hf hc
      rw [hc, hf.1]
      exact ⟨fun _ h' => (nomatch h'), by simpa [pendingCall] using h.2⟩
    | some d =>
      rw [hd] at hf hc
      obtain ⟨d', hd', -, hcalls⟩ := finish_resume (rs id) s.jobs (s.stages id) d
      have key : (s.step rs (.poll id)).callsOf id ++
          finishCalls (rs id) s.jobs ((s.step rs (.poll id)).stages id) d' =
            processCalls (rs id) s.jobs x := by
        rw [hc, hf.2, List.append_assoc, ← stageCalls, hcalls, h.1 d hd]
      refine ⟨fun d'' h'' => ?_, ⟨_, key⟩⟩
      rw [hf.1, hd'] at h''
      cases h''
      exact key
  by_cases hr : e = .remove id
  · subst hr
    exact ⟨fun _ h' => by simp [step] at h', h.2⟩
  obtain ⟨hf, hc⟩ := step_other rs s id e hp hr
  simp only [future, Prod.ext_iff] at hf
  rw [hf.1, hf.2, hc]
  exact h

theorem callsInv_run (s : TickState) (id : DescriptorId) (x : DescriptorState) (es : List TickEvent)
    (h : CallsInv rs s id x) : CallsInv rs (s.run rs es) id x := by
  induction es generalizing s with
  | nil => exact h
  | cons e es ih => exact ih _ (callsInv_step rs s id x e h)

/-- **Calls in order.** At every point of any interleaving, the handler calls made for a
descriptor are a prefix of the calls `process_descriptor` makes alone from the descriptor's
state at the start of the tick: none is lost from the middle, repeated or made out of order,
whether the descriptor is removed or not. A descriptor absent at the start gets no call. -/
theorem callsOf_prefix (jobs : List Job) (descriptors : DescriptorId → Option DescriptorState)
    (es : List TickEvent) (id : DescriptorId) :
    ((init jobs descriptors).run rs es).callsOf id <+:
      ((descriptors id).map (processCalls (rs id) jobs)).getD [] := by
  cases hx : descriptors id with
  | none =>
    rw [(run_of_removed rs _ id es (by simp [init, hx])).2]
    exact List.nil_prefix
  | some x =>
    have h0 : CallsInv rs (init jobs descriptors) id x := by
      refine ⟨fun d hd => ?_, List.nil_prefix⟩
      simp only [init, hx, Option.some.injEq, Option.isSome_some, if_true] at hd ⊢
      subst hd
      rfl
    simpa [run_jobs] using (callsInv_run rs _ id x es h0).2

/-- **Runs survive interleaving.** If every descriptor at the start of the tick is reachable by
runs whose ticks satisfy `Allowed`, and its handler answers satisfy `Allowed`, then after any
interleaving every descriptor that was not removed and whose future has ended is reachable
too. Every invariant of `Run`, such as the backlog bound, thus holds at the end of every
interleaved tick. -/
theorem run_of_tick {Allowed : DescriptorState → Responses → Prop} (jobs : List Job)
    (descriptors : DescriptorId → Option DescriptorState) (es : List TickEvent)
    (hrun : ∀ id x, descriptors id = some x → DescriptorState.Run Allowed x ∧ Allowed x (rs id))
    (id : DescriptorId) (hrem : .remove id ∉ es)
    (hdone : ((init jobs descriptors).run rs es).stages id = .done) (d : DescriptorState)
    (hd : ((init jobs descriptors).run rs es).descriptors id = some d) :
    DescriptorState.Run Allowed d := by
  cases hx : descriptors id with
  | none =>
    have := (run_of_removed rs (init jobs descriptors) id es hx).1
    rw [hd] at this
    cases this
  | some x =>
    obtain rfl : d = x.processDescriptor (rs id) jobs :=
      Option.some.inj (hd.symm.trans (run_of_done rs jobs descriptors es id x hx hrem hdone).1)
    exact .tick _ _ (hrun id x hx).1 (hrun id x hx).2

/-- The sample tick keeps descriptor `0` reachable by runs with fresh ids. -/
theorem run_of_tick_two :
    DescriptorState.Run DescriptorState.Fresh (requeueTwo.processDescriptor finishTick requeueJobs) :=
  have hfresh : DescriptorState.Fresh requeueTwo finishTick := ⟨distinctIds_single _ _, fun j c h => by
    simp only [finishTick] at h; split_ifs at h; cases h; decide⟩
  have hrun : ∀ id x, twoDescriptors id = some x →
      DescriptorState.Run DescriptorState.Fresh x ∧ DescriptorState.Fresh x finishTick
    | 0, _, rfl | 1, _, rfl => ⟨run_requeueTwo, hfresh⟩
  have h := run_of_polls (fun _ => finishTick) requeueJobs twoDescriptors twoEvents 0 requeueTwo rfl
    (by decide) (twoDescriptors_polls 0 _ rfl)
  run_of_tick _ requeueJobs twoDescriptors twoEvents hrun 0 (by decide) h.1 _ h.2.1

end TickState

/-! ## Shutdown -/

/-- `autoalloc_shutdown`: one `remove_allocation` call for each active allocation of each
descriptor, on that descriptor's handler. The answers are only logged. -/
def shutdownCalls (descriptors : List (DescriptorId × DescriptorState)) :
    List (DescriptorId × AllocationId) :=
  descriptors.flatMap fun p => p.2.activeAllocationIds.map (p.1, ·)

example : shutdownCalls [(0, DescriptorState.requeueTwo)] = [(0, "a"), (0, "b")] := by decide

end HyperQueue
