import HyperQueue.Autoalloc.Tick

/-!
# Autoalloc: the lifecycle of an allocation

What the loop does to one allocation id, over a whole run, as an automaton. An id is
`unknown` until a call of `schedule_allocation` returns it, `alive` with a status while the
descriptor's map holds it, and `gone` once an `Ok(None)` answer removed it. Each tick moves
the id along one edge (`Move`), labelled by the events the tick logs about it:

* `unknown → queued`, logging `AllocationQueued`;
* `queued → running`, logging `AllocationStarted`;
* `running → queued`, logging nothing: the refresh writes the answered status over the old
  one;
* `queued | running → finished | failed | gone`, logging `AllocationFinished`,
  `AllocationFailed` or `AllocationDisappeared`;
* any phase to itself, logging nothing about the id (an `Err` answer logs `StatusFail`, which
  names no allocation, and changes none).

Finished, failed and gone allocations are never refreshed, so they have no other edge.

**Theorem (`allocation_lifecycle`).** Along every run with fresh ids, every tick moves every
id along one edge, and the events logged about an id are `AllocationQueued`, then
`AllocationStarted` once per move from queued to running, then at most one terminal event,
with nothing after it (`Logged`).
-/

namespace HyperQueue

/-- Where an allocation id stands in a descriptor. -/
inductive Phase
  | unknown
  | alive (status : AllocationStatus)
  | gone
  deriving DecidableEq, Repr

/-- One tick's move of the id `aid`, with the events about `aid` that the tick logs. -/
inductive Move (aid : AllocationId) : Phase → List AllocationEvent → Phase → Prop
  | create : Move aid .unknown [.allocationQueued aid] (.alive .queued)
  | stay (p : Phase) : Move aid p [] p
  | start : Move aid (.alive .queued) [.allocationStarted aid] (.alive .running)
  | requeue : Move aid (.alive .running) [] (.alive .queued)
  | finish {s : AllocationStatus} :
      s.isActive → Move aid (.alive s) [.allocationFinished aid] (.alive .finished)
  | fail {s : AllocationStatus} :
      s.isActive → Move aid (.alive s) [.allocationFailed aid] (.alive .failed)
  | disappear {s : AllocationStatus} :
      s.isActive → Move aid (.alive s) [.allocationDisappeared aid] .gone

/-- `AllocationQueued` followed by `k` times `AllocationStarted`. -/
def queuedStarted (aid : AllocationId) (k : Nat) : List AllocationEvent :=
  .allocationQueued aid :: List.replicate k (.allocationStarted aid)

/-- The events an id in phase `p` has logged. -/
def Logged (aid : AllocationId) : Phase → List AllocationEvent → Prop
  | .unknown, w => w = []
  | .alive .queued, w => ∃ k, w = queuedStarted aid k
  | .alive .running, w => ∃ k, w = queuedStarted aid (k + 1)
  | .alive .finished, w => ∃ k, w = queuedStarted aid k ++ [.allocationFinished aid]
  | .alive .failed, w => ∃ k, w = queuedStarted aid k ++ [.allocationFailed aid]
  | .gone, w => ∃ k, w = queuedStarted aid k ++ [.allocationDisappeared aid]

theorem queuedStarted_succ (aid : AllocationId) (k : Nat) :
    queuedStarted aid (k + 1) = queuedStarted aid k ++ [.allocationStarted aid] := by
  simp [queuedStarted, List.replicate_succ']

/-- Every move keeps the log of the id in the shape its new phase asks for. -/
theorem Logged.move {aid : AllocationId} {p q : Phase} {w m : List AllocationEvent}
    (hw : Logged aid p w) (hm : Move aid p m q) : Logged aid q (w ++ m) := by
  cases hm with
  | create => exact ⟨0, by simp [Logged] at hw; simp [hw, queuedStarted]⟩
  | stay => simpa using hw
  | start => obtain ⟨k, rfl⟩ := hw; exact ⟨k, (queuedStarted_succ aid k).symm⟩
  | requeue => obtain ⟨k, rfl⟩ := hw; exact ⟨k + 1, by simp⟩
  | finish hs | fail hs | disappear hs =>
    rename_i s
    cases s <;> simp [AllocationStatus.isActive] at hs <;> obtain ⟨k, rfl⟩ := hw
    exacts [⟨k, rfl⟩, ⟨k + 1, rfl⟩]

/-! ## The phase of an id in a descriptor -/

/-- The events of a log that name `aid`. -/
def eventsAbout (aid : AllocationId) (es : List AllocationEvent) : List AllocationEvent :=
  es.filter (·.allocationId? = some aid)

@[simp] theorem eventsAbout_nil (aid : AllocationId) : eventsAbout aid [] = [] := rfl

@[simp] theorem eventsAbout_append (aid : AllocationId) (es es' : List AllocationEvent) :
    eventsAbout aid (es ++ es') = eventsAbout aid es ++ eventsAbout aid es' := by
  simp [eventsAbout]

namespace DescriptorState

/-- An id is alive while the map holds it, gone once it left the map after being logged, and
unknown before. -/
def phaseOf (d : DescriptorState) (aid : AllocationId) : Phase :=
  match d.getAllocation aid with
  | some a => .alive a.status
  | none => if eventsAbout aid d.events = [] then .unknown else .gone

/-! ### What a refresh does to one id -/

theorem eventsAbout_refreshEvents_of_ne {id aid : AllocationId} (h : id ≠ aid)
    (e : Option Allocation) (r : StatusResult) : eventsAbout aid (refreshEvents e id r) = [] := by
  rcases r with _ | _ | ⟨_ | _ | _ | _⟩ <;>
    simp [refreshEvents, eventsAbout, AllocationEvent.allocationId?, h]
  rintro _ _ _ _ rfl
  simp [AllocationEvent.allocationId?, h]

theorem eventsAbout_refreshAll_events (status : AllocationId → StatusResult)
    {l : List AllocationId} (hl : l.Nodup) (d : DescriptorState) (aid : AllocationId) :
    eventsAbout aid (l.map fun id => refreshEvents (d.getAllocation id) id (status id)).flatten =
      if aid ∈ l then eventsAbout aid (refreshEvents (d.getAllocation aid) aid (status aid))
      else [] := by
  induction l with
  | nil => simp
  | cons x xs ih =>
    rw [List.nodup_cons] at hl
    simp only [List.map_cons, List.flatten_cons, eventsAbout_append, ih hl.2, List.mem_cons]
    by_cases hx : x = aid
    · subst hx; simp [hl.1]
    · simp [eventsAbout_refreshEvents_of_ne hx, Ne.symm hx]

/-- A refresh touches `aid` only if it is active, and then through its own answer. -/
theorem refreshAllocations_touch (status : AllocationId → StatusResult) (d : DescriptorState)
    (aid : AllocationId) : ∃ er, (d.refreshAllocations status).events = d.events ++ er ∧
      (d.refreshAllocations status).getAllocation aid =
        (if aid ∈ d.activeAllocationIds then refreshedEntry (d.getAllocation aid) (status aid)
          else d.getAllocation aid) ∧
      eventsAbout aid er = if aid ∈ d.activeAllocationIds then
        eventsAbout aid (refreshEvents (d.getAllocation aid) aid (status aid)) else [] :=
  ⟨_, events_refreshAll status (nodup_activeAllocationIds d) d,
    getAllocation_refreshAll status (nodup_activeAllocationIds d) d aid,
    eventsAbout_refreshAll_events status (nodup_activeAllocationIds d) d aid⟩

/-! ### What scheduling does to one id -/

/-- In a list with distinct ids, the entries with the id of `a` are `a` alone. -/
theorem filter_id_eq_singleton {l : List Allocation} (hl : (l.map Allocation.id).Nodup)
    {a : Allocation} (ha : a ∈ l) : l.filter (·.id = a.id) = [a] := by
  induction l with
  | nil => simp at ha
  | cons x xs ih =>
    simp only [List.map_cons, List.nodup_cons, List.mem_map] at hl
    rcases List.mem_cons.1 ha with rfl | ha
    · rw [List.filter_cons_of_pos (by simp), List.filter_eq_nil_iff.2 fun y hy => by
        simpa using fun h => hl.1 ⟨y, hy, h⟩]
    · have hx : x.id ≠ a.id := fun h => hl.1 ⟨a, ha, h.symm⟩
      rw [List.filter_cons_of_neg (by simpa using hx), ih hl.2 ha]

/-- The events about `aid` among those of the calls `l` are one `AllocationQueued` per
created allocation with id `aid`. -/
theorem eventsAbout_scheduleEvents (results : Nat → ScheduleResult) (w : Nat)
    (l : List Nat) (aid : AllocationId) :
    eventsAbout aid (l.map (scheduleEvent ∘ results)) =
      ((l.filterMap fun j => (results j).toOption.map (newAllocation w)).filter
        (·.id = aid)).map fun a => .allocationQueued a.id := by
  induction l with
  | nil => rfl
  | cons j l ih =>
    simp only [eventsAbout] at ih ⊢
    cases h : results j with
    | error e =>
      simpa [scheduleEvent, h, Except.toOption, AllocationEvent.allocationId?] using ih
    | ok c =>
      by_cases hc : c.id = aid <;>
        simpa [scheduleEvent, h, Except.toOption, AllocationEvent.allocationId?, newAllocation, hc]
          using ih

/-- Scheduling leaves `aid` alone, or creates it: then some call answered `aid`, the map
holds it queued, and the only event about it is `AllocationQueued`. -/
theorem scheduleNewAllocations_touch (results : Nat → ScheduleResult) (jobs : List Job)
    (d : DescriptorState) (hd : DistinctIds results)
    (hf : ∀ j c, results j = .ok c → d.getAllocation c.id = none) (aid : AllocationId) :
    ∃ es, (d.scheduleNewAllocations results jobs).1.events = d.events ++ es ∧
      ((d.scheduleNewAllocations results jobs).1.getAllocation aid = d.getAllocation aid ∧
          eventsAbout aid es = [] ∨
        (∃ j c, results j = .ok c ∧ c.id = aid) ∧
          ((d.scheduleNewAllocations results jobs).1.getAllocation aid).map (·.status) =
            some .queued ∧ eventsAbout aid es = [.allocationQueued aid]) := by
  obtain ⟨hev, hal⟩ := scheduleNewAllocations_log results jobs d hd hf
  set d' := (d.scheduleNewAllocations results jobs).1
  set c := (d.scheduleNewAllocations results jobs).2
  set w := d.info.workersPerAlloc.toNat
  refine ⟨_, hev, ?_⟩
  rw [List.range_eq_range', eventsAbout_scheduleEvents results w]
  have hnd : ((createdAllocations results w 0 c).map Allocation.id).Nodup := by
    have := d'.allocations.nodup
    rw [hal, List.map_append] at this
    exact (List.nodup_append.1 this).2.1
  by_cases hc : ∃ a ∈ createdAllocations results w 0 c, a.id = aid
  · obtain ⟨a, ha, rfl⟩ := hc
    obtain ⟨j, -, hj⟩ := List.mem_filterMap.1 ha
    cases hr : results j with
    | error e => simp [hr, Except.toOption] at hj
    | ok cr =>
      simp only [hr, Except.toOption, Option.map_some', Option.some.injEq] at hj
      subst hj
      refine .inr ⟨⟨j, cr, hr, rfl⟩, ?_, ?_⟩
      · simp only [getAllocation]
        rw [AllocationMap.get_eq_some_iff.2 ⟨by rw [hal]; exact List.mem_append_right _ ha, rfl⟩]
        rfl
      · rw [show createdAllocations results w 0 c = List.filterMap _ (List.range' 0 c) from rfl]
          at ha hnd
        rw [filter_id_eq_singleton hnd ha]
        rfl
  · push_neg at hc
    refine .inl ⟨?_, ?_⟩
    · have hnone : (createdAllocations results w 0 c).find? (·.id = aid) = none :=
        List.find?_eq_none.2 fun a ha => by simpa using hc a ha
      simp only [getAllocation, AllocationMap.get, hal, List.find?_append, hnone, Option.or_none]
    · rw [List.filter_eq_nil_iff.2 fun a ha => by simpa using hc a ha]
      rfl

/-! ### One tick -/

theorem phaseOf_of_some {d : DescriptorState} {aid : AllocationId} {a : Allocation}
    (h : d.getAllocation aid = some a) : d.phaseOf aid = .alive a.status := by
  simp [phaseOf, h]

theorem phaseOf_of_none {d : DescriptorState} {aid : AllocationId} (h : d.getAllocation aid = none) :
    d.phaseOf aid = if eventsAbout aid d.events = [] then .unknown else .gone := by
  simp [phaseOf, h]

/-- The edge that an answer `Ok(Some(s))` moves an active allocation along. -/
theorem move_answer (aid : AllocationId) {a : Allocation} (ha : a.status.isActive)
    (s : AllocationStatus) :
    Move aid (.alive a.status) (eventsAbout aid (refreshEvents (some a) aid (.ok (some s))))
      (.alive s) := by
  cases s <;> cases h : a.status <;> simp [h, AllocationStatus.isActive] at ha <;>
    simp [refreshEvents, eventsAbout, AllocationEvent.allocationId?, h]
  exacts [.stay _, .requeue, .start, .stay _, .finish (by simp [h, AllocationStatus.isActive]),
    .finish (by simp [h, AllocationStatus.isActive]), .fail (by simp [h, AllocationStatus.isActive]),
    .fail (by simp [h, AllocationStatus.isActive])]

/-- **One tick, one edge.** With fresh ids, a tick moves every id along one edge of the
lifecycle, labelled by the events it logs about the id. -/
theorem move_processDescriptor (d : DescriptorState) (rs : Responses) (jobs : List Job)
    (hf : Fresh d rs) (aid : AllocationId) :
    ∃ es, (d.processDescriptor rs jobs).events = d.events ++ es ∧
      Move aid (d.phaseOf aid) (eventsAbout aid es) ((d.processDescriptor rs jobs).phaseOf aid) := by
  obtain ⟨er, her, hget₁, hab₁⟩ := refreshAllocations_touch rs.status d aid
  obtain ⟨es, hes, htouch⟩ := scheduleNewAllocations_touch rs.schedule jobs
    (d.refreshAllocations rs.status) hf.1
    (fun j c h => refreshAllocations_get_none rs.status (hf.2 j c h).1) aid
  unfold processDescriptor
  refine ⟨er ++ es, by rw [hes, her, List.append_assoc], ?_⟩
  have hev₂ := congrArg (eventsAbout aid) (hes.trans (congrArg (· ++ es) her))
  simp only [eventsAbout_append] at hev₂
  rw [eventsAbout_append]
  /- A call that creates `aid` contradicts freshness whenever `aid` is already known. -/
  have hnew : (∃ j c, rs.schedule j = .ok c ∧ c.id = aid) →
      d.getAllocation aid = none ∧ eventsAbout aid d.events = [] := by
    rintro ⟨j, c, hj, rfl⟩
    refine ⟨(hf.2 j c hj).1, List.filter_eq_nil_iff.2 fun e he => by
      simpa using (hf.2 j c hj).2 e he⟩
  cases hd : d.getAllocation aid with
  | some a =>
    rw [phaseOf_of_some hd]
    obtain ⟨hget₂, hab₂⟩ := htouch.resolve_right fun h => by simp [(hnew h.1).1] at hd
    by_cases hact : a.status.isActive
    · have hmem : aid ∈ d.activeAllocationIds := mem_activeAllocationIds.2 ⟨a, hd, hact⟩
      rw [if_pos hmem, hd] at hget₁ hab₁
      rw [hab₁, hab₂, List.append_nil]
      rcases hr : rs.status aid with e | _ | s
      · rw [hr] at hget₁
        rw [phaseOf_of_some (hget₂.trans hget₁)]
        simpa [refreshEvents, eventsAbout, AllocationEvent.allocationId?] using Move.stay _
      · rw [hr] at hget₁ hab₁
        have hdis : eventsAbout aid (refreshEvents (some a) aid (.ok none)) =
            [.allocationDisappeared aid] := by
          simp [refreshEvents, eventsAbout, AllocationEvent.allocationId?]
        rw [phaseOf_of_none (hget₂.trans hget₁), if_neg (by simp [hev₂, hab₁, hab₂, hdis]), hdis]
        exact .disappear hact
      · rw [hr] at hget₁
        rw [phaseOf_of_some (hget₂.trans hget₁)]
        exact move_answer aid hact s
    · have hmem : aid ∉ d.activeAllocationIds := fun hm => by
        obtain ⟨b, hb, hbact⟩ := mem_activeAllocationIds.1 hm
        rw [hd] at hb; cases hb; exact hact hbact
      rw [if_neg hmem] at hget₁ hab₁
      rw [hab₁, hab₂, phaseOf_of_some (hget₂.trans (hget₁.trans hd))]
      exact .stay _
  | none =>
    have hmem : aid ∉ d.activeAllocationIds := fun hm => by
      simp [mem_activeAllocationIds, hd] at hm
    rw [if_neg hmem] at hget₁ hab₁
    rw [phaseOf_of_none hd, hab₁, List.nil_append]
    rcases htouch with ⟨hget₂, hab₂⟩ | ⟨hc, hq, hab₂⟩
    · rw [hab₂, phaseOf_of_none (hget₂.trans (hget₁.trans hd)), hev₂, hab₁, hab₂]
      simpa using Move.stay _
    · rw [hab₂, if_pos (hnew hc).2]
      obtain ⟨b, hb, hbq⟩ := Option.map_eq_some'.1 hq
      rw [phaseOf_of_some hb, hbq]
      exact .create

/-! ### Runs -/

theorem logged_of_run {d : DescriptorState} (hd : Run Fresh d) (aid : AllocationId) :
    Logged aid (d.phaseOf aid) (eventsAbout aid d.events) := by
  induction hd with
  | new info => rfl
  | @tick d rs jobs _ hrs ih =>
    obtain ⟨es, hes, hm⟩ := move_processDescriptor d rs jobs hrs aid
    rw [hes, eventsAbout_append]
    exact ih.move hm

/-- **The lifecycle.** Along every run with fresh ids, an id's log has the shape its phase asks
for, every further tick moves it along one edge, and an `Err` answer logs `StatusFail` and
changes no allocation. -/
theorem allocation_lifecycle {d : DescriptorState} (hd : Run Fresh d) (aid : AllocationId) :
    Logged aid (d.phaseOf aid) (eventsAbout aid d.events) ∧
    (∀ rs jobs, Fresh d rs → ∃ es, (d.processDescriptor rs jobs).events = d.events ++ es ∧
      Move aid (d.phaseOf aid) (eventsAbout aid es) ((d.processDescriptor rs jobs).phaseOf aid)) ∧
    ∀ e, (d.refreshAllocation aid (.error e)).allocations = d.allocations ∧
      (d.refreshAllocation aid (.error e)).events = d.events ++ [.statusFail e] :=
  ⟨logged_of_run hd aid, fun rs jobs h => move_processDescriptor d rs jobs h aid,
    fun _ => ⟨rfl, rfl⟩⟩

/-- Along the first two ticks of `requeueRun`, `a` is created and started. -/
theorem allocation_lifecycle_requeueTwo :
    Logged "a" (requeueTwo.phaseOf "a") (eventsAbout "a" requeueTwo.events) :=
  (allocation_lifecycle run_requeueTwo "a").1

/-! ### A requeue and a second start -/

/-- A fourth tick after `requeueRun` reports every allocation running. -/
def requeueTick₄ : Responses := ⟨fun _ => .ok (some .running), fun _ => .error ""⟩

/-- `a` is running after the second tick, queued after the third, and started a second time in
the fourth, all along a run with fresh ids. -/
theorem requeue_restarts :
    Run Fresh (requeueRun.processDescriptor requeueTick₄ requeueJobs) ∧
    (requeueTwo.getAllocation "a").map (·.status) = some .running ∧
    (requeueRun.getAllocation "a").map (·.status) = some .queued ∧
    ((requeueRun.processDescriptor requeueTick₄ requeueJobs).events.filter
      (· = .allocationStarted "a")).length = 2 :=
  ⟨.tick _ _ run_requeueRun ⟨fun _ _ _ _ h => (nomatch h), fun _ _ h => (nomatch h)⟩,
    by decide, by decide, by decide⟩

end DescriptorState

end HyperQueue
