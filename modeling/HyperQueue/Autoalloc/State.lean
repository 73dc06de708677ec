import Mathlib.Data.List.Nodup

/-!
# Autoalloc: descriptors, allocations and events

The data that the autoalloc loop of `src/crates/hyperqueue/src/server/autoalloc/process.rs`
reads and writes. The loop itself is in `HyperQueue.Autoalloc.Refresh` and
`HyperQueue.Autoalloc.Schedule`.

The types and their small operations live in `state.rs`, which is not among the sources, so
the operations below follow the spec's data model. A descriptor keeps its allocations in a map
keyed by allocation id and appends events to a log.

* `AllocationMap` is the map: a list whose ids are distinct, with the proof as a field. The
  list's order stands for the map's iteration order, which the code does not fix; every
  result of the development holds for every order.
* `DescriptorState.events` is the sequence of appended events. The ring that keeps only the
  newest of them is a window onto this sequence, and no result depends on its capacity.

Timestamps (`queued_at`, `started_at`, …) come from the wall clock and are left out.
-/

namespace HyperQueue

/-- An allocation's id, as the batch system returned it. -/
abbrev AllocationId := String

/-- A queue descriptor's id. -/
abbrev DescriptorId := Nat

/-! ## Allocations -/

/-- `AllocationStatus`, without its timestamps. -/
inductive AllocationStatus
  | queued
  | running
  | finished
  | failed
  deriving DecidableEq, Repr

/-- Active means queued or running (`Allocation::is_active`). -/
def AllocationStatus.isActive : AllocationStatus → Bool
  | .queued | .running => true
  | .finished | .failed => false

structure Allocation where
  id : AllocationId
  workerCount : Nat
  status : AllocationStatus
  workingDir : String
  deriving DecidableEq, Repr

/-- `AllocationEvent`; the errors are the `{:?}` renderings the code stores. -/
inductive AllocationEvent
  | queueFail (error : String)
  | statusFail (error : String)
  | allocationQueued (id : AllocationId)
  | allocationStarted (id : AllocationId)
  | allocationFinished (id : AllocationId)
  | allocationFailed (id : AllocationId)
  | allocationDisappeared (id : AllocationId)
  deriving DecidableEq, Repr

/-- The allocation an event is about; the two failure events name none. -/
def AllocationEvent.allocationId? : AllocationEvent → Option AllocationId
  | .queueFail _ | .statusFail _ => none
  | .allocationQueued id | .allocationStarted id | .allocationFinished id
  | .allocationFailed id | .allocationDisappeared id => some id

/-- The fields of `QueueInfo` that the loop reads. -/
structure QueueInfo where
  backlog : UInt32
  workersPerAlloc : UInt32
  timelimit : Nat
  deriving DecidableEq, Repr

/-! ## The allocation map -/

/-- Modelled from the spec: the allocations of one descriptor, keyed by id. -/
@[ext] structure AllocationMap where
  toList : List Allocation
  nodup : (toList.map Allocation.id).Nodup
  deriving DecidableEq

/-- Counting over a list with distinct ids splits into the entry with id `id`, if any, and
the rest. -/
theorem countP_eq_filter_add {l : List Allocation} (hl : (l.map Allocation.id).Nodup)
    (id : AllocationId) (p : Allocation → Bool) :
    l.countP p = (l.filter (·.id ≠ id)).countP p +
      ((l.find? (·.id = id)).map fun a => if p a then 1 else 0).getD 0 := by
  induction l with
  | nil => rfl
  | cons x xs ih =>
    simp only [List.map_cons, List.nodup_cons, List.mem_map] at hl
    by_cases hx : x.id = id
    · subst hx
      have hrest : xs.filter (fun y => !decide (y.id = x.id)) = xs :=
        List.filter_eq_self.2 fun y hy => by simpa using fun h => hl.1 ⟨y, hy, h⟩
      simp [List.countP_cons, hrest]
    · simp [List.countP_cons, hx, ih hl.2]
      omega

theorem nodup_map_id_filter {l : List Allocation} (h : (l.map Allocation.id).Nodup)
    (p : Allocation → Bool) : ((l.filter p).map Allocation.id).Nodup :=
  h.sublist ((List.filter_sublist l).map _)

namespace AllocationMap

/-- Modelled from the spec: the map of a new descriptor. -/
def empty : AllocationMap := ⟨[], List.nodup_nil⟩

/-- Modelled from the spec: `get_allocation_mut`, read only. -/
def get (m : AllocationMap) (id : AllocationId) : Option Allocation :=
  m.toList.find? (·.id = id)

/-- Modelled from the spec: `add_allocation`, a map insert, so it replaces an allocation with
the same id. -/
def insert (m : AllocationMap) (a : Allocation) : AllocationMap :=
  ⟨m.toList.filter (·.id ≠ a.id) ++ [a], by
    rw [List.map_append, List.nodup_append]
    refine ⟨nodup_map_id_filter m.nodup _, List.nodup_singleton _, ?_⟩
    simp⟩

/-- Modelled from the spec: `remove_allocation`. -/
def erase (m : AllocationMap) (id : AllocationId) : AllocationMap :=
  ⟨m.toList.filter (·.id ≠ id), nodup_map_id_filter m.nodup _⟩

/-- Modelled from the spec: writing the status of the allocation `id`, if there is one, in
place. -/
def setStatus (m : AllocationMap) (id : AllocationId) (status : AllocationStatus) :
    AllocationMap :=
  ⟨m.toList.map fun a => if a.id = id then { a with status } else a, by
    rw [List.map_map]
    convert m.nodup using 2
    funext a
    by_cases h : a.id = id <;> simp [h]⟩

/-- The map holds at most one allocation per id. -/
theorem eq_of_mem_of_id_eq {m : AllocationMap} {a b : Allocation} (ha : a ∈ m.toList)
    (hb : b ∈ m.toList) (h : a.id = b.id) : a = b :=
  List.inj_on_of_nodup_map m.nodup ha hb h

theorem get_eq_some_iff {m : AllocationMap} {id : AllocationId} {a : Allocation} :
    m.get id = some a ↔ a ∈ m.toList ∧ a.id = id := by
  refine ⟨fun h => ⟨List.mem_of_find?_eq_some h, by simpa using List.find?_some h⟩, ?_⟩
  rintro ⟨ha, rfl⟩
  unfold get
  cases hb : m.toList.find? (·.id = a.id) with
  | none => exact absurd (by simp) (List.find?_eq_none.1 hb a ha)
  | some b =>
    have hbid : b.id = a.id := by simpa using List.find?_some hb
    rw [eq_of_mem_of_id_eq (List.mem_of_find?_eq_some hb) ha hbid]

/-- How many allocations satisfy `p`. -/
def count (m : AllocationMap) (p : Allocation → Bool) : Nat :=
  m.toList.countP p

/-- One if the entry exists and satisfies `p`. -/
def countEntry (o : Option Allocation) (p : Allocation → Bool) : Nat :=
  (o.map fun a => if p a then 1 else 0).getD 0

@[simp] theorem countEntry_none (p : Allocation → Bool) : countEntry none p = 0 := rfl

@[simp] theorem countEntry_some (a : Allocation) (p : Allocation → Bool) :
    countEntry (some a) p = if p a then 1 else 0 := rfl

@[simp] theorem get_empty (id : AllocationId) : empty.get id = none := rfl

@[simp] theorem count_empty (p : Allocation → Bool) : empty.count p = 0 := rfl

theorem get_insert (m : AllocationMap) (a : Allocation) (id : AllocationId) :
    (m.insert a).get id = if a.id = id then some a else m.get id := by
  simp only [get, insert, List.find?_append, List.find?_filter]
  split_ifs with h
  · subst h; simp
  · have : ∀ x : Allocation, (decide (x.id ≠ a.id ∧ x.id = id)) = decide (x.id = id) := by
      intro x; by_cases hx : x.id = id <;> simp [hx, Ne.symm h]
    simp [this, h]

theorem get_erase (m : AllocationMap) (id' id : AllocationId) :
    (m.erase id').get id = if id' = id then none else m.get id := by
  simp only [get, erase, List.find?_filter]
  split_ifs with h
  · subst h; simp
  · have : ∀ x : Allocation, (decide (x.id ≠ id' ∧ x.id = id)) = decide (x.id = id) := by
      intro x; by_cases hx : x.id = id <;> simp [hx, Ne.symm h]
    simp [this]

theorem get_setStatus (m : AllocationMap) (id' id : AllocationId) (st : AllocationStatus) :
    (m.setStatus id' st).get id =
      if id' = id then (m.get id).map ({ · with status := st }) else m.get id := by
  have hp : ((fun a : Allocation => decide (a.id = id)) ∘
      fun a => if a.id = id' then { a with status := st } else a) = fun a => decide (a.id = id) := by
    funext a; by_cases h : a.id = id' <;> simp [h]
  simp only [get, setStatus, List.find?_map, hp]
  cases hfind : m.toList.find? (·.id = id) with
  | none => simp
  | some x =>
    have hx : x.id = id := by simpa using List.find?_some hfind
    split_ifs with h
    · simp [hx, h]
    · simp [hx, Ne.symm h]

theorem count_eq_erase_add (m : AllocationMap) (id : AllocationId) (p : Allocation → Bool) :
    m.count p = (m.erase id).count p + countEntry (m.get id) p :=
  countP_eq_filter_add m.nodup id p

theorem count_insert (m : AllocationMap) (a : Allocation) (p : Allocation → Bool) :
    (m.insert a).count p + countEntry (m.get a.id) p = m.count p + if p a then 1 else 0 := by
  rw [count_eq_erase_add m a.id p]
  simp [count, insert, erase, List.countP_append, List.countP_cons]
  omega

theorem count_setStatus (m : AllocationMap) (id : AllocationId) (st : AllocationStatus)
    (p : Allocation → Bool) :
    (m.setStatus id st).count p + countEntry (m.get id) p =
      m.count p + countEntry ((m.get id).map ({ · with status := st })) p := by
  rw [count_eq_erase_add m id p, count_eq_erase_add (m.setStatus id st) id p, get_setStatus,
    if_pos rfl]
  have : ((m.setStatus id st).erase id).count p = (m.erase id).count p := by
    have hq : ((fun a : Allocation => decide (a.id ≠ id)) ∘
        fun a => if a.id = id then { a with status := st } else a) =
        fun a => decide (a.id ≠ id) := by
      funext a; by_cases h : a.id = id <;> simp [h]
    simp only [count, erase, setStatus, List.filter_map, hq]
    rw [List.map_congr_left fun a ha => if_neg (by simpa using List.of_mem_filter ha),
      List.map_id']
  rw [this]
  omega

end AllocationMap

/-! ## Descriptors -/

/-- A descriptor as the loop sees it: its queue's configuration, its allocations and its
event log. -/
structure DescriptorState where
  info : QueueInfo
  allocations : AllocationMap
  events : List AllocationEvent
  deriving DecidableEq

namespace DescriptorState

/-- Modelled from the spec: a descriptor as it is added, with no allocations and no events. -/
def new (info : QueueInfo) : DescriptorState := ⟨info, .empty, []⟩

/-- Modelled from the spec: `add_event`, appended to the log. -/
def addEvent (d : DescriptorState) (event : AllocationEvent) : DescriptorState :=
  { d with events := d.events ++ [event] }

/-- Modelled from the spec: `add_allocation`, a map insert. -/
def addAllocation (d : DescriptorState) (allocation : Allocation) : DescriptorState :=
  { d with allocations := d.allocations.insert allocation }

/-- Modelled from the spec: `remove_allocation`. -/
def removeAllocation (d : DescriptorState) (id : AllocationId) : DescriptorState :=
  { d with allocations := d.allocations.erase id }

/-- Modelled from the spec: `get_allocation`. -/
def getAllocation (d : DescriptorState) (id : AllocationId) : Option Allocation :=
  d.allocations.get id

/-- Modelled from the spec: `get_allocation_mut(&id)` followed by a write of `status`; nothing
if `id` is absent. -/
def setAllocationStatus (d : DescriptorState) (id : AllocationId) (status : AllocationStatus) :
    DescriptorState :=
  { d with allocations := d.allocations.setStatus id status }

/-- Modelled from the spec: `queued_allocations().count()`. -/
def queuedCount (d : DescriptorState) : Nat :=
  d.allocations.count (·.status = .queued)

/-- Modelled from the spec: the ids of `active_allocations()`, in the map's order. -/
def activeAllocationIds (d : DescriptorState) : List AllocationId :=
  (d.allocations.toList.filter (·.status.isActive)).map (·.id)

@[simp] theorem addEvent_info (d : DescriptorState) (e : AllocationEvent) :
    (d.addEvent e).info = d.info := rfl
@[simp] theorem addEvent_allocations (d : DescriptorState) (e : AllocationEvent) :
    (d.addEvent e).allocations = d.allocations := rfl
@[simp] theorem addEvent_events (d : DescriptorState) (e : AllocationEvent) :
    (d.addEvent e).events = d.events ++ [e] := rfl
@[simp] theorem addAllocation_info (d : DescriptorState) (a : Allocation) :
    (d.addAllocation a).info = d.info := rfl
@[simp] theorem addAllocation_allocations (d : DescriptorState) (a : Allocation) :
    (d.addAllocation a).allocations = d.allocations.insert a := rfl
@[simp] theorem addAllocation_events (d : DescriptorState) (a : Allocation) :
    (d.addAllocation a).events = d.events := rfl
@[simp] theorem removeAllocation_info (d : DescriptorState) (id : AllocationId) :
    (d.removeAllocation id).info = d.info := rfl
@[simp] theorem removeAllocation_allocations (d : DescriptorState) (id : AllocationId) :
    (d.removeAllocation id).allocations = d.allocations.erase id := rfl
@[simp] theorem removeAllocation_events (d : DescriptorState) (id : AllocationId) :
    (d.removeAllocation id).events = d.events := rfl
@[simp] theorem setAllocationStatus_info (d : DescriptorState) (id : AllocationId)
    (s : AllocationStatus) : (d.setAllocationStatus id s).info = d.info := rfl
@[simp] theorem setAllocationStatus_allocations (d : DescriptorState) (id : AllocationId)
    (s : AllocationStatus) :
    (d.setAllocationStatus id s).allocations = d.allocations.setStatus id s := rfl
@[simp] theorem setAllocationStatus_events (d : DescriptorState) (id : AllocationId)
    (s : AllocationStatus) : (d.setAllocationStatus id s).events = d.events := rfl

end DescriptorState

end HyperQueue
