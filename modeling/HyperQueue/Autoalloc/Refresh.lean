import HyperQueue.Autoalloc.State

/-!
# Autoalloc: refreshing allocation statuses

`refresh_allocations` asks the handler for the status of every active allocation of a
descriptor and writes each answer back:

* `Ok(Some status)` overwrites the allocation's status with `status`, after logging
  `AllocationStarted` (a queued allocation reported running), `AllocationFinished` or
  `AllocationFailed`;
* `Ok(None)` removes the allocation and logs `AllocationDisappeared`;
* `Err` logs `StatusFail` and changes no allocation.

The write is a plain overwrite: an allocation that is running and is reported queued goes back
to queued. `HyperQueue.Autoalloc.Lifecycle` follows the consequences.

Here the descriptor stays present for the whole loop; what happens when it is removed across
an `await` is in `HyperQueue.Autoalloc.Interleaving`.
-/

namespace HyperQueue

/-- The answer of `get_allocation_status`: an error (its `{:?}` rendering), `Ok(None)` for an
allocation the batch system does not know, or `Ok(Some status)`. -/
abbrev StatusResult := Except String (Option AllocationStatus)

namespace DescriptorState

/-- The body of `refresh_allocations`' loop once the status query of `allocationId` has
returned `result`. -/
def refreshAllocation (d : DescriptorState) (allocationId : AllocationId) :
    StatusResult → DescriptorState
  | .ok (some .running) =>
    match d.getAllocation allocationId with
    | none => d
    | some allocation =>
      let d := if allocation.status = .queued then
        d.addEvent (.allocationStarted allocationId) else d
      d.setAllocationStatus allocationId .running
  | .ok (some .finished) =>
    (d.addEvent (.allocationFinished allocationId)).setAllocationStatus allocationId .finished
  | .ok (some .failed) =>
    (d.addEvent (.allocationFailed allocationId)).setAllocationStatus allocationId .failed
  | .ok (some .queued) => d.setAllocationStatus allocationId .queued
  | .ok none =>
    (d.removeAllocation allocationId).addEvent (.allocationDisappeared allocationId)
  | .error err => d.addEvent (.statusFail err)

/-- `refresh_allocations`, with `status` the handler's answer for each allocation. -/
def refreshAllocations (status : AllocationId → StatusResult) (d : DescriptorState) :
    DescriptorState :=
  d.activeAllocationIds.foldl (fun d id => d.refreshAllocation id (status id)) d

/-! ## One answer -/

/-- The events that `refreshAllocation` appends, given the allocation's entry before. -/
def refreshEvents (entry : Option Allocation) (allocationId : AllocationId) :
    StatusResult → List AllocationEvent
  | .ok (some .running) =>
    if (entry.map (·.status)) = some .queued then [.allocationStarted allocationId] else []
  | .ok (some .finished) => [.allocationFinished allocationId]
  | .ok (some .failed) => [.allocationFailed allocationId]
  | .ok (some .queued) => []
  | .ok none => [.allocationDisappeared allocationId]
  | .error err => [.statusFail err]

/-- What `refreshAllocation` leaves in the map: the answered status, written over the old
one, or the allocation removed. -/
def refreshedMap (m : AllocationMap) (allocationId : AllocationId) :
    StatusResult → AllocationMap
  | .ok (some status) => m.setStatus allocationId status
  | .ok none => m.erase allocationId
  | .error _ => m

theorem setStatus_of_get_none {m : AllocationMap} {id : AllocationId} (h : m.get id = none)
    (s : AllocationStatus) : m.setStatus id s = m := by
  have h' := List.find?_eq_none.1 h
  ext1
  exact (List.map_congr_left fun a ha => if_neg (by simpa using h' a ha)).trans (List.map_id _)

theorem refreshAllocation_allocations (d : DescriptorState) (id : AllocationId)
    (r : StatusResult) :
    (d.refreshAllocation id r).allocations = refreshedMap d.allocations id r := by
  rcases r with e | _ | ⟨_ | _ | _ | _⟩ <;> simp only [refreshAllocation, refreshedMap]
  case running =>
    split
    · exact (setStatus_of_get_none ‹_› _).symm
    · split_ifs <;> simp
  all_goals simp

theorem refreshAllocation_events (d : DescriptorState) (id : AllocationId) (r : StatusResult) :
    (d.refreshAllocation id r).events = d.events ++ refreshEvents (d.getAllocation id) id r := by
  rcases r with e | _ | ⟨_ | _ | _ | _⟩ <;> simp only [refreshAllocation, refreshEvents]
  case running =>
    split <;> rename_i h <;> simp only [h]
    · simp
    · split_ifs <;> simp_all
  all_goals simp

@[simp] theorem refreshAllocation_info (d : DescriptorState) (id : AllocationId)
    (r : StatusResult) : (d.refreshAllocation id r).info = d.info := by
  rcases r with e | _ | ⟨_ | _ | _ | _⟩ <;> simp only [refreshAllocation]
  case running => split <;> (try split_ifs) <;> simp
  all_goals simp

/-- What `refreshAllocation` leaves for the allocation it was asked about. -/
def refreshedEntry (entry : Option Allocation) : StatusResult → Option Allocation
  | .ok (some status) => entry.map ({ · with status })
  | .ok none => none
  | .error _ => entry

theorem get_refreshedMap (m : AllocationMap) (id id' : AllocationId) (r : StatusResult) :
    (refreshedMap m id r).get id' = if id = id' then refreshedEntry (m.get id') r else m.get id' := by
  rcases r with e | _ | s <;>
    simp only [refreshedMap, refreshedEntry, AllocationMap.get_setStatus, AllocationMap.get_erase]
  split_ifs <;> rfl

theorem getAllocation_refreshAllocation (d : DescriptorState) (id id' : AllocationId)
    (r : StatusResult) :
    (d.refreshAllocation id r).getAllocation id' =
      if id = id' then refreshedEntry (d.getAllocation id') r else d.getAllocation id' := by
  simp only [getAllocation, refreshAllocation_allocations, get_refreshedMap]

/-- A refresh adds a queued allocation only by answering `Ok(Some(Queued))` for an allocation
that is not queued. -/
theorem queuedCount_refreshAllocation_le (d : DescriptorState) (id : AllocationId)
    (r : StatusResult)
    (h : r = .ok (some .queued) → ∀ a, d.getAllocation id = some a → a.status = .queued) :
    (d.refreshAllocation id r).queuedCount ≤ d.queuedCount := by
  unfold queuedCount
  rw [refreshAllocation_allocations]
  rcases r with e | _ | s
  · exact le_rfl
  · have := d.allocations.count_eq_erase_add id (·.status = .queued)
    simp only [refreshedMap]
    omega
  · have := d.allocations.count_setStatus id s (·.status = .queued)
    simp only [refreshedMap]
    cases hg : d.allocations.get id with
    | none => simp only [hg, Option.map_none', AllocationMap.countEntry_none] at this; omega
    | some a =>
      by_cases hs : s = .queued
      · subst hs
        have ha := h rfl a hg
        simp [hg, ha] at this
        omega
      · simp [hg, hs] at this
        omega

/-- Whether an answer writes `Queued` over an allocation that is not queued. -/
def requeues (entry : Option Allocation) : StatusResult → Bool
  | .ok (some .queued) => entry.any (·.status != .queued)
  | _ => false

/-- Whatever the answer, a refresh adds at most one queued allocation, and only when it writes
`Queued` over an allocation that is not queued. -/
theorem queuedCount_refreshAllocation_le_requeues (d : DescriptorState) (id : AllocationId)
    (r : StatusResult) :
    (d.refreshAllocation id r).queuedCount ≤
      d.queuedCount + if requeues (d.getAllocation id) r then 1 else 0 := by
  unfold queuedCount
  rw [refreshAllocation_allocations]
  rcases r with e | _ | s
  · exact Nat.le_add_right _ _
  · have := d.allocations.count_eq_erase_add id (·.status = .queued)
    simp only [refreshedMap]
    omega
  · have := d.allocations.count_setStatus id s (·.status = .queued)
    simp only [refreshedMap, getAllocation]
    rcases Option.eq_none_or_eq_some (d.allocations.get id) with hg | ⟨a, hg⟩
    · simp only [hg, Option.map_none', AllocationMap.countEntry_none] at this; omega
    · simp only [hg, Option.map_some', AllocationMap.countEntry_some] at this ⊢
      cases s <;> cases hs : a.status <;> simp_all [requeues] <;> omega

theorem nodup_activeAllocationIds (d : DescriptorState) : d.activeAllocationIds.Nodup :=
  nodup_map_id_filter d.allocations.nodup _

/-! ## The whole loop -/

section Loop

variable (status : AllocationId → StatusResult)

/-- The loop over a list of ids with no repeats. -/
def refreshAll (l : List AllocationId) (d : DescriptorState) : DescriptorState :=
  l.foldl (fun d id => d.refreshAllocation id (status id)) d

@[simp] theorem refreshAll_info (l : List AllocationId) (d : DescriptorState) :
    (refreshAll status l d).info = d.info := by
  induction l generalizing d with
  | nil => rfl
  | cons x xs ih => exact (ih _).trans (refreshAllocation_info _ _ _)

theorem getAllocation_refreshAll {l : List AllocationId} (hl : l.Nodup) (d : DescriptorState)
    (id : AllocationId) :
    (refreshAll status l d).getAllocation id =
      if id ∈ l then refreshedEntry (d.getAllocation id) (status id) else d.getAllocation id := by
  induction l generalizing d with
  | nil => simp [refreshAll]
  | cons x xs ih =>
    rw [List.nodup_cons] at hl
    simp only [refreshAll, List.foldl_cons] at ih ⊢
    rw [ih hl.2, getAllocation_refreshAllocation]
    by_cases hx : x = id
    · subst hx; simp [hl.1]
    · simp [hx, Ne.symm hx]

theorem events_refreshAll {l : List AllocationId} (hl : l.Nodup) (d : DescriptorState) :
    (refreshAll status l d).events =
      d.events ++ (l.map fun id => refreshEvents (d.getAllocation id) id (status id)).flatten := by
  induction l generalizing d with
  | nil => simp [refreshAll]
  | cons x xs ih =>
    rw [List.nodup_cons] at hl
    simp only [refreshAll, List.foldl_cons] at ih ⊢
    rw [ih hl.2, refreshAllocation_events, List.map_cons, List.flatten_cons, List.append_assoc]
    congr 3
    refine List.map_congr_left fun id hid => ?_
    rw [getAllocation_refreshAllocation, if_neg (by rintro rfl; exact hl.1 hid)]

theorem queuedCount_refreshAll_le {l : List AllocationId} (hl : l.Nodup) (d : DescriptorState)
    (h : ∀ id ∈ l, status id = .ok (some .queued) →
      ∀ a, d.getAllocation id = some a → a.status = .queued) :
    (refreshAll status l d).queuedCount ≤ d.queuedCount := by
  induction l generalizing d with
  | nil => exact le_rfl
  | cons x xs ih =>
    rw [List.nodup_cons] at hl
    refine (ih hl.2 _ fun id hid => ?_).trans
      (queuedCount_refreshAllocation_le _ _ _ (h x (List.mem_cons_self _ _)))
    rw [getAllocation_refreshAllocation, if_neg (by rintro rfl; exact hl.1 hid)]
    exact h id (List.mem_cons_of_mem _ hid)

/-- Over the loop, the queued allocations grow at most by the answers that requeue. -/
theorem queuedCount_refreshAll_le_requeues {l : List AllocationId} (hl : l.Nodup)
    (d : DescriptorState) :
    (refreshAll status l d).queuedCount ≤
      d.queuedCount + l.countP fun id => requeues (d.getAllocation id) (status id) := by
  induction l generalizing d with
  | nil => exact Nat.le_add_right _ _
  | cons x xs ih =>
    rw [List.nodup_cons] at hl
    have h₁ := queuedCount_refreshAllocation_le_requeues d x (status x)
    have h₂ := ih hl.2 (d.refreshAllocation x (status x))
    have hrest : (xs.countP fun id =>
        requeues ((d.refreshAllocation x (status x)).getAllocation id) (status id)) =
        xs.countP fun id => requeues (d.getAllocation id) (status id) :=
      List.countP_congr fun id hid => by
        rw [getAllocation_refreshAllocation, if_neg (by rintro rfl; exact hl.1 hid)]
    simp only [refreshAll, List.foldl_cons, List.countP_cons] at h₂ ⊢
    rw [hrest] at h₂
    split_ifs at h₁ ⊢ <;> omega

theorem refreshAllocations_eq (d : DescriptorState) :
    d.refreshAllocations status = refreshAll status d.activeAllocationIds d := rfl

end Loop

end DescriptorState

end HyperQueue
