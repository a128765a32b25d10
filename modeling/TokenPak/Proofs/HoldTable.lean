import Mathlib.Data.List.Nodup
import TokenPak.SpendGuard.World

/-! How one operation changes the table of held requests. Rows are never lost,
a settled row keeps its status and everything but the status and the stored
response is fixed at insertion. -/

namespace TokenPak.SpendGuard
open Library

namespace Pending

structure Successor (row later : PendingRequest) : Prop where
  same : later = { row with status := later.status, blockResponse := later.blockResponse }
  consumed : row.status = .consumed → later.status = .consumed
  discarded : row.status = .discarded → later.status = .discarded

theorem Successor.refl (row : PendingRequest) : Successor row row := ⟨rfl, id, id⟩

variable {row later : PendingRequest}

theorem Successor.trans {last : PendingRequest} (next : Successor row later)
    (following : Successor later last) : Successor row last where
  same := by rw [following.same, next.same]
  consumed state := following.consumed (next.consumed state)
  discarded state := following.discarded (next.discarded state)

theorem Successor.pendingId (next : Successor row later) :
    later.pendingId = row.pendingId := by rw [next.same]

theorem Successor.rawRequestBlob (next : Successor row later) :
    later.rawRequestBlob = row.rawRequestBlob := by rw [next.same]

theorem Successor.expiresAt (next : Successor row later) :
    later.expiresAt = row.expiresAt := by rw [next.same]

theorem Table.eq_of_pendingId {table : Table} {other : PendingRequest} (member : row ∈ table.rows)
    (present : other ∈ table.rows) (same : row.pendingId = other.pendingId) : row = other :=
  List.inj_on_of_nodup_map table.unique member present same

theorem newest_mem {rows : List PendingRequest} (found : newest rows = some row) :
    row ∈ rows := by
  have general : row ∈ rows ∨ (none : Option PendingRequest) = some row := by
    unfold newest at found
    generalize (none : Option PendingRequest) = best at found ⊢
    induction rows generalizing best with
    | nil => exact .inr found
    | cons head rows ih =>
      rw [List.foldl_cons] at found
      obtain member | kept := ih _ found
      · exact .inl (List.mem_cons_of_mem _ member)
      · cases best with
        | none => exact .inl (Option.some.inj kept ▸ List.mem_cons_self)
        | some current =>
          dsimp only at kept
          split at kept
          · exact .inl (Option.some.inj kept ▸ List.mem_cons_self)
          · exact .inr kept
  simpa using general

theorem latestHold_open {sessionId model : String} {headers : Headers} {table : Table} {hold : PendingRequest}
    (found : latestHold sessionId model headers table = some hold) : hold ∈ table.rows ∧ Open hold := by
  unfold latestHold at found
  split at found
  · cases found
  · obtain ⟨search, open_⟩ := Option.filter_eq_some_iff.mp found
    exact ⟨(List.mem_filter.mp (newest_mem search)).1, of_decide_eq_true open_⟩

/-- The update touches open rows only, or leaves the status alone. -/
def Gentle (f : PendingRequest → PendingRequest) : Prop := ∀ row, Successor row (f row)

theorem gentle_setStatus {selects : PendingRequest → Prop} [DecidablePred selects] (status : HoldStatus)
    (open_only : ∀ row, selects row → Open row) :
    Gentle fun row => if selects row then { row with status } else row := by
  intro row
  dsimp only
  split
  next selected =>
    obtain pending | expired := open_only row selected
    · exact ⟨rfl, by simp [pending], by simp [pending]⟩
    · exact ⟨rfl, by simp [expired], by simp [expired]⟩
  next => exact .refl row

end Pending

open Pending

theorem Approvals.consumeExpired_rows {key : ScopeKey} {pendingId replyHash : String} {now : Time}
    {holds : Table}
    {replies : Replies} (answered : (consumeExpired key pendingId replyHash now holds replies).1 = true) :
    (∃ row ∈ holds.rows, ExpiredAs pendingId now row) ∧
      ∃ row ∈ (consumeExpired key pendingId replyHash now holds replies).2.1.rows,
        row.pendingId = pendingId ∧ row.status = .consumed := by
  unfold consumeExpired at answered ⊢
  by_cases used : (key, replyHash) ∈ replies
  · simp [used] at answered
  by_cases one : (holds.rows.filter (ExpiredAs pendingId now ·)).length = 1
  · obtain ⟨row, only⟩ := List.length_eq_one_iff.mp one
    have found : row ∈ holds.rows.filter (ExpiredAs pendingId now ·) := by simp [only]
    obtain ⟨member, selected⟩ := List.mem_filter.mp found
    have expired : ExpiredAs pendingId now row := by simpa using selected
    rw [if_neg used, if_pos one]
    refine ⟨⟨row, member, expired⟩, { row with status := .consumed }, ?_, expired.1, rfl⟩
    exact List.mem_map.mpr ⟨row, member, if_pos expired⟩
  · rw [if_neg used, if_neg one] at answered
    cases answered

/-- One open, expired row and an unused reply are enough. -/
theorem Approvals.consumeExpired_succeeds {key : ScopeKey} {pendingId replyHash : String}
    {now : Time} {holds : Table}
    {replies : Replies} {row : PendingRequest} (unused : (key, replyHash) ∉ replies)
    (member : row ∈ holds.rows)
    (expired : ExpiredAs pendingId now row) :
    (consumeExpired key pendingId replyHash now holds replies).1 = true := by
  have one : (holds.rows.filter (ExpiredAs pendingId now ·)).length = 1 := by
    have selected : row ∈ holds.rows.filter (ExpiredAs pendingId now ·) :=
      List.mem_filter.mpr ⟨member, decide_eq_true expired⟩
    have distinct : (holds.rows.filter (ExpiredAs pendingId now ·)).Nodup :=
      (List.Nodup.of_map _ holds.unique).filter _
    refine List.length_eq_one_iff.mpr ⟨row, of_not_not fun several => ?_⟩
    obtain empty | ⟨other, found, different⟩ := (distinct.ne_singleton_iff row).mp several
    · rw [empty] at selected
      cases selected
    · obtain ⟨present, same⟩ := List.mem_filter.mp found
      exact different (Table.eq_of_pendingId present member ((of_decide_eq_true same).1.trans expired.1.symm))
  unfold consumeExpired
  rw [if_neg unused, if_pos one]

theorem World.react_rows (world : World) (op : Op) :
    (∃ f, Gentle f ∧ (world.react op).2.holds.rows = world.holds.rows.map f) ∨
    ∃ row : PendingRequest, row.status = .pending ∧ (world.react op).2.holds.rows = world.holds.rows ++ [row] := by
  have unchanged : ∃ f, Gentle f ∧ world.holds.rows = world.holds.rows.map f :=
    ⟨id, fun row => .refl row, by simp⟩
  cases op with
  | expireOld => exact .inl ⟨_, gentle_setStatus .expired fun row stale => .inl stale.1, rfl⟩
  | discardExpired sessionId keepId =>
    exact .inl ⟨_, gentle_setStatus .discarded fun row superseded => superseded.2.1, rfl⟩
  | discard pendingId => exact .inl ⟨_, gentle_setStatus .discarded fun row open_ => open_.2, rfl⟩
  | consume pendingId => exact .inl ⟨_, gentle_setStatus .consumed fun row pending => .inl pending.2, rfl⟩
  | store draft =>
    simp only [react, Pending.store]
    split
    · exact .inl unchanged
    · split
      · exact .inr ⟨_, rfl, rfl⟩
      · exact .inl unchanged
  | rememberBlockResponse pendingId response =>
    refine .inl ⟨_, fun row => ?_, rfl⟩
    split
    · exact ⟨rfl, id, id⟩
    · exact .refl row
  | consumeExpired key pendingId replyHash =>
    have gentle : Gentle fun row => if Approvals.ExpiredAs pendingId world.ambient.clock row then
        { row with status := .consumed } else row := gentle_setStatus .consumed fun row expired => expired.2.1
    simp only [react, Approvals.consumeExpired]
    split
    · exact .inl unchanged
    · split
      · exact .inl ⟨_, gentle, rfl⟩
      · exact .inl ⟨_, gentle, rfl⟩
  | claimSweep process =>
    simp only [react]
    split <;> exact .inl unchanged
  | _ => exact .inl unchanged

namespace World.Step
variable {world after : World} {event : GuardEvent}

theorem rows (step : World.Step world event after) :
    (∃ f, Gentle f ∧ after.holds.rows = world.holds.rows.map f) ∨
    ∃ row : PendingRequest, row.status = .pending ∧ after.holds.rows = world.holds.rows ++ [row] := by
  cases step with
  | @answered ambient op later => exact react_rows (world.drift ambient) op
  | raised later => exact .inl ⟨id, fun row => .refl row, by simp [drift]⟩
  | @raisedAfterConsume ambient pendingId _ later =>
      exact react_rows (world.drift ambient) (.consume pendingId)

/-- Every row lives on. -/
theorem successor (step : World.Step world event after) {row : PendingRequest}
    (member : row ∈ world.holds.rows) :
    ∃ later ∈ after.holds.rows, Successor row later := by
  obtain ⟨f, gentle, rows⟩ | ⟨_, _, rows⟩ := step.rows
  · exact ⟨f row, by rw [rows]; exact List.mem_map_of_mem member, gentle row⟩
  · exact ⟨row, by rw [rows]; exact List.mem_append_left _ member, .refl row⟩

end World.Step

/-- The row of this identifier is in this state. -/
def World.HasStatus (world : World) (pendingId : String) (status : HoldStatus) : Prop :=
  ∃ row ∈ world.holds.rows, row.pendingId = pendingId ∧ row.status = status

namespace World
variable {world after : World} {event : GuardEvent} {pendingId : String}

theorem HasStatus.unique {status other : HoldStatus} (first : world.HasStatus pendingId status)
    (second : world.HasStatus pendingId other) : status = other := by
  obtain ⟨row, member, named, state⟩ := first
  obtain ⟨row', member', named', state'⟩ := second
  have same := Table.eq_of_pendingId member member' (named.trans named'.symm)
  rw [← state, ← state', same]

theorem HasStatus.consumed_step (consumed : world.HasStatus pendingId .consumed)
    (step : Step world event after) :
    after.HasStatus pendingId .consumed := by
  obtain ⟨row, member, named, state⟩ := consumed
  obtain ⟨later, present, next⟩ := step.successor member
  exact ⟨later, present, next.pendingId.trans named, next.consumed state⟩

theorem HasStatus.discarded_step (discarded : world.HasStatus pendingId .discarded)
    (step : Step world event after) :
    after.HasStatus pendingId .discarded := by
  obtain ⟨row, member, named, state⟩ := discarded
  obtain ⟨later, present, next⟩ := step.successor member
  exact ⟨later, present, next.pendingId.trans named, next.discarded state⟩

variable {ambient : Ambient}

theorem consume_answered {row : PendingRequest}
    (answered : ((world.drift ambient).react (.consume pendingId)).1 = .ok (some row)) :
    world.HasStatus pendingId .pending ∧
      ((world.drift ambient).react (.consume pendingId)).2.HasStatus pendingId .consumed ∧
        row.pendingId = pendingId ∧
      row ∈ ((world.drift ambient).react (.consume pendingId)).2.holds.rows := by
  simp only [react, Pending.consume, drift, Except.ok.injEq, Option.map_eq_some_iff] at answered
  obtain ⟨found, search, same⟩ := answered
  have identified : Identified pendingId .pending found := by simpa using List.find?_some search
  have member := List.mem_of_find?_eq_some search
  have present : row ∈ ((world.drift ambient).react (.consume pendingId)).2.holds.rows := by
    refine List.mem_map.mpr ⟨found, member, ?_⟩
    rw [if_pos identified, same]
  have named : row.pendingId = pendingId := by rw [← same]; exact identified.1
  exact ⟨⟨found, member, identified⟩, ⟨row, present, named, by rw [← same]⟩, named, present⟩

theorem discard_answered {status : HoldStatus} (found : world.HasStatus pendingId status)
    (unconsumed : status ≠ .consumed) :
    ((world.drift ambient).react (.discard pendingId)).2.HasStatus pendingId .discarded := by
  obtain ⟨row, member, named, state⟩ := found
  refine ⟨if OpenAs pendingId row then { row with status := .discarded }
    else row, List.mem_map_of_mem member, ?_⟩
  split
  next => exact ⟨named, rfl⟩
  next closed =>
    refine ⟨named, ?_⟩
    cases status with
    | pending => exact absurd ⟨named, .inl state⟩ closed
    | expired => exact absurd ⟨named, .inr state⟩ closed
    | discarded => exact state
    | consumed => exact absurd rfl unconsumed

theorem consumeExpired_answered {key : ScopeKey} {replyHash : String}
    (answered : ((world.drift ambient).react (.consumeExpired key pendingId replyHash)).1 = .ok true) :
    (∃ row ∈ world.holds.rows, Approvals.ExpiredAs pendingId ambient.clock row) ∧
      ((world.drift ambient).react (.consumeExpired key pendingId replyHash)).2.HasStatus pendingId .consumed :=
  Approvals.consumeExpired_rows (Except.ok.inj answered)

end World
end TokenPak.SpendGuard

/-! How one operation changes the context approvals: only three operations do,
each under the key it names. -/

namespace TokenPak.SpendGuard
open Library

/-- The event created, revoked or tried to redeem a grant. -/
def touchesGrants : GuardEvent → Bool
  | ⟨.create .., .ok _⟩ | ⟨.revoke _, .ok _⟩ | ⟨.redeem .., .ok _⟩ => true
  | _ => false

namespace World

/-- Every step leaves the grants alone or is one of the three operations on them. -/
theorem Step.grants_cases {world after : World} {event : GuardEvent} (step : Step world event after) :
    (touchesGrants event = false ∧ after.grants = world.grants) ∨
    (∃ key tip risk, event = ⟨.create key tip risk, .ok ()⟩ ∧
      after.grants = Approvals.create key tip risk after.ambient.clock world.grants) ∨
    (∃ key, event = ⟨.revoke key, .ok ()⟩ ∧ after.grants = Approvals.revoke key world.grants) ∨
    ∃ key risk, event = ⟨.redeem key risk,
      .ok (Approvals.redeem key risk after.ambient.clock world.grants).1⟩ ∧
      after.grants = (Approvals.redeem key risk after.ambient.clock world.grants).2 := by
  cases step with
  | @answered ambient op later =>
    cases op with
    | create key tip risk => exact .inr (.inl ⟨key, tip, risk, rfl, rfl⟩)
    | revoke key => exact .inr (.inr (.inl ⟨key, rfl, rfl⟩))
    | redeem key risk => exact .inr (.inr (.inr ⟨key, risk, rfl, rfl⟩))
    | claimSweep process =>
      refine .inl ⟨rfl, ?_⟩
      simp only [react]
      split <;> rfl
    | _ => exact .inl ⟨rfl, rfl⟩
  | @raised ambient op fault later =>
    refine .inl ⟨?_, rfl⟩
    cases op <;> rfl
  | raisedAfterConsume later => exact .inl ⟨rfl, rfl⟩

end World
end TokenPak.SpendGuard
