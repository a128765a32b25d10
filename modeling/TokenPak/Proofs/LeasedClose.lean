import Mathlib.Tactic.Linarith
import TokenPak.Proofs.ClientCustody

/-! Which closes can meet a lease. A client that has left the maps of the pool and has
no lease cannot be leased again; every section but one schedules only such clients.
The one is the second section of a release of a shared client: the lease was the last
when it was given back, and need not be when the client is found retired. -/

namespace TokenPak.Proxy.ConnectionPool
open TokenPak.Library

/-- The client is in no map and has no lease, so no request comes to it any more. -/
def Gone (pool : Pool) (client : Client) : Prop :=
  client < pool.constructed ∧ pool.sessionClientRefs client = 0 ∧ client ∉ pool.pooled

/-- The session map has the client under the key. -/
def Pool.Holds (pool : Pool) (key : SessionKey) (client : Client) : Prop :=
  ∃ entry, (key, entry) ∈ pool.sessionClients.entries ∧ entry.client = client

theorem mem_pooled {pool : Pool} {client : Client} : client ∈ pool.pooled ↔
    client ∈ pool.clients.values ∨ (∃ key, pool.Holds key client) ∨ client ∈ pool.overflowClients := by
  simp only [Pool.pooled, List.mem_append, Pool.sessionClientList, Dict.values, List.map_map, List.mem_map,
    Function.comp_apply, or_assoc]
  constructor
  · intro held
    rcases held with shared | ⟨⟨key, entry⟩, member, same⟩ | overflow
    · exact .inl shared
    · exact .inr (.inl ⟨key, entry, member, same⟩)
    · exact .inr (.inr overflow)
  · intro held
    rcases held with shared | ⟨key, entry, member, same⟩ | overflow
    · exact .inl shared
    · exact .inr (.inl ⟨(key, entry), member, same⟩)
    · exact .inr (.inr overflow)

/-- What a section does to the maps and the leases: only new clients come into a map, only
clients in a map are leased, and after a shutdown nothing comes into a map. -/
structure Steady (pool after : Pool) : Prop where
  constructed : pool.constructed ≤ after.constructed
  shared : ∀ client ∈ after.clients.values, client ∈ pool.clients.values ∨ pool.constructed ≤ client
  session : ∀ key client, after.Holds key client → pool.Holds key client ∨ pool.constructed ≤ client
  overflow : ∀ client ∈ after.overflowClients, client ∈ pool.overflowClients ∨ pool.constructed ≤ client
  refs : ∀ client, client < pool.constructed → client ∉ pool.pooled →
    after.sessionClientRefs client ≤ pool.sessionClientRefs client
  closed : pool.closed = true → after.closed = true
  sealed : pool.closed = true → ∀ client ∈ after.pooled, client ∈ pool.pooled

namespace Steady
variable {pool after last : Pool} {client : Client}

theorem refl (pool : Pool) : Steady pool pool :=
  ⟨le_refl _, fun _ => .inl, fun _ _ => .inl, fun _ => .inl, fun _ _ _ => le_refl _, id, fun _ _ => id⟩

theorem pooled (steady : Steady pool after) (held : client ∈ after.pooled) :
    client ∈ pool.pooled ∨ pool.constructed ≤ client := by
  rcases mem_pooled.mp held with shared | ⟨key, holds⟩ | overflow
  · exact (steady.shared client shared).imp_left fun there => mem_pooled.mpr (.inl there)
  · exact (steady.session key client holds).imp_left fun there => mem_pooled.mpr (.inr (.inl ⟨key, there⟩))
  · exact (steady.overflow client overflow).imp_left fun there => mem_pooled.mpr (.inr (.inr there))

theorem gone (steady : Steady pool after) (gone : Gone pool client) : Gone after client := by
  obtain ⟨made, free, apart⟩ := gone
  refine ⟨lt_of_lt_of_le made steady.constructed, ?_, fun held => ?_⟩
  · have least := steady.refs client made apart
    omega
  · rcases steady.pooled held with there | new
    · exact apart there
    · exact absurd made (not_lt.mpr new)

theorem trans (first : Steady pool after) (second : Steady after last) : Steady pool last where
  constructed := first.constructed.trans second.constructed
  shared client held := by
    rcases second.shared client held with there | new
    · exact first.shared client there
    · exact .inr (first.constructed.trans new)
  session key client held := by
    rcases second.session key client held with there | new
    · exact first.session key client there
    · exact .inr (first.constructed.trans new)
  overflow client held := by
    rcases second.overflow client held with there | new
    · exact first.overflow client there
    · exact .inr (first.constructed.trans new)
  refs client made apart := by
    have still : client ∉ after.pooled := by
      intro held
      rcases first.pooled held with there | new
      · exact apart there
      · omega
    exact (second.refs client (lt_of_lt_of_le made first.constructed) still).trans (first.refs client made apart)
  closed shut := second.closed (first.closed shut)
  sealed shut client held := first.sealed shut client (second.sealed (first.closed shut) client held)

theorem of_less (constructed : after.constructed = pool.constructed)
    (closed : pool.closed = true → after.closed = true)
    (shared : after.clients.values ⊆ pool.clients.values)
    (session : ∀ key client, after.Holds key client → pool.Holds key client)
    (overflow : after.overflowClients ⊆ pool.overflowClients)
    (refs : ∀ client, after.sessionClientRefs client ≤ pool.sessionClientRefs client) :
    Steady pool after where
  constructed := constructed.ge
  shared client held := .inl (shared held)
  session key client held := .inl (session key client held)
  overflow client held := .inl (overflow held)
  refs client _ _ := refs client
  closed := closed
  sealed _ client held := by
    rcases mem_pooled.mp held with there | ⟨key, holds⟩ | there
    · exact mem_pooled.mpr (.inl (shared there))
    · exact mem_pooled.mpr (.inr (.inl ⟨key, session key client holds⟩))
    · exact mem_pooled.mpr (.inr (.inr (overflow there)))

end Steady

section Sections
variable {pool after : Pool} {client : Client} {isClosed : Client → Bool}

theorem holds_pop {key other : SessionKey} (popped : after.sessionClients = pool.sessionClients.pop key)
    (held : after.Holds other client) : pool.Holds other client := by
  obtain ⟨entry, member, same⟩ := held
  rw [popped] at member
  exact ⟨entry, List.mem_of_mem_filter member, same⟩

theorem values_pop_subset {netloc : String} (pool : Pool) :
    (pool.clients.pop netloc).values ⊆ pool.clients.values :=
  (List.filter_sublist.map Prod.snd).subset

theorem holds_stamp {key other : SessionKey} {now : ℚ} (held : (pool.stamp key now).Holds other client) :
    pool.Holds other client := by
  unfold Pool.stamp at held
  split at held
  next old found =>
    obtain ⟨entry, member, same⟩ := held
    have taken : key ∈ pool.sessionClients.entries.map Prod.fst :=
      List.mem_map.mpr ⟨_, Dict.mem_entries found, rfl⟩
    simp only [Dict.set, taken, dif_pos, List.mem_map] at member
    obtain ⟨⟨before, stamped⟩, there, result⟩ := member
    by_cases named : before = key
    · subst named
      simp only [if_true, Prod.mk.injEq] at result
      obtain ⟨rfl, rfl⟩ := result
      exact ⟨old, Dict.mem_entries found, same⟩
    · simp only [named, if_false, Prod.mk.injEq] at result
      obtain ⟨rfl, rfl⟩ := result
      exact ⟨_, there, same⟩
  · exact held

theorem stamp_steady (pool : Pool) (key : SessionKey) (now : ℚ) : Steady pool (pool.stamp key now) := by
  have session : ∀ other client, (pool.stamp key now).Holds other client → pool.Holds other client :=
    fun _ _ => holds_stamp
  apply Steady.of_less _ _ _ session
  all_goals
    unfold Pool.stamp
    split <;> simp

theorem mem_scheduleClose {other : Client}
    (waiting : other ∈ (pool.scheduleClose isClosed client).closePending) :
    other ∈ pool.closePending ∨ other = client := by
  unfold Pool.scheduleClose Pool.releaseClientSlot at waiting
  split at waiting
  · split at waiting <;> exact .inl waiting
  · split at waiting
    · exact .inl waiting
    · exact (List.mem_append.mp waiting).imp_right List.mem_singleton.mp

theorem Move.steady (move : Move isClosed pool after) : Steady pool after := by
  cases move with
  | @lease leased running held =>
    refine ⟨le_refl _, fun _ => .inl, fun _ _ => .inl, fun _ => .inl, ?_, id, fun _ _ => id⟩
    intro client _ apart
    have differs : client ≠ leased := fun same => apart (same ▸ held)
    simp [Pool.lease, Function.update_of_ne differs]
  | stamp key now => exact stamp_steady pool key now
  | @closeSession key entry found free =>
    obtain ⟨_, _, _, _, _, framed⟩ := scheduleClose_frame isClosed entry.client pool
    rw [Pool.closeSession, framed]
    exact Steady.of_less rfl id (List.Subset.refl _) (fun _ _ => holds_pop rfl)
      (List.Subset.refl _) fun _ => le_refl _
  | @closeOverflow client held free =>
    obtain ⟨_, _, _, _, _, framed⟩ := scheduleClose_frame isClosed client pool
    rw [Pool.closeOverflow, framed]
    exact Steady.of_less rfl id (List.Subset.refl _) (fun _ _ => id) List.erase_subset fun _ => le_refl _
  | addShared running made absent =>
    obtain ⟨_, rfl, rfl⟩ := newClient_ok made
    refine ⟨Nat.le_succ _, ?_, fun _ _ => .inl, fun _ => .inl, fun _ _ _ => le_refl _, ?_, ?_⟩
    · intro client held
      rw [Dict.values_set_new absent] at held
      exact (List.mem_append.mp held).imp_right fun new => (List.mem_singleton.mp new).ge
    · simp [running]
    · simp [running]
  | addSession running made absent =>
    obtain ⟨_, rfl, rfl⟩ := newClient_ok made
    refine ⟨Nat.le_succ _, fun _ => .inl, ?_, fun _ => .inl, fun _ _ _ => le_refl _, ?_, ?_⟩
    · rintro key client ⟨entry, member, same⟩
      simp only [Dict.set, Dict.not_mem_keys absent, dif_neg, not_false_eq_true, List.mem_append,
        List.mem_singleton] at member
      rcases member with old | new
      · exact .inl ⟨entry, old, same⟩
      · cases new
        exact .inr same.le
    · simp [running]
    · simp [running]
  | addOverflow running made =>
    obtain ⟨_, rfl, rfl⟩ := newClient_ok made
    refine ⟨Nat.le_succ _, fun _ => .inl, fun _ _ => .inl, ?_, fun _ _ _ => le_refl _, ?_, ?_⟩
    · intro client held
      exact (List.mem_append.mp held).imp_right fun new => (List.mem_singleton.mp new).ge
    · simp [running]
    · simp [running]

/-- No client that waits for its close has a lease. -/
def Pool.Quiet (pool : Pool) : Prop := ∀ client ∈ pool.closePending, pool.sessionClientRefs client = 0

section Quiet
variable {limit : Nat} {hands : Multiset Client} {work : Multiset (Client × Bool)}

/-- A client that is retired, waits for its close or is in hand has left the maps. -/
theorem Custody.left (custody : Custody limit hands work pool)
    (left : client ∈ pool.retiredClients.map Prod.fst ∨ client ∈ pool.closePending ∨ client ∈ hands) :
    client < pool.constructed ∧ client ∉ pool.pooled := by
  have once := Multiset.nodup_iff_count_le_one.mp custody.nodup client
  have there : client ∈ pool.owned + hands + (pool.permitsReleased : Multiset Client) := by
    simp only [Pool.owned, Multiset.mem_add, Multiset.mem_coe]
    tauto
  have listed : 0 < (pool.retiredClients.map Prod.fst).count client +
      pool.closePending.count client + hands.count client := by
    rcases left with retired | pending | hand
    · have some := List.count_pos_iff.mpr retired
      omega
    · have some := List.count_pos_iff.mpr pending
      omega
    · have some := Multiset.count_pos.mpr hand
      omega
  simp only [Pool.owned, Multiset.count_add, Multiset.coe_count] at once
  rw [custody.whole, Multiset.mem_range] at there
  exact ⟨there, List.count_eq_zero.mp (by omega)⟩

theorem Custody.gone (custody : Custody limit hands work pool)
    (left : client ∈ pool.retiredClients.map Prod.fst ∨ client ∈ pool.closePending ∨ client ∈ hands)
    (free : pool.sessionClientRefs client = 0) : Gone pool client :=
  ⟨(custody.left left).1, free, (custody.left left).2⟩

theorem Steady.quiet (steady : Steady pool after) (custody : Custody limit hands work pool)
    (quiet : pool.Quiet)
    (added : ∀ client ∈ after.closePending, client ∈ pool.closePending ∨
      after.sessionClientRefs client = 0) : after.Quiet := by
  intro client waiting
  rcases added client waiting with before | free
  · exact (steady.gone (custody.gone (.inr (.inl before)) (quiet client before))).2.1
  · exact free

theorem Move.quiet (move : Move isClosed pool after) (custody : Custody limit hands work pool)
    (quiet : pool.Quiet) :
    after.Quiet := by
  apply move.steady.quiet custody quiet
  intro client waiting
  cases move with
  | lease => exact .inl waiting
  | stamp key now =>
    unfold Pool.stamp at waiting
    split at waiting <;> exact .inl waiting
  | @closeSession key entry found free =>
    rcases mem_scheduleClose waiting with before | same
    · exact .inl before
    · rw [refs_closeSession, same]
      exact .inr free
  | @closeOverflow other held free =>
    rcases mem_scheduleClose waiting with before | same
    · exact .inl before
    · rw [refs_closeOverflow, same]
      exact .inr free
  | addShared _ made _ =>
    obtain ⟨_, rfl, rfl⟩ := newClient_ok made
    exact .inl waiting
  | addSession _ made _ =>
    obtain ⟨_, rfl, rfl⟩ := newClient_ok made
    exact .inl waiting
  | addOverflow _ made =>
    obtain ⟨_, rfl, rfl⟩ := newClient_ok made
    exact .inl waiting

theorem Moves.calm (moves : Moves isClosed pool after) (honest : Honest isClosed pool)
    (custody : Custody limit hands work pool)
    (quiet : pool.Quiet) : Steady pool after ∧ after.retiredClients = pool.retiredClients ∧ after.Quiet := by
  induction moves with
  | refl => exact ⟨Steady.refl pool, rfl, quiet⟩
  | @tail middle last before move ih =>
    have there : Custody limit hands work middle := Moves.custody before honest custody
    obtain ⟨steady, retired, calm⟩ := ih
    exact ⟨steady.trans move.steady, move.frame.2.2.trans retired, move.quiet there calm⟩

end Quiet

end Sections

/-- The place in which a session client may be: its own key, or beside the maps. -/
def Homed (pool : Pool) : Slot → Client → Prop
  | .shared _, _ => True
  | .session key, client =>
    client < pool.constructed ∧ client ∉ pool.clients.values ∧ ∀ other, pool.Holds other client → other = key

/-- What a task knows of the clients it carries. -/
def Task.Ok (pool : Pool) (clock : ℚ) : Task → Prop
  | .serving slot client | .evicted slot client => Homed pool slot client
  | .surveying slot client cutoff => Homed pool slot client ∧ cutoff < clock
  | .reaping slot client cutoff leased => Homed pool slot client ∧ cutoff < clock ∧
      ∀ entry ∈ pool.retiredClients, entry.2 ≤ cutoff → entry.1 ∉ leased → Gone pool entry.1
  | .settling (.shared _) _ => True
  | .settling (.session _) client => Gone pool client
  | .shutting => pool.closed = true
  | .detached leased clients =>
      pool.closed = true ∧ pool.pooled = [] ∧ (∀ client ∈ clients, Gone pool client) ∧
      ∀ entry ∈ pool.retiredClients, entry.1 ∉ leased → Gone pool entry.1
  | .handing clients => ∀ client ∈ clients, Gone pool client
  | .closing _ | .closed _ _ | .resting _ => True

/-- A section is steady, and retires clients of the maps with the time of the clock. -/
structure Onward (clock : ℚ) (pool after : Pool) : Prop where
  steady : Steady pool after
  retired : ∀ entry ∈ after.retiredClients, entry ∈ pool.retiredClients ∨ clock ≤ entry.2 ∧
    entry.1 ∈ pool.pooled

section Stable
variable {pool after : Pool} {clock : ℚ}

theorem Homed.steady {slot : Slot} {client : Client} (homed : Homed pool slot client)
    (steady : Steady pool after) :
    Homed after slot client := by
  cases slot with
  | shared netloc => trivial
  | session key =>
    obtain ⟨made, apart, own⟩ := homed
    refine ⟨lt_of_lt_of_le made steady.constructed, fun held => ?_, fun other holds => ?_⟩
    · rcases steady.shared client held with there | new
      · exact apart there
      · exact absurd made (not_lt.mpr new)
    · rcases steady.session other client holds with there | new
      · exact own other there
      · exact absurd made (not_lt.mpr new)

/-- What the other tasks know stays true over a section. -/
theorem Task.Ok.onward {task : Task} (ok : task.Ok pool clock) (onward : Onward clock pool after) :
    task.Ok after clock := by
  have steady := onward.steady
  cases task with
  | serving slot client => exact Homed.steady ok steady
  | evicted slot client => exact Homed.steady ok steady
  | surveying slot client cutoff => exact ⟨Homed.steady ok.1 steady, ok.2⟩
  | reaping slot client cutoff leased =>
    refine ⟨Homed.steady ok.1 steady, ok.2.1, fun entry member due free => ?_⟩
    rcases onward.retired entry member with before | ⟨late, _⟩
    · exact steady.gone (ok.2.2 entry before due free)
    · exact absurd (lt_of_le_of_lt due ok.2.1) (not_lt.mpr late)
  | settling slot client =>
    cases slot with
    | shared netloc => trivial
    | session key => exact steady.gone ok
  | shutting => exact steady.closed ok
  | detached leased clients =>
    obtain ⟨shut, empty, mine, rest⟩ := ok
    refine ⟨steady.closed shut, ?_, fun client member => steady.gone (mine client member),
      fun entry member free => ?_⟩
    · apply List.eq_nil_iff_forall_not_mem.mpr
      intro client held
      have there := steady.sealed shut client held
      rw [empty] at there
      exact List.not_mem_nil there
    · rcases onward.retired entry member with before | ⟨_, held⟩
      · exact steady.gone (rest entry before free)
      · rw [empty] at held
        exact absurd held List.not_mem_nil
  | handing clients => exact fun client member => steady.gone (ok client member)
  | closing client => trivial
  | closed client succeeded => trivial
  | resting client => trivial

theorem Task.Ok.later {task : Task} {later : ℚ} (ok : task.Ok pool clock) (passes : clock ≤ later) :
    task.Ok pool later := by
  cases task with
  | surveying slot client cutoff => exact ⟨ok.1, lt_of_lt_of_le ok.2 passes⟩
  | reaping slot client cutoff leased => exact ⟨ok.1, lt_of_lt_of_le ok.2.1 passes, ok.2.2⟩
  | settling slot client => cases slot <;> exact ok
  | serving slot client => exact ok
  | evicted slot client => exact ok
  | shutting => exact ok
  | detached leased clients => exact ok
  | handing clients => exact ok
  | closing client => trivial
  | closed client succeeded => trivial
  | resting client => trivial

end Stable

section Effects
variable {pool after : Pool} {client : Client} {isClosed : Client → Bool} {clock : ℚ} {limit : Nat}
  {hands : Multiset Client}
  {work : Multiset (Client × Bool)}

theorem Onward.refl (pool : Pool) : Onward clock pool pool := ⟨Steady.refl pool, fun _ => .inl⟩

theorem Onward.cleanup (pool : Pool)
    (pending backlog started succeeded slotClients released : List Client) (slots : Nat) :
    Onward clock pool { pool with
      closePending := pending, closeBacklog := backlog, closeStarted := started, closeSucceeded := succeeded
      clientSlotClients := slotClients, clientSlots := slots, permitsReleased := released } :=
  ⟨Steady.of_less rfl id (List.Subset.refl _) (fun _ _ => id) (List.Subset.refl _) fun _ =>
    le_refl _, fun _ => .inl⟩

theorem finishClose_frame (client : Client) (pool : Pool) : ∃ slotClients slots released,
    pool.finishClose client = { pool with
      closePending := pool.closePending.erase client, clientSlotClients := slotClients, clientSlots := slots
      permitsReleased := released } := by
  unfold Pool.finishClose Pool.releaseClientSlot
  split <;> exact ⟨_, _, _, rfl⟩

theorem free_of_not_leased (made : client < pool.constructed) (unleased : client ∉ pool.leased) :
    pool.sessionClientRefs client = 0 := by
  by_contra used
  exact unleased (List.mem_filter.mpr ⟨List.mem_range.mpr made, by simpa [Nat.pos_iff_ne_zero] using used⟩)

theorem scheduleAll_frame (isClosed : Client → Bool) (clients : List (Client × ℚ)) (pool : Pool) :
    ∃ pending backlog slotClients slots released,
      clients.foldl (fun pool entry => pool.scheduleClose isClosed entry.1) pool = { pool with
        closePending := pending, closeBacklog := backlog, clientSlotClients := slotClients,
            clientSlots :=
          slots
        permitsReleased := released } := by
  induction clients generalizing pool with
  | nil => exact ⟨_, _, _, _, _, rfl⟩
  | cons entry clients ih =>
    obtain ⟨_, _, _, _, _, first⟩ := scheduleClose_frame isClosed entry.1 pool
    obtain ⟨_, _, _, _, _, rest⟩ := ih (pool.scheduleClose isClosed entry.1)
    rw [List.foldl_cons, rest, first]
    exact ⟨_, _, _, _, _, rfl⟩

variable {pool : Pool} {now : ℚ} {key : SessionKey}

theorem mem_scheduleAll {clients : List (Client × ℚ)}
    (waiting : client ∈ (clients.foldl (fun pool entry => pool.scheduleClose isClosed entry.1) pool).closePending) :
    client ∈ pool.closePending ∨ client ∈ clients.map Prod.fst := by
  induction clients generalizing pool with
  | nil => exact .inl waiting
  | cons entry clients ih =>
    rcases ih waiting with before | later
    · rcases mem_scheduleClose before with earlier | same
      · exact .inl earlier
      · exact .inr (same ▸ List.mem_cons_self)
    · exact .inr (List.mem_cons_of_mem _ later)

theorem closeRetired_onward (due : Client × ℚ → Bool) (pool : Pool) :
    Onward clock pool (pool.closeRetired isClosed due) := by
  obtain ⟨_, _, _, _, _, framed⟩ := scheduleAll_frame isClosed (pool.retiredClients.filter due)
    { pool with retiredClients := pool.retiredClients.filter fun entry => ! due entry }
  rw [Pool.closeRetired, framed]
  refine ⟨Steady.of_less rfl id (List.Subset.refl _) (fun _ _ => id) (List.Subset.refl _) fun _ =>
    le_refl _, ?_⟩
  exact fun entry member => .inl (List.mem_of_mem_filter member)

theorem closeRetired_quiet {due : Client × ℚ → Bool} (custody : Custody limit hands work pool)
    (quiet : pool.Quiet)
    (free : ∀ entry ∈ pool.retiredClients, due entry = true → pool.sessionClientRefs entry.1 = 0) :
    (pool.closeRetired isClosed due).Quiet := by
  have onward : Onward 0 pool (pool.closeRetired isClosed due) := closeRetired_onward due pool
  apply onward.steady.quiet custody quiet
  intro client waiting
  rcases mem_scheduleAll waiting with before | chosen
  · exact .inl before
  · obtain ⟨entry, member, rfl⟩ := List.mem_map.mp chosen
    obtain ⟨there, due⟩ := List.mem_filter.mp member
    have left : entry.1 ∈ pool.retiredClients.map Prod.fst := List.mem_map_of_mem there
    exact .inr (onward.steady.gone (custody.gone (.inl left) (free entry there due))).2.1

theorem mem_retire {entry : Client × ℚ} (member : entry ∈ (pool.retire client now).retiredClients) :
    entry ∈ pool.retiredClients ∨ entry = (client, now) := by
  unfold Pool.retire at member
  split at member
  · exact .inl member
  · exact (List.mem_append.mp member).imp_right List.mem_singleton.mp

theorem retire_frame (client : Client) (now : ℚ) (pool : Pool) :
    ∃ retired, pool.retire client now = { pool with retiredClients := retired } := by
  unfold Pool.retire
  split <;> exact ⟨_, rfl⟩

theorem evict_onward (slot : Slot) (client : Client) (pool : Pool) :
    Onward clock pool (pool.evict clock slot client) := by
  cases slot with
  | shared netloc =>
    simp only [Pool.evict, Pool.evictShared]
    split
    next found =>
      obtain ⟨_, framed⟩ := retire_frame client clock { pool with clients := pool.clients.pop netloc }
      refine ⟨?_, fun entry member => ?_⟩
      · rw [framed]
        exact Steady.of_less rfl id (values_pop_subset pool) (fun _ _ => id)
          (List.Subset.refl _) fun _ => le_refl _
      · rcases mem_retire member with before | new
        · exact .inl before
        · rw [new]
          exact .inr ⟨le_refl _, mem_pooled.mpr (.inl (Dict.mem_values found))⟩
    · exact Onward.refl pool
  | session key =>
    simp only [Pool.evict, Pool.evictSession]
    split
    next held =>
      obtain ⟨_, framed⟩ :=
        retire_frame client clock { pool with sessionClients := pool.sessionClients.pop key }
      refine ⟨?_, fun entry member => ?_⟩
      · rw [framed]
        exact Steady.of_less rfl id (List.Subset.refl _) (fun _ _ => holds_pop rfl)
          (List.Subset.refl _) fun _ => le_refl _
      · rcases mem_retire member with before | new
        · exact .inl before
        · cases found : pool.sessionClients.get key with
          | none => simp [found] at held
          | some stored =>
            have same : stored.client = client := by simpa [found] using held
            rw [new]
            exact .inr ⟨le_refl _, mem_pooled.mpr (.inr (.inl ⟨key, stored, Dict.mem_entries found, same⟩))⟩
    · exact Onward.refl pool

theorem pending_evict {slot : Slot} :
    (pool.evict now slot client).closePending = pool.closePending := by
  cases slot with
  | shared netloc =>
    simp only [Pool.evict, Pool.evictShared]
    split
    · obtain ⟨_, framed⟩ := retire_frame client now { pool with clients := pool.clients.pop netloc }
      rw [framed]
    · rfl
  | session key =>
    simp only [Pool.evict, Pool.evictSession]
    split
    · obtain ⟨_, framed⟩ :=
        retire_frame client now { pool with sessionClients := pool.sessionClients.pop key }
      rw [framed]
    · rfl

theorem touch_onward (now : ℚ) (slot : Slot) (pool : Pool) : Onward clock pool (pool.touch now slot) := by
  cases slot with
  | shared netloc => exact Onward.refl pool
  | session key =>
    refine ⟨stamp_steady pool key now, fun entry member => .inl ?_⟩
    have move : Move (fun _ => false) pool (pool.stamp key now) := .stamp key now
    exact move.frame.2.2 ▸ member

theorem pending_touch {slot : Slot} : (pool.touch now slot).closePending = pool.closePending := by
  cases slot with
  | shared netloc => rfl
  | session key =>
    simp only [Pool.touch, Pool.stamp]
    split <;> rfl

theorem unlease_steady (client : Client) (pool : Pool) : Steady pool (pool.unlease client) := by
  refine Steady.of_less rfl id (List.Subset.refl _) (fun _ _ => id) (List.Subset.refl _) fun other => ?_
  by_cases same : other = client
  · subst same
    simp [Pool.unlease]
  · simp [Pool.unlease, Function.update_of_ne same]

theorem release_moves (now : ℚ) (slot : Slot) (client : Client) (pool : Pool) :
    Moves isClosed (pool.unlease client) (pool.release isClosed now slot client).1 := by
  cases slot with
  | shared netloc => exact .refl
  | session key =>
    simp only [Pool.release, Pool.releaseSessionClient]
    split
    · exact .single (.stamp key now)
    · split
      next overflows => exact .single (.closeOverflow overflows.2 overflows.1)
      · exact .refl

theorem release_calm {slot : Slot} {last : Bool} (honest : Honest isClosed pool)
    (custody : Custody limit hands work pool) (quiet : pool.Quiet)
    (released : pool.release isClosed now slot client = (after, last)) :
    Onward clock pool after ∧ after.Quiet := by
  have moves : Moves isClosed (pool.unlease client) after := by
    have whole : Moves isClosed (pool.unlease client) (pool.release isClosed now slot client).1 :=
      release_moves now slot client pool
    rwa [released] at whole
  have calm : (pool.unlease client).Quiet := (unlease_steady client pool).quiet custody quiet fun _ => .inl
  obtain ⟨steady, retired, still⟩ := Moves.calm moves honest (custody.unlease client) calm
  exact ⟨⟨(unlease_steady client pool).trans steady, fun entry member => .inl (retired ▸ member)⟩, still⟩

theorem releaseLast_gone (homed : Homed pool (.session key) client)
    (last : pool.release isClosed now (.session key) client = (after, true)) :
    Gone after client := by
  simp only [Pool.release, Pool.releaseSessionClient] at last
  split at last
  · cases last
  next unheld =>
    split at last
    · cases last
    next outside =>
      simp only [Prod.mk.injEq, decide_eq_true_eq] at last
      obtain ⟨rfl, free⟩ := last
      obtain ⟨made, apart, own⟩ := homed
      refine ⟨made, free, fun held => ?_⟩
      rcases mem_pooled.mp held with shared | ⟨other, entry, member, same⟩ | overflow
      · exact apart shared
      · obtain rfl := own other ⟨entry, member, same⟩
        have found : (pool.unlease client).sessionClients.get other = some entry := Dict.get_of_mem member
        simp [found, same] at unheld
      · exact outside ⟨free, overflow⟩

theorem retireAll_frame (clients : List Client) (now : ℚ) (pool : Pool) :
    ∃ retired, clients.foldl (fun pool client => pool.retire client now) pool =
      { pool with retiredClients := retired } := by
  induction clients generalizing pool with
  | nil => exact ⟨_, rfl⟩
  | cons client clients ih =>
    obtain ⟨_, first⟩ := retire_frame client now pool
    obtain ⟨_, rest⟩ := ih (pool.retire client now)
    rw [List.foldl_cons, rest, first]
    exact ⟨_, rfl⟩

theorem mem_retireAll {clients : List Client} {entry : Client × ℚ}
    (member : entry ∈ (clients.foldl (fun pool client => pool.retire client now) pool).retiredClients) :
    entry ∈ pool.retiredClients ∨ entry.2 = now ∧ entry.1 ∈ clients := by
  induction clients generalizing pool with
  | nil => exact .inl member
  | cons client clients ih =>
    rcases ih member with before | ⟨time, later⟩
    · rcases mem_retire before with earlier | same
      · exact .inl earlier
      · subst same
        exact .inr ⟨rfl, List.mem_cons_self⟩
    · exact .inr ⟨time, List.mem_cons_of_mem _ later⟩

theorem detach_frame (pool : Pool) (now : ℚ) : ∃ retired, (pool.detach now).1 = { pool with
    clients := .empty, sessionClients := .empty, overflowClients := [], retiredClients := retired } :=
  retireAll_frame _ now _

theorem detach_onward (pool : Pool) : Onward clock pool (pool.detach clock).1 := by
  refine ⟨?_, fun entry member => ?_⟩
  · obtain ⟨_, framed⟩ := detach_frame pool clock
    rw [framed]
    refine Steady.of_less rfl id (List.nil_subset _) (fun key client held => ?_)
      (List.nil_subset _) fun _ => le_refl _
    obtain ⟨_, member, _⟩ := held
    exact absurd member List.not_mem_nil
  · rcases mem_retireAll member with before | ⟨time, kept⟩
    · exact .inl before
    · exact .inr ⟨time.ge, List.mem_of_mem_filter kept⟩

theorem holds_lease (checkout : Bool) {leased : Client} (held : pool.Holds key client) :
    (if checkout then pool.lease leased else pool).Holds key client := by
  cases checkout <;> exact held

theorem getSessionClient_result {config : PoolConfig} {makes : Bool} {checkout : Bool}
    (taken : pool.getSessionClient config isClosed makes now key checkout = (after, .ok client)) :
    after.Holds key client ∨ client ∈ after.overflowClients := by
  unfold Pool.getSessionClient at taken
  split at taken
  · cases taken
  · generalize (pool.reapOverflow isClosed).reapIdle config isClosed now = tidy at taken
    simp only at taken
    split at taken
    next entry found =>
      cases taken
      apply Or.inl
      apply holds_lease
      simp only [Pool.stamp, found]
      exact ⟨_, Dict.mem_set .., rfl⟩
    next absent =>
      split at taken
      · cases taken
      next spare room =>
        split at taken
        · cases taken
        · cases taken
          exact .inr (List.mem_append_right _ (List.mem_singleton_self _))
      next spare room =>
        split at taken
        · cases taken
        · cases taken
          exact .inl (holds_lease checkout ⟨_, Dict.mem_set .., rfl⟩)

/-- A client taken from its place is at home there. -/
theorem Custody.homed (custody : Custody limit hands work pool)
    (placed : pool.Holds key client ∨ client ∈ pool.overflowClients) :
    Homed pool (.session key) client := by
  have once := Multiset.nodup_iff_count_le_one.mp custody.nodup client
  have made : client < pool.constructed := by
    have pooled : client ∈ pool.pooled := by
      rcases placed with held | overflow
      · exact mem_pooled.mpr (.inr (.inl ⟨key, held⟩))
      · exact mem_pooled.mpr (.inr (.inr overflow))
    have there : client ∈ pool.owned + hands + (pool.permitsReleased : Multiset Client) := by
      simp [Pool.owned, pooled]
    rwa [custody.whole, Multiset.mem_range] at there
  simp only [Pool.owned, Pool.pooled, Multiset.count_add, Multiset.coe_count, List.count_append] at once
  have listed {other : SessionKey} (held : pool.Holds other client) : 0 <
      pool.sessionClientList.count client := by
    obtain ⟨entry, member, same⟩ := held
    exact List.count_pos_iff.mpr (List.mem_map.mpr ⟨entry, List.mem_map_of_mem member, same⟩)
  refine ⟨made, ?_, fun other held => ?_⟩
  · rcases placed with held | overflow
    · have here := listed held
      exact List.count_eq_zero.mp (by omega)
    · have here := List.count_pos_iff.mpr overflow
      exact List.count_eq_zero.mp (by omega)
  · rcases placed with here | overflow
    · obtain ⟨entry, member, same⟩ := held
      obtain ⟨own, place, named⟩ := here
      have distinct : (pool.sessionClients.entries.map fun entry => entry.2.client).Nodup := by
        have whole := custody.nodup
        simp only [Pool.owned, Pool.pooled, ← Multiset.coe_add, Multiset.nodup_add] at whole
        have session := Multiset.coe_nodup.mp whole.1.1.1.1.1.2.1
        rwa [Pool.sessionClientList, Dict.values, List.map_map] at session
      exact congrArg Prod.fst (List.inj_on_of_nodup_map distinct member place (same.trans named.symm))
    · have some := listed held
      have here := List.count_pos_iff.mpr overflow
      omega

end Effects

/-- The releases of shared clients that come to their second section find a retired client
without leases. -/
def Unhurried (state : State) (label : Label) : Prop :=
  ∀ netloc client, label = .settles (.shared netloc) client →
    client ∈ state.pool.retiredClients.map Prod.fst →
    state.pool.sessionClientRefs client = 0

structure State.Calm (state : State) : Prop where
  quiet : state.pool.Quiet
  tasks : ∀ task ∈ state.tasks, task.Ok state.pool state.clock

section Runs
variable {config : PoolConfig} {state next : State} {label : Label} {pool after : Pool} {clock : ℚ}
  {task : Task}
  {tasks : Multiset Task}

theorem State.Calm.onward (calm : State.Calm ⟨pool, clock, tasks⟩)
    (onward : Onward clock pool after) (quiet : after.Quiet) :
    State.Calm ⟨after, clock, tasks⟩ :=
  ⟨quiet, fun task member => (calm.tasks task member).onward onward⟩

theorem State.Calm.enter (calm : State.Calm ⟨pool, clock, tasks⟩) (ok : task.Ok pool clock) :
    State.Calm ⟨pool, clock, task ::ₘ tasks⟩ := by
  refine ⟨calm.quiet, fun other member => ?_⟩
  rcases Multiset.mem_cons.mp member with same | there
  · exact same ▸ ok
  · exact calm.tasks other there

theorem State.Calm.leave (calm : State.Calm ⟨pool, clock, task ::ₘ tasks⟩) :
    State.Calm ⟨pool, clock, tasks⟩ :=
  ⟨calm.quiet, fun other member => calm.tasks other (Multiset.mem_cons_of_mem member)⟩

theorem State.Calm.own (calm : State.Calm ⟨pool, clock, task ::ₘ tasks⟩) : task.Ok pool clock :=
  calm.tasks task (Multiset.mem_cons_self ..)

theorem checkout_calm {isClosed : Client → Bool} {makes checkout : Bool} {now : ℚ} {slot : Slot}
    {result : Except PoolError Client} (kept : State.Kept config ⟨pool, clock, tasks⟩)
    (calm : State.Calm ⟨pool, clock, tasks⟩)
    (honest : Honest isClosed pool)
    (taken : pool.checkout config isClosed makes now slot checkout = (after, result)) :
    State.Calm ⟨after, clock, tasks⟩ := by
  have moves : Moves isClosed pool (pool.checkout config isClosed makes now slot checkout).1 :=
    checkout_moves (Custody.overflow_nodup kept)
  rw [taken] at moves
  obtain ⟨steady, retired, quiet⟩ := Moves.calm moves honest kept calm.quiet
  exact calm.onward ⟨steady, fun entry member => .inl (retired ▸ member)⟩ quiet

theorem Step.calm (grace : 0 < config.retireCloseGraceSeconds) (step : Step config state label next)
    (unhurried : Unhurried state label) (kept : state.Kept config) (calm : state.Calm) : next.Calm := by
  have after := step.kept kept
  cases step with
  | tick passes => exact ⟨calm.quiet, fun task member => (calm.tasks task member).later passes⟩
  | @checkout _ _ _ _ _ _ slot _ client honest taken =>
    apply (checkout_calm kept calm honest taken).enter
    cases slot with
    | shared netloc => trivial
    | session key => exact Custody.homed after (getSessionClient_result taken)
  | fail honest refused => exact checkout_calm kept calm honest refused
  | peek honest => exact checkout_calm kept calm honest rfl
  | @touch pool _ _ slot _ now =>
    apply calm.onward (touch_onward now slot pool)
    exact (touch_onward now slot pool : Onward 0 _ _).steady.quiet kept calm.quiet fun _ waiting =>
      .inl (pending_touch ▸ waiting)
  | @evict pool clock _ slot client evicts =>
    have onward : Onward clock pool (pool.evict clock slot client) := evict_onward slot client pool
    have quiet := onward.steady.quiet kept calm.quiet fun _ waiting => .inl (pending_evict ▸ waiting)
    exact (calm.leave.onward onward quiet).enter (Homed.steady calm.own onward.steady)
  | cutoff =>
    refine calm.leave.enter ⟨calm.own, ?_⟩
    linarith
  | @survey pool _ _ slot client cutoff =>
    refine calm.leave.enter ⟨calm.own.1, calm.own.2, fun entry member _ unleased => ?_⟩
    have retired : entry.1 ∈ pool.retiredClients.map Prod.fst := List.mem_map_of_mem member
    exact Custody.gone kept (.inl retired) (free_of_not_leased (Custody.left kept (.inl retired)).1 unleased)
  | @reap pool clock _ slot client cutoff leased isClosed honest =>
    have onward : Onward clock pool (pool.reapRetired isClosed cutoff leased) := closeRetired_onward _ pool
    have quiet : (pool.reapRetired isClosed cutoff leased).Quiet := by
      apply closeRetired_quiet kept calm.quiet
      intro entry member due
      obtain ⟨early, unleased⟩ := of_decide_eq_true due
      exact (calm.own.2.2 entry member early unleased).2.1
    exact (calm.leave.onward onward quiet).enter (Homed.steady calm.own.1 onward.steady)
  | release honest ends =>
    obtain ⟨onward, quiet⟩ := release_calm honest kept calm.quiet ends
    exact calm.leave.onward onward quiet
  | @releaseLast _ _ _ slot client _ _ _ honest last =>
    obtain ⟨onward, quiet⟩ := release_calm honest kept calm.quiet last
    apply (calm.leave.onward onward quiet).enter
    cases slot with
    | shared netloc => trivial
    | session key => exact releaseLast_gone calm.own last
  | @settle pool clock _ slot client isClosed honest =>
    apply calm.leave.onward (closeRetired_onward _ pool)
    apply closeRetired_quiet kept calm.quiet
    intro entry member named
    obtain rfl : entry.1 = client := of_decide_eq_true named
    cases slot with
    | shared netloc => exact unhurried netloc entry.1 rfl (List.mem_map_of_mem member)
    | session key => exact (calm.own : Gone pool entry.1).2.1
  | @shut pool clock tasks =>
    have steady : Steady pool { pool with closed := true } :=
      Steady.of_less rfl (fun _ => rfl) (List.Subset.refl _) (fun _ _ => id)
        (List.Subset.refl _) fun _ => le_refl _
    have quiet : Pool.Quiet { pool with closed := true } := calm.quiet
    exact (calm.onward ⟨steady, fun _ => .inl⟩ quiet).enter rfl
  | @detach pool clock tasks =>
    have onward : Onward clock pool (pool.detach clock).1 := detach_onward pool
    obtain ⟨_, framed⟩ := detach_frame pool clock
    have empty : (pool.detach clock).1.pooled = [] := by
      rw [framed]
      rfl
    have refs : (pool.detach clock).1.sessionClientRefs = pool.sessionClientRefs := by rw [framed]
    have pending : (pool.detach clock).1.closePending = pool.closePending := by rw [framed]
    have quiet := onward.steady.quiet kept calm.quiet fun _ waiting => .inl (pending ▸ waiting)
    apply (calm.leave.onward onward quiet).enter
    refine ⟨onward.steady.closed calm.own, empty, fun client member => ?_, fun entry member unleased => ?_⟩
    · have handed : client ∈
          ConnectionPool.handed (Task.detached pool.leased (pool.detach clock).2 ::ₘ tasks) := by
        simp only [handed_cons, Task.handed, Multiset.mem_add, Multiset.mem_coe]
        exact .inl member
      apply Custody.gone after (.inr (.inr handed))
      rw [refs]
      simpa using (List.mem_filter.mp member).2
    · have retired : entry.1 ∈ (pool.detach clock).1.retiredClients.map Prod.fst := List.mem_map_of_mem member
      apply Custody.gone after (.inl retired)
      have made := (Custody.left after (.inl retired)).1
      rw [refs]
      exact free_of_not_leased (by rwa [framed] at made) unleased
  | @takeRetired pool clock tasks leased clients =>
    have onward : Onward clock pool (pool.takeRetired leased).1 :=
      ⟨Steady.of_less rfl id (List.Subset.refl _) (fun _ _ => id) (List.Subset.refl _) fun _ => le_refl _,
        fun entry member => .inl (List.mem_of_mem_filter member)⟩
    have quiet : (pool.takeRetired leased).1.Quiet := calm.quiet
    apply (calm.leave.onward onward quiet).enter
    obtain ⟨_, _, mine, rest⟩ := calm.own
    intro client member
    apply onward.steady.gone
    rcases List.mem_append.mp member with before | retired
    · exact mine client before
    · obtain ⟨entry, chosen, rfl⟩ := List.mem_map.mp retired
      obtain ⟨there, unleased⟩ := List.mem_filter.mp chosen
      exact rest entry there (by simpa using unleased)
  | @hand pool clock tasks client clients isClosed honest =>
    have gone : ∀ other ∈ client :: clients, Gone pool other := calm.own
    obtain ⟨_, _, _, _, _, framed⟩ := scheduleClose_frame isClosed client pool
    have onward : Onward clock pool (pool.scheduleClose isClosed client) := by
      rw [framed]
      exact Onward.cleanup ..
    have quiet : (pool.scheduleClose isClosed client).Quiet := by
      apply onward.steady.quiet kept calm.quiet
      intro other waiting
      rcases mem_scheduleClose waiting with before | same
      · exact .inl before
      · rw [same]
        exact .inr (onward.steady.gone (gone client List.mem_cons_self)).2.1
    apply (calm.leave.onward onward quiet).enter
    exact fun other member => onward.steady.gone (gone other (List.mem_cons_of_mem _ member))
  | handed => exact calm.leave
  | @startClose pool clock tasks client backlog first =>
    have quiet : (pool.startClose client backlog).Quiet := calm.quiet
    exact (calm.onward (Onward.cleanup ..) quiet).enter trivial
  | @succeed pool clock tasks client =>
    have quiet : Pool.Quiet { pool with closeSucceeded := client :: pool.closeSucceeded } := calm.quiet
    exact (calm.leave.onward (Onward.cleanup ..) quiet).enter trivial
  | failClose => exact calm.leave.enter trivial
  | @finish pool clock tasks client =>
    obtain ⟨_, _, _, framed⟩ := finishClose_frame client pool
    apply calm.leave.onward
    · rw [framed]
      exact Onward.cleanup ..
    · rw [framed]
      exact fun other waiting => calm.quiet other (List.mem_of_mem_erase waiting)
  | rest => exact calm.leave.enter trivial
  | @requeue pool clock tasks client =>
    unfold Pool.requeue
    split
    · exact calm.leave.onward (Onward.cleanup ..) calm.quiet
    · exact calm.leave

theorem Reaches.calm (grace : 0 < config.retireCloseGraceSeconds)
    (reaches : Reaches config Unhurried state) : state.Calm := by
  induction reaches with
  | start clock => exact ⟨by simp [Pool.Quiet, Pool.new], by simp⟩
  | step before may step ih => exact step.calm grace may before.kept ih

/-- In every run whose shared releases find no lease on a client they close, no close is started
on a client that is in use. -/
theorem leased_client_never_closed {config : PoolConfig} {state next : State} {client : Client}
    (grace : 0 < config.retireCloseGraceSeconds) (reaches : Reaches config Unhurried state)
    (starts : Step config state (.starts client) next) : state.pool.sessionClientRefs client = 0 := by
  have kept := reaches.kept
  have calm := reaches.calm grace
  cases starts with
  | @startClose pool _ _ _ backlog first =>
    apply calm.quiet client
    have waiting : client ∈ (pool.closePending : Multiset Client) := by
      rw [kept.queue]
      simp [first]
    exact waiting

def provider : Slot := .shared "api.anthropic.com"

theorem unhurried_other (state : State) : Unhurried state .other := by
  intro netloc client label
  cases label

theorem provider_taken :
    (Pool.new defaults).checkout defaults (fun _ => false) true 0 provider true = (entered true,
    .ok 0) :=
  rfl

/-- A request that failed has retired its client, and found nothing else to reap. -/
def afterError : Pool :=
  ((entered true).evict 0 provider 0).reapRetired (fun _ => false) (0 - defaults.retireCloseGraceSeconds)
    ((entered true).evict 0 provider 0).leased

/-- The client of a request that fails is retired, and closed when the request ends. -/
theorem leased_client_never_closed_after_error :
    (afterError.unlease 0).retiredClients.map Prod.fst = [0] ∧
      ((afterError.unlease 0).closeRetiredClientNow (fun _ => false) 0).sessionClientRefs 0 = 0 := by
  have taken : Reaches defaults Unhurried ⟨entered true, 0, .serving provider 0 ::ₘ 0⟩ :=
    .step (.start 0) (unhurried_other _) (.checkout (honest_open _) provider_taken)
  have evicted := taken.step (unhurried_other _) (.evict rfl)
  have surveyed := (evicted.step (unhurried_other _) .cutoff).step (unhurried_other _) .survey
  have reaped : Reaches defaults Unhurried ⟨afterError, 0, .serving provider 0 ::ₘ 0⟩ :=
    surveyed.step (unhurried_other _) (.reap (honest_open _))
  have last : afterError.release (fun _ => false) 0 provider 0 = (afterError.unlease 0, true) :=
    Prod.ext rfl (by decide +kernel)
  have released := reaped.step (unhurried_other _) (.releaseLast (honest_open _) last)
  have free : Unhurried ⟨afterError.unlease 0, 0, .settling provider 0 ::ₘ 0⟩ (.settles provider 0) := by
    intro netloc client label _
    cases label
    decide +kernel
  have settled := released.step free (.settle (honest_open _))
  have backlog : ((afterError.unlease 0).closeRetiredClientNow (fun _ => false) 0).closeBacklog =
      [0] := by
    decide +kernel
  exact ⟨by decide +kernel, leased_client_never_closed (by decide +kernel) settled (.startClose backlog)⟩

/-- One request gives its lease back; before it looks at the retired list, another request takes
the client, fails and retires it. The first one then has it closed. -/
theorem leased_client_closed : ¬ (∀ (config : PoolConfig) (state next : State) (client : Client),
    0 < config.retireCloseGraceSeconds → Reaches config (fun _ _ => True) state →
      Step config state (.starts client) next →
    state.pool.sessionClientRefs client = 0) := by
  intro law
  have first : Reaches defaults (fun _ _ => True) ⟨entered true, 0, .serving provider 0 ::ₘ 0⟩ :=
    .step (.start 0) trivial (.checkout (honest_open _) provider_taken)
  have last : (entered true).release (fun _ => false) 0 provider 0 = ((entered true).unlease 0, true) :=
    Prod.ext rfl (by decide +kernel)
  have released := first.step trivial (.releaseLast (honest_open _) last)
  have again : ((entered true).unlease 0).checkout defaults (fun _ => false) true 0 provider true =
      (((entered true).unlease 0).lease 0, .ok 0) := rfl
  have second := released.step trivial (.checkout (honest_open _) again)
  have evicted := second.step trivial (.evict rfl)
  rw [Multiset.cons_swap] at evicted
  have settled := evicted.step trivial (.settle (honest_open _))
  exact absurd (law defaults _ _ 0 (by decide +kernel) settled (.startClose rfl)) (by decide +kernel)

end Runs
end TokenPak.Proxy.ConnectionPool
