import Mathlib.Data.Multiset.Bind
import Mathlib.Data.Multiset.Range
import Mathlib.Tactic.Abel
import TokenPak.Proxy.ConnectionPool

/-! Every client that was constructed is in one place: in a map of the pool, retired,
with the cleanup, in the hands of a shutdown, or closed for good, with its permit
given back. A section takes clients from one place and puts them into another. -/

namespace TokenPak.Proxy.ConnectionPool
open TokenPak.Library

/-- The clients that a shutdown has taken and not yet scheduled. -/
def Task.handed : Task → Multiset Client
  | .detached _ clients | .handing clients => clients
  | _ => 0

/-- The client that a worker has taken from the backlog, and whether its close has returned. -/
def Task.busy : Task → Multiset (Client × Bool)
  | .closing client | .resting client => {(client, false)}
  | .closed client succeeded => {(client, succeeded)}
  | _ => 0

def handed (tasks : Multiset Task) : Multiset Client := tasks.bind Task.handed

def busy (tasks : Multiset Task) : Multiset (Client × Bool) := tasks.bind Task.busy

@[simp] theorem handed_cons (task : Task) (tasks : Multiset Task) :
    handed (task ::ₘ tasks) = task.handed + handed tasks := by
  simp [handed]

@[simp] theorem busy_cons (task : Task) (tasks : Multiset Task) :
    busy (task ::ₘ tasks) = task.busy + busy tasks := by
  simp [busy]

def Pool.owned (pool : Pool) : Multiset Client :=
  (pool.pooled : Multiset Client) + (pool.retiredClients.map Prod.fst : List Client) +
    (pool.closePending : Multiset Client)

/-- The clients between two places are `handed`; those of the workers are `busy`. -/
structure Custody (limit : Nat) (handed : Multiset Client) (busy : Multiset (Client × Bool))
    (pool : Pool) : Prop where
  whole : pool.owned + handed + (pool.permitsReleased : Multiset Client) = Multiset.range pool.constructed
  permits : (pool.clientSlotClients : Multiset Client) + (pool.permitsReleased : Multiset Client) =
    Multiset.range pool.constructed
  slots : pool.clientSlotClients.length + pool.clientSlots = limit
  succeeded : ∀ client, client ∈ pool.permitsReleased ∨ (client, true) ∈ busy → client ∈ pool.closeSucceeded
  started : ∀ client ∈ pool.closeStarted, client ∈ pool.closePending ∨ client ∈ pool.permitsReleased
  queue : (pool.closePending : Multiset Client) = (pool.closeBacklog : Multiset Client) + busy.map Prod.fst

theorem newClient_ok {makes : Bool} {pool after : Pool} {client : Client}
    (made : pool.newClient makes = .ok (client, after)) :
    pool.clientSlots ≠ 0 ∧ client = pool.constructed ∧ after = { pool with
      constructed := pool.constructed + 1, clientSlots := pool.clientSlots - 1
      clientSlotClients := pool.clientSlotClients ++ [pool.constructed] } := by
  unfold Pool.newClient at made
  split at made
  · cases made
  next free =>
    split at made
    · cases made
    · cases made
      exact ⟨free, rfl, rfl⟩

namespace Custody
variable {limit : Nat} {hands : Multiset Client} {work : Multiset (Client × Bool)} {pool : Pool}
  {client : Client} {isClosed : Client → Bool}

theorem start (config : PoolConfig) : Custody config.clientSlotLimit 0 0 (.new config) where
  whole := by simp [Pool.owned, Pool.new, Pool.pooled, Pool.sessionClientList, Dict.values, Dict.empty]
  permits := by simp [Pool.new]
  slots := by simp [Pool.new]
  succeeded := by simp [Pool.new]
  started := by simp [Pool.new]
  queue := by simp [Pool.new]

theorem nodup (custody : Custody limit hands work pool) :
    (pool.owned + hands + (pool.permitsReleased : Multiset Client)).Nodup :=
  custody.whole ▸ Multiset.nodup_range _

/-- The places of a pool on which its custody rests. -/
structure Same (pool after : Pool) : Prop where
  pooled : (after.pooled : Multiset Client) = pool.pooled
  retired : after.retiredClients.map Prod.fst = pool.retiredClients.map Prod.fst
  pending : after.closePending = pool.closePending
  backlog : after.closeBacklog = pool.closeBacklog
  slotClients : after.clientSlotClients = pool.clientSlotClients
  slots : after.clientSlots = pool.clientSlots
  constructed : after.constructed = pool.constructed
  begun : after.closeStarted = pool.closeStarted
  ended : after.closeSucceeded = pool.closeSucceeded
  released : after.permitsReleased = pool.permitsReleased

theorem same {after : Pool} (custody : Custody limit hands work pool) (same : Same pool after) :
    Custody limit hands work after where
  whole := by
    rw [Pool.owned, same.pooled, same.retired, same.pending, same.released, same.constructed]
    exact custody.whole
  permits := by rw [same.slotClients, same.released, same.constructed]; exact custody.permits
  slots := by rw [same.slotClients, same.slots]; exact custody.slots
  succeeded := by rw [same.released, same.ended]; exact custody.succeeded
  started := by rw [same.begun, same.pending, same.released]; exact custody.started
  queue := by rw [same.pending, same.backlog]; exact custody.queue

/-- A client in hand is with no other owner, and nothing has begun to close it. -/
theorem apart (custody : Custody limit (client ::ₘ hands) work pool) :
    client ∉ pool.pooled ∧ client ∉ pool.retiredClients.map Prod.fst ∧ client ∉ pool.closePending ∧
      client ∉ pool.permitsReleased := by
  have once := Multiset.nodup_iff_count_le_one.mp custody.nodup client
  simp only [Pool.owned, Multiset.count_add, Multiset.count_cons_self, Multiset.coe_count] at once
  refine ⟨?_, ?_, ?_, ?_⟩ <;> exact List.count_eq_zero.mp (by omega)

theorem schedule (custody : Custody limit (client ::ₘ hands) work pool) (honest : Honest isClosed pool) :
    Custody limit hands work (pool.scheduleClose isClosed client) := by
  obtain ⟨_, _, unscheduled, unreleased⟩ := custody.apart
  have live : isClosed client = false := by
    by_contra closed
    rcases custody.started client (honest client (by simpa using closed)) with pending | released
    · exact unscheduled pending
    · exact unreleased released
  rw [Pool.scheduleClose, if_neg (by simp [live]), if_neg unscheduled]
  refine ⟨?_, custody.permits, custody.slots, custody.succeeded, ?_, ?_⟩
  · rw [← custody.whole]
    simp only [Pool.owned, Pool.pooled, Pool.sessionClientList, ← Multiset.coe_add, Multiset.coe_singleton,
      ← Multiset.singleton_add]
    abel
  · intro other begun
    rcases custody.started other begun with pending | released
    · exact .inl (List.mem_append_left _ pending)
    · exact .inr released
  · simp only [← Multiset.coe_add, custody.queue]
    abel

theorem retire (custody : Custody limit (client ::ₘ hands) work pool) (now : ℚ) :
    Custody limit hands work (pool.retire client now) := by
  rw [Pool.retire, if_neg custody.apart.2.1]
  refine ⟨?_, custody.permits, custody.slots, custody.succeeded, custody.started, custody.queue⟩
  rw [← custody.whole]
  simp only [Pool.owned, Pool.pooled, Pool.sessionClientList, List.map_append, List.map_cons, List.map_nil,
    ← Multiset.coe_add, Multiset.coe_singleton, ← Multiset.singleton_add]
  abel

theorem newClient {made : Client} {makes : Bool} {after : Pool} (custody : Custody limit hands work pool)
    (success : pool.newClient makes = .ok (made, after)) : Custody limit (made ::ₘ hands) work after := by
  obtain ⟨free, rfl, rfl⟩ := newClient_ok success
  refine ⟨?_, ?_, ?_, custody.succeeded, custody.started, custody.queue⟩
  · rw [Multiset.range_succ, ← custody.whole]
    simp only [Pool.owned, Pool.pooled, Pool.sessionClientList, ← Multiset.singleton_add]
    abel
  · rw [Multiset.range_succ, ← custody.permits, ← Multiset.coe_add, Multiset.coe_singleton,
      ← Multiset.singleton_add]
    abel
  · have slots := custody.slots
    rw [List.length_append, List.length_singleton]
    change _ + (pool.clientSlots - 1) = limit
    omega

theorem takeShared {netloc : String} (custody : Custody limit hands work pool)
    (found : pool.clients.get netloc = some client) :
    Custody limit (client ::ₘ hands) work { pool with clients := pool.clients.pop netloc } := by
  refine ⟨?_, custody.permits, custody.slots, custody.succeeded, custody.started, custody.queue⟩
  rw [← custody.whole]
  have gone := Multiset.coe_eq_coe.mpr (Dict.values_pop found)
  simp only [Pool.owned, Pool.pooled, Pool.sessionClientList, ← Multiset.coe_add, gone, ← Multiset.cons_coe,
    ← Multiset.singleton_add]
  abel

theorem takeSession {key : SessionKey} {entry : SessionEntry} (custody : Custody limit hands work pool)
    (found : pool.sessionClients.get key = some entry) :
    Custody limit (entry.client ::ₘ hands) work { pool with sessionClients := pool.sessionClients.pop key } := by
  refine ⟨?_, custody.permits, custody.slots, custody.succeeded, custody.started, custody.queue⟩
  rw [← custody.whole]
  have gone := Multiset.coe_eq_coe.mpr ((Dict.values_pop found).map SessionEntry.client)
  simp only [List.map_cons, ← Multiset.cons_coe] at gone
  simp only [Pool.owned, Pool.pooled, Pool.sessionClientList, ← Multiset.coe_add, gone,
    ← Multiset.singleton_add]
  abel

theorem takeOverflow (custody : Custody limit hands work pool) (held : client ∈ pool.overflowClients) :
    Custody limit (client ::ₘ hands) work { pool with overflowClients := pool.overflowClients.erase client } := by
  refine ⟨?_, custody.permits, custody.slots, custody.succeeded, custody.started, custody.queue⟩
  rw [← custody.whole]
  have gone := Multiset.coe_eq_coe.mpr (List.perm_cons_erase held)
  simp only [Pool.owned, Pool.pooled, Pool.sessionClientList, ← Multiset.coe_add, gone, ← Multiset.cons_coe,
    ← Multiset.singleton_add]
  abel

theorem putShared {netloc : String} (custody : Custody limit (client ::ₘ hands) work pool)
    (absent : pool.clients.get netloc = none) :
    Custody limit hands work { pool with clients := pool.clients.set netloc client } := by
  refine ⟨?_, custody.permits, custody.slots, custody.succeeded, custody.started, custody.queue⟩
  rw [← custody.whole]
  simp only [Pool.owned, Pool.pooled, Pool.sessionClientList, Dict.values_set_new absent, ← Multiset.coe_add,
    Multiset.coe_singleton, ← Multiset.singleton_add]
  abel

theorem putSession {key : SessionKey} {now : ℚ} (custody : Custody limit (client ::ₘ hands) work pool)
    (absent : pool.sessionClients.get key = none) :
    Custody limit hands work { pool with sessionClients := pool.sessionClients.set key ⟨client, now⟩ } := by
  refine ⟨?_, custody.permits, custody.slots, custody.succeeded, custody.started, custody.queue⟩
  rw [← custody.whole]
  simp only [Pool.owned, Pool.pooled, Pool.sessionClientList, Dict.values_set_new absent,
    List.map_append, List.map_cons,
    List.map_nil, ← Multiset.coe_add, Multiset.coe_singleton, ← Multiset.singleton_add]
  abel

theorem putOverflow (custody : Custody limit (client ::ₘ hands) work pool) :
    Custody limit hands work { pool with overflowClients := pool.overflowClients ++ [client] } := by
  refine ⟨?_, custody.permits, custody.slots, custody.succeeded, custody.started, custody.queue⟩
  rw [← custody.whole]
  simp only [Pool.owned, Pool.pooled, Pool.sessionClientList, ← Multiset.coe_add, Multiset.coe_singleton,
    ← Multiset.singleton_add]
  abel

end Custody

/-- What the sections of a checkout are made of. -/
inductive Move (isClosed : Client → Bool) : Pool → Pool → Prop where
  | lease {pool client} (running : pool.closed = false) (held : client ∈ pool.pooled) : Move isClosed pool (pool.lease client)
  | stamp {pool} (key : SessionKey) (now : ℚ) : Move isClosed pool (pool.stamp key now)
  | closeSession {pool key entry} (found : pool.sessionClients.get key = some entry)
      (free : pool.sessionClientRefs entry.client =
        0) : Move isClosed pool (pool.closeSession isClosed key entry.client)
  | closeOverflow {pool client} (held : client ∈ pool.overflowClients) (free : pool.sessionClientRefs client = 0) :
      Move isClosed pool (pool.closeOverflow isClosed client)
  | addShared {pool after makes netloc client} (running : pool.closed = false)
      (made : pool.newClient makes = .ok (client, after)) (absent : after.clients.get netloc = none) :
      Move isClosed pool { after with clients := after.clients.set netloc client }
  | addSession {pool after makes key client now} (running : pool.closed = false)
      (made : pool.newClient makes = .ok (client, after)) (absent : after.sessionClients.get key = none) :
      Move isClosed pool { after with sessionClients := after.sessionClients.set key ⟨client, now⟩ }
  | addOverflow {pool after makes client} (running : pool.closed = false)
      (made : pool.newClient makes = .ok (client, after)) :
      Move isClosed pool { after with overflowClients := after.overflowClients ++ [client] }

abbrev Moves (isClosed : Client → Bool) : Pool → Pool → Prop := Relation.ReflTransGen (Move isClosed)

section Sections
variable {isClosed : Client → Bool} {pool : Pool} {client : Client}

theorem sessionClientList_stamp (pool : Pool) (key : SessionKey) (now : ℚ) :
    (pool.stamp key now).sessionClientList = pool.sessionClientList := by
  unfold Pool.stamp
  split
  next entry found => exact Dict.map_values_set found rfl
  · rfl

theorem closeSession_eq (key : SessionKey) : pool.closeSession isClosed key client =
    Pool.scheduleClose isClosed client { pool with sessionClients := pool.sessionClients.pop key } := by
  unfold Pool.closeSession Pool.scheduleClose Pool.releaseClientSlot
  split <;> split <;> rfl

theorem closeOverflow_eq : pool.closeOverflow isClosed client =
    Pool.scheduleClose isClosed client { pool with overflowClients := pool.overflowClients.erase client } := by
  unfold Pool.closeOverflow Pool.scheduleClose Pool.releaseClientSlot
  split <;> split <;> rfl

variable {after : Pool} {config : PoolConfig}

theorem Move.custody {limit : Nat} {hands : Multiset Client} {work : Multiset (Client × Bool)}
    (move : Move isClosed pool after) (honest : Honest isClosed pool)
    (custody : Custody limit hands work pool) : Custody limit hands work after := by
  cases move with
  | lease => exact custody.same ⟨rfl, rfl, rfl, rfl, rfl, rfl, rfl, rfl, rfl, rfl⟩
  | stamp key now =>
    have kept := sessionClientList_stamp pool key now
    unfold Pool.stamp at kept ⊢
    split
    next found =>
      rw [found] at kept
      apply custody.same
      refine ⟨?_, rfl, rfl, rfl, rfl, rfl, rfl, rfl, rfl, rfl⟩
      simp only [Pool.pooled]
      rw [kept]
    · exact custody
  | closeSession found free =>
    rw [closeSession_eq]
    exact (custody.takeSession found).schedule honest
  | closeOverflow held free =>
    rw [closeOverflow_eq]
    exact (custody.takeOverflow held).schedule honest
  | addShared running made absent => exact (custody.newClient made).putShared absent
  | addSession running made absent => exact (custody.newClient made).putSession absent
  | addOverflow running made => exact (custody.newClient made).putOverflow

theorem scheduleClose_frame (isClosed : Client → Bool) (client : Client) (pool : Pool) :
    ∃ pending backlog slotClients slots released, pool.scheduleClose isClosed client = { pool with
      closePending := pending, closeBacklog := backlog, clientSlotClients := slotClients, clientSlots := slots
      permitsReleased := released } := by
  unfold Pool.scheduleClose Pool.releaseClientSlot
  split
  · split <;> exact ⟨_, _, _, _, _, rfl⟩
  · split <;> exact ⟨_, _, _, _, _, rfl⟩

theorem Move.frame (move : Move isClosed pool after) :
    after.closed = pool.closed ∧ after.closeStarted = pool.closeStarted ∧
      after.retiredClients = pool.retiredClients := by
  cases move with
  | lease => exact ⟨rfl, rfl, rfl⟩
  | stamp key now =>
    unfold Pool.stamp
    split <;> exact ⟨rfl, rfl, rfl⟩
  | @closeSession _ entry =>
    obtain ⟨_, _, _, _, _, framed⟩ := scheduleClose_frame isClosed entry.client pool
    simp [Pool.closeSession, framed]
  | @closeOverflow client =>
    obtain ⟨_, _, _, _, _, framed⟩ := scheduleClose_frame isClosed client pool
    simp [Pool.closeOverflow, framed]
  | addShared _ made _ =>
    obtain ⟨_, rfl, rfl⟩ := newClient_ok made
    exact ⟨rfl, rfl, rfl⟩
  | addSession _ made _ =>
    obtain ⟨_, rfl, rfl⟩ := newClient_ok made
    exact ⟨rfl, rfl, rfl⟩
  | addOverflow _ made =>
    obtain ⟨_, rfl, rfl⟩ := newClient_ok made
    exact ⟨rfl, rfl, rfl⟩

theorem Moves.custody {limit : Nat} {hands : Multiset Client} {work : Multiset (Client × Bool)}
    (moves : Moves isClosed pool after) (honest : Honest isClosed pool)
    (custody : Custody limit hands work pool) : Custody limit hands work after := by
  suffices both : Custody limit hands work after ∧ Honest isClosed after from both.1
  induction moves with
  | refl => exact ⟨custody, honest⟩
  | tail _ move ih =>
      exact ⟨move.custody ih.2 ih.1, fun other closed => move.frame.2.1 ▸ ih.2 other closed⟩

theorem refs_closeSession (pool : Pool) (key : SessionKey) :
    (pool.closeSession isClosed key client).sessionClientRefs = pool.sessionClientRefs := by
  obtain ⟨_, _, _, _, _, framed⟩ := scheduleClose_frame isClosed client pool
  rw [Pool.closeSession, framed]

theorem refs_closeOverflow (pool : Pool) :
    (pool.closeOverflow isClosed client).sessionClientRefs = pool.sessionClientRefs := by
  obtain ⟨_, _, _, _, _, framed⟩ := scheduleClose_frame isClosed client pool
  rw [Pool.closeOverflow, framed]

theorem Moves.closed (moves : Moves isClosed pool after) : after.closed = pool.closed := by
  induction moves with
  | refl => rfl
  | tail _ move ih => exact move.frame.1.trans ih

theorem Moves.leased (moves : Moves isClosed pool after) (running : pool.closed = false)
    (held : client ∈ after.pooled) (checkout : Bool) :
    Moves isClosed pool (if checkout then after.lease client else after) := by
  cases checkout with
  | false => exact moves
  | true => exact moves.tail (.lease (moves.closed.trans running) held)

theorem getClient_moves (makes : Bool) (netloc : String) (checkout : Bool) (pool : Pool) :
    Moves isClosed pool (pool.getClient makes netloc checkout).1 := by
  unfold Pool.getClient
  split
  · exact .refl
  next running =>
    have running : pool.closed = false := by simpa using running
    split
    next client found =>
      have held : client ∈ pool.pooled := by simp [Pool.pooled, Dict.mem_values found]
      exact Moves.leased .refl running held checkout
    next absent =>
      split
      · exact .refl
      next client after made =>
        obtain ⟨_, same, fresh⟩ := newClient_ok made
        have vacant : after.clients.get netloc = none := by rw [fresh]; exact absent
        refine Moves.leased (.single (.addShared running made vacant)) running ?_ checkout
        simp [Pool.pooled, Dict.values_set_new vacant]

theorem reapOverflow_moves (distinct : pool.overflowClients.Nodup) :
    Moves isClosed pool (pool.reapOverflow isClosed) := by
  suffices loop : ∀ (clients : List Client) (pool : Pool), clients.Nodup → clients ⊆ pool.overflowClients →
      Moves isClosed pool (clients.foldl (fun pool client =>
        if pool.sessionClientRefs client = 0 then pool.closeOverflow isClosed client else pool) pool) from
    loop _ pool distinct (List.Subset.refl _)
  intro clients
  induction clients with
  | nil => exact fun _ _ _ => .refl
  | cons client clients ih =>
    intro pool distinct held
    obtain ⟨new, rest⟩ := List.nodup_cons.mp distinct
    obtain ⟨first, later⟩ := List.cons_subset.mp held
    rw [List.foldl_cons]
    split
    next free =>
      refine .head (.closeOverflow first free) (ih _ rest fun other member => ?_)
      have apart : other ≠ client := fun same => new (same ▸ member)
      exact (List.mem_erase_of_ne apart).mpr (later member)
    · exact ih pool rest later

theorem reapIdle_moves (config : PoolConfig) (now : ℚ) (pool : Pool) :
    Moves isClosed pool (pool.reapIdle config isClosed now) := by
  suffices loop : ∀ (stale : List (SessionKey × SessionEntry)) (pool : Pool), (stale.map Prod.fst).Nodup →
      (∀ entry ∈ stale, entry ∈ pool.sessionClients.entries ∧ pool.sessionClientRefs entry.2.client = 0) →
      Moves isClosed pool (stale.foldl (fun pool entry =>
          pool.closeSession isClosed entry.1 entry.2.client) pool) by
    apply loop _ pool ((List.filter_sublist.map Prod.fst).nodup pool.sessionClients.unique)
    intro entry member
    obtain ⟨there, stale⟩ := List.mem_filter.mp member
    exact ⟨there, by simpa using (of_decide_eq_true stale).2⟩
  intro stale
  induction stale with
  | nil => exact fun _ _ _ => .refl
  | cons entry stale ih =>
    intro pool distinct there
    rw [List.map_cons] at distinct
    obtain ⟨new, rest⟩ := List.nodup_cons.mp distinct
    obtain ⟨member, free⟩ := there entry List.mem_cons_self
    rw [List.foldl_cons]
    refine .head (.closeSession (Dict.get_of_mem member) free) (ih _ rest fun other later => ?_)
    obtain ⟨kept, unused⟩ := there other (List.mem_cons_of_mem _ later)
    have apart : other.1 ≠ entry.1 := fun same => new (same ▸ List.mem_map_of_mem later)
    rw [refs_closeSession]
    exact ⟨List.mem_filter.mpr ⟨kept, by simpa using apart⟩, unused⟩

theorem mem_of_oldest {entries : List (SessionKey × SessionEntry)} {entry : SessionKey × SessionEntry}
    (found : Pool.oldest entries = some entry) : entry ∈ entries := by
  cases entries with
  | nil => cases found
  | cons first rest =>
    have loop : ∀ (rest : List (SessionKey × SessionEntry)) (best : SessionKey × SessionEntry),
        rest.foldl (fun best entry =>
        if entry.2.lastUsed < best.2.lastUsed then entry else best) best ∈ best :: rest := by
      intro rest
      induction rest with
      | nil => exact fun best => List.mem_singleton_self best
      | cons next rest ih =>
        intro best
        rw [List.foldl_cons]
        split
        · exact List.mem_cons_of_mem _ (ih next)
        · rcases List.mem_cons.mp (ih best) with same | later
          · rw [same]
            exact List.mem_cons_self
          · exact List.mem_cons_of_mem _ (List.mem_cons_of_mem _ later)
    cases found
    exact loop rest first

theorem makeRoom_moves (config : PoolConfig) (checkout : Bool) (rounds : Nat) (pool : Pool) :
    Moves isClosed pool (pool.makeRoom config isClosed checkout rounds).1 := by
  induction rounds generalizing pool with
  | zero => exact .refl
  | succ rounds ih =>
    unfold Pool.makeRoom
    split
    · exact .refl
    · split
      next entry found =>
        obtain ⟨member, free⟩ := List.mem_filter.mp (mem_of_oldest found)
        exact .head (.closeSession (Dict.get_of_mem member) (by simpa using free)) (ih _)
      · split
        · exact .refl
        · split <;> exact .refl

theorem makeRoom_absent {checkout : Bool} {rounds : Nat} {key : SessionKey} {pool : Pool}
    (absent : pool.sessionClients.get key = none) :
    (pool.makeRoom config isClosed checkout rounds).1.sessionClients.get key = none := by
  induction rounds generalizing pool with
  | zero => exact absent
  | succ rounds ih =>
    unfold Pool.makeRoom
    split
    · exact absent
    · split
      · exact ih (Dict.get_pop_none absent)
      · split
        · exact absent
        · split <;> exact absent

theorem getSessionClient_moves {makes : Bool} {now : ℚ} {key : SessionKey} {checkout : Bool}
    (distinct : pool.overflowClients.Nodup) :
    Moves isClosed pool (pool.getSessionClient config isClosed makes now key checkout).1 := by
  unfold Pool.getSessionClient
  split
  · exact .refl
  next open_ =>
    have running : pool.closed = false := by simpa using open_
    have reaped : Moves isClosed pool ((pool.reapOverflow isClosed).reapIdle config isClosed now) :=
      (reapOverflow_moves distinct).trans (reapIdle_moves config now _)
    generalize (pool.reapOverflow isClosed).reapIdle config isClosed now = tidy at reaped
    simp only
    split
    next entry found =>
      refine Moves.leased (reaped.tail (.stamp key now)) running ?_ checkout
      have member : entry.client ∈ tidy.sessionClientList := List.mem_map_of_mem (Dict.mem_values found)
      simp [Pool.pooled, sessionClientList_stamp, member]
    next absent =>
      have roomy :=
        reaped.trans (makeRoom_moves config checkout (tidy.sessionClients.entries.length + 1) tidy)
      have vacant : (tidy.makeRoom config isClosed checkout (tidy.sessionClients.entries.length + 1)).1.sessionClients.get key =
          none := makeRoom_absent absent
      split
      next refused =>
        rw [refused] at roomy
        exact roomy
      next spare room =>
        rw [room] at roomy
        split
        · exact roomy
        next client after made =>
          have added := roomy.tail (.addOverflow ((Moves.closed roomy).trans running) made)
          exact Moves.leased added running (by simp [Pool.pooled]) true
      next spare room =>
        rw [room] at roomy vacant
        split
        · exact roomy
        next client after made =>
          obtain ⟨_, same, fresh⟩ := newClient_ok made
          have free : after.sessionClients.get key = none := by rw [fresh]; exact vacant
          have added : Moves isClosed pool { after with sessionClients := after.sessionClients.set key ⟨client, now⟩ } :=
            roomy.tail (.addSession ((Moves.closed roomy).trans running) made free)
          refine Moves.leased added running ?_ checkout
          simp [Pool.pooled, Pool.sessionClientList, Dict.values_set_new free]

theorem checkout_moves {makes : Bool} {now : ℚ} {slot : Slot} {checkout : Bool}
    (distinct : pool.overflowClients.Nodup) :
    Moves isClosed pool (pool.checkout config isClosed makes now slot checkout).1 := by
  cases slot with
  | shared netloc => exact getClient_moves makes netloc checkout pool
  | session key => exact getSessionClient_moves distinct

end Sections

namespace Custody
variable {limit : Nat} {hands : Multiset Client} {work : Multiset (Client × Bool)} {pool : Pool}
  {client : Client} {isClosed : Client → Bool}

theorem overflow_nodup (custody : Custody limit hands work pool) : pool.overflowClients.Nodup := by
  have whole := custody.nodup
  simp only [Pool.owned, Pool.pooled, ← Multiset.coe_add, Multiset.nodup_add] at whole
  exact Multiset.coe_nodup.mp whole.1.1.1.1.2.1

theorem checkout {config : PoolConfig} {makes checkout : Bool} {now : ℚ} {slot : Slot} {after : Pool}
    {result : Except PoolError Client} (custody : Custody limit hands work pool)
    (honest : Honest isClosed pool)
    (taken : pool.checkout config isClosed makes now slot checkout = (after, result)) :
    Custody limit hands work after := by
  have moves : Moves isClosed pool (pool.checkout config isClosed makes now slot checkout).1 :=
    checkout_moves custody.overflow_nodup
  rw [taken] at moves
  exact Moves.custody moves honest custody

theorem touch (custody : Custody limit hands work pool) (now : ℚ) (slot : Slot) :
    Custody limit hands work (pool.touch now slot) := by
  cases slot with
  | shared => exact custody
  | session key =>
    have honest : Honest (fun _ => false) pool := by simp [Honest]
    exact (Move.stamp key now).custody honest custody

theorem evict (custody : Custody limit hands work pool) (now : ℚ) (slot : Slot) (client : Client) :
    Custody limit hands work (pool.evict now slot client) := by
  cases slot with
  | shared netloc =>
    simp only [Pool.evict, Pool.evictShared]
    split
    next found => exact (custody.takeShared found).retire now
    · exact custody
  | session key =>
    simp only [Pool.evict, Pool.evictSession]
    split
    next held =>
      cases found : pool.sessionClients.get key with
      | none => simp [found] at held
      | some entry =>
        obtain rfl : entry.client = client := by simpa [found] using held
        exact (custody.takeSession found).retire now
    · exact custody

theorem takeRetired (custody : Custody limit hands work pool) (due : Client × ℚ → Bool) :
    Custody limit (((pool.retiredClients.filter due).map Prod.fst : List Client) + hands) work
      { pool with retiredClients := pool.retiredClients.filter fun entry => ! due entry } := by
  refine ⟨?_, custody.permits, custody.slots, custody.succeeded, custody.started, custody.queue⟩
  rw [← custody.whole]
  have split := Multiset.coe_eq_coe.mpr ((List.filter_append_perm due pool.retiredClients).map Prod.fst)
  simp only [List.map_append, ← Multiset.coe_add] at split
  simp only [Pool.owned, Pool.pooled, Pool.sessionClientList, ← Multiset.coe_add, ← split]
  abel

theorem scheduleAll (clients : List (Client × ℚ))
    (custody : Custody limit ((clients.map Prod.fst : List Client) + hands) work pool)
    (honest : Honest isClosed pool) :
    Custody limit hands work (clients.foldl (fun pool entry =>
      pool.scheduleClose isClosed entry.1) pool) := by
  induction clients generalizing pool with
  | nil => simpa using custody
  | cons entry clients ih =>
    rw [List.foldl_cons]
    rw [List.map_cons, ← Multiset.cons_coe, Multiset.cons_add] at custody
    apply ih (custody.schedule honest)
    obtain ⟨_, _, _, _, _, framed⟩ := scheduleClose_frame isClosed entry.1 pool
    rw [framed]
    exact honest

theorem closeRetired (custody : Custody limit hands work pool) (honest : Honest isClosed pool)
    (due : Client × ℚ → Bool) :
    Custody limit hands work (pool.closeRetired isClosed due) :=
  scheduleAll _ (custody.takeRetired due) honest

theorem unlease (custody : Custody limit hands work pool) (client : Client) :
    Custody limit hands work (pool.unlease client) :=
      custody.same ⟨rfl, rfl, rfl, rfl, rfl, rfl, rfl, rfl, rfl, rfl⟩

theorem release {now : ℚ} {slot : Slot} {after : Pool} {last : Bool} (custody : Custody limit hands work pool)
    (honest : Honest isClosed pool) (released : pool.release isClosed now slot client = (after, last)) :
    Custody limit hands work after := by
  have returned := custody.unlease client
  obtain rfl : (pool.release isClosed now slot client).1 = after := by rw [released]
  cases slot with
  | shared netloc => exact returned
  | session key =>
    simp only [Pool.release, Pool.releaseSessionClient]
    split
    · exact returned.touch now (.session key)
    · split
      next overflows => exact (Move.closeOverflow overflows.2 overflows.1).custody honest returned
      · exact returned

/-- The maps of the pool are emptied into the hands of the caller. -/
theorem takePooled (custody : Custody limit hands work pool) :
    Custody limit ((pool.pooled : Multiset Client) + hands) work
      { pool with clients := .empty, sessionClients := .empty, overflowClients := [] } := by
  refine ⟨?_, custody.permits, custody.slots, custody.succeeded, custody.started, custody.queue⟩
  rw [← custody.whole]
  simp only [Pool.owned, Pool.pooled, Pool.sessionClientList, Dict.values, Dict.empty, List.map_nil,
    List.append_nil,
    Multiset.coe_nil]
  abel

theorem retireAll (clients : List Client) (now : ℚ)
    (custody : Custody limit ((clients : Multiset Client) + hands) work pool) :
    Custody limit hands work (clients.foldl (fun pool client => pool.retire client now) pool) := by
  induction clients generalizing pool with
  | nil => simpa using custody
  | cons client clients ih =>
    rw [List.foldl_cons]
    rw [← Multiset.cons_coe, Multiset.cons_add] at custody
    exact ih (custody.retire now)

theorem detach (custody : Custody limit hands work pool) (now : ℚ) :
    Custody limit (((pool.detach now).2 : Multiset Client) + hands) work (pool.detach now).1 := by
  apply retireAll
  have parts := Multiset.coe_eq_coe.mpr
    (List.filter_append_perm (fun client => decide (0 < pool.sessionClientRefs client)) pool.pooled)
  simp only [← decide_not] at parts
  have taken := custody.takePooled
  rw [← parts, ← Multiset.coe_add, add_assoc] at taken
  exact taken

theorem startClose {backlog : List Client} (custody : Custody limit hands work pool)
    (first : pool.closeBacklog = client :: backlog) :
    Custody limit hands ((client, false) ::ₘ work) (pool.startClose client backlog) := by
  have queue : (pool.closePending : Multiset Client) = (backlog : Multiset Client) +
      ((client, false) ::ₘ work).map Prod.fst := by
    rw [custody.queue, first, ← Multiset.cons_coe, Multiset.cons_add, Multiset.map_cons, Multiset.add_cons]
  refine ⟨custody.whole, custody.permits, custody.slots, ?_, ?_, queue⟩
  · intro other ended
    exact custody.succeeded other (by simpa [Pool.startClose] using ended)
  · intro other begun
    rcases List.mem_cons.mp begun with same | earlier
    · subst same
      refine .inl (Multiset.mem_coe.mp ?_)
      change other ∈ (pool.closePending : Multiset Client)
      rw [queue]
      simp
    · exact custody.started other earlier

theorem mem_pending {succeeded : Bool} (custody : Custody limit hands ((client, succeeded) ::ₘ work) pool) :
    client ∈ pool.closePending := by
  rw [← Multiset.mem_coe, custody.queue]
  simp

theorem succeed (custody : Custody limit hands ((client, false) ::ₘ work) pool) :
    Custody limit hands ((client, true) ::ₘ work)
    { pool with closeSucceeded := client :: pool.closeSucceeded } := by
  refine ⟨custody.whole, custody.permits, custody.slots, ?_, custody.started, by simpa using custody.queue⟩
  intro other ended
  by_cases same : other = client
  · exact same ▸ List.mem_cons_self
  · exact List.mem_cons_of_mem _ (custody.succeeded other (by simpa [same] using ended))

theorem requeue (custody : Custody limit hands ((client, false) ::ₘ work) pool) :
    Custody limit hands work (pool.requeue client) := by
  rw [Pool.requeue, if_pos custody.mem_pending]
  refine ⟨custody.whole, custody.permits, custody.slots, ?_, custody.started, ?_⟩
  · intro other ended
    exact custody.succeeded other (by simpa using ended)
  · rw [custody.queue, ← Multiset.coe_add, Multiset.map_cons, Multiset.coe_singleton,
      ← Multiset.singleton_add]
    abel

theorem mem_slots {succeeded : Bool} (custody : Custody limit hands ((client, succeeded) ::ₘ work) pool) :
    client ∈ pool.clientSlotClients := by
  have pending := custody.mem_pending
  have once := Multiset.nodup_iff_count_le_one.mp custody.nodup client
  have there : client ∈ pool.owned + hands + (pool.permitsReleased : Multiset Client) := by
    simp [Pool.owned, pending]
  rw [custody.whole, ← custody.permits] at there
  have listed := List.count_pos_iff.mpr pending
  simp only [Pool.owned, Multiset.count_add, Multiset.coe_count] at once
  have unreleased : client ∉ pool.permitsReleased := List.count_eq_zero.mp (by omega)
  simpa [unreleased] using there

theorem finishClose (custody : Custody limit hands ((client, true) ::ₘ work) pool) :
    Custody limit hands work (pool.finishClose client) := by
  have permit := custody.mem_slots
  have moved := Multiset.coe_eq_coe.mpr (List.perm_cons_erase custody.mem_pending)
  have freed := Multiset.coe_eq_coe.mpr (List.perm_cons_erase permit)
  rw [Pool.finishClose, Pool.releaseClientSlot, if_pos permit]
  refine ⟨?_, ?_, ?_, ?_, ?_, ?_⟩
  · rw [← custody.whole]
    simp only [Pool.owned, Pool.pooled, Pool.sessionClientList, moved, ← Multiset.coe_add,
      ← Multiset.cons_coe,
      ← Multiset.singleton_add]
    abel
  · rw [← custody.permits]
    simp only [freed, ← Multiset.coe_add, ← Multiset.cons_coe, ← Multiset.singleton_add]
    abel
  · have slots := custody.slots
    have some := List.length_pos_of_mem permit
    simp only [List.length_erase_of_mem permit]
    omega
  · intro other ended
    by_cases same : other = client
    · exact custody.succeeded other (.inr (by simp [same]))
    · apply custody.succeeded other
      simpa [same] using ended
  · intro other begun
    by_cases same : other = client
    · exact .inr (by simp [same])
    · rcases custody.started other begun with waiting | released
      · exact .inl ((List.mem_erase_of_ne same).mpr waiting)
      · exact .inr (List.mem_append_left _ released)
  · have queue := custody.queue
    rw [moved, ← Multiset.cons_coe, Multiset.map_cons, Multiset.add_cons, Multiset.cons_inj_right] at queue
    exact queue

end Custody

/-- The custody of a state: what its tasks hold is in hand or at work. -/
def State.Kept (config : PoolConfig) (state : State) : Prop :=
  Custody config.clientSlotLimit (handed state.tasks) (busy state.tasks) state.pool

section Runs
variable {config : PoolConfig} {state next : State} {label : Label}

theorem Step.kept (step : Step config state label next) (kept : state.Kept config) : next.Kept config := by
  unfold State.Kept at kept ⊢
  cases step with
  | tick => exact kept
  | checkout honest taken =>
    simp only [handed_cons, busy_cons, Task.handed, Task.busy, zero_add]
    exact kept.checkout honest taken
  | fail honest refused => exact kept.checkout honest refused
  | peek honest => exact kept.checkout honest rfl
  | touch =>
    simp only [handed_cons, busy_cons, Task.handed, Task.busy, zero_add] at kept ⊢
    exact kept.touch _ _
  | evict evicts =>
    simp only [handed_cons, busy_cons, Task.handed, Task.busy, zero_add] at kept ⊢
    exact kept.evict _ _ _
  | cutoff =>
    simp only [handed_cons, busy_cons, Task.handed, Task.busy, zero_add] at kept ⊢
    exact kept
  | survey =>
    simp only [handed_cons, busy_cons, Task.handed, Task.busy, zero_add] at kept ⊢
    exact kept
  | reap honest =>
    simp only [handed_cons, busy_cons, Task.handed, Task.busy, zero_add] at kept ⊢
    exact kept.closeRetired honest _
  | release honest ends =>
    simp only [handed_cons, busy_cons, Task.handed, Task.busy, zero_add] at kept
    exact kept.release honest ends
  | releaseLast honest last =>
    simp only [handed_cons, busy_cons, Task.handed, Task.busy, zero_add] at kept ⊢
    exact kept.release honest last
  | settle honest =>
    simp only [handed_cons, busy_cons, Task.handed, Task.busy, zero_add] at kept
    exact kept.closeRetired honest _
  | shut =>
    simp only [handed_cons, busy_cons, Task.handed, Task.busy, zero_add]
    exact kept.same ⟨rfl, rfl, rfl, rfl, rfl, rfl, rfl, rfl, rfl, rfl⟩
  | detach =>
    simp only [handed_cons, busy_cons, Task.handed, Task.busy, zero_add] at kept ⊢
    exact kept.detach _
  | @takeRetired pool _ _ leased clients =>
    simp only [handed_cons, busy_cons, Task.handed, Task.busy, zero_add] at kept ⊢
    have after := kept.takeRetired fun entry => decide (entry.1 ∉ leased)
    simp only [decide_not, Bool.not_not] at after
    rw [Pool.takeRetired, ← Multiset.coe_add, add_right_comm, add_comm]
    simpa only [decide_not, add_assoc, add_comm, add_left_comm] using after
  | hand honest =>
    simp only [handed_cons, busy_cons, Task.handed, Task.busy, zero_add, ← Multiset.cons_coe,
      Multiset.cons_add] at kept ⊢
    exact kept.schedule honest
  | handed =>
    simpa only [handed_cons, busy_cons, Task.handed, Task.busy, zero_add, Multiset.coe_nil] using kept
  | startClose first =>
    simp only [handed_cons, busy_cons, Task.handed, Task.busy, zero_add, Multiset.singleton_add]
    exact kept.startClose first
  | succeed =>
    simp only [handed_cons, busy_cons, Task.handed, Task.busy, zero_add, Multiset.singleton_add] at kept ⊢
    exact kept.succeed
  | failClose =>
    simp only [handed_cons, busy_cons, Task.handed, Task.busy, zero_add, Multiset.singleton_add] at kept ⊢
    exact kept
  | finish =>
    simp only [handed_cons, busy_cons, Task.handed, Task.busy, zero_add, Multiset.singleton_add] at kept
    exact kept.finishClose
  | rest =>
    simp only [handed_cons, busy_cons, Task.handed, Task.busy, zero_add, Multiset.singleton_add] at kept ⊢
    exact kept
  | requeue =>
    simp only [handed_cons, busy_cons, Task.handed, Task.busy, zero_add, Multiset.singleton_add] at kept
    exact kept.requeue

theorem Reaches.kept {allowed : State → Label → Prop} (reaches : Reaches config allowed state) :
    state.Kept config := by
  induction reaches with
  | start => exact Custody.start config
  | step _ _ step ih => exact step.kept ih

/-- A map of the pool, the list of retired clients or the cleanup owns the client. -/
def Owned (pool : Pool) (client : Client) : Prop :=
  client ∈ pool.clients.values ∨ client ∈ pool.sessionClientList ∨ client ∈ pool.overflowClients ∨
    client ∈ pool.retiredClients.map Prod.fst ∨ client ∈ pool.closePending

instance (pool : Pool) (client : Client) : Decidable (Owned pool client) :=
  inferInstanceAs (Decidable (_ ∨ _))

/-- The clients that were constructed and whose close has not succeeded. -/
def Pool.unclosed (pool : Pool) : List Client :=
  (List.range pool.constructed).filter (· ∉ pool.closeSucceeded)

theorem State.Kept.unclosed_le (kept : state.Kept config) :
    state.pool.unclosed.length ≤ config.clientSlotLimit := by
  have held : state.pool.unclosed ⊆ state.pool.clientSlotClients := by
    intro client member
    obtain ⟨made, unclosed⟩ := List.mem_filter.mp member
    have counted : client ∈ Multiset.range state.pool.constructed := by simpa using made
    rw [← kept.permits] at counted
    rcases Multiset.mem_add.mp counted with slot | released
    · exact slot
    · exact absurd (kept.succeeded client (.inl released)) (by simpa using unclosed)
  have distinct : state.pool.unclosed.Nodup := List.nodup_range.filter _
  calc state.pool.unclosed.length
      ≤ state.pool.clientSlotClients.length := (distinct.subperm held).length_le
    _ ≤ config.clientSlotLimit := by
      have slots := kept.slots
      omega

theorem State.Kept.permits_nodup (kept : state.Kept config) : state.pool.permitsReleased.Nodup := by
  have whole := Custody.nodup kept
  rw [Multiset.nodup_add] at whole
  exact Multiset.coe_nodup.mp whole.2.1

theorem State.Kept.owned (kept : state.Kept config) {client : Client} (made : client < state.pool.constructed)
    (unclosed : client ∉ state.pool.closeSucceeded) :
    Owned state.pool client ∨ ∃ task ∈ state.tasks, client ∈ task.handed := by
  have counted : client ∈ Multiset.range state.pool.constructed := by simpa using made
  rw [← kept.whole, Multiset.mem_add, Multiset.mem_add, Pool.owned, Multiset.mem_add,
    Multiset.mem_add] at counted
  rcases counted with (((pooled | retired) | pending) | hand) | released
  · simp only [Pool.pooled, Multiset.mem_coe, List.mem_append] at pooled
    rcases pooled with (shared | session) | overflow
    · exact .inl (.inl shared)
    · exact .inl (.inr (.inl session))
    · exact .inl (.inr (.inr (.inl overflow)))
  · exact .inl (.inr (.inr (.inr (.inl retired))))
  · exact .inl (.inr (.inr (.inr (.inr pending))))
  · exact .inr (Multiset.mem_bind.mp hand)
  · exact absurd (kept.succeeded client (.inl released)) unclosed

/-- In every interleaving the clients that are not closed stay within the slots, a permit comes
back once and only for a closed client, and each client that is not closed has an owner, be it
the list of a shutdown that is about to schedule it. -/
theorem client_slots_conserved {config : PoolConfig} {state : State}
    (reaches : Reaches config (fun _ _ => True) state) :
    state.pool.unclosed.length ≤ (max 8 (config.sessionClientMax * 2)).toNat ∧
      state.pool.permitsReleased.Nodup ∧
      (∀ client ∈ state.pool.permitsReleased, client ∈ state.pool.closeSucceeded) ∧
      ∀ client ∈ state.pool.unclosed, Owned state.pool client ∨ ∃ task ∈ state.tasks,
          client ∈ task.handed := by
  have kept := reaches.kept
  refine ⟨kept.unclosed_le, kept.permits_nodup, fun client released =>
    kept.succeeded client (.inl released), ?_⟩
  intro client member
  obtain ⟨made, unclosed⟩ := List.mem_filter.mp member
  exact kept.owned (List.mem_range.mp made) (by simpa using unclosed)

def defaults : PoolConfig := ⟨32, 300, 900, true⟩

/-- The pool after a request for the shared client of a provider. -/
def entered (checkout : Bool) : Pool :=
  ((Pool.new defaults).checkout defaults (fun _ => false) true 0 (.shared "api.anthropic.com") checkout).1

theorem honest_open (pool : Pool) : Honest (fun _ => false) pool := by simp [Honest]

theorem client_slots_conserved_serving :
    (entered true).unclosed = [0] ∧
      (entered true).unclosed.length ≤ (max 8 (defaults.sessionClientMax * 2)).toNat := by
  have taken : (Pool.new defaults).checkout defaults (fun _ =>
    false) true 0 (.shared "api.anthropic.com") true =
      (entered true, .ok 0) := rfl
  have reaches : Reaches defaults (fun _ _ => True)
      ⟨entered true, 0, .serving (.shared "api.anthropic.com") 0 ::ₘ 0⟩ :=
    .step (.start 0) trivial (.checkout (honest_open _) taken)
  exact ⟨by decide +kernel, (client_slots_conserved reaches).1⟩

/-- Between the first section of a shutdown and the scheduling, a client without a lease is in
the list of the shutdown and nowhere else. -/
theorem handed_client_unowned :
    ¬ (∀ (config : PoolConfig) (state : State), Reaches config (fun _ _ => True) state →
      ∀ client ∈ state.pool.unclosed,
        Owned state.pool client ∨ 0 < state.pool.sessionClientRefs client) := by
  intro law
  have made : Reaches defaults (fun _ _ => True) ⟨entered false, 0, 0⟩ :=
    .step (.start 0) trivial (.peek (honest_open _))
  have shut := made.step trivial .shut
  have taken := shut.step trivial .detach
  exact absurd (law defaults _ taken 0 (by decide +kernel)) (by decide +kernel)

end Runs
end TokenPak.Proxy.ConnectionPool
