import Mathlib.Algebra.Order.Ring.Rat
import Mathlib.Data.Multiset.Basic
import TokenPak.Library.Dict

/-! The pool of upstream clients. Every section under a lock is one function, with
the sections nested in it; the threads that run them, and what each of them carries
from one section to the next, are the tasks of a state. -/

namespace TokenPak.Proxy.ConnectionPool
open TokenPak.Library

abbrev Client := Nat

abbrev SessionKey := String × String

structure PoolConfig where
  sessionClientMax : Int
  sessionClientIdleSeconds : ℚ
  retireCloseGraceSeconds : ℚ
  evictOnTransportError : Bool

def PoolConfig.clientSlotLimit (config : PoolConfig) : Nat := (max 8 (config.sessionClientMax * 2)).toNat

structure SessionEntry where
  client : Client
  lastUsed : ℚ

structure Pool where
  clients : Dict String Client
  sessionClients : Dict SessionKey SessionEntry
  overflowClients : List Client
  retiredClients : List (Client × ℚ)
  sessionClientRefs : Client → Nat
  closeBacklog : List Client
  closePending : List Client
  clientSlotClients : List Client
  /-- What the semaphore of the client slots still grants. -/
  clientSlots : Nat
  closed : Bool
  /-- The number of clients constructed so far. -/
  constructed : Nat
  /-- The clients whose `close` was started, and those on which it returned. -/
  closeStarted : List Client
  closeSucceeded : List Client
  /-- The clients whose construction permit was given back, one entry a time. -/
  permitsReleased : List Client

def Pool.new (config : PoolConfig) : Pool :=
  ⟨.empty, .empty, [], [], fun _ => 0, [], [], [], config.clientSlotLimit, false, 0, [], [], []⟩

inductive PoolError where
  | closed | poolTimeout (message : String) | construction
  deriving DecidableEq

namespace Pool

def sessionClientList (pool : Pool) : List Client := pool.sessionClients.values.map SessionEntry.client

/-- `_new_client`; `makes` tells whether the construction of the client succeeds. -/
def newClient (makes : Bool) (pool : Pool) : Except PoolError (Client × Pool) :=
  if pool.clientSlots = 0 then .error (.poolTimeout "connection client-slot cap is saturated")
  else if ¬ makes then .error .construction
  else .ok (pool.constructed, { pool with
    constructed := pool.constructed + 1, clientSlots := pool.clientSlots - 1
    clientSlotClients := pool.clientSlotClients ++ [pool.constructed] })

def releaseClientSlot (client : Client) (pool : Pool) : Pool :=
  if client ∈ pool.clientSlotClients then
    { pool with
      clientSlotClients := pool.clientSlotClients.erase client, clientSlots := pool.clientSlots + 1
      permitsReleased := pool.permitsReleased ++ [client] }
  else pool

/-- `_schedule_close`, which always takes the client. `isClosed` is what the clients answer. -/
def scheduleClose (isClosed : Client → Bool) (client : Client) (pool : Pool) : Pool :=
  if isClosed client then pool.releaseClientSlot client
  else if client ∈ pool.closePending then pool
  else { pool with closePending := pool.closePending ++ [client], closeBacklog := pool.closeBacklog ++ [client] }

def lease (client : Client) (pool : Pool) : Pool :=
  { pool with sessionClientRefs := Function.update pool.sessionClientRefs client (pool.sessionClientRefs client + 1) }

def unlease (client : Client) (pool : Pool) : Pool :=
  { pool with sessionClientRefs := Function.update pool.sessionClientRefs client (pool.sessionClientRefs client - 1) }

def retire (client : Client) (now : ℚ) (pool : Pool) : Pool :=
  if client ∈ pool.retiredClients.map Prod.fst then pool
  else { pool with retiredClients := pool.retiredClients ++ [(client, now)] }

def stamp (key : SessionKey) (now : ℚ) (pool : Pool) : Pool :=
  match pool.sessionClients.get key with
  | some entry => { pool with sessionClients := pool.sessionClients.set key ⟨entry.client, now⟩ }
  | none => pool

def closeSession (isClosed : Client → Bool) (key : SessionKey) (client : Client) (pool : Pool) : Pool :=
  { pool.scheduleClose isClosed client with sessionClients := pool.sessionClients.pop key }

def closeOverflow (isClosed : Client → Bool) (client : Client) (pool : Pool) : Pool :=
  { pool.scheduleClose isClosed client with overflowClients := pool.overflowClients.erase client }

section Checkout
variable (config : PoolConfig) (isClosed : Client → Bool) (makes : Bool)

def getClient (netloc : String) (checkout : Bool) (pool : Pool) : Pool × Except PoolError Client :=
  if pool.closed then (pool, .error .closed)
  else
    match pool.clients.get netloc with
    | some client => (if checkout then pool.lease client else pool, .ok client)
    | none =>
      match pool.newClient makes with
      | .error error => (pool, .error error)
      | .ok (client, pool) =>
        let pool := { pool with clients := pool.clients.set netloc client }
        (if checkout then pool.lease client else pool, .ok client)

def reapOverflow (pool : Pool) : Pool :=
  pool.overflowClients.foldl (fun pool client =>
    if pool.sessionClientRefs client = 0 then pool.closeOverflow isClosed client else pool) pool

/-- Session clients that are idle since before the cutoff and that nobody uses are closed. -/
def reapIdle (now : ℚ) (pool : Pool) : Pool :=
  let stale := pool.sessionClients.entries.filter fun entry =>
    entry.2.lastUsed < now - config.sessionClientIdleSeconds ∧ pool.sessionClientRefs entry.2.client = 0
  stale.foldl (fun pool entry => pool.closeSession isClosed entry.1 entry.2.client) pool

def oldest : List (SessionKey × SessionEntry) → Option (SessionKey × SessionEntry)
  | [] => none
  | first :: rest =>
      some (rest.foldl (fun best entry => if entry.2.lastUsed < best.2.lastUsed then entry
        else best) first)

inductive Room where
  | free | overflow | refused (error : PoolError)

/-- The least recently used clients without a lease make room. Each round takes one entry, so
there are fewer rounds than entries and one more. -/
def makeRoom (checkout : Bool) : Nat → Pool → Pool × Room
  | 0, pool => (pool, .free)
  | rounds + 1, pool =>
    if (pool.sessionClients.entries.length : Int) < config.sessionClientMax then (pool, .free)
    else
      match oldest (pool.sessionClients.entries.filter fun entry =>
          pool.sessionClientRefs entry.2.client = 0) with
      | some entry => makeRoom checkout rounds (pool.closeSession isClosed entry.1 entry.2.client)
      | none =>
        if ¬ checkout then (pool, .refused (.poolTimeout "all session clients are leased"))
        else if config.sessionClientMax ≤ pool.overflowClients.length then
          (pool, .refused (.poolTimeout "session overflow client cap is saturated"))
        else (pool, .overflow)

def getSessionClient (now : ℚ) (key : SessionKey) (checkout : Bool) (pool : Pool) :
    Pool × Except PoolError Client :=
  if pool.closed then (pool, .error .closed)
  else
    let pool := (pool.reapOverflow isClosed).reapIdle config isClosed now
    match pool.sessionClients.get key with
    | some entry =>
      let pool := pool.stamp key now
      (if checkout then pool.lease entry.client else pool, .ok entry.client)
    | none =>
      match pool.makeRoom config isClosed checkout (pool.sessionClients.entries.length + 1) with
      | (pool, .refused error) => (pool, .error error)
      | (pool, .overflow) =>
        match pool.newClient makes with
        | .error error => (pool, .error error)
        | .ok (client, pool) =>
          (lease client { pool with overflowClients := pool.overflowClients ++ [client] }, .ok client)
      | (pool, .free) =>
        match pool.newClient makes with
        | .error error => (pool, .error error)
        | .ok (client, pool) =>
          let pool := { pool with sessionClients := pool.sessionClients.set key ⟨client, now⟩ }
          (if checkout then pool.lease client else pool, .ok client)

end Checkout

/-- The first section of `_release_session_client`, and whether the client is to be closed if
it is retired. -/
def releaseSessionClient (isClosed : Client → Bool) (now : ℚ) (key : SessionKey) (client : Client)
    (pool : Pool) :
    Pool × Bool :=
  let pool := pool.unlease client
  if (pool.sessionClients.get key).any (·.client = client) then (pool.stamp key now, false)
  else if pool.sessionClientRefs client = 0 ∧
    client ∈ pool.overflowClients then (pool.closeOverflow isClosed client, false)
  else (pool, pool.sessionClientRefs client = 0)

/-- The first section of `_release_client`. -/
def releaseClient (client : Client) (pool : Pool) : Pool × Bool :=
  let pool := pool.unlease client
  (pool, pool.sessionClientRefs client = 0)

def closeRetired (isClosed : Client → Bool) (due : Client × ℚ → Bool) (pool : Pool) : Pool :=
  (pool.retiredClients.filter due).foldl (fun pool entry => pool.scheduleClose isClosed entry.1)
    { pool with retiredClients := pool.retiredClients.filter fun entry => ! due entry }

/-- `_close_retired_client_now` -/
def closeRetiredClientNow (isClosed : Client → Bool) (client : Client) : Pool → Pool :=
  closeRetired isClosed fun entry => entry.1 = client

/-- The last section of `_reap_retired`, under the cutoff and the leases read before it. -/
def reapRetired (isClosed : Client → Bool) (cutoff : ℚ) (leased : List Client) : Pool → Pool :=
  closeRetired isClosed fun entry => entry.2 ≤ cutoff ∧ entry.1 ∉ leased

def evictSession (now : ℚ) (key : SessionKey) (client : Client) (pool : Pool) : Pool :=
  if (pool.sessionClients.get key).any (·.client = client) then
    retire client now { pool with sessionClients := pool.sessionClients.pop key }
  else pool

def evictShared (now : ℚ) (netloc : String) (client : Client) (pool : Pool) : Pool :=
  if pool.clients.get netloc =
    some client then retire client now { pool with clients := pool.clients.pop netloc } else pool

/-- The clients in use among those constructed. -/
def leased (pool : Pool) : List Client := (List.range pool.constructed).filter (0 < pool.sessionClientRefs ·)

def pooled (pool : Pool) : List Client :=
  pool.clients.values ++ pool.sessionClientList ++ pool.overflowClients

/-- The first section of `close`: the maps are emptied, clients in use are retired and the
others are handed to the caller. -/
def detach (now : ℚ) (pool : Pool) : Pool × List Client :=
  let kept := pool.pooled.filter fun client => 0 < pool.sessionClientRefs client
  (kept.foldl (fun pool client => pool.retire client now)
    { pool with clients := .empty, sessionClients := .empty, overflowClients := [] },
    pool.pooled.filter fun client => ¬ 0 < pool.sessionClientRefs client)

/-- The second section of `close`: the retired clients that were not in use. -/
def takeRetired (leased : List Client) (pool : Pool) : Pool × List Client :=
  ({ pool with retiredClients := pool.retiredClients.filter (·.1 ∈ leased) },
    (pool.retiredClients.filter (·.1 ∉ leased)).map Prod.fst)

def startClose (client : Client) (backlog : List Client) (pool : Pool) : Pool :=
  { pool with closeBacklog := backlog, closeStarted := client :: pool.closeStarted }

def finishClose (client : Client) (pool : Pool) : Pool :=
  releaseClientSlot client { pool with closePending := pool.closePending.erase client }

/-- The section behind the pause after a close that failed. -/
def requeue (client : Client) (pool : Pool) : Pool :=
  if client ∈ pool.closePending then { pool with closeBacklog := pool.closeBacklog ++ [client] } else pool

end Pool

inductive Slot where
  | shared (netloc : String) | session (key : SessionKey)
  deriving DecidableEq

/-- The threads in the pool, each with what it carries to its next section. -/
inductive Task where
  /-- A request or stream that holds a lease. -/
  | serving (slot : Slot) (client : Client)
  /-- It evicted its client and goes on to reap the retired ones: the clock, the leases, the list. -/
  | evicted (slot : Slot) (client : Client)
  | surveying (slot : Slot) (client : Client) (cutoff : ℚ)
  | reaping (slot : Slot) (client : Client) (cutoff : ℚ) (leased : List Client)
  /-- It gave its lease back, the last one, and looks whether the client is retired. -/
  | settling (slot : Slot) (client : Client)
  /-- A shutdown, before its first section and between its sections. -/
  | shutting
  | detached (leased : List Client) (clients : List Client)
  | handing (clients : List Client)
  /-- A cleanup worker with a client: in its close, behind it, and in the pause after a failure. -/
  | closing (client : Client)
  | closed (client : Client) (succeeded : Bool)
  | resting (client : Client)
  deriving DecidableEq

structure State where
  pool : Pool
  clock : ℚ
  tasks : Multiset Task

/-- What is told of a step: the start of a close, and the section that closes a retired client
after its release. -/
inductive Label where
  | starts (client : Client) | settles (slot : Slot) (client : Client) | other

/-- A client answers that it is closed only after its close was started. -/
def Honest (isClosed : Client → Bool) (pool : Pool) :
    Prop := ∀ client, isClosed client = true → client ∈ pool.closeStarted

def Pool.checkout (config : PoolConfig) (isClosed : Client → Bool) (makes : Bool) (now : ℚ)
    (slot : Slot) (checkout : Bool)
    (pool : Pool) : Pool × Except PoolError Client :=
  match slot with
  | .shared netloc => pool.getClient makes netloc checkout
  | .session key => pool.getSessionClient config isClosed makes now key checkout

def Pool.evict (now : ℚ) (slot : Slot) (client : Client) (pool : Pool) : Pool :=
  match slot with
  | .shared netloc => pool.evictShared now netloc client
  | .session key => pool.evictSession now key client

def Pool.release (isClosed : Client → Bool) (now : ℚ) (slot : Slot) (client : Client)
    (pool : Pool) : Pool × Bool :=
  match slot with
  | .shared _ => pool.releaseClient client
  | .session key => pool.releaseSessionClient isClosed now key client

def Pool.touch (now : ℚ) (slot : Slot) (pool : Pool) : Pool :=
  match slot with
  | .shared _ => pool
  | .session key => pool.stamp key now

/-- One section of one thread, or the passing of time. -/
inductive Step (config : PoolConfig) : State → Label → State → Prop where
  | tick {pool clock tasks later} (passes : clock ≤ later) : Step config ⟨pool, clock, tasks⟩ .other ⟨pool, later, tasks⟩
  | checkout {pool clock tasks isClosed makes now slot after client} (honest : Honest isClosed pool)
      (taken : pool.checkout config isClosed makes now slot true = (after, .ok client)) :
      Step config ⟨pool, clock, tasks⟩ .other ⟨after, clock, .serving slot client ::ₘ tasks⟩
  | fail {pool clock tasks isClosed makes now slot after error} (honest : Honest isClosed pool)
      (refused : pool.checkout config isClosed makes now slot true = (after, .error error)) :
      Step config ⟨pool, clock, tasks⟩ .other ⟨after, clock, tasks⟩
  | peek {pool clock tasks isClosed makes now slot} (honest : Honest isClosed pool) :
      Step config ⟨pool, clock,
        tasks⟩ .other ⟨(pool.checkout config isClosed makes now slot false).1, clock, tasks⟩
  | touch {pool clock tasks slot client now} :
      Step config ⟨pool, clock, .serving slot client ::ₘ tasks⟩ .other
        ⟨pool.touch now slot, clock, .serving slot client ::ₘ tasks⟩
  | evict {pool clock tasks slot client} (evicts : config.evictOnTransportError = true) :
      Step config ⟨pool, clock, .serving slot client ::ₘ tasks⟩ .other
        ⟨pool.evict clock slot client, clock, .evicted slot client ::ₘ tasks⟩
  | cutoff {pool clock tasks slot client} :
      Step config ⟨pool, clock, .evicted slot client ::ₘ tasks⟩ .other
        ⟨pool, clock, .surveying slot client (clock - config.retireCloseGraceSeconds) ::ₘ tasks⟩
  | survey {pool clock tasks slot client cutoff} :
      Step config ⟨pool, clock, .surveying slot client cutoff ::ₘ tasks⟩ .other
        ⟨pool, clock, .reaping slot client cutoff pool.leased ::ₘ tasks⟩
  | reap {pool clock tasks slot client cutoff leased isClosed} (honest : Honest isClosed pool) :
      Step config ⟨pool, clock, .reaping slot client cutoff leased ::ₘ tasks⟩ .other
        ⟨pool.reapRetired isClosed cutoff leased, clock, .serving slot client ::ₘ tasks⟩
  | release {pool clock tasks slot client isClosed now after} (honest : Honest isClosed pool)
      (ends : pool.release isClosed now slot client = (after, false)) :
      Step config ⟨pool, clock, .serving slot client ::ₘ tasks⟩ .other ⟨after, clock, tasks⟩
  | releaseLast {pool clock tasks slot client isClosed now after} (honest : Honest isClosed pool)
      (last : pool.release isClosed now slot client = (after, true)) :
      Step config ⟨pool, clock, .serving slot client ::ₘ tasks⟩ .other ⟨after, clock,
        .settling slot client ::ₘ tasks⟩
  | settle {pool clock tasks slot client isClosed} (honest : Honest isClosed pool) :
      Step config ⟨pool, clock, .settling slot client ::ₘ tasks⟩ (.settles slot client)
        ⟨pool.closeRetiredClientNow isClosed client, clock, tasks⟩
  | shut {pool clock tasks} :
      Step config ⟨pool, clock, tasks⟩ .other ⟨{ pool with closed := true }, clock, .shutting ::ₘ tasks⟩
  | detach {pool clock tasks} :
      Step config ⟨pool, clock, .shutting ::ₘ tasks⟩ .other
        ⟨(pool.detach clock).1, clock, .detached pool.leased (pool.detach clock).2 ::ₘ tasks⟩
  | takeRetired {pool clock tasks leased clients} :
      Step config ⟨pool, clock, .detached leased clients ::ₘ tasks⟩ .other
        ⟨(pool.takeRetired leased).1, clock, .handing (clients ++ (pool.takeRetired leased).2) ::ₘ tasks⟩
  | hand {pool clock tasks client clients isClosed} (honest : Honest isClosed pool) :
      Step config ⟨pool, clock, .handing (client :: clients) ::ₘ tasks⟩ .other
        ⟨pool.scheduleClose isClosed client, clock, .handing clients ::ₘ tasks⟩
  | handed {pool clock tasks} : Step config ⟨pool, clock, .handing [] ::ₘ tasks⟩ .other ⟨pool, clock, tasks⟩
  | startClose {pool clock tasks client backlog} (first : pool.closeBacklog = client :: backlog) :
      Step config ⟨pool, clock, tasks⟩ (.starts client) ⟨pool.startClose client backlog, clock,
        .closing client ::ₘ tasks⟩
  | succeed {pool clock tasks client} :
      Step config ⟨pool, clock, .closing client ::ₘ tasks⟩ .other
        ⟨{ pool with closeSucceeded := client :: pool.closeSucceeded }, clock, .closed client true ::ₘ tasks⟩
  | failClose {pool clock tasks client} :
      Step config ⟨pool, clock, .closing client ::ₘ tasks⟩ .other ⟨pool, clock,
        .closed client false ::ₘ tasks⟩
  | finish {pool clock tasks client} :
      Step config ⟨pool, clock, .closed client true ::ₘ tasks⟩ .other ⟨pool.finishClose client, clock, tasks⟩
  | rest {pool clock tasks client} :
      Step config ⟨pool, clock, .closed client false ::ₘ tasks⟩ .other ⟨pool, clock,
        .resting client ::ₘ tasks⟩
  | requeue {pool clock tasks client} :
      Step config ⟨pool, clock, .resting client ::ₘ tasks⟩ .other ⟨pool.requeue client, clock, tasks⟩

/-- The states of the runs whose steps are all allowed, from a new pool. -/
inductive Reaches (config : PoolConfig) (allowed : State → Label → Prop) : State → Prop where
  | start (clock : ℚ) : Reaches config allowed ⟨.new config, clock, 0⟩
  | step {state label next} (before : Reaches config allowed state) (may : allowed state label)
      (step : Step config state label next) : Reaches config allowed next

end TokenPak.Proxy.ConnectionPool
