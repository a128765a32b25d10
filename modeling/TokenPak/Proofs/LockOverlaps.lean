import TokenPak.Orchestration.Locks

/-! Locks under overlapping calls. A call decides by what it has read, and what it has learned
from the clock stays true; so a lock is safe as long as no call renames or unlinks over a live
record that it has not read. -/

namespace TokenPak.Orchestration.Locks
open Library

/-- By its clock a call knows that the record has expired. -/
def KnownExpired (past : List (Event Op Reply)) (record : LockRecord) : Prop :=
  ∃ now, ⟨.time, now⟩ ∈ past ∧ record.expires ≤ now

/-- What a call of an agent has made sure of before it touches the file. -/
def Careful (agent : String) (past : List (Event Op Reply)) : Op → Prop
  | .replace existing record =>
    record.agent = agent ∧ ∀ held ∈ existing, held.agent = agent ∨ KnownExpired past held
  | .unlink existing releasing =>
      ∀ held ∈ existing, releasing = true ∧ held.agent = agent ∨ KnownExpired past held
  | .time | .isListed | .readLock | .writeTmp _ => True

section Programs
variable {agent : String} {past : List (Event Op Reply)} {existing : Option LockRecord}

theorem KnownExpired.later {record : LockRecord} (known : KnownExpired past record) (event : Event Op Reply) :
    KnownExpired (past ++ [event]) record := by
  obtain ⟨now, member, expired⟩ := known
  exact ⟨now, List.mem_append_left _ member, expired⟩

theorem known_of_reading {record : LockRecord} {now : Int} (expired : record.expires ≤ now) :
    KnownExpired (past ++ [⟨.time, now⟩]) record :=
  ⟨now, List.mem_append_right _ (List.mem_singleton_self _), expired⟩

theorem writeLock_careful (record : LockRecord) (own : record.agent = agent)
    (free : ∀ held ∈ existing, held.agent = agent ∨ KnownExpired past held) :
    (writeLock existing record).Ensures (Careful agent) (fun _ _ => True) past := by
  refine ⟨trivial, fun _ => ⟨⟨own, ?_⟩, fun moved => ?_⟩⟩
  · intro held member
    exact (free held member).imp_right fun known => known.later _
  · cases moved <;> trivial

theorem take_careful {timeout : Int} (free : ∀ held ∈ existing, held.agent = agent ∨ KnownExpired past held) :
    (take agent timeout existing).Ensures (Careful agent) (fun _ _ => True) past := by
  refine ⟨trivial, fun now => ?_⟩
  apply writeLock_careful _ rfl
  intro held member
  exact (free held member).imp_right fun known => known.later _

theorem claim_careful (agent : String) (timeout : Int) :
    (claim agent timeout).Ensures (Careful agent) (fun _ _ => True) past := by
  refine ⟨trivial, fun existing => ?_⟩
  cases existing with
  | none => exact take_careful (by simp)
  | some held =>
    refine ⟨trivial, fun now => ?_⟩
    change Program.Ensures _ _ _ (if _ then _ else _)
    split
    · trivial
    next free =>
      apply take_careful
      intro other same
      cases same
      by_cases live : now < held.expires
      · exact .inl (Decidable.not_not.mp fun different => free ⟨live, different⟩)
      · exact .inr (known_of_reading (Int.not_lt.mp live))

theorem release_careful (agent : String) : (release agent).Ensures (Careful agent)
    (fun _ _ => True) past := by
  refine ⟨trivial, fun existing => ?_⟩
  cases existing with
  | none => trivial
  | some held =>
    change Program.Ensures _ _ _ (if _ then _ else _)
    split
    · trivial
    next own =>
      refine ⟨?_, fun _ => trivial⟩
      intro other same
      cases same
      exact .inl ⟨rfl, Decidable.not_not.mp own⟩

theorem query_careful (agent : String) : query.Ensures (Careful agent) (fun _ _ => True) past := by
  refine ⟨trivial, fun existing => ?_⟩
  cases existing with
  | none => trivial
  | some held =>
    refine ⟨trivial, fun now => ?_⟩
    change Program.Ensures _ _ _ (if _ then _ else _)
    split
    next expired =>
      refine ⟨?_, fun _ => trivial⟩
      intro other same
      cases same
      exact .inr (known_of_reading expired)
    next => trivial

theorem pruneExpired_careful (agent : String) {post : List (Event Op Reply) → Nat → Prop}
    (holds : ∀ past count, post past count) :
    pruneExpired.Ensures (Careful agent) post past := by
  refine ⟨trivial, fun now => ⟨trivial, fun listed => ?_⟩⟩
  cases listed with
  | false => exact holds _ _
  | true =>
    refine ⟨trivial, fun existing => ?_⟩
    cases existing with
    | none => exact ⟨by simp [Careful], fun _ => holds _ _⟩
    | some held =>
      change Program.Ensures _ _ _ (if _ then _ else _)
      split
      next expired =>
        refine ⟨?_, fun _ => holds _ _⟩
        intro other same
        cases same
        exact .inr (((known_of_reading expired).later _).later _)
      next => exact holds _ _

theorem renew_careful (agent : String) (timeout : Int) :
    (renew agent timeout).Ensures (Careful agent) (fun _ _ => True) past := by
  refine ⟨trivial, fun existing => ?_⟩
  cases existing with
  | none => trivial
  | some held =>
    refine ⟨trivial, fun now => ?_⟩
    change Program.Ensures _ _ _ (if _ then _ else _)
    split
    next expired =>
      refine ⟨?_, fun _ => trivial⟩
      intro other same
      cases same
      exact .inr (known_of_reading expired)
    next =>
      split
      · trivial
      next own =>
        have mine : held.agent = agent := Decidable.not_not.mp own
        refine ⟨trivial, fun now => ?_⟩
        refine writeLock_careful _ mine ?_
        intro other same
        cases same
        exact .inl mine

theorem Request.careful (agent : String) (request : Request) :
    (request.call agent).Ensures (Careful agent) (fun _ _ => True) past := by
  cases request with
  | claim timeout => exact claim_careful agent timeout
  | renew timeout => exact renew_careful agent timeout
  | release => exact release_careful agent
  | query => exact query_careful agent
  | prune =>
    apply Program.Ensures.bind (pruneExpired_careful agent fun _ _ => trivial)
    intro past count _
    trivial
  | locks =>
    apply Program.Ensures.bind (pruneExpired_careful agent fun _ _ => trivial)
    intro past count _
    refine ⟨trivial, fun listed => ?_⟩
    cases listed with
    | false => trivial
    | true => exact ⟨trivial, fun _ => trivial⟩

end Programs

section Runs
variable {Thread : Type} [DecidableEq Thread] {agents : Thread → String} {requests : Thread → Request}
variable {world after : World} {thread : Thread} {event : Event Op Reply}

/-- The record that was returned to an agent stands: while it has not expired, no call of another
agent returns a record, and none renames over it or unlinks it. -/
def Respects (agents : Thread → String) (thread : Thread) (world : World) (event : Event Op Reply)
    (after : World) : Prop :=
  ∀ held ∈ world.granted, after.clock < held.expires →
    (∀ existing record, event = ⟨.replace existing record, true⟩ → agents thread = held.agent) ∧
    (world.lock = some held → agents thread ≠ held.agent → after.lock = some held)

/-- What a call has written is still in the temporary file when it renames that; a live record in
the lock file is one that the call has read, or its agent's own, which gives way to a release and
to a record that expires no earlier. -/
def Undisturbed (agents : Thread → String) (thread : Thread) (world : World)
    (event : Event Op Reply) (after : World) : Prop :=
  match event.op with
  | .replace existing record => world.tmp = some record ∧ ∀ held ∈ world.lock, after.clock < held.expires →
      (existing = some held ∨ held.agent = agents thread) ∧ (held.agent = agents thread →
        held.expires ≤ record.expires)
  | .unlink existing releasing => ∀ held ∈ world.lock, after.clock < held.expires →
      existing = some held ∨ releasing = true ∧ held.agent = agents thread
  | .time | .isListed | .readLock | .writeTmp _ => True

/-- Every run whose steps meet the rule keeps to the locks. -/
def Exclusive (agents : Thread → String) (requests : Thread → Request)
    (rule : Thread → World → Event Op Reply → World → Prop) : Prop :=
  ∀ lock tmp clock pool,
    Pool.Reaches (fun thread world event after => serves agents thread world event after ∧
      rule thread world event after)
      (start agents requests lock tmp clock) pool →
    ∀ thread event next, Pool.Performs
        (fun thread world event after => serves agents thread world event after ∧
          rule thread world event after)
        pool next thread event →
      Respects agents thread pool.world event next.world

/-- A returned record is in the file or has given way to one of the same agent that expires no
earlier; and the clock has not been read ahead. -/
structure Kept (world : World) (log : List (Thread × Event Op Reply)) : Prop where
  stands : ∀ held ∈ world.granted, world.clock < held.expires →
    ∃ record, world.lock = some record ∧ record.agent = held.agent ∧ held.expires ≤ record.expires
  read : ∀ thread now, (thread, ⟨.time, now⟩) ∈ log → now ≤ world.clock

variable {log : List (Thread × Event Op Reply)}

theorem Kept.expired (kept : Kept world log) {record : LockRecord}
    (known : KnownExpired (Pool.history thread log) record) :
    record.expires ≤ world.clock := by
  obtain ⟨now, member, expired⟩ := known
  have past := kept.read thread now (Pool.mem_history.mp member)
  omega

omit [DecidableEq Thread] in
theorem Kept.idle (kept : Kept world log) (lock : after.lock = world.lock)
    (granted : after.granted = world.granted)
    (later : world.clock ≤ after.clock)
    (time : ∀ now, event = ⟨.time, now⟩ → now ≤ after.clock) : Kept after (log ++ [(thread, event)]) := by
  constructor
  · intro held member live
    rw [lock]
    exact kept.stands held (granted ▸ member) (by omega)
  · intro other now member
    rcases List.mem_append.mp member with old | new
    · exact Int.le_trans (kept.read other now old) later
    · have same := List.mem_singleton.mp new
      exact time now (Prod.mk.inj same).2.symm

omit [DecidableEq Thread] in
theorem Kept.reads (kept : Kept world log) (later : world.clock ≤ after.clock)
    (apart : event.op ≠ .time) (other : Thread) (now : Int)
    (member : (other, (⟨.time, now⟩ : Event Op Reply)) ∈ log ++ [(thread, event)]) : now ≤ after.clock := by
  rcases List.mem_append.mp member with old | new
  · exact Int.le_trans (kept.read other now old) later
  · obtain ⟨_, same⟩ := Prod.mk.inj (List.mem_singleton.mp new)
    exact absurd (congrArg Event.op same).symm apart

/-- Who renames, while a lock is live, is the agent that holds it. -/
theorem Kept.renames (kept : Kept world log) {existing : Option LockRecord} {record : LockRecord} {now : Int}
    (careful : Careful (agents thread) (Pool.history thread log) (.replace existing record))
    (later : world.clock ≤ now)
    (undisturbed : ∀ held ∈ world.lock, now < held.expires →
      (existing = some held ∨ held.agent = agents thread) ∧ (held.agent = agents thread → held.expires ≤ record.expires))
    {held : LockRecord} (granted : held ∈ world.granted) (live : now < held.expires) :
    held.agent = agents thread ∧ held.expires ≤ record.expires := by
  obtain ⟨standing, locked, same, longer⟩ := kept.stands held granted (by omega)
  obtain ⟨own, grows⟩ := undisturbed standing locked (by omega)
  have mine : standing.agent = agents thread := by
    rcases own with read | mine
    · rcases careful.2 standing read with mine | known
      · exact mine
      · have expired := kept.expired known
        omega
    · exact mine
  have after := grows mine
  exact ⟨same.symm.trans mine, by omega⟩

theorem Kept.unlinks (kept : Kept world log) {existing : Option LockRecord} {releasing : Bool} {now : Int}
    (careful : Careful (agents thread) (Pool.history thread log) (.unlink existing releasing))
    (later : world.clock ≤ now)
    (undisturbed : ∀ held ∈ world.lock, now < held.expires →
      existing = some held ∨ releasing = true ∧ held.agent = agents thread)
    {held : LockRecord} (granted : held ∈ world.granted) (live : now < held.expires) :
    releasing = true ∧ held.agent = agents thread := by
  obtain ⟨standing, locked, same, longer⟩ := kept.stands held granted (by omega)
  have mine : releasing = true ∧ standing.agent = agents thread := by
    rcases undisturbed standing locked (by omega) with read | mine
    · rcases careful standing read with mine | known
      · exact mine
      · have expired := kept.expired known
        omega
    · exact mine
  exact ⟨mine.1, same.symm.trans mine.2⟩

/-- One step of a run that meets the rule. -/
theorem step_kept (kept : Kept world log)
    (careful : Careful (agents thread) (Pool.history thread log) event.op)
    (served : serves agents thread world event after)
    (undisturbed : Undisturbed agents thread world event after) :
    Kept after (log ++ [(thread, event)]) ∧ Respects agents thread world event after := by
  obtain ⟨op, reply⟩ := event
  obtain ⟨now, later, outcome⟩ := served
  have quiet (lock : after.lock = world.lock) (silent : ∀ existing record, op ≠ .replace existing record) :
      Respects agents thread world ⟨op, reply⟩ after := by
    intro held _ _
    refine ⟨?_, fun locked _ => lock.trans locked⟩
    intro existing record same
    exact absurd (congrArg Event.op same) (silent existing record)
  cases op with
  | time =>
    cases outcome
    refine ⟨kept.idle rfl rfl later ?_, quiet rfl nofun⟩
    intro other same
    cases same
    exact Int.le_refl _
  | isListed =>
    cases outcome
    exact ⟨kept.idle rfl rfl later nofun, quiet rfl nofun⟩
  | readLock =>
    cases outcome
    exact ⟨kept.idle rfl rfl later nofun, quiet rfl nofun⟩
  | writeTmp record =>
    cases outcome
    exact ⟨kept.idle rfl rfl later nofun, quiet rfl nofun⟩
  | replace existing record =>
    obtain ⟨written, safe⟩ := undisturbed
    simp only [react, written] at outcome
    obtain ⟨moved, rfl⟩ := Prod.mk.inj outcome
    have renames {held : LockRecord} (granted : held ∈ world.granted) (live : now < held.expires) :
        held.agent = agents thread ∧ held.expires ≤ record.expires :=
          kept.renames careful later safe granted live
    refine ⟨⟨?_, kept.reads later nofun⟩, ?_⟩
    · intro held member live
      rcases List.mem_cons.mp member with new | old
      · exact ⟨record, rfl, new ▸ rfl, new ▸ Int.le_refl _⟩
      · obtain ⟨mine, longer⟩ := renames old live
        exact ⟨record, rfl, careful.1.trans mine.symm, longer⟩
    · intro held granted live
      obtain ⟨mine, _⟩ := renames granted live
      exact ⟨fun _ _ _ => mine.symm, fun _ other => absurd mine.symm other⟩
  | unlink existing releasing =>
    cases locked : world.lock with
    | none =>
      simp only [react, locked] at outcome
      obtain ⟨_, rfl⟩ := Prod.mk.inj outcome
      exact ⟨kept.idle locked.symm rfl later nofun, quiet locked.symm nofun⟩
    | some standing =>
      simp only [react, locked] at outcome
      obtain ⟨_, rfl⟩ := Prod.mk.inj outcome
      have released {held : LockRecord} (granted : held ∈ world.granted) (live : now < held.expires) :
          releasing = true ∧ held.agent = agents thread := kept.unlinks careful later undisturbed granted live
      refine ⟨⟨?_, kept.reads later nofun⟩, ?_⟩
      · intro held member live
        have granted : held ∈ world.granted := by
          cases releasing with
          | true => exact (List.mem_filter.mp member).1
          | false => exact member
        obtain ⟨frees, mine⟩ := released granted live
        subst frees
        simpa [mine] using (List.mem_filter.mp member).2
      · intro held granted live
        obtain ⟨_, mine⟩ := released granted live
        exact ⟨(fun _ _ same => nomatch congrArg Event.op same), fun _ other => absurd mine.symm other⟩

/-- No lock is lost to a call that renames or unlinks over what it has not read. -/
theorem locks_exclusive (agents : Thread → String) (requests : Thread → Request) :
    Exclusive agents requests (Undisturbed agents) := by
  intro lock tmp clock pool reached thread event next performs
  have contract : ∀ thread,
    ((start agents requests lock tmp clock).threads thread).Ensures (Careful (agents thread))
      (fun _ _ => True) (Pool.history thread (start agents requests lock tmp clock).log) :=
    fun thread => (requests thread).careful (agents thread)
  have kept : Kept pool.world pool.log := by
    apply Pool.Reaches.invariant_of_contract Kept reached contract
    · exact ⟨(fun _ member => nomatch member), fun _ _ member => nomatch member⟩
    · intro world after log thread event kept careful moved
      exact (step_kept kept careful moved.1 moved.2).1
  have careful := performs.allowed (reached.ensures contract)
  obtain ⟨served, undisturbed⟩ := performs.answered
  exact (step_kept kept careful served undisturbed).2

/-! Files that compute their answers. -/

def serve (agents : Thread → String) (thread : Thread) (now : Int) (world : World) (op : Op) :
    Option (Reply op × World) :=
  if world.clock ≤ now then some (react (agents thread) now world op) else none

omit [DecidableEq Thread] in
theorem serve_sound (thread : Thread) (now : Int) (world : World) (op : Op) (reply : Reply op) (after : World)
    (answered : serve agents thread now world op = some (reply, after)) :
    serves agents thread world ⟨op, reply⟩ after := by
  unfold serve at answered
  split at answered
  next later => exact ⟨now, later, (Option.some.inj answered).symm⟩
  next => cases answered

instance : Decidable (Undisturbed agents thread world event after) :=
  match event with
  | ⟨.replace existing record, _⟩ =>
      inferInstanceAs (Decidable (world.tmp = some record ∧ ∀ held ∈ world.lock,
      after.clock < held.expires → (existing = some held ∨ held.agent = agents thread) ∧
        (held.agent = agents thread → held.expires ≤ record.expires)))
  | ⟨.unlink existing releasing, _⟩ =>
      inferInstanceAs (Decidable (∀ held ∈ world.lock, after.clock < held.expires →
      existing = some held ∨ releasing = true ∧ held.agent = agents thread))
  | ⟨.time, _⟩ | ⟨.isListed, _⟩ | ⟨.readLock, _⟩ | ⟨.writeTmp _, _⟩ => isTrue trivial

def serveAlone (agents : Thread → String) (thread : Thread) (now : Int) (world : World) (op : Op) :
    Option (Reply op × World) :=
  (serve agents thread now world op).filter fun answer =>
    Undisturbed agents thread world ⟨op, answer.1⟩ answer.2

omit [DecidableEq Thread] in
theorem serveAlone_sound (thread : Thread) (now : Int) (world : World) (op : Op) (reply : Reply op)
    (after : World)
    (answered : serveAlone agents thread now world op = some (reply, after)) :
    serves agents thread world ⟨op, reply⟩ after ∧ Undisturbed agents thread world ⟨op, reply⟩ after := by
  obtain ⟨served, undisturbed⟩ := Option.filter_eq_some_iff.mp answered
  exact ⟨serve_sound thread now world op reply after served, of_decide_eq_true undisturbed⟩

end Runs

/-! Two agents that claim the same path. -/

def twoAgents (first : Bool) : String := if first then "a" else "b"

def bothClaim (_ : Bool) : Request := .claim 600

def firstRecord : LockRecord := ⟨"a", 1, 601, none⟩

def secondRecord : LockRecord := ⟨"b", 2, 602, none⟩

/-- One after the other: the second claim meets the lock of the first. -/
theorem locks_exclusive_contended : ∃ pool,
    Pool.Reaches (fun thread world event after =>
      serves twoAgents thread world event after ∧ Undisturbed twoAgents thread world event after)
      (start twoAgents bothClaim none none 0) pool ∧
    pool.world.lock = some firstRecord ∧ pool.world.granted = [firstRecord] ∧
    ∀ thread event next, Pool.Performs (fun thread world event after =>
        serves twoAgents thread world event after ∧ Undisturbed twoAgents thread world event after) pool next thread event →
      Respects twoAgents thread pool.world event next.world := by
  have played : ((Pool.attend (serveAlone twoAgents) [(true, 0), (true, 1), (true, 1), (true, 1), (false, 2), (false, 2)]
      (start twoAgents bothClaim none none 0)).map fun pool => (pool.world.lock, pool.world.granted)) =
      some (some firstRecord, [firstRecord]) := by decide +kernel
  obtain ⟨pool, attended, stands⟩ := Option.map_eq_some_iff.mp played
  obtain ⟨locked, granted⟩ := Prod.mk.inj stands
  have reached : Pool.Reaches (fun thread world event after =>
      serves twoAgents thread world event after ∧ Undisturbed twoAgents thread world event after)
      (start twoAgents bothClaim none none 0) pool := Pool.attend_reaches serveAlone_sound attended
  exact ⟨pool, reached, locked, granted, locks_exclusive twoAgents bothClaim none none 0 pool reached⟩

/-- Both find the path unlocked before either has written. -/
theorem both_claims_succeed : ¬ Exclusive twoAgents bothClaim fun _ _ _ _ => True := by
  intro exclusive
  have played : ((Pool.attend (serve twoAgents)
      [(true, 0), (false, 0), (true, 1), (true, 1), (true, 1), (false, 2), (false, 2)]
      (start twoAgents bothClaim none none 0)).map fun pool => (pool.world, pool.pending false)) =
      some (⟨some firstRecord, some secondRecord, 2, [firstRecord]⟩,
          some (.replace none secondRecord)) := by
        decide +kernel
  obtain ⟨pool, attended, stands⟩ := Option.map_eq_some_iff.mp played
  obtain ⟨world, asked⟩ := Prod.mk.inj stands
  have reached : Pool.Reaches (fun thread world event after =>
    serves twoAgents thread world event after ∧ True)
      (start twoAgents bothClaim none none 0) pool :=
    (Pool.attend_reaches serve_sound attended).mono fun _ _ _ _ served => ⟨served, trivial⟩
  have replaced : serves twoAgents false pool.world ⟨.replace none secondRecord, true⟩
      ⟨some secondRecord, none, 2, [secondRecord, firstRecord]⟩ := by
    rw [world]
    exact ⟨2, by decide, rfl⟩
  have disturbs : ∃ next, Pool.Performs (fun thread world event after => serves twoAgents thread world event after ∧ True)
      pool next false ⟨.replace none secondRecord, true⟩ ∧ next.world = ⟨some secondRecord, none, 2, [secondRecord, firstRecord]⟩ :=
    Pool.performs_pending asked ⟨replaced, trivial⟩
  obtain ⟨next, performs, after⟩ := disturbs
  have respects := exclusive none none 0 pool reached false _ next performs
  rw [world, after] at respects
  have same := (respects firstRecord (by decide) (by decide)).1 none secondRecord rfl
  exact absurd same (by decide)

end TokenPak.Orchestration.Locks
