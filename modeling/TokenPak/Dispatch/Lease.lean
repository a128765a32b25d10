import TokenPak.Dispatch.Runner

/-! The lease of a run, and the calls that contend for it. A lease that is older than
an hour counts as abandoned. It is not refreshed while its holder works, and no write
to the ledger asks who holds it. -/

namespace TokenPak.Dispatch
open Library

def defaultLeaseStaleSeconds : Int := 3600

structure Lease (Owner : Type) where
  owner : Owner
  acquiredAt : Int
  deriving DecidableEq

/-- The ledger with the lease of the run, at a time. -/
structure Site (Owner : Type) where
  ledger : Ledger
  lease : Option (Lease Owner)
  now : Int
  deriving DecidableEq

section owners
variable {Owner : Type} [DecidableEq Owner]

/-- `try_claim_run_lease`: an abandoned lease is deleted first. -/
def tryClaimRunLease (owner : Owner) (now : Int) (lease : Option (Lease Owner)) :
    Bool × Option (Lease Owner) :=
  match lease.filter fun lease => ¬ lease.acquiredAt < now - defaultLeaseStaleSeconds with
  | none => (true, some ⟨owner, now⟩)
  | some standing => (standing.owner = owner, some standing)

/-- `release_run_lease`. -/
def releaseRunLease (owner : Owner) (lease : Option (Lease Owner)) : Option (Lease Owner) :=
  lease.filter fun lease => lease.owner ≠ owner

def Site.Serves (owner : Owner) (site : Site Owner) : (op : Op) → Reply op → Site Owner → Prop
  | .tryClaimRunLease, claimed, after =>
      claimed = (Dispatch.tryClaimRunLease owner site.now site.lease).1 ∧
        after = { site with lease := (Dispatch.tryClaimRunLease owner site.now site.lease).2 }
  | .releaseRunLease, _, after => after = { site with lease := Dispatch.releaseRunLease owner site.lease }
  | op, reply, after =>
      site.ledger.Answers op reply after.ledger ∧ after.lease = site.lease ∧ after.now = site.now

/-- The operations on the lease; every other is one on the ledger. -/
def Op.Leasing : Op → Prop
  | .tryClaimRunLease | .releaseRunLease => True
  | _ => False

theorem Site.serves_ledger {owner : Owner} {site after : Site Owner} {op : Op} {reply : Reply op}
    (apart : ¬ op.Leasing) :
    site.Serves owner op reply after ↔
      site.ledger.Answers op reply after.ledger ∧ after.lease = site.lease ∧ after.now = site.now := by
  cases op <;> first | exact Iff.rfl | exact absurd trivial apart

/-- Between two operations time passes, and a call that raised gives its lease up. -/
def Site.Lapses (site after : Site Owner) : Prop :=
  after.ledger = site.ledger ∧ (after.lease = site.lease ∨ after.lease = none) ∧ site.now ≤ after.now

/-- The calls on one run interleave between their operations. -/
def contended (owner : Owner) (site : Site Owner) (event : Event Op Reply) (after : Site Owner) : Prop :=
  ∃ served, site.Serves owner event.op event.reply served ∧ served.Lapses after

/-- The caller's lease was not reclaimed. -/
def Site.HeldBy (owner : Owner) (site : Site Owner) : Prop := ∃ lease ∈ site.lease, lease.owner = owner

instance (owner : Owner) (site : Site Owner) : Decidable (site.HeldBy owner) :=
  inferInstanceAs (Decidable (∃ lease ∈ site.lease, lease.owner = owner))

/-- Each caller with the route and the request of its call. -/
abbrev Calls (Owner : Type) := Owner → Route × Request

abbrev Contention (Owner : Type) := Pool Owner (Site Owner) Op Reply (Except LineError FulfillmentResult)

def Calls.open (calls : Calls Owner) (runId : String) (site : Site Owner) : Contention Owner :=
  .init site fun owner => (calls owner).2.program runId (calls owner).1

/-! A site that computes its answers. -/

/-- A new identifier in case one is asked for, and the seconds that pass afterwards. -/
structure Turn where
  id : String
  seconds : Nat

/-- The answer to one operation, as the scene has it. -/
def Scene.serve (scene : Scene) (owner : Owner) (turn : Turn) (site : Site Owner) :
    (op : Op) → Option (Reply op × Site Owner)
  | .tryClaimRunLease =>
    let (claimed, lease) := Dispatch.tryClaimRunLease owner site.now site.lease
    some (claimed, ⟨site.ledger, lease, site.now + turn.seconds⟩)
  | .releaseRunLease =>
      some ((), ⟨site.ledger, Dispatch.releaseRunLease owner site.lease, site.now + turn.seconds⟩)
  | op => (scene.answer turn.id site.ledger op).map fun (reply, ledger) =>
      (reply, ⟨ledger, site.lease, site.now + turn.seconds⟩)

theorem Scene.serve_ledger {scene : Scene} {owner : Owner} {turn : Turn} {site : Site Owner} {op : Op}
    (apart : ¬ op.Leasing) : scene.serve owner turn site op = (scene.answer turn.id site.ledger op).map
      fun (reply, ledger) => (reply, ⟨ledger, site.lease, site.now + turn.seconds⟩) := by
  cases op <;> first | rfl | exact absurd trivial apart

theorem Scene.serve_sound (scene : Scene) (owner : Owner) (turn : Turn) (site : Site Owner)
    (op : Op) (reply : Reply op)
    (after : Site Owner) (served : scene.serve owner turn site op = some (reply, after)) :
    contended owner site ⟨op, reply⟩ after := by
  have elapsed : site.now ≤ site.now + turn.seconds := by omega
  by_cases leasing : op.Leasing
  · cases op with
    | tryClaimRunLease =>
      cases served
      exact ⟨_, ⟨rfl, rfl⟩, rfl, .inl rfl, elapsed⟩
    | releaseRunLease =>
      cases served
      exact ⟨_, rfl, rfl, .inl rfl, elapsed⟩
    | _ => exact leasing.elim
  · rw [Scene.serve_ledger leasing] at served
    obtain ⟨⟨given, ledger⟩, answered, same⟩ := Option.map_eq_some_iff.mp served
    obtain ⟨rfl, rfl⟩ := Prod.mk.inj same
    have answers := scene.answer_sound _ _ _ _ _ answered
    exact ⟨⟨ledger, site.lease, site.now⟩, (Site.serves_ledger leasing).mpr ⟨answers, rfl, rfl⟩,
      rfl, .inl rfl, elapsed⟩

end owners
end TokenPak.Dispatch
