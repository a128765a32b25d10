import Mathlib.Data.List.Infix
import TokenPak.SpendGuard.RollingCaps

/-! The durable stores of the guard: held requests and context approvals. Each
definition is one SQLite transaction. Held rows stay in insertion order under
their primary key; the store inserts and updates them and never deletes one. -/

namespace TokenPak.SpendGuard
open Library

/-- The session, model, deployment and principal an approval is bound to. The
source keeps a digest of these four texts. -/
structure ScopeKey where
  session : String
  model : String
  fleet : String
  agent : String
  deriving DecidableEq

def normalizedHeader (name : String) (headers : Headers) : String :=
  ((headers.reverse.find? fun header => Text.lower header.1 = name).map fun header =>
    Text.strip header.2).getD ""

def scopeKey (session model : String) (headers : Headers) : ScopeKey :=
  ⟨session, model, normalizedHeader "x-tokenpak-fleet" headers, normalizedHeader "x-tokenpak-agent" headers⟩

namespace Pending

def sensitiveHeaders : List String :=
  ["authorization", "proxy-authorization", "x-api-key", "api-key", "openai-api-key", "anthropic-api-key",
    "x-goog-api-key", "cookie", "set-cookie"]

def redactHeaders (headers : Headers) : Headers :=
  headers.filter fun header => Text.lower header.1 ∉ sensitiveHeaders

/-- `pending_requests`: rows in insertion order, one per identifier. -/
structure Table where
  rows : List PendingRequest
  unique : (rows.map PendingRequest.pendingId).Nodup
  deriving DecidableEq

def Table.empty : Table := ⟨[], by simp⟩

def Table.update (f : PendingRequest → PendingRequest) (same : ∀ row, (f row).pendingId = row.pendingId)
    (table : Table) : Table :=
  ⟨table.rows.map f, by simpa only [List.map_map, Function.comp_def, same] using table.unique⟩

def Table.insert (row : PendingRequest) (table : Table)
    (fresh : ∀ other ∈ table.rows, other.pendingId ≠ row.pendingId) :
    Table :=
  ⟨table.rows ++ [row], by
    rw [List.map_append, List.nodup_append]
    refine ⟨table.unique, by simp, ?_⟩
    rintro id member other singleton rfl
    obtain ⟨row', inside, same⟩ := List.mem_map.mp member
    exact fresh row' inside (same.trans (List.mem_singleton.mp singleton))⟩

/-- The values of a new row apart from its identifier and times. -/
structure Draft where
  sessionId : String
  body : Bytes
  headers : Headers
  targetUrl : String
  provider : String
  model : String
  requestHash : String
  projectedTokens : Int
  projectedCostUsd : ℚ
  ttlSeconds : Int
  projectedInputTokens : Option Int
  deriving DecidableEq

def Draft.row (draft : Draft) (pendingId : String) (now : Time) : PendingRequest :=
  { pendingId, sessionId := draft.sessionId, createdAt := now, expiresAt := now + seconds draft.ttlSeconds
    requestHash := draft.requestHash, provider := draft.provider, model := draft.model
    projectedTokens := draft.projectedTokens, projectedCostUsd := draft.projectedCostUsd
    rawRequestBlob := draft.body, rawRequestHeaders := redactHeaders draft.headers, targetUrl :=
      draft.targetUrl
    status := .pending, projectedInputTokens := draft.projectedInputTokens, blockResponse := none }

/-- Insert under a random identifier. An identifier already present violates the
primary key. -/
def store (draft : Draft) (pendingId : String) (now : Time) (holds : Table) :
    Except Fault PendingRequest × Table :=
  if draft.sessionId =
    "" then (.error ⟨"ValueError", "pending requests require a non-empty session id"⟩, holds)
  else if fresh : ∀ other ∈ holds.rows, other.pendingId ≠ (draft.row pendingId now).pendingId then
    (.ok (draft.row pendingId now), holds.insert (draft.row pendingId now) fresh)
  else (.error ⟨"IntegrityError", "UNIQUE constraint failed: pending_requests.pending_id"⟩, holds)

def newest (rows : List PendingRequest) : Option PendingRequest :=
  rows.foldl (fun best row => match best with
    | none => some row
    | some current => if current.createdAt ≤ row.createdAt then some row else best) none

def Open (hold : PendingRequest) : Prop := hold.status = .pending ∨ hold.status = .expired

instance (hold : PendingRequest) : Decidable (Open hold) := inferInstanceAs (Decidable (_ ∨ _))

def latestHold (sessionId model : String) (headers : Headers) (holds : Table) : Option PendingRequest :=
  if sessionId = "" then none
  else (newest (holds.rows.filter fun row =>
      row.sessionId = sessionId ∧
        scopeKey sessionId row.model row.rawRequestHeaders = scopeKey sessionId model headers)).filter (Open ·)

def recentBlockByHash (requestHash : String) (within : Time) (sessionId : String) (now : Time)
    (holds : Table) : Option PendingRequest :=
  if sessionId = "" then none
  else newest (holds.rows.filter fun row =>
    row.requestHash = requestHash ∧ row.sessionId = sessionId ∧ row.createdAt > now - within)

/-- `UPDATE pending_requests SET status = .. WHERE ..` -/
def setStatus (status : HoldStatus) (selects : PendingRequest → Prop) [DecidablePred selects]
    (holds : Table) : Table :=
  holds.update (fun row => if selects row then { row with status } else row) (fun row => by split <;> rfl)

def Identified (pendingId : String) (status : HoldStatus) (row : PendingRequest) : Prop :=
  row.pendingId = pendingId ∧ row.status = status

instance (pendingId : String) (status : HoldStatus) : DecidablePred (Identified pendingId status) :=
  fun _ => inferInstanceAs (Decidable (_ ∧ _))

/-- Succeeds only on the transition out of `pending`. -/
def consume (pendingId : String) (holds : Table) : Option PendingRequest × Table :=
  ((holds.rows.find? fun row => Identified pendingId .pending row).map fun row =>
    { row with status := .consumed },
    setStatus .consumed (Identified pendingId .pending) holds)

def OpenAs (pendingId : String) (row : PendingRequest) : Prop := row.pendingId = pendingId ∧ Open row

instance (pendingId : String) : DecidablePred (OpenAs pendingId) :=
  fun _ => inferInstanceAs (Decidable (_ ∧ _))

def discard (pendingId : String) (holds : Table) : Bool × Table :=
  (holds.rows.any fun row => OpenAs pendingId row, setStatus .discarded (OpenAs pendingId) holds)

def Superseded (sessionId keepId : String) (now : Time) (row : PendingRequest) : Prop :=
  row.sessionId = sessionId ∧ Open row ∧ row.expiresAt ≤ now ∧ row.pendingId ≠ keepId

instance (sessionId keepId : String) (now : Time) : DecidablePred (Superseded sessionId keepId now) :=
  fun _ => inferInstanceAs (Decidable (_ ∧ _))

def discardExpired (sessionId keepId : String) (now : Time) (holds : Table) : Table :=
  setStatus .discarded (Superseded sessionId keepId now) holds

def Stale (now : Time) (row : PendingRequest) : Prop := row.status = .pending ∧ row.expiresAt < now

instance (now : Time) : DecidablePred (Stale now) := fun _ => inferInstanceAs (Decidable (_ ∧ _))

def expireOld (now : Time) (holds : Table) : Nat × Table :=
  ((holds.rows.filter (Stale now ·)).length, setStatus .expired (Stale now) holds)

def rememberBlockResponse (pendingId : String) (response : Response) (holds : Table) : Table :=
  holds.update (fun row =>
    if row.pendingId = pendingId then { row with blockResponse := some response } else row)
    (fun row => by split <;> rfl)

end Pending

namespace Approvals

structure Grant where
  expiresAt : Option Time
  maxTokens : Option Int
  remainingCost : Option ℚ
  deriving DecidableEq

/-- `context_approvals`, keyed by scope. -/
abbrev Grants := ScopeKey → Option Grant

/-- `expired_approval_uses`. -/
abbrev Replies := List (ScopeKey × String)

/-- Named, so that every membership test uses this proof. -/
instance lawfulReply : LawfulBEq (ScopeKey × String) := inferInstance

def grantOf (tip : TIPDirective) (risk : RiskEstimate) (now : Time) : Grant :=
  { expiresAt := if tip.allowScope = some .fifteenMinutes then some (now + seconds 900) else none
    maxTokens := tip.maxTokens
    remainingCost := tip.maxCostUsd.map fun limit => max 0 (limit - risk.projectedCostUsd) }

/-- Only scopes that outlive the request are stored. -/
def create (key : ScopeKey) (tip : TIPDirective) (risk : RiskEstimate) (now : Time)
    (grants : Grants) : Grants :=
  if tip.persistent then Function.update grants key (some (grantOf tip risk now)) else grants

def revoke (key : ScopeKey) (grants : Grants) : Grants := Function.update grants key none

def Grant.Covers (grant : Grant) (risk : RiskEstimate) (now : Time) : Prop :=
  (∀ expires ∈ grant.expiresAt, now < expires) ∧ (∀ limit ∈ grant.maxTokens, risk.projectedTokens ≤ limit) ∧
    ∀ cost ∈ grant.remainingCost, risk.projectedCostUsd ≤ cost

instance (grant : Grant) (risk : RiskEstimate) (now : Time) : Decidable (grant.Covers risk now) :=
  inferInstanceAs (Decidable (_ ∧ _ ∧ _))

def Grant.charge (grant : Grant) (risk : RiskEstimate) : Grant :=
  { grant with remainingCost := grant.remainingCost.map fun cost => max 0 (cost - risk.projectedCostUsd) }

/-- Spend from the grant, or delete a grant that no longer covers the request. -/
def redeem (key : ScopeKey) (risk : RiskEstimate) (now : Time) (grants : Grants) : Bool × Grants :=
  match grants key with
  | none => (false, grants)
  | some grant =>
    if grant.Covers risk now then (true, Function.update grants key (some (grant.charge risk)))
    else (false, revoke key grants)

def rememberReply (key : ScopeKey) (replyHash : String) (replies : Replies) : Replies :=
  if (key, replyHash) ∈ replies then replies else replies ++ [(key, replyHash)]

def ExpiredAs (pendingId : String) (now : Time) (row : PendingRequest) : Prop :=
  row.pendingId = pendingId ∧ Pending.Open row ∧ row.expiresAt ≤ now

instance (pendingId : String) (now : Time) : DecidablePred (ExpiredAs pendingId now) :=
  fun _ => inferInstanceAs (Decidable (_ ∧ _))

def consumeExpired (key : ScopeKey) (pendingId replyHash : String) (now : Time) (holds : Pending.Table)
    (replies : Replies) : Bool × Pending.Table × Replies :=
  if (key, replyHash) ∈ replies then (false, holds, replies)
  else if (holds.rows.filter (ExpiredAs pendingId now ·)).length = 1 then
    (true, Pending.setStatus .consumed (ExpiredAs pendingId now) holds, replies ++ [(key, replyHash)])
  else (false, Pending.setStatus .consumed (ExpiredAs pendingId now) holds, replies)

end Approvals
end TokenPak.SpendGuard
