import TokenPak.Library.Machine

/-! The managed configuration of the memory guard. A plan is applied over it and rolled back again:
the receipt with the former bytes and the configuration are replaced one after the other, and a call
may stop in between. One call runs at a time, under a lock; what others do to the configuration
knows of no lock. -/

namespace TokenPak.Services.MemoryOptimization

inductive Preimage (Bytes Hash : Type) where
  | absent
  | present (bytes : Bytes) (sha256 : Hash)

structure Receipt (Bytes Hash : Type) where
  appliedSha256 : Hash
  preimage : Preimage Bytes Hash

structure Files (Bytes Hash : Type) where
  config : Option Bytes
  preimage : Option (Receipt Bytes Hash)

inductive ReceiptState where
  | clean | interruptedApply | externalDrift
  deriving DecidableEq

inductive Status where
  | absent | managedWithoutPreimage | corruptConfig | corruptPreimage
  | receipt (state : ReceiptState)

section Receipts
variable {Bytes Hash : Type} [DecidableEq Hash] (sha256 : Bytes → Hash)

/-- `_preimage_receipt` -/
def preimageReceipt (before : Option Bytes) (applied : Bytes) : Receipt Bytes Hash where
  appliedSha256 := sha256 applied
  preimage :=
    match before with
    | none => .absent
    | some before => .present before (sha256 before)

/-- `_load_receipt`, of a receipt that has all its fields. -/
def loadReceipt (receipt : Receipt Bytes Hash) : Option (Receipt Bytes Hash) :=
  match receipt.preimage with
  | .present bytes hash => if sha256 bytes = hash then some receipt else none
  | .absent => some receipt

/-- `_classify_receipt_state` -/
def classifyReceiptState (config : Option Bytes) (receipt : Receipt Bytes Hash) : ReceiptState :=
  if config.map sha256 = some receipt.appliedSha256 then .clean
  else
    match receipt.preimage, config with
    | .absent, none => .interruptedApply
    | .present _ hash, some current => if sha256 current = hash then .interruptedApply else .externalDrift
    | _, _ => .externalDrift

/-- The state in `optimizer_status`. `validate` says whether `validate_plan_wrapper` accepts the
bytes, unless it fails in another way than by finding them corrupt. -/
def optimizerStatus (validate : Bytes → Option Bool) (files : Files Bytes Hash) : Option Status :=
  let config : Option Status :=
    match files.config with
    | none => some .absent
    | some current =>
        (validate current).map fun valid => if valid then .managedWithoutPreimage
          else .corruptConfig
  config.map fun status =>
    match files.preimage with
    | none => status
    | some receipt =>
      match loadReceipt sha256 receipt with
      | some receipt => .receipt (classifyReceiptState sha256 files.config receipt)
      | none => .corruptPreimage

end Receipts

inductive Outcome where
  | unchanged | applied | refused | failed
  | rolledBack (changed : Bool)

/-- Where a call is, with what it has read on its way. The reads of one look at the files count as one. -/
inductive Phase (Bytes Hash : Type) where
  | idle (last : Option Outcome)
  | compare (plan : Bytes)
  | inspect (plan : Bytes)
  | readBefore (plan : Bytes) (seen : Option (Receipt Bytes Hash))
  | writeReceipt (plan : Bytes) (before : Option Bytes) (seen : Option (Receipt Bytes Hash))
  | writeConfig (plan : Bytes) (before : Option Bytes) (seen : Option (Receipt Bytes Hash))
  | verifyApplied (plan : Bytes)
  | classify (force : Bool)
  | restore (force : Bool) (state : ReceiptState) (receipt : Receipt Bytes Hash)
  | verifyRestored (force : Bool) (state : ReceiptState) (receipt : Receipt Bytes Hash) (hash : Hash)
  | retire (force : Bool) (state : ReceiptState) (receipt : Receipt Bytes Hash)

/-- The files, the call that has the lock, and every apply that has written its receipt: the
configuration at that moment, and its plan. -/
structure Moment (Bytes Hash : Type) where
  files : Files Bytes Hash
  phase : Phase Bytes Hash
  noted : List (Option Bytes × Bytes)

/-- What happens: a call begins, the running one takes its next step or stops for good, or somebody
else changes the configuration. The plan is the one that `apply_plan` works out before it looks at
the files. -/
inductive Event (Bytes : Type) where
  | applyPlan (plan : Bytes)
  | rollbackPlan (force : Bool)
  | proceed
  | crash
  | overwrite (config : Option Bytes)

section Steps
variable {Bytes Hash : Type} [DecidableEq Bytes] [DecidableEq Hash] (sha256 : Bytes → Hash)
  (validate : Bytes → Option Bool)

def Moment.goto (moment : Moment Bytes Hash) (phase : Phase Bytes Hash) : Moment Bytes Hash :=
  { moment with phase }

def Moment.ends (moment : Moment Bytes Hash) (outcome : Outcome) : Moment Bytes Hash :=
  moment.goto (.idle (some outcome))

def Moment.setConfig (moment : Moment Bytes Hash) (config : Option Bytes) : Moment Bytes Hash :=
  { moment with files := { moment.files with config } }

def Moment.setPreimage (moment : Moment Bytes Hash) (preimage : Option (Receipt Bytes Hash)) :
    Moment Bytes Hash :=
  { moment with files := { moment.files with preimage } }

/-- The next step of `apply_plan` or `rollback_plan`. -/
def proceed (moment : Moment Bytes Hash) : Moment Bytes Hash :=
  match moment.phase with
  | .idle _ => moment
  | .compare plan =>
      if moment.files.config = some plan then moment.ends .unchanged
        else moment.goto (.inspect plan)
  | .inspect plan =>
    match optimizerStatus sha256 validate moment.files with
    | none => moment.ends .failed
    | some (.receipt .externalDrift) => moment.ends .refused
    | some .corruptConfig => moment.ends .refused
    | some .corruptPreimage => moment.ends .refused
    | some _ => moment.goto (.readBefore plan moment.files.preimage)
  | .readBefore plan seen => moment.goto (.writeReceipt plan moment.files.config seen)
  | .writeReceipt plan before seen =>
    ({ moment with noted := moment.noted ++ [(moment.files.config, plan)] }.setPreimage
      (some (preimageReceipt sha256 before plan))).goto (.writeConfig plan before seen)
  | .writeConfig plan _ _ => (moment.setConfig (some plan)).goto (.verifyApplied plan)
  | .verifyApplied plan => moment.ends (if moment.files.config = some plan then .applied else .failed)
  | .classify force =>
    match moment.files.preimage with
    | none => moment.ends .refused
    | some receipt =>
      match loadReceipt sha256 receipt with
      | none => moment.ends .failed
      | some receipt =>
        let state := classifyReceiptState sha256 moment.files.config receipt
        if state = .externalDrift ∧ ¬ force then moment.ends .refused
        else if state ≠ .interruptedApply ∨ force then moment.goto (.restore force state receipt)
        else moment.goto (.retire force state receipt)
  | .restore force state receipt =>
    match receipt.preimage with
    | .absent => (moment.setConfig none).goto (.retire force state receipt)
    | .present bytes hash => (moment.setConfig (some bytes)).goto (.verifyRestored force state receipt hash)
  | .verifyRestored force state receipt hash =>
    if moment.files.config.map sha256 = some hash then moment.goto (.retire force state receipt)
      else moment.ends .failed
  | .retire _ state _ => (moment.setPreimage none).ends (.rolledBack (state ≠ .interruptedApply))

/-- A call waits for the lock while another one runs. -/
def act (moment : Moment Bytes Hash) : Event Bytes → Moment Bytes Hash
  | .applyPlan plan =>
    match moment.phase with
    | .idle _ => moment.goto (.compare plan)
    | _ => moment
  | .rollbackPlan force =>
    match moment.phase with
    | .idle _ => moment.goto (.classify force)
    | _ => moment
  | .proceed => proceed sha256 validate moment
  | .crash => moment.goto (.idle none)
  | .overwrite config => moment.setConfig config

def begin (config : Option Bytes) : Moment Bytes Hash := ⟨⟨config, none⟩, .idle none, []⟩

end Steps
end TokenPak.Services.MemoryOptimization
