import TokenPak.Library.FloatRange
import TokenPak.Library.JsonOrder

/-! The plans of the memory guard. A plan is worked out from facts about the host and kept as a JSON
text together with its hash; what is read again is checked field by field. The interpreter limits
the digits of integers and the nesting of values. Files have no lone surrogate escapes: the source
reads one as a code point of its own, and prints it again for the hash. -/

namespace TokenPak.Services.MemoryOptimization
open Library

class Integers (N : Type) extends Numerals N where
  ofInt : Int → N
  integer_ofInt : ∀ n, integer? (ofInt n) = some n

instance : Integers Int where
  ofInt n := n
  integer_ofInt _ := rfl

/-- The reasons of a `CorruptManagedConfigError` by what its texts say. -/
inductive Corrupt (N : Type)
  | notJson
  | unexpectedFields
  | wrapperTypes
  | hashMismatch
  | schemaVersion (found : Option (Json N))
  | policyVersion (found : Option (Json N))
  | scope
  | modeProfile
  | guardMissing
  | enabledFlag
  | notInteger (field : String)
  | thresholds

/-- What is raised. A limit of the interpreter shows as a `ValueError` or a `RecursionError`. -/
inductive Raised (N : Type)
  | corrupt (reason : Corrupt N)
  | unsupportedHost (text : String)
  | unknownProfile (profile : String)
  | unknownMode (mode : String)
  | typeError (text : String)
  | valueError (text : String)
  | keyError (key : String)
  | overflowError
  | limit

/-- What the code calls of its runtime: whether a text and a value stay within the limits of the
reader and the printer, the hash, and what `float` makes of a value that is no integer, unless that
is refused: a finite number or none. -/
structure Runtime (N : Type) where
  reads : List Char → Bool
  writes : Json N → Bool
  writes_sorted : ∀ value, writes value.sortKeys = writes value
  sha256 : ByteArray → String
  float : Json N → Option (Option ℚ)

abbrev Fields (N : Type) := List (String × Json N)

def mib : Int := 1024 * 1024

def schemaVersion : Int := 1
def policyVersion : String := "memory-optimizer-1"

/-- `_PROFILE_POLICY` -/
def profilePolicy : List (String × Int × Int × Int) :=
  [("conservative", 20, 100, 1024), ("balanced", 30, 100, 2048), ("throughput", 40, 100, 4096)]

def modes : List String := ["off", "observe", "auto"]
def profiles : List String := profilePolicy.map Prod.fst

structure CgroupLimit where
  source : String
  path : String
  limitBytes : Int

structure HostFacts where
  platform : String
  cpuCount : Int
  physicalMemoryBytes : Int
  cgroupMemoryLimitBytes : Option Int
  effectiveMemoryBytes : Int
  memoryLimitSource : String
  cgroupLimits : List CgroupLimit

structure OptimizationPlan where
  profile : String
  mode : String
  facts : HostFacts
  supported : Bool
  supportReason : Option String
  budgetMb : Option Int
  targetMb : Option Int
  ceilingMb : Option Int
  sysLowMb : Option Int
  checkIntervalSecs : Int := 30
  cooldownSecs : Int := 300

section Payloads
variable {N : Type} [Integers N]

def integer (n : Int) : Json N := .number (Integers.ofInt n)

def optional (value : Option Int) : Json N := value.elim .null integer

def CgroupLimit.asDict (limit : CgroupLimit) : Fields N :=
  [("limit_bytes", integer limit.limitBytes), ("path", .string limit.path), ("source", .string limit.source)]

def HostFacts.asDict (facts : HostFacts) : Fields N :=
  [("cgroup_limits", .array (facts.cgroupLimits.map fun limit => .object limit.asDict)),
    ("cgroup_memory_limit_bytes", optional facts.cgroupMemoryLimitBytes),
      ("cpu_count", integer facts.cpuCount),
    ("effective_memory_bytes", integer facts.effectiveMemoryBytes),
      ("memory_limit_source", .string facts.memoryLimitSource),
    ("physical_memory_bytes", integer facts.physicalMemoryBytes), ("platform", .string facts.platform)]

def OptimizationPlan.enabled (plan : OptimizationPlan) : Bool :=
  plan.supported && decide (plan.mode ∈ ["observe", "auto"])

def OptimizationPlan.guardDict (plan : OptimizationPlan) : Fields N :=
  [("budget_mb", optional plan.budgetMb), ("ceiling_mb", optional plan.ceilingMb),
    ("check_interval_secs", integer plan.checkIntervalSecs),
    ("cooldown_secs", integer plan.cooldownSecs), ("enabled", .bool plan.enabled),
      ("mode", .string plan.mode),
    ("sys_low_mb", optional plan.sysLowMb), ("target_mb", optional plan.targetMb)]

def OptimizationPlan.asDict (plan : OptimizationPlan) : Fields N :=
  [("facts", .object plan.facts.asDict), ("memory_guard", .object plan.guardDict),
    ("mode", .string plan.mode),
    ("policy_version", .string policyVersion), ("profile", .string plan.profile),
      ("schema_version", integer schemaVersion),
    ("scope", .string "process"), ("support_reason", plan.supportReason.elim .null .string), ("supported", .bool plan.supported)]

end Payloads

section Planning
variable {N : Type}

def floorMib (valueBytes : Int) : Int := valueBytes / mib

def buildPlan (facts : HostFacts) (profile mode : String) : Except (Raised N) OptimizationPlan :=
  match profilePolicy.lookup profile with
  | none => .error (.unknownProfile profile)
  | some (numerator, denominator, capMb) =>
    if mode ∉ modes then .error (.unknownMode mode)
    else if mode = "off" then .ok ⟨profile, mode, facts, true, none, none, none, none, none, 30, 300⟩
    else
      let budgetBytes := min (facts.effectiveMemoryBytes * numerator / denominator) (capMb * mib)
      let budgetMb := floorMib budgetBytes
      if budgetMb < 128 then
        .ok ⟨profile, mode, facts, false, some "derived memory budget is below 128 MiB",
          some budgetMb, none, none, none, 30, 300⟩
      else
        let targetMb := budgetMb * 70 / 100
        let ceilingMb := budgetMb * 90 / 100
        let sysLowMb := max 64 (floorMib (facts.effectiveMemoryBytes * 8 / 100))
        if ¬ (0 < targetMb ∧ targetMb < ceilingMb ∧ ceilingMb ≤ budgetMb) then
          .error (.unsupportedHost "derived MemoryGuard thresholds violate ordering invariants")
        else .ok ⟨profile, mode, facts, true, none, some budgetMb, some targetMb, some ceilingMb,
          some sysLowMb, 30, 300⟩

end Planning

section Texts
variable {N : Type} [Numerals N]

mutual
/-- `_reject_noncanonical_types` -/
def rejectNoncanonicalTypes (path : String) : Json N → Except (Raised N) Unit
  | .number n =>
      if (Numerals.integer? n).isSome then .ok ()
        else .error (.typeError ("non-canonical value at " ++ path ++ ": float"))
  | .array items => rejectItems path 0 items
  | .object entries => rejectEntries path entries
  | _ => .ok ()

def rejectItems (path : String) (index : Nat) : List (Json N) → Except (Raised N) Unit
  | [] => .ok ()
  | item :: items => do
    rejectNoncanonicalTypes (path ++ "[" ++ toString index ++ "]") item
    rejectItems path (index + 1) items

def rejectEntries (path : String) : Fields N → Except (Raised N) Unit
  | [] => .ok ()
  | (key, item) :: entries => do
    rejectNoncanonicalTypes (path ++ "." ++ key) item
    rejectEntries path entries
end

variable (runtime : Runtime N)

/-- The text of a value with its keys in order, without blanks and with escapes. -/
def canonicalText (value : Json N) : List Char := value.sortKeys.dumps ⟨false, true⟩

def canonicalJsonBytes (value : Json N) : Except (Raised N) ByteArray :=
  if ! runtime.writes value then .error .limit
  else do
    rejectNoncanonicalTypes "$" value
    return (String.ofList (canonicalText value)).toUTF8

end Texts

section Files
variable {N : Type} [Integers N]

def planFileBytes (runtime : Runtime N) (plan : OptimizationPlan) : Except (Raised N) ByteArray := do
  let payload ← canonicalJsonBytes runtime (.object plan.asDict)
  let wrapper : Json N :=
    .object [("plan", .object plan.asDict), ("plan_sha256", .string (runtime.sha256 payload))]
  let bytes ← canonicalJsonBytes runtime wrapper
  return bytes ++ "\n".toUTF8

end Files

section Checks
variable {N : Type} [Numerals N] (runtime : Runtime N)

def isInteger (value : Option (Json N)) (n : Int) : Bool :=
  match value with
  | some (.number m) => Numerals.integer? m = some n
  | some (.bool b) => (if b then 1 else 0) = n
  | _ => false

def isText (value : Option (Json N)) (text : String) : Bool :=
  match value with
  | some (.string found) => found = text
  | _ => false

/-- `value in names`: lists and objects have no hash. -/
def inSet (value : Option (Json N)) (names : List String) : Except (Raised N) Bool :=
  match value with
  | some (.string text) => .ok (text ∈ names)
  | some (.array _) => .error (.typeError "unhashable type: 'list'")
  | some (.object _) => .error (.typeError "unhashable type: 'dict'")
  | _ => .ok false

/-- `_managed_int` -/
def managedInt (value : Option (Json N)) (field : String) : Except (Raised N) Int :=
  match value with
  | some (.number n) =>
    match Numerals.integer? n with
    | some value => .ok value
    | none => .error (.corrupt (.notInteger field))
  | _ => .error (.corrupt (.notInteger field))

/-- The text of the file has no lone surrogate escape. -/
def Paired (data : ByteArray) : Prop :=
  ∀ raw, String.fromUTF8? data = some raw → Json.paired raw.toList = true

/-- The payload of a managed file and the hash that is claimed for it. -/
def readWrapper (data : ByteArray) : Except (Raised N) (Fields N × String) :=
  match String.fromUTF8? data with
  | none => .error (.corrupt .notJson)
  | some raw =>
    if ! runtime.reads raw.toList then .error .limit
    else
      match Json.loads raw.toList with
      | none => .error (.corrupt .notJson)
      | some (.object wrapper) =>
        if (wrapper.map Prod.fst).all (fun key => key ∈ ["plan", "plan_sha256"]) &&
          decide ("plan" ∈ wrapper.map Prod.fst) &&
            decide ("plan_sha256" ∈ wrapper.map Prod.fst) then
          match wrapper.lookup "plan", wrapper.lookup "plan_sha256" with
          | some (.object plan), some (.string claimedHash) => .ok (plan, claimedHash)
          | _, _ => .error (.corrupt .wrapperTypes)
        else .error (.corrupt .unexpectedFields)
      | some _ => .error (.corrupt .unexpectedFields)

def checkHash (plan : Fields N) (claimedHash : String) : Except (Raised N) Unit := do
  let payload ← canonicalJsonBytes runtime (.object plan)
  if claimedHash ≠ runtime.sha256 payload then throw (.corrupt .hashMismatch)

def checkVersions (plan : Fields N) : Except (Raised N) Unit :=
  if ! isInteger (plan.lookup "schema_version") schemaVersion then .error (.corrupt (.schemaVersion (plan.lookup "schema_version")))
  else if ! isText (plan.lookup "policy_version") policyVersion then .error (.corrupt (.policyVersion (plan.lookup "policy_version")))
  else if ! isText (plan.lookup "scope") "process" then .error (.corrupt .scope)
  else .ok ()

def checkMode (plan : Fields N) : Except (Raised N) Unit := do
  let known ← inSet (plan.lookup "mode") modes
  if ! known then throw (.corrupt .modeProfile)
  let known ← inSet (plan.lookup "profile") profiles
  if ! known then throw (.corrupt .modeProfile)

def checkThresholds (guardConfig : Fields N) : Except (Raised N) Unit := do
  let target ← managedInt (guardConfig.lookup "target_mb") "target_mb"
  let ceiling ← managedInt (guardConfig.lookup "ceiling_mb") "ceiling_mb"
  let sysLow ← managedInt (guardConfig.lookup "sys_low_mb") "sys_low_mb"
  let interval ← managedInt (guardConfig.lookup "check_interval_secs") "check_interval_secs"
  let cooldown ← managedInt (guardConfig.lookup "cooldown_secs") "cooldown_secs"
  if ¬ (0 < target ∧ target < ceiling ∧ sysLow ≥ 0 ∧ interval > 0 ∧
    cooldown ≥ interval) then throw (.corrupt .thresholds)

def checkGuard (plan : Fields N) : Except (Raised N) Unit :=
  match plan.lookup "memory_guard" with
  | some (.object guardConfig) =>
    match guardConfig.lookup "enabled" with
    | some (.bool true) => checkThresholds guardConfig
    | some (.bool false) => .ok ()
    | _ => .error (.corrupt .enabledFlag)
  | _ => .error (.corrupt .guardMissing)

def validatePlanWrapper (data : ByteArray) : Except (Raised N) (Fields N) := do
  let wrapper ← readWrapper runtime data
  checkHash runtime wrapper.1 wrapper.2
  checkVersions wrapper.1
  checkMode wrapper.1
  checkGuard wrapper.1
  return wrapper.1

/-- `load_managed_plan`, of a file that can be read. -/
def loadManagedPlan (data : ByteArray) : Except (Raised N) (Fields N × String) := do
  let plan ← validatePlanWrapper runtime data
  let payload ← canonicalJsonBytes runtime (.object plan)
  return (plan, runtime.sha256 payload)

end Checks

end TokenPak.Services.MemoryOptimization
