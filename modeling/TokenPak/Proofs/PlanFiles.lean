import TokenPak.Proofs.ManagedPlans

/-! The files of the plans that the optimizer works out. They pass the validation, and their guards
have the thresholds and the mode of the plan, as long as the interpreter prints and reads them. -/

namespace TokenPak.Proxy.Memory
open Library Services.MemoryOptimization
variable {N : Type} [Integers N] {runtime : Runtime N} {plan : OptimizationPlan}

section Payloads

theorem whole_integer (n : Int) : whole (integer n : Json N) = true := by
  rw [integer, whole, Integers.integer_ofInt, Option.isSome_some]

theorem whole_optional (value : Option Int) : whole (optional value : Json N) = true := by
  cases value with
  | none => rfl
  | some n => exact whole_integer n

theorem proper_integer (n : Int) : (integer n : Json N).Proper := trivial

theorem proper_optional (value : Option Int) : (optional value : Json N).Proper := by
  cases value with
  | none => trivial
  | some n => exact proper_integer n

theorem wholeItems_eq (items : List (Json N)) : wholeItems items = items.all whole := by
  induction items with
  | nil => rfl
  | cons item items ih => rw [wholeItems, ih, List.all_cons]

theorem whole_limits (limits : List CgroupLimit) :
    whole (.array (limits.map fun limit => .object limit.asDict) : Json N) = true := by
  rw [whole, wholeItems_eq, List.all_map, List.all_eq_true]
  intro limit _
  simp only [Function.comp_apply, whole, wholeEntries, CgroupLimit.asDict, whole_integer, Bool.and_self]

theorem distinct_limit (limit : CgroupLimit) : ((limit.asDict : Fields N).map Prod.fst).Nodup := by
  change ["limit_bytes", "path", "source"].Nodup
  decide

theorem distinct_facts (facts : HostFacts) : ((facts.asDict : Fields N).map Prod.fst).Nodup := by
  change ["cgroup_limits", "cgroup_memory_limit_bytes", "cpu_count", "effective_memory_bytes",
    "memory_limit_source", "physical_memory_bytes",
    "platform"].Nodup
  decide

theorem distinct_guardDict (plan : OptimizationPlan) : ((plan.guardDict : Fields N).map Prod.fst).Nodup := by
  change ["budget_mb", "ceiling_mb", "check_interval_secs", "cooldown_secs", "enabled", "mode",
    "sys_low_mb", "target_mb"].Nodup
  decide

theorem distinct_asDict (plan : OptimizationPlan) : ((plan.asDict : Fields N).map Prod.fst).Nodup := by
  change ["facts", "memory_guard", "mode", "policy_version", "profile", "schema_version", "scope",
    "support_reason", "supported"].Nodup
  decide

theorem proper_limits (limits : List CgroupLimit) :
    (Json.array (limits.map fun limit => .object limit.asDict) : Json N).Proper := by
  apply Json.properItems_iff.mpr
  intro item member
  obtain ⟨limit, _, rfl⟩ := List.mem_map.mp member
  exact ⟨distinct_limit limit, proper_integer _, trivial, trivial, trivial⟩

theorem whole_asDict (plan : OptimizationPlan) : whole (.object plan.asDict : Json N) = true := by
  have reason : whole (plan.supportReason.elim .null .string : Json N) = true := by
    cases plan.supportReason <;> rfl
  have limits : wholeItems (plan.facts.cgroupLimits.map fun limit =>
      (.object limit.asDict : Json N)) = true :=
    whole_limits _
  simp only [whole, wholeEntries, OptimizationPlan.asDict, HostFacts.asDict,
    OptimizationPlan.guardDict, whole_integer, whole_optional, reason,
    limits, Bool.and_self]

theorem proper_asDict (plan : OptimizationPlan) : (Json.object plan.asDict : Json N).Proper := by
  have reason : (plan.supportReason.elim .null .string : Json N).Proper := by
    cases plan.supportReason <;> trivial
  have facts : (Json.object plan.facts.asDict : Json N).Proper :=
    ⟨distinct_facts _, proper_limits _, proper_optional _, proper_integer _, proper_integer _,
    trivial, proper_integer _, trivial, trivial⟩
  have block : (Json.object plan.guardDict : Json N).Proper :=
    ⟨distinct_guardDict plan, proper_optional _, proper_optional _, proper_integer _,
      proper_integer _,
    trivial, trivial, proper_optional _, proper_optional _, trivial⟩
  exact ⟨distinct_asDict plan, facts, block, trivial, trivial, trivial, proper_integer _, trivial,
    reason, trivial, trivial⟩

end Payloads

section Files

abbrev wrapper (runtime : Runtime N) (plan : OptimizationPlan) : Fields N :=
  [("plan", .object plan.asDict),
    ("plan_sha256", .string (runtime.sha256 (canonicalBytes (.object plan.asDict : Json N))))]

def fileText (runtime : Runtime N) (plan : OptimizationPlan) : List Char :=
  canonicalText (.object (wrapper runtime plan)) ++ ['\n']

def Printable (runtime : Runtime N) (plan : OptimizationPlan) : Prop :=
  runtime.writes (.object plan.asDict) = true ∧
  runtime.writes (.object (wrapper runtime plan)) = true ∧ runtime.reads (fileText runtime plan) = true

theorem canonical_iff :
    Canonical runtime (.object plan.asDict) ↔ runtime.writes (.object plan.asDict) = true :=
  and_iff_left (whole_asDict plan)

theorem canonical_wrapper_iff : Canonical runtime (.object (wrapper runtime plan)) ↔
    runtime.writes (.object (wrapper runtime plan)) = true := by
  apply and_iff_left
  rw [whole, wholeEntries, whole_asDict]
  rfl

def fileBytes (runtime : Runtime N) (plan : OptimizationPlan) : ByteArray :=
  (String.ofList (fileText runtime plan)).toUTF8

theorem planFileBytes_ok {bytes : ByteArray} : planFileBytes runtime plan = .ok bytes ↔
    runtime.writes (.object plan.asDict) = true ∧
      runtime.writes (.object (wrapper runtime plan)) = true ∧ fileBytes runtime plan = bytes := by
  have joined : fileBytes runtime plan = canonicalBytes (.object (wrapper runtime plan)) ++ "\n".toUTF8 := by
    rw [fileBytes, fileText, String.ofList_append, String.toUTF8_eq_toByteArray, String.toByteArray_append]
    rfl
  simp only [planFileBytes, bind_ok, canonicalJsonBytes_ok, canonical_iff]
  constructor
  · rintro ⟨_, ⟨writes, rfl⟩, _, ⟨wraps, rfl⟩, same⟩
    cases same
    exact ⟨writes, canonical_wrapper_iff.mp wraps, joined⟩
  · rintro ⟨writes, wraps, rfl⟩
    rw [joined]
    exact ⟨_, ⟨writes, rfl⟩, _, ⟨canonical_wrapper_iff.mpr wraps, rfl⟩, rfl⟩

theorem decode_text (text : String) : String.fromUTF8? text.toUTF8 = some text := dif_pos text.isValidUTF8

theorem decode_file :
    String.fromUTF8? (fileBytes runtime plan) = some (String.ofList (fileText runtime plan)) :=
  decode_text _

def readPlan (N : Type) [Integers N] (plan : OptimizationPlan) : Fields N :=
  StableSort.sortBy Prod.fst (Json.sortValues plan.asDict)

def readConfig (N : Type) [Integers N] (plan : OptimizationPlan) : Fields N :=
  StableSort.sortBy Prod.fst (Json.sortValues plan.guardDict)

theorem readPlan_object :
    (Json.object (readPlan N plan) : Json N) = (Json.object plan.asDict).sortKeys := by
  rw [Json.sortKeys, readPlan]

theorem canonicalBytes_read :
    canonicalBytes (.object (readPlan N plan)) = canonicalBytes (.object plan.asDict : Json N) := by
  rw [readPlan_object, canonicalBytes, canonicalBytes, canonicalText, canonicalText,
    Json.sortKeys_sortKeys _ (proper_asDict plan)]

theorem lookup_readPlan (key : String) :
    (readPlan N plan).lookup key = ((plan.asDict : Fields N).lookup key).map Json.sortKeys :=
  Json.lookup_sortKeys (distinct_asDict plan) key

theorem lookup_readConfig (key : String) :
    (readConfig N plan).lookup key = ((plan.guardDict : Fields N).lookup key).map Json.sortKeys :=
  Json.lookup_sortKeys (distinct_guardDict plan) key

theorem distinct_wrapper (runtime : Runtime N) (plan : OptimizationPlan) :
    ((wrapper runtime plan).map Prod.fst).Nodup := by
  change ["plan", "plan_sha256"].Nodup
  decide

theorem proper_wrapper (runtime : Runtime N) (plan : OptimizationPlan) :
    (Json.object (wrapper runtime plan)).Proper :=
  ⟨distinct_wrapper runtime plan, proper_asDict plan, trivial, trivial⟩

theorem wraps_file (reads : runtime.reads (fileText runtime plan) = true) :
    Wraps runtime (fileBytes runtime plan) (readPlan N plan)
    (runtime.sha256 (canonicalBytes (.object plan.asDict : Json N))) := by
  have proper := Json.proper_sortKeys _ (proper_wrapper runtime plan)
  have lookups := fun key => Json.lookup_sortKeys (distinct_wrapper runtime plan) key
  refine ⟨_, decode_file, ?_, StableSort.sortBy Prod.fst (Json.sortValues (wrapper runtime plan)),
    ?_, ?_, ?_, ?_⟩
  · rwa [String.toList_ofList]
  · rw [Json.sortKeys] at proper
    rw [String.toList_ofList, fileText, canonicalText, Json.sortKeys]
    exact Json.loads_object proper rfl
  · intro key there
    rw [((Json.perm_sortKeys (wrapper runtime plan)).map Prod.fst).mem_iff, Json.keys_sortValues] at there
    exact there
  · rw [lookups, readPlan_object]
    rfl
  · rw [lookups]
    rfl

end Files

section Supported

/-- A plan that is supported: it is off, or its thresholds are in order. -/
structure Supported (plan : OptimizationPlan) : Prop where
  mode : plan.mode ∈ modes
  profile : plan.profile ∈ profiles
  secs : plan.checkIntervalSecs = 30 ∧ plan.cooldownSecs = 300
  thresholds : plan.mode = "off" ∧ plan.enabled = false ∨ plan.enabled = true ∧
    plan.mode ∈ ["observe", "auto"] ∧
    ∃ target ceiling sysLow, plan.targetMb = some target ∧ plan.ceilingMb = some ceiling ∧
      plan.sysLowMb = some sysLow ∧
      0 < target ∧ target < ceiling ∧ 0 ≤ sysLow

omit [Integers N] in
theorem buildPlan_supported {facts : HostFacts} {profile mode : String}
    (built : (buildPlan facts profile mode : Except (Raised N) _) = .ok plan)
    (supported : plan.supported = true) : Supported plan := by
  unfold buildPlan at built
  split at built
  · cases built
  next numerator denominator capMb found =>
    have known : profile ∈ profiles := mem_keys_of_lookup found
    split at built
    · cases built
    next inside =>
      have mode_known : mode ∈ modes := not_not.mp inside
      split at built
      next off =>
        cases built
        exact ⟨mode_known, known, ⟨rfl, rfl⟩, .inl ⟨off, by simp [OptimizationPlan.enabled, off]⟩⟩
      next on =>
        have watching : mode ∈ ["observe", "auto"] := by
          rcases List.mem_cons.mp mode_known with off | rest
          · exact absurd off on
          · exact rest
        simp only at built
        split at built
        · cases built
          cases supported
        · split at built
          · cases built
          next ordered =>
            cases built
            have order := not_not.mp ordered
            exact ⟨mode_known, known, ⟨rfl, rfl⟩, .inr ⟨by simp [OptimizationPlan.enabled, watching], watching, _, _, _, rfl, rfl, rfl, order.1, order.2.1,
              (show (0 : Int) ≤ 64 by decide).trans (le_max_left _ _)⟩⟩

variable (supported : Supported plan)
include supported

theorem valid_read : Valid runtime (readPlan N plan)
    (runtime.sha256 (canonicalBytes (.object plan.asDict : Json N))) where
  sealing := by rw [Sealed, canonicalBytes_read]
  titled := by
    refine ⟨?_, ?_, ?_⟩
    · have version : (readPlan N plan).lookup "schema_version" = some (integer schemaVersion) :=
        lookup_readPlan _
      rw [version]
      exact decide_eq_true (Integers.integer_ofInt schemaVersion)
    · have version : (readPlan N plan).lookup "policy_version" = some (.string policyVersion) :=
        lookup_readPlan _
      rw [version]
      exact decide_eq_true (rfl : policyVersion = policyVersion)
    · have scope : (readPlan N plan).lookup "scope" = some (.string "process") := lookup_readPlan _
      rw [scope]
      exact decide_eq_true (rfl : "process" = "process")
  mode := ⟨plan.mode, supported.mode, lookup_readPlan _⟩
  profile := ⟨plan.profile, supported.profile, lookup_readPlan _⟩

omit supported in
theorem block_read : (readPlan N plan).lookup "memory_guard" = some (.object (readConfig N plan)) := by
  rw [lookup_readPlan]
  change some (Json.sortKeys (.object plan.guardDict)) = _
  rw [Json.sortKeys]
  rfl

omit supported in
theorem enabled_read : (readConfig N plan).lookup "enabled" = some (.bool plan.enabled) := lookup_readConfig _

omit supported in
theorem integerAt_read {key : String} {n : Int}
    (written : (plan.guardDict : Fields N).lookup key = some (integer n)) :
    IntegerAt (readConfig N plan) key n := by
  refine ⟨Integers.ofInt n, ?_, Integers.integer_ofInt n⟩
  rw [lookup_readConfig, written]
  rfl

omit supported in
theorem watching_read {target ceiling sysLow : Int}
    (secs : plan.checkIntervalSecs = 30 ∧ plan.cooldownSecs = 300) (enabled : plan.enabled = true)
    (targets : plan.targetMb = some target) (ceilings : plan.ceilingMb = some ceiling)
    (lows : plan.sysLowMb = some sysLow) (some_target : 0 < target)
    (above : target < ceiling) (some_memory : 0 ≤ sysLow) : Watching (readPlan N plan)
    (readConfig N plan) target ceiling sysLow 30 300 where
  block := block_read
  enabled := by rw [enabled_read, enabled]
  thresholds := {
    targetAt := integerAt_read (congrArg (fun value => some (optional value : Json N)) targets)
    ceilingAt := integerAt_read (congrArg (fun value => some (optional value : Json N)) ceilings)
    sysLowAt := integerAt_read (congrArg (fun value => some (optional value : Json N)) lows)
    intervalAt := integerAt_read (congrArg (fun value => some (integer value : Json N)) secs.1)
    cooldownAt := integerAt_read (congrArg (fun value => some (integer value : Json N)) secs.2)
    ordered := ⟨some_target, above, some_memory, by decide, by decide⟩ }

/-- The guard has the thresholds and the mode of the plan; a plan that is off has no guard. -/
def Gives (plan : OptimizationPlan) (guard : Option (MemoryGuard N)) : Prop :=
  if plan.mode = "off" then guard = none
  else ∃ built, guard = some built ∧ some built.targetMb = plan.targetMb ∧
    some built.ceilingMb = plan.ceilingMb ∧ some built.sysLowMb = plan.sysLowMb ∧
    built.checkInterval = plan.checkIntervalSecs ∧ built.cooldownSecs = plan.cooldownSecs ∧
      built.actionMode = plan.mode

omit [Integers N] supported in
theorem rounded_small : rounded 30 = 30 ∧ rounded 300 = 300 ∧ (300 : Int).toNat < floatEnd := by
  refine ⟨?_, ?_, ?_⟩
  · rw [rounded, FloatRange.round_of_size_le (by decide)]
    norm_num
  · rw [rounded, FloatRange.round_of_size_le (by decide)]
    norm_num
  · apply round_inside.mp
    exact FloatRange.round_lt_of_small (by decide) (by decide)

theorem guard_of_read (runtime : Runtime N) (hash : String) : checkGuard (readPlan N plan) = .ok () ∧
    ∃ guard, guardFromPlan runtime (readPlan N plan) hash = .ok guard ∧ Gives plan guard := by
  have given : (readPlan N plan).lookup "mode" = some (.string plan.mode) := lookup_readPlan _
  rcases supported.thresholds with ⟨off, disabled⟩
    | ⟨enabled, watched, target, ceiling, sysLow, targets, ceilings, lows, some_target, above,
    some_memory⟩
  · have closed : (readConfig N plan).lookup "enabled" = some (.bool false) := by rw [enabled_read, disabled]
    refine ⟨checkGuard_ok.mpr ⟨_, block_read, .inl closed⟩, none,
      guardFromPlan_off block_read given closed hash, ?_⟩
    rw [Gives, if_pos off]
  · have watching : Watching (readPlan N plan) (readConfig N plan) target ceiling sysLow 30 300 :=
      watching_read supported.secs enabled targets ceilings lows some_target above some_memory
    have action : (readConfig N plan).lookup "mode" = some (.string plan.mode) := lookup_readConfig _
    have on : plan.mode ≠ "off" := by
      rintro off
      rw [off] at watched
      revert watched
      decide
    obtain ⟨short, long, inside⟩ := rounded_small
    refine ⟨checkGuard_ok.mpr ⟨_, block_read, .inr ⟨_, _, _, _, _, watching⟩⟩,
      some (guardOf target ceiling sysLow 30 300 plan.mode ⟨.string plan.mode, hash⟩), ?_, ?_⟩
    · rw [guardFromPlan_watching watching given hash, field_ok.mpr action, ok_bind,
        checkActionMode_ok.mpr ⟨rfl, watched⟩, ok_bind, if_pos inside]
    · rw [Gives, if_neg on]
      refine ⟨_, rfl, targets.symm, ceilings.symm, lows.symm, ?_, ?_, rfl⟩
      · rw [supported.secs.1]
        exact short
      · rw [supported.secs.2]
        exact long

/-- The file of the plan is written, accepted, and gives the plan's guard. -/
def RoundTrips (runtime : Runtime N) (plan : OptimizationPlan) :
    Prop := ∃ bytes found guard, planFileBytes runtime plan = .ok bytes ∧
  loadManagedPlan runtime bytes = .ok found ∧ createMemoryGuard runtime (some bytes) = .ok guard ∧
    Gives plan guard

theorem roundTrips_iff : RoundTrips runtime plan ↔ Printable runtime plan := by
  constructor
  · rintro ⟨bytes, found, guard, written, loaded, _⟩
    obtain ⟨writes, wraps, rfl⟩ := planFileBytes_ok.mp written
    have reads := (loadManagedPlan_caught.mp (loaded ▸ caught_ok found)).1 _ decode_file
    rw [String.toList_ofList] at reads
    exact ⟨writes, wraps, reads⟩
  · rintro ⟨writes, wraps, reads⟩
    have canonical : Canonical runtime (.object (readPlan N plan)) := by
      refine ⟨?_, ?_⟩
      · rw [readPlan_object, runtime.writes_sorted]
        exact writes
      · rw [readPlan_object, whole_sortKeys]
        exact whole_asDict plan
    obtain ⟨passes, guard, built, gives⟩ := guard_of_read supported runtime
      (runtime.sha256 (canonicalBytes (.object (readPlan N plan) : Json N)))
    have loaded := loadManagedPlan_ok.mpr ⟨_, wraps_file reads, canonical, valid_read supported, passes, rfl⟩
    exact ⟨_, _, guard, planFileBytes_ok.mpr ⟨writes, wraps, rfl⟩, loaded,
      (createMemoryGuard_loaded loaded).trans built, gives⟩

end Supported

/-- The validation covers exactly the files whose gaps do not come up, and every supported plan that
the interpreter prints. -/
theorem managed_plans_validated (runtime : Runtime N) :
    (∀ data, Paired data → (Accounted runtime data ↔ Sound runtime data)) ∧
    ∀ facts profile mode, ∀ plan : OptimizationPlan,
      (buildPlan facts profile mode : Except (Raised N) _) = .ok plan → plan.supported = true →
      (RoundTrips runtime plan ↔ Printable runtime plan) :=
  ⟨fun _ _ => accounted_of_sound, fun _ _ _ _ built supported =>
    roundTrips_iff (buildPlan_supported built supported)⟩

def plainRuntime : Runtime Int :=
  ⟨fun _ => true, fun _ => true, fun _ => rfl, fun bytes => toString bytes.size, fun _ => none⟩

def sampleFacts : HostFacts := ⟨"linux", 4, 16 * 1024 * mib, none, 16 * 1024 * mib, "physical", []⟩

def samplePlan : OptimizationPlan :=
  ⟨"balanced", "auto", sampleFacts, true, none, some 2048, some 1433, some 1843, some 1310, 30, 300⟩

def noWrapper : ByteArray := "\x7b\x7d".toUTF8

theorem noWrapper_paired : Paired noWrapper := by
  intro raw decoded
  cases (decode_text _).symm.trans decoded
  decide +kernel

theorem noWrapper_sound : Sound plainRuntime noWrapper := by
  have bare (plan claimed) : ¬ Wraps plainRuntime noWrapper plan claimed := by
    rintro ⟨raw, decoded, _, wrapper, loaded, _, held, _⟩
    cases (decode_text _).symm.trans decoded
    cases (show Json.loads ['\x7b', '\x7d'] = some (Json.object []) from rfl).symm.trans loaded
    cases held
  exact ⟨fun _ _ => rfl, fun _ _ wraps => absurd wraps (bare _ _),
    fun _ _ wraps => absurd wraps (bare _ _), fun _ _ _ _ _ _ _ _ wraps => absurd wraps (bare _ _)⟩

theorem samplePlan_validated :
    RoundTrips plainRuntime samplePlan ∧ Accounted plainRuntime noWrapper := by
  obtain ⟨files, plans⟩ := managed_plans_validated plainRuntime
  constructor
  · exact (plans sampleFacts "balanced" "auto" samplePlan rfl rfl).mpr ⟨rfl, rfl, rfl⟩
  · exact (files noWrapper noWrapper_paired).mpr noWrapper_sound

def offGuard : Fields Int :=
  [("ceiling_mb", .number 90), ("check_interval_secs", .number 30), ("cooldown_secs", .number 300),
    ("enabled", .bool true),
  ("mode", .string "off"), ("sys_low_mb", .number 0), ("target_mb", .number 70)]

def offPlan : Fields Int :=
  [("memory_guard", .object offGuard), ("mode", .string "off"),
    ("policy_version", .string policyVersion),
  ("profile", .string "balanced"), ("schema_version", .number 1), ("scope", .string "process")]

def offHash : String := plainRuntime.sha256 (canonicalBytes (.object offPlan))

def offWrapper : Fields Int := [("plan", .object offPlan), ("plan_sha256", .string offHash)]

def offText : List Char := (Json.object offWrapper).dumps ⟨false, true⟩ ++ ['\n']

/-- The mode of an enabled guard is not checked before it is used. -/
theorem offPlan_unaccounted : ¬ Accounted plainRuntime (String.ofList offText).toUTF8 := by
  intro accounted
  have block : (Json.object offGuard).Proper :=
    ⟨by decide, trivial, trivial, trivial, trivial, trivial, trivial, trivial, trivial⟩
  have payload : (Json.object offPlan).Proper :=
    ⟨by decide, block, trivial, trivial, trivial, trivial, trivial, trivial⟩
  have proper : (Json.object offWrapper).Proper := ⟨by decide, payload, trivial, trivial⟩
  have loaded : Json.loads offText = some (Json.object offWrapper) := Json.loads_object proper rfl
  have wraps : Wraps plainRuntime (String.ofList offText).toUTF8 offPlan offHash := by
    have read : Json.loads (String.ofList offText).toList = some (Json.object offWrapper) := by
      rw [String.toList_ofList, loaded]
    exact ⟨String.ofList offText, decode_text _, rfl, offWrapper, read, by decide, rfl, rfl⟩
  have valid : Valid plainRuntime offPlan offHash :=
    ⟨rfl, ⟨by decide, by decide, by decide⟩, ⟨"off", by decide, rfl⟩, ⟨"balanced", by decide, rfl⟩⟩
  have watching : Watching offPlan offGuard 70 90 0 30 300 :=
    ⟨rfl, rfl, ⟨70, rfl, rfl⟩, ⟨90, rfl, rfl⟩, ⟨0, rfl, rfl⟩, ⟨30, rfl, rfl⟩, ⟨300, rfl, rfl⟩, by decide⟩
  obtain ⟨text, member, same⟩ :=
    ((accounted_of_sound.mp accounted).guarded _ _ _ _ _ _ _ _ wraps valid watching).1
  cases same
  revert member
  decide

end TokenPak.Proxy.Memory
