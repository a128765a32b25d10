import TokenPak.Proxy.MemoryGuard

/-! What the validation of a managed plan covers. It passes over the mode of the guard, the size of
its cooldown and what the interpreter itself refuses; a plan that the optimizer worked out has none
of these and gives its guard. -/

namespace TokenPak.Proxy.Memory
open Library Services.MemoryOptimization
variable {N : Type} [Integers N] {runtime : Runtime N} {plan config : Fields N} {claimed : String}
  {data : ByteArray}

section Outcomes
variable {A B : Type}

/-- Nothing else is raised than the error of a corrupt file. -/
def Caught (outcome : Except (Raised N) A) : Prop := ∀ raised, outcome = .error raised → ∃ reason,
    raised = .corrupt reason

omit [Integers N]

theorem caught_ok (value : A) : Caught (.ok value : Except (Raised N) A) := by
  intro raised same
  cases same

theorem caught_corrupt (reason : Corrupt N) : Caught (.error (.corrupt reason) : Except (Raised N) A) := by
  intro raised same
  cases same
  exact ⟨reason, rfl⟩

theorem caught_bind {first : Except (Raised N) A} {next : A → Except (Raised N) B} :
    Caught (first >>= next) ↔ Caught first ∧ ∀ value, first = .ok value → Caught (next value) := by
  cases first with
  | error raised =>
    constructor
    · intro caught
      refine ⟨?_, fun value same => by cases same⟩
      intro other same
      exact caught other (by cases same; rfl)
    · rintro ⟨caught, _⟩ other same
      exact caught other (by cases same; rfl)
  | ok value =>
    constructor
    · intro caught
      refine ⟨caught_ok value, ?_⟩
      intro other same
      cases same
      exact caught
    · rintro ⟨_, caught⟩
      exact caught value rfl

theorem ok_bind (value : A) (next : A → Except (Raised N) B) : Except.ok value >>= next = next value := rfl

theorem error_bind (raised : Raised N) (next : A → Except (Raised N) B) :
    Except.error raised >>= next = .error raised :=
  rfl

theorem bind_ok {first : Except (Raised N) A} {next : A → Except (Raised N) B} {result : B} :
    first >>= next = .ok result ↔ ∃ value, first = .ok value ∧ next value = .ok result := by
  cases first with
  | error raised =>
    constructor
    · intro same
      cases same
    · rintro ⟨_, same, _⟩
      cases same
  | ok value =>
    constructor
    · exact fun same => ⟨value, rfl, same⟩
    · rintro ⟨_, same, result⟩
      cases same
      exact result

end Outcomes

section Values

mutual
def whole : Json N → Bool
  | .number n => (Numerals.integer? n).isSome
  | .array items => wholeItems items
  | .object entries => wholeEntries entries
  | _ => true

def wholeItems : List (Json N) → Bool
  | [] => true
  | item :: items => whole item && wholeItems items

def wholeEntries : Fields N → Bool
  | [] => true
  | (_, value) :: entries => whole value && wholeEntries entries
end

theorem wholeEntries_eq (entries : Fields N) :
    wholeEntries entries = entries.all fun entry => whole entry.2 := by
  induction entries with
  | nil => rfl
  | cons entry entries ih => rw [wholeEntries, ih, List.all_cons]

mutual
theorem whole_sortKeys : (value : Json N) → whole value.sortKeys = whole value
  | .null | .bool _ | .number _ | .string _ => by simp only [Json.sortKeys]
  | .array items => by rw [Json.sortKeys, whole, whole, whole_sortItems items]
  | .object entries => by
    rw [Json.sortKeys, whole, whole, wholeEntries_eq, (Json.perm_sortKeys entries).all_eq,
      ← wholeEntries_eq, whole_sortValues entries]

theorem whole_sortItems : (items : List (Json N)) → wholeItems (Json.sortItems items) = wholeItems items
  | [] => rfl
  | item :: items =>
      by rw [Json.sortItems, wholeItems, wholeItems, whole_sortKeys item, whole_sortItems items]

theorem whole_sortValues :
    (entries : Fields N) → wholeEntries (Json.sortValues entries) = wholeEntries entries
  | [] => rfl
  | (_, value) :: entries => by rw [Json.sortValues, wholeEntries, wholeEntries, whole_sortKeys value, whole_sortValues entries]
end

/-- The types are refused with another error than that of a corrupt file. -/
def Refusal (outcome : Except (Raised N) Unit) : Prop := ∃ text, outcome = .error (.typeError text)

omit [Integers N] in
theorem Refusal.of_first {first second : Except (Raised N) Unit} (refused : Refusal first) :
    Refusal (first >>= fun _ => second) := by
  obtain ⟨text, same⟩ := refused
  exact ⟨text, by rw [same]; rfl⟩

mutual
theorem reject_spec : (value : Json N) → (path : String) →
    if whole value then rejectNoncanonicalTypes path value = .ok ()
      else Refusal (rejectNoncanonicalTypes path value)
  | .null, _ | .bool _, _ | .string _, _ => rfl
  | .number n, path => by
    rw [whole, rejectNoncanonicalTypes]
    split
    · rfl
    · exact ⟨_, rfl⟩
  | .array items, path => by
    rw [whole, rejectNoncanonicalTypes]
    exact rejectItems_spec items path 0
  | .object entries, path => by
    rw [whole, rejectNoncanonicalTypes]
    exact rejectEntries_spec entries path

theorem rejectItems_spec : (items : List (Json N)) → (path : String) → (index : Nat) →
    if wholeItems items then rejectItems path index items = .ok () else Refusal (rejectItems path index items)
  | [], _, _ => rfl
  | item :: items, path, index => by
    have first := reject_spec item (path ++ "[" ++ toString index ++ "]")
    have others := rejectItems_spec items path (index + 1)
    rw [wholeItems, rejectItems]
    cases fine : whole item with
    | false =>
      rw [fine] at first
      exact first.of_first
    | true =>
      rw [fine] at first
      rw [first]
      exact others

theorem rejectEntries_spec : (entries : Fields N) → (path : String) →
    if wholeEntries entries then rejectEntries path entries = .ok () else Refusal (rejectEntries path entries)
  | [], _ => rfl
  | (key, value) :: entries, path => by
    have first := reject_spec value (path ++ "." ++ key)
    have others := rejectEntries_spec entries path
    rw [wholeEntries, rejectEntries]
    cases fine : whole value with
    | false =>
      rw [fine] at first
      exact first.of_first
    | true =>
      rw [fine] at first
      rw [first]
      exact others
end

def Canonical (runtime : Runtime N) (value : Json N) : Prop :=
  runtime.writes value = true ∧ whole value = true

def canonicalBytes (value : Json N) : ByteArray := (String.ofList (canonicalText value)).toUTF8

theorem canonicalJsonBytes_of {value : Json N} (canonical : Canonical runtime value) :
    canonicalJsonBytes runtime value = .ok (canonicalBytes value) := by
  have accepted := reject_spec value "$"
  rw [canonical.2, if_pos rfl] at accepted
  unfold canonicalJsonBytes
  rw [canonical.1, accepted]
  rfl

theorem canonicalJsonBytes_caught {value : Json N} :
    Caught (canonicalJsonBytes runtime value) ↔ Canonical runtime value := by
  constructor
  · intro caught
    by_contra lacking
    cases writes : runtime.writes value with
    | false =>
      obtain ⟨_, same⟩ := caught .limit (by unfold canonicalJsonBytes; rw [writes]; rfl)
      cases same
    | true =>
      have mixed : whole value = false := by
        cases fine : whole value with
        | false => rfl
        | true => exact absurd ⟨writes, fine⟩ lacking
      have refused := reject_spec value "$"
      rw [mixed, if_neg (by decide)] at refused
      obtain ⟨text, refused⟩ := refused
      obtain ⟨_, same⟩ := caught (.typeError text) (by unfold canonicalJsonBytes; rw [writes, refused]; rfl)
      cases same
  · intro canonical
    rw [canonicalJsonBytes_of canonical]
    exact caught_ok _

theorem canonicalJsonBytes_ok {value : Json N} {bytes : ByteArray} :
    canonicalJsonBytes runtime value = .ok bytes ↔ Canonical runtime value ∧
      canonicalBytes value = bytes := by
  constructor
  · intro made
    have canonical : Canonical runtime value := canonicalJsonBytes_caught.mp (made ▸ caught_ok bytes)
    rw [canonicalJsonBytes_of canonical] at made
    exact ⟨canonical, Except.ok.inj made⟩
  · rintro ⟨canonical, rfl⟩
    exact canonicalJsonBytes_of canonical

end Values

section Checks

/-- The file is the UTF-8 text of a wrapper with this plan and this hash. -/
structure Wraps (runtime : Runtime N) (data : ByteArray) (plan : Fields N) (claimed : String) : Prop where
  text : ∃ raw, String.fromUTF8? data = some raw ∧ runtime.reads raw.toList = true ∧ ∃ wrapper : Fields N,
    Json.loads raw.toList = some (.object wrapper) ∧
      (∀ key ∈ wrapper.map Prod.fst, key ∈ ["plan", "plan_sha256"]) ∧
      wrapper.lookup "plan" = some (.object plan) ∧ wrapper.lookup "plan_sha256" = some (.string claimed)

theorem mem_keys_of_lookup {Held : Type} {entries : List (String × Held)} {key : String}
    {value : Held} (found : entries.lookup key = some value) :
    key ∈ entries.map Prod.fst := by
  induction entries with
  | nil => cases found
  | cons entry entries ih =>
    rw [List.lookup_cons] at found
    by_cases same : key = entry.1
    · exact List.mem_cons.mpr (.inl same)
    · rw [beq_eq_false_iff_ne.mpr same] at found
      exact List.mem_cons_of_mem _ (ih found)

theorem readWrapper_caught :
    Caught (readWrapper runtime data) ↔ ∀ raw, String.fromUTF8? data = some raw →
    runtime.reads raw.toList = true := by
  unfold readWrapper
  cases decoded : String.fromUTF8? data with
  | none =>
    simp only [reduceCtorEq, false_implies, implies_true, iff_true]
    exact caught_corrupt _
  | some raw =>
    cases reads : runtime.reads raw.toList with
    | false =>
      simp only [reads, Bool.not_false, if_true, Option.some.injEq, forall_eq', Bool.false_eq_true, iff_false]
      intro caught
      obtain ⟨_, same⟩ := caught .limit rfl
      cases same
    | true =>
      simp only [reads, Bool.not_true, Bool.false_eq_true, if_false, Option.some.injEq, forall_eq', iff_true]
      split
      · exact caught_corrupt _
      · split
        · split
          · exact caught_ok _
          · exact caught_corrupt _
        · exact caught_corrupt _
      · exact caught_corrupt _

theorem readWrapper_ok {found : Fields N × String} :
    readWrapper runtime data = .ok found ↔ Wraps runtime data found.1 found.2 := by
  obtain ⟨plan, claimed⟩ := found
  constructor
  · intro read
    unfold readWrapper at read
    cases decoded : String.fromUTF8? data with
    | none => rw [decoded] at read; cases read
    | some raw =>
      rw [decoded] at read
      cases reads : runtime.reads raw.toList with
      | false => simp [reads] at read
      | true =>
        simp only [reads, Bool.not_true, Bool.false_eq_true, if_false] at read
        split at read
        · cases read
        next wrapper loaded =>
          split at read
          next named =>
            split at read
            next payload hash plan_found hash_found =>
              cases read
              rw [Bool.and_eq_true, Bool.and_eq_true, List.all_eq_true] at named
              exact ⟨raw, decoded, reads, wrapper, loaded, fun key there =>
                of_decide_eq_true (named.1.1 key there), plan_found, hash_found⟩
            · cases read
          · cases read
        · cases read
  · rintro ⟨raw, decoded, reads, wrapper, loaded, named, plan_found, hash_found⟩
    have keys : ((wrapper.map Prod.fst).all (fun key => key ∈ ["plan", "plan_sha256"]) &&
      decide ("plan" ∈ wrapper.map Prod.fst) &&
        decide ("plan_sha256" ∈ wrapper.map Prod.fst)) = true := by
      rw [Bool.and_eq_true, Bool.and_eq_true, List.all_eq_true]
      exact ⟨⟨fun key there => decide_eq_true (named key there),
        decide_eq_true (mem_keys_of_lookup plan_found)⟩,
        decide_eq_true (mem_keys_of_lookup hash_found)⟩
    unfold readWrapper
    simp only [decoded, reads, loaded, keys, plan_found, hash_found, Bool.not_true,
      Bool.false_eq_true, if_false, if_true]

def Sealed (runtime : Runtime N) (plan : Fields N) (claimed : String) : Prop :=
  claimed = runtime.sha256 (canonicalBytes (.object plan))

theorem checkHash_caught : Caught (checkHash runtime plan claimed) ↔ Canonical runtime (.object plan) := by
  rw [checkHash, caught_bind, canonicalJsonBytes_caught]
  refine and_iff_left ?_
  intro payload _
  split
  · exact caught_corrupt _
  · exact caught_ok _

theorem checkHash_ok {done : Unit} :
    checkHash runtime plan claimed = .ok done ↔ Canonical runtime (.object plan) ∧
    Sealed runtime plan claimed := by
  rw [checkHash, bind_ok]
  constructor
  · rintro ⟨payload, made, checked⟩
    obtain ⟨canonical, rfl⟩ := canonicalJsonBytes_ok.mp made
    refine ⟨canonical, ?_⟩
    by_contra unsealed
    have differs : claimed ≠ runtime.sha256 (canonicalBytes (.object plan)) := unsealed
    rw [if_pos differs] at checked
    cases checked
  · rintro ⟨canonical, same⟩
    have agrees : ¬ claimed ≠ runtime.sha256 (canonicalBytes (.object plan)) := not_not.mpr same
    refine ⟨_, canonicalJsonBytes_of canonical, ?_⟩
    rw [if_neg agrees]
    rfl

/-- The versions and the scope are the supported ones. -/
def Titled (plan : Fields N) : Prop := isInteger (plan.lookup "schema_version") schemaVersion = true ∧
  isText (plan.lookup "policy_version") policyVersion = true ∧ isText (plan.lookup "scope") "process" = true

theorem checkVersions_caught : Caught (checkVersions plan) := by
  unfold checkVersions
  split
  · exact caught_corrupt _
  · split
    · exact caught_corrupt _
    · split
      · exact caught_corrupt _
      · exact caught_ok _

theorem checkVersions_ok {done : Unit} : checkVersions plan = .ok done ↔ Titled plan := by
  unfold checkVersions Titled
  cases isInteger (plan.lookup "schema_version") schemaVersion with
  | false => simp
  | true =>
    cases isText (plan.lookup "policy_version") policyVersion with
    | false => simp
    | true => cases isText (plan.lookup "scope") "process" <;> simp

/-- The value is no list and no object. -/
def hashable (value : Option (Json N)) : Bool :=
  match value with
  | some (.array _) => false
  | some (.object _) => false
  | _ => true

def Among (value : Option (Json N)) (names : List String) :
    Prop := ∃ text ∈ names, value = some (.string text)

omit [Integers N] in
theorem inSet_caught {value : Option (Json N)} {names : List String} :
    Caught (inSet value names) ↔ hashable value = true := by
  constructor
  · intro caught
    unfold inSet at caught
    unfold hashable
    split at caught
    · rfl
    · obtain ⟨_, same⟩ := caught _ rfl
      cases same
    · obtain ⟨_, same⟩ := caught _ rfl
      cases same
    next no_list no_object => split <;> simp_all
  · intro fine
    unfold hashable at fine
    unfold inSet
    split
    · exact caught_ok _
    · cases fine
    · cases fine
    · exact caught_ok _

omit [Integers N] in
theorem inSet_true {value : Option (Json N)} {names : List String} :
    inSet value names = .ok true ↔ Among value names := by
  unfold inSet
  constructor
  · intro found
    split at found
    next text => exact ⟨text, of_decide_eq_true (Except.ok.inj found), rfl⟩
    · cases found
    · cases found
    · cases found
  · rintro ⟨text, member, rfl⟩
    exact congrArg Except.ok (decide_eq_true member)

omit [Integers N] in
theorem checkMode_caught : Caught (checkMode plan) ↔
    hashable (plan.lookup "mode") = true ∧ (Among (plan.lookup "mode") modes →
      hashable (plan.lookup "profile") = true) := by
  rw [checkMode, caught_bind, inSet_caught]
  refine and_congr_right fun _ => ?_
  constructor
  · intro caught among
    have next := caught true (inSet_true.mpr among)
    simp only [Bool.not_true, Bool.false_eq_true, if_false, caught_bind, inSet_caught] at next
    exact next.1
  · intro fine known found
    cases known with
    | false => exact caught_corrupt _
    | true =>
      simp only [Bool.not_true, Bool.false_eq_true, if_false, caught_bind, inSet_caught]
      refine ⟨fine (inSet_true.mp found), ?_⟩
      intro known _
      cases known with
      | false => exact caught_corrupt _
      | true => exact caught_ok _

omit [Integers N] in
theorem checkMode_ok {done : Unit} :
    checkMode plan = .ok done ↔ Among (plan.lookup "mode") modes ∧
    Among (plan.lookup "profile") profiles := by
  rw [checkMode, bind_ok]
  constructor
  · rintro ⟨known, found, checked⟩
    cases known with
    | false => cases checked
    | true =>
      simp only [Bool.not_true, Bool.false_eq_true, if_false, bind_ok] at checked
      obtain ⟨profile, named, checked⟩ := checked
      cases profile with
      | false => cases checked
      | true => exact ⟨inSet_true.mp found, inSet_true.mp named⟩
  · rintro ⟨mode, profile⟩
    refine ⟨true, inSet_true.mpr mode, ?_⟩
    simp only [Bool.not_true, Bool.false_eq_true, if_false, bind_ok]
    exact ⟨true, inSet_true.mpr profile, rfl⟩

end Checks

section Guards

def IntegerAt (config : Fields N) (key : String) (n : Int) :
    Prop := ∃ m, config.lookup key = some (.number m) ∧ Numerals.integer? m = some n

structure Thresholds (config : Fields N) (target ceiling sysLow interval cooldown : Int) : Prop where
  targetAt : IntegerAt config "target_mb" target
  ceilingAt : IntegerAt config "ceiling_mb" ceiling
  sysLowAt : IntegerAt config "sys_low_mb" sysLow
  intervalAt : IntegerAt config "check_interval_secs" interval
  cooldownAt : IntegerAt config "cooldown_secs" cooldown
  ordered : 0 < target ∧ target < ceiling ∧ sysLow ≥ 0 ∧ interval > 0 ∧ cooldown ≥ interval

/-- The guard of the plan is enabled, with these settings. -/
structure Watching (plan config : Fields N) (target ceiling sysLow interval cooldown : Int) : Prop where
  block : plan.lookup "memory_guard" = some (.object config)
  enabled : config.lookup "enabled" = some (.bool true)
  thresholds : Thresholds config target ceiling sysLow interval cooldown

variable {target ceiling sysLow interval cooldown : Int}

theorem managedInt_caught (value : Option (Json N)) (key : String) : Caught (managedInt value key) := by
  unfold managedInt
  split
  · split
    · exact caught_ok _
    · exact caught_corrupt _
  · exact caught_corrupt _

theorem managedInt_ok {key : String} {n : Int} :
    managedInt (config.lookup key) key = .ok n ↔ IntegerAt config key n := by
  unfold managedInt
  constructor
  · intro read
    split at read
    next m found =>
      split at read
      next value integral =>
        cases read
        exact ⟨m, found, integral⟩
      · cases read
    · cases read
  · rintro ⟨m, found, integral⟩
    simp only [found, integral]

theorem checkThresholds_caught (config : Fields N) : Caught (checkThresholds config) := by
  simp only [checkThresholds, caught_bind, managedInt_caught, true_and]
  intro target _ ceiling _ sysLow _ interval _ cooldown _
  split
  · exact caught_corrupt _
  · exact caught_ok _

theorem checkThresholds_ok : checkThresholds config = .ok () ↔
    ∃ target ceiling sysLow interval cooldown, Thresholds config target ceiling sysLow interval cooldown := by
  simp only [checkThresholds, bind_ok, managedInt_ok]
  constructor
  · rintro ⟨target, first, ceiling, second, sysLow, third, interval, fourth, cooldown, fifth, checked⟩
    split at checked
    · cases checked
    next ordered =>
      exact ⟨target, ceiling, sysLow, interval, cooldown,
        first, second, third, fourth, fifth, not_not.mp ordered⟩
  · rintro ⟨target, ceiling, sysLow, interval, cooldown, thresholds⟩
    refine ⟨target, thresholds.targetAt, ceiling, thresholds.ceilingAt, sysLow, thresholds.sysLowAt,
      interval, thresholds.intervalAt, cooldown,
      thresholds.cooldownAt, ?_⟩
    rw [if_neg (not_not.mpr thresholds.ordered)]
    rfl

theorem checkGuard_caught (plan : Fields N) : Caught (checkGuard plan) := by
  unfold checkGuard
  split
  · split
    · exact checkThresholds_caught _
    · exact caught_ok _
    · exact caught_corrupt _
  · exact caught_corrupt _

theorem checkGuard_ok : checkGuard plan = .ok () ↔ ∃ config :
    Fields N, plan.lookup "memory_guard" = some (.object config) ∧
    (config.lookup "enabled" = some (.bool false) ∨
      ∃ target ceiling sysLow interval cooldown, Watching plan config target ceiling sysLow interval cooldown) := by
  unfold checkGuard
  constructor
  · intro passed
    split at passed
    next config block =>
      refine ⟨config, block, ?_⟩
      split at passed
      next enabled =>
        obtain ⟨target, ceiling, sysLow, interval, cooldown, thresholds⟩ := checkThresholds_ok.mp passed
        exact .inr ⟨target, ceiling, sysLow, interval, cooldown, block, enabled, thresholds⟩
      next disabled => exact .inl disabled
      · cases passed
    · cases passed
  · rintro ⟨config, block, disabled | ⟨target, ceiling, sysLow, interval, cooldown, watching⟩⟩
    · simp only [block, disabled]
    · simp only [block, watching.enabled]
      exact checkThresholds_ok.mpr ⟨target, ceiling, sysLow, interval, cooldown, watching.thresholds⟩

omit [Integers N] in
theorem checkActionMode_ok {value : Json N} {text : String} :
    checkActionMode value = .ok text ↔ value = .string text ∧ text ∈ ["observe", "auto"] := by
  rw [checkActionMode, bind_ok]
  constructor
  · rintro ⟨known, found, checked⟩
    split at checked
    next given =>
      cases known with
      | false => cases checked
      | true =>
        cases checked
        obtain ⟨other, member, same⟩ := inSet_true.mp found
        cases same
        exact ⟨rfl, member⟩
    · cases checked
  · rintro ⟨rfl, member⟩
    exact ⟨true, inSet_true.mpr ⟨text, member, rfl⟩, rfl⟩

/-- From here on, between the last float and the end of their range, an integer is too large for a float. -/
@[irreducible] def floatEnd : Nat := 2 ^ 1024 - 2 ^ (1024 - 53 - 1)

def rounded (n : Int) : ℚ := ((FloatRange.round 53 n.toNat : Int) : ℚ)

theorem round_inside {n : Nat} : FloatRange.round 53 n < 2 ^ 1024 ↔ n < floatEnd := by
  unfold floatEnd
  exact FloatRange.round_lt_iff (by decide) (by decide)

theorem toFloat_integer {m : N} {n : Int} (integral : Numerals.integer? m = some n) (positive : 0 < n) :
    toFloat runtime (.number m) = if n.toNat < floatEnd then .ok (some (rounded n))
      else .error .overflowError := by
  unfold toFloat
  simp only [integral]
  by_cases inside : n.toNat < floatEnd
  · rw [if_pos inside, FloatRange.ofInt_of_pos positive (round_inside.mpr inside)]
    rfl
  · have outside : FloatRange.ofInt 53 1024 n = none := by
      have same : n.natAbs = n.toNat := by omega
      rw [FloatRange.ofInt, same, if_neg (fun below => inside (round_inside.mp below))]
    rw [if_neg inside, outside]

def guardOf (target ceiling sysLow interval cooldown : Int) (action : String)
    (configuration : Configuration N) : MemoryGuard N :=
  ⟨target, ceiling, sysLow, rounded interval, rounded cooldown, action, configuration,
    min 64 (min (max 1 ((ceiling - target) / 4)) (max 0 (target - 1)))⟩

omit [Integers N] in
theorem field_ok {key : String} {value : Json N} :
    field config key = .ok value ↔ config.lookup key = some value := by
  unfold field
  constructor
  · intro found
    split at found
    next same => rw [same, Except.ok.inj found]
    · cases found
  · intro found
    rw [found]

theorem requireInt_ok {m : N} {n : Int} {test : Int → Bool}
    (integral : Numerals.integer? m = some n) (passes : test n = true) (text : String) :
    requireInt (.number m) test text = .ok n := by
  simp only [requireInt, integral, Option.filter_some, passes, if_true]

theorem rounded_pos {n : Int} (positive : 0 < n) : 0 < rounded n := by
  have some_float : 0 < FloatRange.round 53 n.toNat := FloatRange.round_pos (by decide) (by omega)
  unfold rounded
  exact_mod_cast some_float

theorem rounded_mono {first second : Int} (below : first ≤ second) : rounded first ≤ rounded second := by
  have floats : FloatRange.round 53 first.toNat ≤ FloatRange.round 53 second.toNat :=
    FloatRange.round_mono (by decide) (by omega)
  unfold rounded
  exact_mod_cast floats

/-- With thresholds in order, only the mode and the largest of the numbers decide. -/
theorem init_numbers {targetNumber ceilingNumber sysLowNumber intervalNumber cooldownNumber : N}
    {action : Json N}
    {configuration : Configuration N} (first : Numerals.integer? targetNumber = some target)
    (second : Numerals.integer? ceilingNumber = some ceiling)
    (third : Numerals.integer? sysLowNumber = some sysLow)
    (fourth : Numerals.integer? intervalNumber = some interval)
    (fifth : Numerals.integer? cooldownNumber = some cooldown)
    (ordered : 0 < target ∧ target < ceiling ∧ sysLow ≥ 0 ∧ interval > 0 ∧ cooldown ≥ interval) :
    MemoryGuard.init runtime ⟨.number targetNumber, .number ceilingNumber, .number sysLowNumber,
      .number intervalNumber, .number cooldownNumber,
        action, configuration⟩ =
      checkActionMode action >>= fun text =>
        if cooldown.toNat <
            floatEnd then .ok (guardOf target ceiling sysLow interval cooldown text configuration)
            else .error .overflowError := by
  obtain ⟨some_target, above, some_memory, some_interval, longer⟩ := ordered
  unfold MemoryGuard.init
  congr 1
  funext text
  have some_cooldown : 0 < cooldown := by omega
  have given_target : ∀ text : String,
      requireInt (.number targetNumber) (fun n => decide (0 < n)) text = .ok target :=
    requireInt_ok first (decide_eq_true some_target)
  have given_ceiling : ∀ text : String,
      requireInt (.number ceilingNumber) (fun n => decide (target < n)) text = .ok ceiling :=
    requireInt_ok second (decide_eq_true above)
  have given_memory : ∀ text : String,
      requireInt (.number sysLowNumber) (fun n => decide (0 ≤ n)) text = .ok sysLow :=
    requireInt_ok third (decide_eq_true some_memory)
  simp only [given_target, given_ceiling, given_memory, toFloat_integer fourth some_interval,
    toFloat_integer fifth some_cooldown, ok_bind]
  by_cases inside : cooldown.toNat < floatEnd
  · have also : interval.toNat < floatEnd := lt_of_le_of_lt (by omega) inside
    simp only [inside, also, if_true, ok_bind, Option.filter_some, rounded_pos some_interval,
      decide_true, rounded_mono longer]
    rfl
  · simp only [inside, if_false, error_bind]
    split <;> rfl

theorem guardFromPlan_off {mode : Json N}
    (block : plan.lookup "memory_guard" = some (.object config))
    (given : plan.lookup "mode" = some mode)
    (disabled : config.lookup "enabled" = some (.bool false)) (hash : String) :
    guardFromPlan runtime plan hash = .ok none := by
  simp only [guardFromPlan, field_ok.mpr block, field_ok.mpr given, field_ok.mpr disabled, ok_bind]
  rfl

theorem guardFromPlan_watching {mode : Json N}
    (watching : Watching plan config target ceiling sysLow interval cooldown)
    (given : plan.lookup "mode" = some mode) (hash : String) :
    guardFromPlan runtime plan hash = field config "mode" >>= fun action =>
      checkActionMode action >>= fun text =>
      if cooldown.toNat <
        floatEnd then .ok (some (guardOf target ceiling sysLow interval cooldown text ⟨mode, hash⟩))
      else .error .overflowError := by
  obtain ⟨block, enabled, ⟨targetNumber, atTarget, first⟩, ⟨ceilingNumber, atCeiling, second⟩,
    ⟨sysLowNumber, atSysLow, third⟩,
    ⟨intervalNumber, atInterval, fourth⟩, ⟨cooldownNumber, atCooldown, fifth⟩, ordered⟩ := watching
  simp only [guardFromPlan, field_ok.mpr block, field_ok.mpr given, field_ok.mpr enabled,
    field_ok.mpr atTarget, field_ok.mpr atCeiling,
    field_ok.mpr atSysLow, field_ok.mpr atInterval, field_ok.mpr atCooldown, ok_bind, Json.truthy, Bool.not_true, Bool.false_eq_true, if_false]
  congr 1
  funext action
  rw [init_numbers first second third fourth fifth ordered, bind_assoc]
  congr 1
  funext text
  split <;> rfl

theorem guardFromPlan_built {mode : Json N}
    (watching : Watching plan config target ceiling sysLow interval cooldown)
    (given : plan.lookup "mode" = some mode) (hash : String) :
    (∃ guard, guardFromPlan runtime plan hash = .ok guard) ↔
      Among (config.lookup "mode") ["observe", "auto"] ∧ cooldown.toNat < floatEnd := by
  simp only [guardFromPlan_watching watching given, bind_ok, field_ok, checkActionMode_ok]
  constructor
  · rintro ⟨guard, action, found, text, ⟨rfl, member⟩, built⟩
    refine ⟨⟨text, member, found⟩, ?_⟩
    by_contra outside
    rw [if_neg outside] at built
    cases built
  · rintro ⟨⟨text, member, found⟩, inside⟩
    exact ⟨_, .string text, found, text, ⟨rfl, member⟩, if_pos inside⟩

end Guards

section Loading

/-- The plan passes the checks behind the canonical text. -/
structure Valid (runtime : Runtime N) (plan : Fields N) (claimed : String) : Prop where
  sealing : Sealed runtime plan claimed
  titled : Titled plan
  mode : Among (plan.lookup "mode") modes
  profile : Among (plan.lookup "profile") profiles

theorem validatePlanWrapper_ok : validatePlanWrapper runtime data = .ok plan ↔ ∃ claimed,
    Wraps runtime data plan claimed ∧
    Canonical runtime (.object plan) ∧ Valid runtime plan claimed ∧ checkGuard plan = .ok () := by
  simp only [validatePlanWrapper, bind_ok, readWrapper_ok, checkHash_ok, checkVersions_ok, checkMode_ok]
  constructor
  · rintro ⟨⟨payload, claimed⟩, wraps, _, ⟨canonical, sealing⟩, _, titled, _, ⟨mode, profile⟩, _,
      guarded, same⟩
    cases same
    exact ⟨claimed, wraps, canonical, ⟨sealing, titled, mode, profile⟩, guarded⟩
  · rintro ⟨claimed, wraps, canonical, valid, guarded⟩
    exact ⟨(plan, claimed), wraps, (), ⟨canonical, valid.sealing⟩, (), valid.titled, (),
      ⟨valid.mode, valid.profile⟩, (), guarded, rfl⟩

theorem loadManagedPlan_ok {hash : String} : loadManagedPlan runtime data = .ok (plan, hash) ↔
    ∃ claimed, Wraps runtime data plan claimed ∧ Canonical runtime (.object plan) ∧
      Valid runtime plan claimed ∧ checkGuard plan = .ok () ∧
      runtime.sha256 (canonicalBytes (.object plan)) = hash := by
  simp only [loadManagedPlan, bind_ok, validatePlanWrapper_ok, canonicalJsonBytes_ok]
  constructor
  · rintro ⟨found, ⟨claimed, wraps, canonical, valid, guarded⟩, bytes, ⟨_, rfl⟩, last⟩
    cases last
    exact ⟨claimed, wraps, canonical, valid, guarded, rfl⟩
  · rintro ⟨claimed, wraps, canonical, valid, guarded, rfl⟩
    exact ⟨plan, ⟨claimed, wraps, canonical, valid, guarded⟩, _, ⟨canonical, rfl⟩, rfl⟩

theorem loadManagedPlan_caught : Caught (loadManagedPlan runtime data) ↔
    (∀ raw, String.fromUTF8? data = some raw → runtime.reads raw.toList = true) ∧
      ∀ plan claimed, Wraps runtime data plan claimed → Canonical runtime (.object plan) ∧
        (Sealed runtime plan claimed → Titled plan →
        hashable (plan.lookup "mode") = true ∧ (Among (plan.lookup "mode") modes → hashable (plan.lookup "profile") = true)) := by
  have printed : ∀ plan, validatePlanWrapper runtime data = .ok plan → Canonical runtime (.object plan) := by
    intro plan found
    obtain ⟨_, _, canonical, _⟩ := validatePlanWrapper_ok.mp found
    exact canonical
  have validated : Caught (loadManagedPlan runtime data) ↔ Caught (validatePlanWrapper runtime data) := by
    rw [loadManagedPlan, caught_bind]
    refine and_iff_left ?_
    intro plan found
    rw [caught_bind, canonicalJsonBytes_caught]
    exact ⟨printed plan found, fun _ _ => caught_ok _⟩
  rw [validated]
  simp only [validatePlanWrapper, caught_bind, readWrapper_caught, readWrapper_ok, checkHash_caught,
    checkHash_ok,
    checkVersions_caught, checkVersions_ok, checkMode_caught, checkGuard_caught, true_and]
  constructor
  · rintro ⟨read, checked⟩
    refine ⟨read, ?_⟩
    intro plan claimed wraps
    obtain ⟨canonical, named⟩ := checked (plan, claimed) wraps
    exact ⟨canonical, fun sealing titled => (named () ⟨canonical, sealing⟩ () titled).1⟩
  · rintro ⟨read, checked⟩
    refine ⟨read, ?_⟩
    rintro ⟨plan, claimed⟩ wraps
    obtain ⟨canonical, named⟩ := checked plan claimed wraps
    refine ⟨canonical, ?_⟩
    rintro _ ⟨_, sealing⟩ _ titled
    exact ⟨named sealing titled, fun _ _ _ _ => caught_ok _⟩

/-- The managed file is found corrupt, or its plan gives a guard or none. -/
def Accounted (runtime : Runtime N) (data : ByteArray) : Prop :=
  (∃ reason, loadManagedPlan runtime data = .error (.corrupt reason)) ∨
    ∃ plan hash guard, loadManagedPlan runtime data = .ok (plan, hash) ∧
      createMemoryGuard runtime (some data) = .ok guard

theorem createMemoryGuard_loaded {hash : String} (loaded : loadManagedPlan runtime data = .ok (plan, hash)) :
    createMemoryGuard runtime (some data) = guardFromPlan runtime plan hash := by
  simp only [createMemoryGuard, loaded]

theorem accounted_iff : Accounted runtime data ↔ Caught (loadManagedPlan runtime data) ∧
    ∀ plan hash, loadManagedPlan runtime data = .ok (plan, hash) → ∃ guard,
      guardFromPlan runtime plan hash = .ok guard := by
  constructor
  · rintro (⟨reason, corrupt⟩ | ⟨plan, hash, guard, loaded, built⟩)
    · rw [corrupt]
      exact ⟨caught_corrupt reason, fun _ _ same => by cases same⟩
    · rw [createMemoryGuard_loaded loaded] at built
      rw [loaded]
      refine ⟨caught_ok _, ?_⟩
      intro other another same
      cases same
      exact ⟨guard, built⟩
  · rintro ⟨caught, built⟩
    cases loaded : loadManagedPlan runtime data with
    | error raised =>
      obtain ⟨reason, rfl⟩ := caught raised loaded
      exact .inl ⟨reason, loaded⟩
    | ok found =>
      obtain ⟨plan, hash⟩ := found
      obtain ⟨guard, same⟩ := built plan hash loaded
      exact .inr ⟨plan, hash, guard, loaded, (createMemoryGuard_loaded loaded).trans same⟩

/-- What the checks leave open does not come up: the interpreter reads the text and prints the plan,
the plan has no floats, a plan with the right hash and versions has no list or object where a word
is looked up, and an enabled block names a mode of the guard and no number beyond the floats. -/
structure Sound (runtime : Runtime N) (data : ByteArray) : Prop where
  read : ∀ raw, String.fromUTF8? data = some raw → runtime.reads raw.toList = true
  canonical : ∀ plan claimed, Wraps runtime data plan claimed → Canonical runtime (.object plan)
  hashed : ∀ plan claimed, Wraps runtime data plan claimed → Sealed runtime plan claimed → Titled plan →
    hashable (plan.lookup "mode") = true ∧ (Among (plan.lookup "mode") modes →
      hashable (plan.lookup "profile") = true)
  guarded : ∀ plan claimed config target ceiling sysLow interval cooldown,
    Wraps runtime data plan claimed → Valid runtime plan claimed →
    Watching plan config target ceiling sysLow interval cooldown →
      Among (config.lookup "mode") ["observe", "auto"] ∧ cooldown.toNat < floatEnd

theorem accounted_of_sound : Accounted runtime data ↔ Sound runtime data := by
  rw [accounted_iff, loadManagedPlan_caught]
  constructor
  · rintro ⟨⟨read, checked⟩, built⟩
    refine ⟨read, fun plan claimed wraps => (checked plan claimed wraps).1,
      fun plan claimed wraps => (checked plan claimed wraps).2, ?_⟩
    intro plan claimed config target ceiling sysLow interval cooldown wraps valid watching
    have passes : checkGuard plan = .ok () :=
      checkGuard_ok.mpr ⟨config, watching.block, .inr ⟨target, ceiling, sysLow, interval, cooldown, watching⟩⟩
    have loaded := loadManagedPlan_ok.mpr ⟨claimed, wraps, (checked plan claimed wraps).1, valid, passes, rfl⟩
    obtain ⟨text, _, given⟩ := valid.mode
    exact (guardFromPlan_built watching given _).mp (built plan _ loaded)
  · intro sound
    refine ⟨⟨sound.read, fun plan claimed wraps =>
      ⟨sound.canonical plan claimed wraps, sound.hashed plan claimed wraps⟩⟩, ?_⟩
    intro plan hash loaded
    obtain ⟨claimed, wraps, _, valid, passes, rfl⟩ := loadManagedPlan_ok.mp loaded
    obtain ⟨text, _, given⟩ := valid.mode
    obtain ⟨config, block, disabled | ⟨target, ceiling, sysLow, interval, cooldown, watching⟩⟩ :=
      checkGuard_ok.mp passes
    · exact ⟨none, guardFromPlan_off block given disabled _⟩
    · exact (guardFromPlan_built watching given _).mpr (sound.guarded plan claimed config target ceiling sysLow interval cooldown wraps valid watching)

end Loading

end TokenPak.Proxy.Memory
