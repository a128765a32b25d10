import TokenPak.Proofs.FailClosed

/-! The verdict of the probe. A home is free exactly when every reading of the clock was early and
the snapshot is quiet: everything was seen, and nothing that was seen holds a database open or
locked. -/

namespace TokenPak.Companion.StateLock
open Library Library.Inspection

section Marks
variable {evidence : Evidence} {db : String}

def Evidence.Marks (evidence : Evidence) (db : String) : Prop :=
  ((evidence.holders.get db).getD Dict.empty).entries ≠ [] ∨ (evidence.relevant.get db).getD false = true

theorem unsafeHolders_none : evidence.unsafeHolders db = none ↔ ¬ evidence.Marks db := by
  unfold Evidence.unsafeHolders Evidence.Marks
  simp

theorem Evidence.Marks.hold (marks : evidence.Marks db) (pid : Int) (info : ProcessInfo)
    (target : FileIdentity) :
    (evidence.hold pid info target).Marks db := by
  rcases marks with held | locked
  · left
    by_cases same : db = target.dbPath
    · subst same
      simp only [Evidence.hold, Dict.get_set_self, Option.getD_some]
      exact List.ne_nil_of_mem (Dict.mem_set _ _ _)
    · simp only [Evidence.hold, Dict.get_set_of_ne same]
      exact held
  · exact .inr locked

theorem marks_hold (evidence : Evidence) (pid : Int) (info : ProcessInfo) (target : FileIdentity) :
    (evidence.hold pid info target).Marks target.dbPath := by
  left
  simp only [Evidence.hold, Dict.get_set_self, Option.getD_some]
  exact List.ne_nil_of_mem (Dict.mem_set _ _ _)

theorem Evidence.Marks.lockedBy (marks : evidence.Marks db) (target : FileIdentity) :
    (evidence.lockedBy target).Marks db := by
  rcases marks with held | locked
  · exact .inl held
  · right
    by_cases same : db = target.dbPath
    · subst same
      simp [Evidence.lockedBy, Dict.get_set_self]
    · simp only [Evidence.lockedBy, Dict.get_set_of_ne same]
      exact locked

theorem marks_lockedBy (evidence : Evidence) (target : FileIdentity) :
    (evidence.lockedBy target).Marks target.dbPath := by
  right
  simp [Evidence.lockedBy, Dict.get_set_self]

theorem marks_foldl {mark : Evidence → FileIdentity → Evidence}
    (keep : ∀ evidence target db, evidence.Marks db → (mark evidence target).Marks db)
    (set : ∀ evidence target, (mark evidence target).Marks target.dbPath)
    (targets : List FileIdentity) (evidence : Evidence) :
    (∀ db, evidence.Marks db → (targets.foldl mark evidence).Marks db) ∧
      ∀ target ∈ targets, (targets.foldl mark evidence).Marks target.dbPath := by
  induction targets generalizing evidence with
  | nil => exact ⟨fun db marks => marks, fun target member => absurd member List.not_mem_nil⟩
  | cons first targets ih =>
    obtain ⟨kept, marked⟩ := ih (mark evidence first)
    refine ⟨fun db marks => kept db (keep evidence first db marks), ?_⟩
    intro target member
    rcases List.mem_cons.mp member with rfl | there
    · exact kept _ (set evidence target)
    · exact marked target there

theorem marks_holdAll (evidence : Evidence) (pid : Int) (info : ProcessInfo) (targets : List FileIdentity) :
    (∀ db, evidence.Marks db →
      (targets.foldl (fun evidence target => evidence.hold pid info target) evidence).Marks db) ∧
      ∀ target ∈ targets,
          (targets.foldl (fun evidence target =>
          evidence.hold pid info target) evidence).Marks target.dbPath :=
  marks_foldl (fun _ target _ marks => marks.hold pid info target)
    (fun evidence target => marks_hold evidence pid info target) targets
    evidence

theorem marks_lockedByAll (evidence : Evidence) (targets : List FileIdentity) :
    (∀ db, evidence.Marks db → (targets.foldl Evidence.lockedBy evidence).Marks db) ∧
      ∀ target ∈ targets, (targets.foldl Evidence.lockedBy evidence).Marks target.dbPath :=
  marks_foldl (fun _ target _ marks => marks.lockedBy target) marks_lockedBy targets evidence

end Marks

section Verdict
variable {builtins : Builtins} {depth : Nat} {snapshot : Snapshot} {targets : List FileIdentity}

def Unlocked (targets : List FileIdentity) (locks : List ProcLock) : Prop :=
  ∀ lock ∈ locks, ∀ target ∈ targets, lockTargetsFile lock target = false

variable {locks : List ProcLock}

theorem calm_observeLockOwners {observed : Dict Int (Option ProcessInfo)}
    (unlocked : Unlocked targets locks) :
    calm (observeLockOwners builtins depth snapshot targets observed locks) = some observed := by
  induction locks with
  | nil => rfl
  | cons lock locks ih =>
    have later := ih fun other there => unlocked other (List.mem_cons_of_mem _ there)
    have apart : targets.any (lockTargetsFile lock) = false := by
      rw [List.any_eq_false]
      intro target there
      simp [unlocked lock List.mem_cons_self target there]
    simp only [observeLockOwners, calm_bind, calm_expired, Option.bind_some, Bool.false_eq_true,
      if_false, apart]
    split <;> exact later

theorem calm_revalidateAttachments {identities : List Identity}
    {validated entries : List (Int × ProcessInfo × List Identity)}
    (held : ∀ entry ∈ entries, Held builtins depth snapshot identities entry) :
    calm (revalidateAttachments builtins depth snapshot validated entries) = some (validated ++ entries) := by
  induction entries generalizing validated with
  | nil => simp [revalidateAttachments]
  | cons entry entries ih =>
    obtain ⟨pid, info, attached⟩ := entry
    obtain ⟨read, live, _⟩ := held _ List.mem_cons_self
    simp only [revalidateAttachments, calm_bind, calm_expired, Option.bind_some, Bool.false_eq_true, if_false,
      calm_revalidate read live]
    rw [ih fun entry there => held entry (List.mem_cons_of_mem _ there), List.append_assoc]
    rfl

theorem calm_collectHolders (evidence : Evidence) {entries : List (Int × ProcessInfo × List Identity)}
    (held : ∀ entry ∈ entries, Held builtins depth snapshot (targets.map FileIdentity.identity) entry) :
    ∃ result, calm (collectHolders targets evidence entries) = some result ∧
      (entries = [] → result = evidence) ∧
      (∀ db, evidence.Marks db → result.Marks db) ∧
          (entries ≠ [] → ∃ target ∈ targets, result.Marks target.dbPath) := by
  induction entries generalizing evidence with
  | nil => exact ⟨evidence, rfl, fun _ => rfl, fun db marks => marks, fun some => absurd rfl some⟩
  | cons entry entries ih =>
    obtain ⟨pid, info, attached⟩ := entry
    obtain ⟨_, _, identity, opened, known⟩ := held _ List.mem_cons_self
    obtain ⟨target, there, same⟩ := List.mem_map.mp known
    obtain ⟨keep, set⟩ :=
      marks_holdAll evidence pid info (attached.flatMap fun identity =>
        targets.filter (·.identity = identity))
    obtain ⟨result, calmed, _, kept, _⟩ := ih _ fun entry there => held entry (List.mem_cons_of_mem _ there)
    refine ⟨result, ?_, fun none => absurd none (List.cons_ne_nil _ _), fun db marks =>
      kept db (keep db marks), fun _ => ?_⟩
    · simp only [collectHolders, calm_bind, calm_expired, Option.bind_some, Bool.false_eq_true, if_false]
      exact calmed
    · refine ⟨target, there, kept _ (set target ?_)⟩
      exact List.mem_flatMap.mpr ⟨identity, opened, List.mem_filter.mpr ⟨there, by simpa using same⟩⟩

theorem calm_judgeLocks_unlocked {observations : Dict Int (Option ProcessInfo)}
    {attachments : Dict Int (ProcessInfo × List Identity)} {cache : Dict Int (Option ProcessInfo)}
    {evidence : Evidence} (unlocked : Unlocked targets locks) :
    calm (judgeLocks builtins depth snapshot targets observations attachments cache evidence locks) = some evidence := by
  induction locks with
  | nil => rfl
  | cons lock locks ih =>
    have later := ih fun other there => unlocked other (List.mem_cons_of_mem _ there)
    have apart : targets.filter (lockTargetsFile lock) = [] := by
      rw [List.filter_eq_nil_iff]
      intro target there
      simp [unlocked lock List.mem_cons_self target there]
    simp only [judgeLocks, calm_bind, calm_expired, Option.bind_some, Bool.false_eq_true, if_false,
      apart, if_true]
    exact later

theorem judgeLocks_marks {observations : Dict Int (Option ProcessInfo)}
    {attachments : Dict Int (ProcessInfo × List Identity)} {cache : Dict Int (Option ProcessInfo)}
    {evidence result : Evidence}
    (calmed : calm (judgeLocks builtins depth snapshot targets observations attachments cache evidence locks) = some result) :
    (∀ db, evidence.Marks db → result.Marks db) ∧
      ∀ lock ∈ locks, ∀ target ∈ targets, lockTargetsFile lock target = true →
          result.Marks target.dbPath := by
  induction locks generalizing cache evidence with
  | nil =>
    cases calmed
    exact ⟨fun db marks => marks, fun lock member => absurd member List.not_mem_nil⟩
  | cons lock locks ih =>
    simp only [judgeLocks, calm_bind, calm_expired, Option.bind_some, Bool.false_eq_true, if_false] at calmed
    split at calmed
    next none =>
      obtain ⟨kept, marked⟩ := ih calmed
      refine ⟨kept, ?_⟩
      intro other member target there touches
      rcases List.mem_cons.mp member with rfl | later
      · rw [List.filter_eq_nil_iff] at none
        exact absurd touches (none target there)
      · exact marked other later target there touches
    next =>
      obtain ⟨keep, set⟩ := marks_lockedByAll evidence (targets.filter (lockTargetsFile lock))
      have onward : ∃ next : Evidence, (∀ db, ((targets.filter (lockTargetsFile lock)).foldl Evidence.lockedBy evidence).Marks db → next.Marks db) ∧
          (∀ db, next.Marks db → result.Marks db) ∧
          ∀ lock ∈ locks, ∀ target ∈ targets, lockTargetsFile lock target = true →
              result.Marks target.dbPath := by
        split at calmed
        · obtain ⟨kept, marked⟩ := ih calmed
          exact ⟨_, fun db marks => marks, kept, marked⟩
        · split at calmed
          all_goals
            simp only [calm_bind, Option.bind_eq_some_iff] at calmed
            obtain ⟨current, _, calmed⟩ := calmed
            obtain ⟨kept, marked⟩ := ih calmed
            refine ⟨_, ?_, kept, marked⟩
            cases current with
            | none => exact fun db marks => marks
            | some info => exact (marks_holdAll _ info.pid info (targets.filter (lockTargetsFile lock))).1
      obtain ⟨next, first, kept, marked⟩ := onward
      refine ⟨fun db marks => kept db (first db (keep db marks)), ?_⟩
      intro other member target there touches
      rcases List.mem_cons.mp member with rfl | later
      · exact kept _ (first _ (set target (List.mem_filter.mpr ⟨there, touches⟩)))
      · exact marked other later target there touches

theorem calm_revalidateDatabaseSnapshot {names : List String} (discovered : Discovered snapshot names)
    (known : ∀ db ∈ databases snapshot names, ∀ part ∈ parts db, snapshot.Known part.1) :
    calm (revalidateDatabaseSnapshot snapshot (databases snapshot names)
      ((databases snapshot names).map fun db => (db, targetsOf snapshot db))) = some () := by
  have unchanged : ∀ dbs : List String, (∀ db ∈ dbs, ∀ part ∈ parts db, snapshot.Known part.1) →
      calm (targetsOfUnchanged snapshot (dbs.map fun db => (db, targetsOf snapshot db))) = some () := by
    intro dbs known
    induction dbs with
    | nil => rfl
    | cons db dbs ih =>
      have again := calm_targetFiles.mpr ⟨known db List.mem_cons_self, rfl⟩
      simp only [List.map_cons, targetsOfUnchanged, targetsUnchanged, calm_bind, calm_expired,
        Option.bind_some, Bool.false_eq_true,
        if_false, again, Bool.not_true]
      have same : ((targetsOf snapshot db).all (· ∈ targetsOf snapshot db) &&
        (targetsOf snapshot db).all (· ∈ targetsOf snapshot db)) =
          true := by simp
      rw [same]
      simp only [Bool.not_true, Bool.false_eq_true, if_false, calm_pure, Option.bind_some]
      exact ih fun other there => known other (List.mem_cons_of_mem _ there)
  have again := calm_dbPaths.mpr (.inr ⟨names, discovered, rfl⟩)
  simp only [revalidateDatabaseSnapshot, calm_bind, again, Option.bind_some, Bool.not_true,
    Bool.false_eq_true, if_false, ne_eq,
    not_true_eq_false]
  exact unchanged _ known

/-- The files whose descriptors and locks are looked for. -/
def allTargets (snapshot : Snapshot) (names : List String) : List FileIdentity :=
  (databases snapshot names).flatMap (targetsOf snapshot)

theorem dbPath_mem {names : List String} {target : FileIdentity}
    (there : target ∈ allTargets snapshot names) :
    target.dbPath ∈ databases snapshot names := by
  obtain ⟨db, listed, part⟩ := List.mem_flatMap.mp there
  obtain ⟨⟨path, role⟩, _, found⟩ := List.mem_filterMap.mp part
  unfold targetOf at found
  split at found
  · split at found
    · cases found
      exact listed
    · cases found
  · cases found

/-- A snapshot of which everything is seen, and in which nothing that is seen speaks against
removing the home. -/
structure Quiet (builtins : Builtins) (depth : Nat) (snapshot : Snapshot)
    (names rows : List String) : Prop where
  discovered : Discovered snapshot names
  present : databases snapshot names ≠ []
  known : ∀ db ∈ databases snapshot names, ∀ part ∈ parts db, snapshot.Known part.1
  listed : Listed builtins snapshot rows
  unlocked : Unlocked (allTargets snapshot names) (rows.filterMap (parseProcLockLine builtins))
  processes : QuietProcesses builtins depth snapshot (allTargets snapshot names)

theorem flatMap_targets (dbs : List String) :
    (dbs.map fun db => (db, targetsOf snapshot db)).flatMap Prod.snd = dbs.flatMap (targetsOf snapshot) := by
  induction dbs with
  | nil => rfl
  | cons db dbs ih => rw [List.map_cons, List.flatMap_cons, List.flatMap_cons, ih]

/-- The calm inspection comes to databases that are free exactly when the snapshot is quiet. -/
theorem calm_inspect :
    (∃ dbs complete evidence, calm (inspect builtins depth snapshot) =
    some (.judged dbs complete evidence) ∧
      complete = true ∧ ∀ db ∈ dbs, ¬ evidence.Marks db) ↔ ∃ names rows, Quiet builtins depth snapshot names rows := by
  constructor
  · rintro ⟨dbs, complete, evidence, calmed, rfl, free⟩
    simp only [inspect, calm_bind, Option.bind_eq_some_iff] at calmed
    obtain ⟨_, discovery, calmed⟩ := calmed
    rcases calm_dbPaths.mp discovery with ⟨_, rfl⟩ | ⟨names, discovered, rfl⟩
    · cases calmed
    split at calmed
    · cases calmed
    next found =>
      simp only [inspectDatabases, calm_bind, Option.bind_eq_some_iff, calm_targetsByDb,
        calm_readProcLocks] at calmed
      obtain ⟨_, ⟨known, rfl⟩, _, ⟨rows, listed, rfl⟩, observations, _, scan, scanned, calmed⟩ := calmed
      rw [flatMap_targets] at scanned calmed
      change calm (scanFdHolders builtins depth snapshot (allTargets snapshot names)) = some scan at scanned
      split at calmed
      · simp at calmed
      simp only [calm_bind, Option.bind_eq_some_iff] at calmed
      obtain ⟨_, _, validated, revalidated, first, collected, last, judged, _, _, same⟩ := calmed
      cases same
      have held : ∀ entry ∈ scan.attachments.entries,
          Held builtins depth snapshot ((allTargets snapshot names).map FileIdentity.identity) entry := by
        simp only [scanFdHolders, calm_bind, Option.bind_eq_some_iff] at scanned
        obtain ⟨⟨entries, error⟩, _, scanned⟩ := scanned
        cases error with
        | some error => simp at scanned
        | none =>
          apply scanProcesses_keeps scanProcess_held scanned
          intro entry member
          exact absurd member List.not_mem_nil
      rw [calm_revalidateAttachments held] at revalidated
      cases revalidated
      obtain ⟨kept, marked⟩ := judgeLocks_marks judged
      have unheld : scan.attachments.entries = [] := by
        by_contra some
        obtain ⟨result, calmed, _, _, marks⟩ := calm_collectHolders ⟨Dict.empty, Dict.empty⟩ held
        rw [List.nil_append] at collected
        obtain rfl : result = first := Option.some.inj (calmed.symm.trans collected)
        obtain ⟨target, there, marking⟩ := marks some
        exact free _ (dbPath_mem there) (kept _ marking)
      obtain ⟨quiet, rfl⟩ := calm_scanFdHolders.mp ⟨scanned, unheld⟩
      refine ⟨names, rows, discovered, found, known, listed, ?_, quiet⟩
      intro lock member target there
      by_contra touches
      exact free _ (dbPath_mem there)
        (marked lock (List.mem_append_left _ member) target there (by simpa using touches))
  · rintro ⟨names, rows, quiet⟩
    refine ⟨databases snapshot names, true, ⟨Dict.empty, Dict.empty⟩, ?_, rfl, ?_⟩
    · obtain ⟨scanned, _⟩ := calm_scanFdHolders.mpr ⟨quiet.processes, rfl⟩
      have again := calm_revalidateDatabaseSnapshot quiet.discovered quiet.known
      simp only [inspect, calm_bind, calm_dbPaths.mpr (.inr ⟨names, quiet.discovered, rfl⟩),
        Option.bind_some, quiet.present, if_false,
        inspectDatabases, calm_targetsByDb.mpr ⟨quiet.known, rfl⟩, calm_readProcLocks.mpr ⟨rows, quiet.listed, rfl⟩, flatMap_targets]
      change (calm (observeLockOwners builtins depth snapshot (allTargets snapshot names) Dict.empty _)).bind _ = _
      rw [calm_observeLockOwners quiet.unlocked, Option.bind_some]
      change (calm (scanFdHolders builtins depth snapshot (allTargets snapshot names))).bind _ = _
      rw [scanned, Option.bind_some]
      simp only [Bool.not_true, Bool.or_self, Bool.false_eq_true, if_false, calm_bind, calm_pure,
        Option.bind_some, again]
      simp only [revalidateAttachments, Dict.empty, calm_pure, Option.bind_some, collectHolders,
        List.append_nil]
      change (calm (judgeLocks builtins depth snapshot (allTargets snapshot names) _ _ _ _ _)).bind _ = _
      rw [calm_judgeLocks_unlocked quiet.unlocked]
      rfl
    · intro db _ marks
      rcases marks with held | locked
      · exact held rfl
      · cases locked

end Verdict

section Removal
variable (builtins : Builtins) (depth : Nat) (snapshot : Snapshot)

/-- A home that has databases and may be removed. -/
def LockStatus.Free (status : LockStatus) : Prop := status.found = true ∧ status.locked = false

def readings (early : Nat → Bool) : Nat :=
  ((inspect builtins depth snapshot).run .probeTimeout early ⟨0, []⟩).2.ticks

variable {builtins depth snapshot}

theorem statusOf_free {reasons : List Reason} {found : Found} : (statusOf reasons found).Free ↔
    reasons = [] ∧ ∃ dbs complete evidence, found = .judged dbs complete evidence ∧
      complete = true ∧ ∀ db ∈ dbs, ¬ evidence.Marks db := by
  cases found with
  | undiscovered => simp [statusOf, LockStatus.Free]
  | noDatabase => simp [statusOf, LockStatus.Free]
  | judged dbs complete evidence =>
    have free : (dbs.findSome? fun db => (evidence.unsafeHolders db).map fun holders =>
      (db, holders)) = none ↔
        ∀ db ∈ dbs, ¬ evidence.Marks db := by
      simp [List.findSome?_eq_none_iff, unsafeHolders_none]
    cases judged : dbs.findSome? fun db => (evidence.unsafeHolders db).map fun holders => (db, holders) with
    | some held =>
      have marked : ¬ ∀ db ∈ dbs, ¬ evidence.Marks db := by
        rw [← free, judged]
        exact Option.some_ne_none _
      obtain ⟨db, holders⟩ := held
      simp only [statusOf, judged, LockStatus.Free, Bool.true_eq_false, and_false,
        Found.judged.injEq, false_iff]
      rintro ⟨_, _, _, _, ⟨rfl, rfl, rfl⟩, _, unmarked⟩
      exact marked unmarked
    | none =>
      have unmarked := free.mp judged
      simp only [statusOf, judged, LockStatus.Free, true_and, Bool.not_eq_false', Bool.and_eq_true,
        List.isEmpty_iff]
      constructor
      · rintro ⟨rfl, clean⟩
        exact ⟨clean, dbs, true, evidence, rfl, rfl, unmarked⟩
      · rintro ⟨clean, _, _, _, same, rfl, _⟩
        cases same
        exact ⟨rfl, clean⟩

/-- The home is free exactly when every reading of the clock was early and the snapshot is quiet. -/
theorem probe_free (early : Nat → Bool) :
    (∃ status, probe builtins depth snapshot early = some status ∧ status.Free) ↔
    (∃ names rows, Quiet builtins depth snapshot names rows) ∧
      ∀ n < readings builtins depth snapshot early, early n = true := by
  have clean : ∀ value, (((inspect builtins depth snapshot).run .probeTimeout early ⟨0, []⟩).2.reasons = [] ∧
      ((inspect builtins depth snapshot).run .probeTimeout early ⟨0, []⟩).1 = value) ↔
        calm (inspect builtins depth snapshot) = some value ∧
          ∀ n, 0 ≤ n → n < readings builtins depth snapshot early → early n = true := fun value => clean_iff _
  have whole : probe builtins depth snapshot early =
      if .recursionError ∈ ((inspect builtins depth snapshot).run .probeTimeout early ⟨0,
        []⟩).2.reasons then none
      else some (statusOf ((inspect builtins depth snapshot).run .probeTimeout early ⟨0, []⟩).2.reasons
        ((inspect builtins depth snapshot).run .probeTimeout early ⟨0, []⟩).1) := rfl
  rw [← calm_inspect, whole]
  constructor
  · rintro ⟨status, probed, free⟩
    split at probed
    · cases probed
    cases probed
    obtain ⟨unnoted, dbs, complete, evidence, same, whole, unmarked⟩ := statusOf_free.mp free
    obtain ⟨calmed, early⟩ := (clean _).mp ⟨unnoted, same⟩
    exact ⟨⟨dbs, complete, evidence, calmed, whole, unmarked⟩, fun n less => early n (Nat.zero_le n) less⟩
  · rintro ⟨⟨dbs, complete, evidence, calmed, whole, unmarked⟩, early⟩
    obtain ⟨unnoted, same⟩ := (clean _).mpr ⟨calmed, fun n _ less => early n less⟩
    refine ⟨statusOf [] (.judged dbs complete evidence), ?_,
      statusOf_free.mpr ⟨rfl, dbs, complete, evidence, rfl, whole, unmarked⟩⟩
    simp only [unnoted, same, List.not_mem_nil, if_false]

/-! What a home that may be removed promises: the deadline was kept and no limit exceeded, and what
is known of its files, of the locks of the kernel and of the processes. A process is told apart by
the leader of its threads. -/

variable (builtins depth snapshot) in
def leader (pid : Int) : Int :=
  match readProcessInfo builtins snapshot depth pid with
  | .found info => info.pid
  | _ => pid

variable (builtins depth snapshot) in
def filesOf (pid : Int) : ProcessFiles := snapshot.process (leader builtins depth snapshot pid)

variable (builtins depth snapshot) in
/-- The process is there and not dead, as far as that can be read. -/
def Live (pid : Int) : Prop :=
  (∀ info, readProcessInfo builtins snapshot depth pid = .found info → info.dead = false) ∧
    (readProcessInfo builtins snapshot depth pid = .absent →
      (snapshot.process pid).directory ≠ .error .missing)

variable (builtins depth snapshot) in
def OwnedBy (owners : List Nat) (pid : Int) : Prop :=
  (∃ info, readProcessInfo builtins snapshot depth pid = .found info ∧ info.uid ∈ owners.map Int.ofNat) ∨
    readProcessInfo builtins snapshot depth pid = .absent ∧ ∃ uid ∈ owners,
      (snapshot.process pid).directory = .ok uid

/-- The descriptors of a process cannot be listed, or one of them cannot be looked at. -/
def ProcessFiles.Unread (files : ProcessFiles) : Prop :=
  files.descriptors.error ≠ none ∨
    ∃ descriptor ∈ files.descriptors.entries, ∃ error, files.descriptor descriptor = .error error ∧
      error ≠ .missing

/-- The command line can be read and does not mention Codex. -/
def ProcessFiles.Unrelated (builtins : Builtins) (files : ProcessFiles) : Prop :=
  ∃ words, files.cmdline = .ok words ∧ ∀ word ∈ words, mentionsCodex (builtins.casefold word) = false

def lockBytes : Role → Int → Prop
  | .main, byte => pendingByte ≤ byte ∧ byte ≤ mainLockLast
  | .shm, byte => shmLockFirst ≤ byte ∧ byte ≤ shmDms
  | .wal, _ => False

/-- The row is about the file, and a byte in its range is one on which the database takes its locks. -/
def ProcLock.Covers (lock : ProcLock) (target : FileIdentity) : Prop :=
  lock.names target = true ∧ ∃ byte, lock.start ≤ byte ∧ (∀ last ∈ lock.last, byte ≤ last) ∧
    lockBytes target.role byte

variable (builtins depth snapshot) in
structure Removable (names rows : List String) : Prop where
  home : snapshot.home = .ok names
  fewNames : names.length ≤ maxHomeEntries
  fewDatabases : (databases snapshot names).length ≤ maxDatabases
  inspected : ∀ name ∈ names, isCandidate name = true → snapshot.file name = .error .missing ∨
    ∃ stat, snapshot.file name = .ok stat ∧ (stat.regular = true → ∀ part ∈ parts name, snapshot.Known part.1)
  locks : snapshot.locks = .ok ⟨rows, none⟩
  fewRows : rows.length ≤ maxProcLockRows
  uncovered : ∀ row ∈ rows, ∀ lock, parseProcLockLine builtins row = some lock →
    ∀ target ∈ allTargets snapshot names, ¬ lock.Covers target
  processes : snapshot.processes.error = none
  fewProcesses : snapshot.processes.entries.length ≤ maxProcesses
  fewDescriptors : ∀ pid : Nat, some pid ∈ snapshot.processes.entries → ∀ info,
    readProcessInfo builtins snapshot depth pid = .found info → info.dead = false →
      (snapshot.process info.pid).descriptors.entries.length ≤ maxFdsPerProcess
  fewInAll : countedForAll builtins depth snapshot snapshot.processes.entries ≤ maxTotalFds
  unheld : ∀ pid : Nat, some pid ∈ snapshot.processes.entries → Live builtins depth snapshot pid →
    (filesOf builtins depth snapshot pid).descriptors.error = none →
      ∀ descriptor ∈ (filesOf builtins depth snapshot pid).descriptors.entries,
        ∀ target ∈ allTargets snapshot names,
        (filesOf builtins depth snapshot pid).descriptor descriptor ≠ .ok target.identity
  unread : ∀ pid : Nat, some pid ∈ snapshot.processes.entries →
    OwnedBy builtins depth snapshot (ownersOf (allTargets snapshot names)) pid →
      (filesOf builtins depth snapshot pid).Unread →
      ¬ Live builtins depth snapshot pid ∨ (filesOf builtins depth snapshot pid).Unrelated builtins

variable (builtins depth snapshot) in
/-- A process of somebody else whose status cannot be read has a descriptor on a target. -/
def Hidden (names : List String) : Prop :=
  ∃ pid : Nat, some pid ∈ snapshot.processes.entries ∧ readProcessInfo builtins snapshot depth pid = .absent ∧
    (∃ uid, (snapshot.process pid).directory = .ok uid ∧ uid ∉ ownersOf (allTargets snapshot names)) ∧
      (snapshot.process pid).descriptors.error = none ∧
        ∃ descriptor ∈ (snapshot.process pid).descriptors.entries,
        ∃ target ∈ allTargets snapshot names,
          (snapshot.process pid).descriptor descriptor = .ok target.identity

variable (builtins depth snapshot) in
/-- A process of a database's owner whose descriptors cannot be read counts as harmless by its name
and the last parts of the paths on its command line, which cannot be read or mentions Codex all the
same. -/
def Misjudged (names : List String) : Prop :=
  ∃ pid : Nat, some pid ∈ snapshot.processes.entries ∧ ∃ info,
    readProcessInfo builtins snapshot depth pid = .found info ∧
    info.dead = false ∧ info.uid ∈ (ownersOf (allTargets snapshot names)).map Int.ofNat ∧
      (snapshot.process info.pid).Unread ∧
      codexProcessKind builtins (snapshot.process info.pid) = some false ∧
        ¬ (snapshot.process info.pid).Unrelated builtins

variable (builtins depth snapshot) in
/-- The snapshot is quiet but for what the inspection passes over. -/
def Overlooked : Prop :=
  ∃ names rows, Quiet builtins depth snapshot names rows ∧
    (Hidden builtins depth snapshot names ∨ Misjudged builtins depth snapshot names)

variable {names rows : List String}

theorem room_length {found : Nat} (room : Room snapshot found names)
    (within : found ≤ maxDatabases) :
    found + (names.filter snapshot.regular).length ≤ maxDatabases := by
  induction names generalizing found with
  | nil => exact within
  | cons name names ih =>
    obtain ⟨space, room⟩ := room
    cases regular : snapshot.regular name with
    | false =>
      rw [regular] at room
      have others := ih room within
      simpa [regular] using others
    | true =>
      rw [regular, if_pos rfl] at room
      have others := ih room space
      simp only [List.filter_cons, regular, if_true, List.length_cons]
      omega

/-- A byte that is covered makes the ranges overlap. -/
theorem covers_targets {lock : ProcLock} {target : FileIdentity} (covers : lock.Covers target) :
    lockTargetsFile lock target = true := by
  obtain ⟨named, byte, least, most, locked⟩ := covers
  have upper {second : Int} (small : second ≤ byte) (bounded : second ≤ 2 ^ 63 - 1) : second ≤
      lock.last.getD (2 ^ 63 - 1) := by
    cases range : lock.last with
    | none => exact bounded
    | some last => exact small.trans (most last range)
  unfold lockTargetsFile
  rw [named, Bool.true_and]
  cases kind : target.role with
  | main =>
    rw [kind] at locked
    obtain ⟨first, final⟩ := locked
    simp only [rangesOverlap, decide_eq_true_eq]
    exact ⟨least.trans final, upper first (by decide)⟩
  | shm =>
    rw [kind] at locked
    obtain ⟨first, final⟩ := locked
    simp only [rangesOverlap, decide_eq_true_eq]
    exact ⟨least.trans final, upper first (by decide)⟩
  | wal =>
    rw [kind] at locked
    exact locked.elim

theorem Quiet.hidden_or_unheld (quiet : Quiet builtins depth snapshot names rows)
    (unhidden : ¬ Hidden builtins depth snapshot names) {pid : Nat}
    (listed : some pid ∈ snapshot.processes.entries) (live : Live builtins depth snapshot pid)
    (whole : (filesOf builtins depth snapshot pid).descriptors.error = none) :
    ∀ descriptor ∈ (filesOf builtins depth snapshot pid).descriptors.entries,
      ∀ target ∈ allTargets snapshot names,
      (filesOf builtins depth snapshot pid).descriptor descriptor ≠ .ok target.identity := by
  intro descriptor there target known opened
  rcases quiet.processes.quiet pid listed with ⟨absent, gone⟩ | ⟨info, read, dead | ⟨_, table⟩⟩
  · have self : filesOf builtins depth snapshot pid = snapshot.process pid := by
      simp [filesOf, leader, absent]
    rw [self] at whole there opened
    rcases gone with missing | foreign
    · exact live.2 absent missing
    · exact unhidden ⟨pid, listed, absent, foreign, whole, descriptor, there, target, known, opened⟩
  · have alive := live.1 info read
    rw [dead] at alive
    cases alive
  · have self : filesOf builtins depth snapshot pid = snapshot.process info.pid := by
      simp [filesOf, leader, read]
    rw [self] at whole there opened
    have apart := table.apart whole descriptor there
    have member : target.identity ∈ (allTargets snapshot names).map FileIdentity.identity :=
      List.mem_map_of_mem known
    simp [openTarget, opened, member] at apart

theorem Quiet.judged_or_unrelated (quiet : Quiet builtins depth snapshot names rows)
    (judged : ¬ Misjudged builtins depth snapshot names) {pid : Nat}
    (listed : some pid ∈ snapshot.processes.entries)
    (owned : OwnedBy builtins depth snapshot (ownersOf (allTargets snapshot names)) pid)
    (unread : (filesOf builtins depth snapshot pid).Unread) :
    ¬ Live builtins depth snapshot pid ∨ (filesOf builtins depth snapshot pid).Unrelated builtins := by
  rcases quiet.processes.quiet pid listed with ⟨absent, gone⟩ | ⟨info, read, dead | ⟨alive, table⟩⟩
  · rcases gone with missing | ⟨uid, named, foreign⟩
    · exact .inl fun live => live.2 absent missing
    · rcases owned with ⟨info, read, _⟩ | ⟨_, owner, own, same⟩
      · rw [absent] at read
        cases read
      · rw [named] at same
        cases same
        exact absurd own foreign
  · left
    intro live
    have alive := live.1 info read
    rw [dead] at alive
    cases alive
  · right
    have self : filesOf builtins depth snapshot pid = snapshot.process info.pid := by
      simp [filesOf, leader, read]
    rw [self] at unread ⊢
    have own : info.uid ∈ (ownersOf (allTargets snapshot names)).map Int.ofNat := by
      rcases owned with ⟨same, found, own⟩ | ⟨absent, _⟩
      · rw [read] at found
        cases found
        exact own
      · rw [read] at absent
        cases absent
    have harmless : ∃ error,
        Harmless builtins snapshot (ownersOf (allTargets snapshot names)) info error := by
      cases broken : (snapshot.process info.pid).descriptors.error with
      | some error => exact ⟨error, table.harmless error broken⟩
      | none =>
        rcases unread with error | ⟨descriptor, there, error, failed, present⟩
        · exact absurd broken error
        · rcases table.looked broken descriptor there error failed with missing | harmless
          · exact absurd missing present
          · exact ⟨error, harmless⟩
    obtain ⟨error, foreign | ⟨_, benign⟩⟩ := harmless
    · exact absurd own foreign
    · by_contra related
      exact judged ⟨pid, listed, info, read, alive, own, unread, benign, related⟩

theorem Quiet.removable (quiet : Quiet builtins depth snapshot names rows) :
    Removable builtins depth snapshot names rows ↔
      ¬ (Hidden builtins depth snapshot names ∨ Misjudged builtins depth snapshot names) := by
  constructor
  · rintro removable (⟨pid, listed, absent, ⟨uid, directory, _⟩, whole, descriptor, there, target,
      known, opened⟩ |
      ⟨pid, listed, info, read, alive, own, unread, _, related⟩)
    · have self : filesOf builtins depth snapshot pid = snapshot.process pid := by
        simp [filesOf, leader, absent]
      have live : Live builtins depth snapshot pid := by
        refine ⟨fun info read => ?_, fun _ missing => ?_⟩
        · rw [absent] at read
          cases read
        · rw [directory] at missing
          cases missing
      have unheld := removable.unheld pid listed live
      rw [self] at unheld
      exact unheld whole descriptor there target known opened
    · have self : filesOf builtins depth snapshot pid = snapshot.process info.pid := by
        simp [filesOf, leader, read]
      have judged := removable.unread pid listed (.inl ⟨info, read, own⟩)
      rw [self] at judged
      rcases judged unread with gone | unrelated
      · apply gone
        refine ⟨fun same found => ?_, fun absent => ?_⟩
        · rw [read] at found
          cases found
          exact alive
        · rw [read] at absent
          cases absent
      · exact related unrelated
  · intro seen
    have unhidden := fun hidden => seen (.inl hidden)
    have judged := fun misjudged => seen (.inr misjudged)
    exact {
      home := quiet.discovered.home
      fewNames := quiet.discovered.few
      fewDatabases := by
        have few := room_length quiet.discovered.room (Nat.zero_le _)
        rw [Nat.zero_add] at few
        exact few
      inspected := by
        intro name listed candidate
        have member : name ∈ candidates names := by
          rw [candidates, (List.perm_insertionSort _ _).mem_iff]
          exact List.mem_filter.mpr ⟨listed, candidate⟩
        rcases quiet.discovered.known name member with missing | ⟨stat, found⟩
        · exact .inl missing
        · refine .inr ⟨stat, found, fun regular => quiet.known name (List.mem_filter.mpr ⟨member, ?_⟩)⟩
          simp [Snapshot.regular, found, regular]
      locks := quiet.listed.read
      fewRows := quiet.listed.few
      uncovered := by
        intro row listed lock parsed target there covers
        have apart := quiet.unlocked lock (List.mem_filterMap.mpr ⟨row, listed, parsed⟩) target there
        rw [covers_targets covers] at apart
        cases apart
      processes := quiet.processes.listed
      fewProcesses := quiet.processes.few
      fewDescriptors := by
        intro pid listed info read live
        rcases quiet.processes.quiet pid listed with ⟨absent, _⟩ | ⟨same, found, dead | ⟨_, table⟩⟩
        · rw [read] at absent
          cases absent
        · rw [read] at found
          cases found
          rw [live] at dead
          cases dead
        · rw [read] at found
          cases found
          exact table.few
      fewInAll := quiet.processes.counted
      unheld := fun pid listed live whole => quiet.hidden_or_unheld unhidden listed live whole
      unread := fun pid listed owned unread => quiet.judged_or_unrelated judged listed owned unread }

variable (builtins depth snapshot) in
/-- A home that the probe calls free was seen within the deadline and may be removed, with any
clock, exactly when the inspection of its snapshot passes over nothing. -/
theorem probe_fails_closed :
    (∀ early status, probe builtins depth snapshot early = some status → status.Free →
      (∀ n < readings builtins depth snapshot early, early n = true) ∧ ∃ names rows, Removable builtins depth snapshot names rows) ↔
      ¬ Overlooked builtins depth snapshot := by
  constructor
  · rintro closed ⟨names, rows, quiet, passed⟩
    obtain ⟨status, probed, free⟩ := (probe_free (fun _ => true)).mpr ⟨⟨names, rows, quiet⟩, fun _ _ => rfl⟩
    obtain ⟨_, others, fields, removable⟩ := closed _ status probed free
    have both := removable.home
    rw [quiet.discovered.home] at both
    cases both
    have listed := removable.locks
    rw [quiet.listed.read] at listed
    cases listed
    exact quiet.removable.mp removable passed
  · intro seen early status probed free
    obtain ⟨⟨names, rows, quiet⟩, timely⟩ := (probe_free _).mp ⟨status, probed, free⟩
    exact ⟨timely, names, rows, quiet.removable.mpr fun passed => seen ⟨names, rows, quiet, passed⟩⟩

end Removal

section Examples

def plainBuiltins : Builtins where
  int := fun text => if text ≠ [] ∧ text.all (fun c => '0' ≤ c && c ≤ '9') then
    some (text.foldl (fun n c => n * 10 + (c.toNat - '0'.toNat)) 0) else none
  hex := fun text => if text ≠ [] ∧ text.all (fun c => '0' ≤ c && c ≤ '9') then
    some (text.foldl (fun n c => n * 16 + (c.toNat - '0'.toNat)) 0) else none
  casefold := Text.lower

/-- A wrapper runs Codex out of a directory of that name, and its descriptors cannot be read. -/
def wrappedHome : Snapshot where
  home := .ok ["state_5.sqlite"]
  file := fun name => if name = "state_5.sqlite" then .ok ⟨true, 2049, 77, 1000⟩ else .error .missing
  processes := ⟨[none, some 7], none⟩
  process := fun _ => {
    status := .ok ["Name: node", "Tgid: 7", "Uid: 1000 1000 1000 1000"]
    stat := .ok "7 (node) S 1 7 7 0 1 2 3 4 5 6 7 8 9 10 11 12 13 14 99"
    directory := .ok 1000
    comm := .ok "node"
    cmdline := .ok ["node", "/opt/codex/bin/main.js"]
    descriptors := ⟨[], some .denied⟩
    descriptor := fun _ => .error .denied
    fdinfo := fun _ => .error .denied }
  locks := .ok ⟨[], none⟩

def wrappedInfo : ProcessInfo := ⟨7, 1000, "S", 99⟩

theorem wrapped_read : readProcessInfo plainBuiltins wrappedHome 900 7 = .found wrappedInfo := by
  decide +kernel

theorem wrapped_owned :
    wrappedInfo.uid ∈ (ownersOf (allTargets wrappedHome ["state_5.sqlite"])).map Int.ofNat := by
  decide +kernel

theorem wrapped_mentions :
    mentionsCodex (plainBuiltins.casefold "/opt/codex/bin/main.js") = true := by
  decide +kernel

theorem wrapped_codex_overlooked :
    (∃ status, probe plainBuiltins 900 wrappedHome (fun _ => true) = some status ∧ status.Free) ∧
      ∀ names rows, ¬ Removable plainBuiltins 900 wrappedHome names rows := by
  constructor
  · have probed : probe plainBuiltins 900 wrappedHome (fun _ => true) = some ⟨"state_5.sqlite",
        true, false, [], [], [], true, []⟩ := by
      decide +kernel
    exact ⟨_, probed, rfl, rfl⟩
  · intro names rows removable
    have home : names = ["state_5.sqlite"] := (Except.ok.inj removable.home).symm
    subst home
    have self : filesOf plainBuiltins 900 wrappedHome (7 : Nat) = wrappedHome.process 7 := rfl
    have judged :=
      removable.unread 7 (by simp [wrappedHome]) (.inl ⟨wrappedInfo, wrapped_read, wrapped_owned⟩)
    rw [self] at judged
    have unread : (wrappedHome.process 7).Unread := .inl (by simp [wrappedHome])
    rcases judged unread with gone | ⟨words, read, unrelated⟩
    · apply gone
      refine ⟨fun info found => ?_, fun absent => ?_⟩
      · have same := wrapped_read.symm.trans found
        cases same
        rfl
      · have same := wrapped_read.symm.trans absent
        cases same
    · cases read
      have unmentioned := unrelated "/opt/codex/bin/main.js" (by simp)
      rw [wrapped_mentions] at unmentioned
      cases unmentioned

end Examples

end TokenPak.Companion.StateLock
