import Mathlib.Algebra.GroupWithZero.Nat
import TokenPak.Companion.StateLock

/-! When the probe lets a home be removed. Every step that leaves something unseen notes a reason,
and a run without reasons is the calm run; so each part of the inspection is described by when it
stays calm and by what it finds then. -/

namespace TokenPak.Companion.StateLock
open Library Library.Inspection

section Directories
variable {Entry : Type} {limit : Nat} {reason : Reason} {error : Option OsError}

theorem calm_boundedFrom (seen entries : List Entry) :
    calm (boundedFrom limit reason error seen entries) =
      if entries = [] ∨ seen.length + entries.length ≤ limit then some (seen ++ entries, error)
          else none := by
  induction entries generalizing seen with
  | nil => simp [boundedFrom]
  | cons entry entries ih =>
    simp only [boundedFrom, calm_bind, calm_expired, Option.bind_some, Bool.false_eq_true, if_false]
    by_cases full : limit ≤ seen.length
    · have beyond : ¬ seen.length + (entries.length + 1) ≤ limit := by omega
      simp [full, beyond]
    · rw [if_neg full, ih]
      have room : (entries = [] ∨ (seen ++ [entry]).length + entries.length ≤ limit) ↔
          seen.length + (entries.length + 1) ≤ limit := by
        rw [List.length_append, List.length_singleton]
        constructor
        · rintro (rfl | within)
          · simp only [List.length_nil]
            omega
          · omega
        · intro within
          exact .inr (by omega)
      rw [if_congr room rfl rfl]
      simp

theorem calm_boundedDirectoryEntries (listing : Listing Entry) :
    calm (boundedDirectoryEntries listing limit reason) =
      if listing.entries.length ≤ limit then some (listing.entries, listing.error) else none := by
  rw [boundedDirectoryEntries, calm_boundedFrom]
  have same : (listing.entries = [] ∨ ([] : List Entry).length + listing.entries.length ≤ limit) ↔
      listing.entries.length ≤ limit := by
    rw [List.length_nil, Nat.zero_add, or_iff_right_iff_imp]
    intro none
    rw [none]
    exact Nat.zero_le _
  rw [if_congr same rfl rfl, List.nil_append]

end Directories

section Databases
variable {snapshot : Snapshot}

def Snapshot.regular (snapshot : Snapshot) (name : String) : Bool :=
  match snapshot.file name with
  | .ok stat => stat.regular
  | .error _ => false

/-- What a file is was found out, or that it is not there. -/
def Snapshot.Known (snapshot : Snapshot) (name : String) : Prop :=
  snapshot.file name = .error .missing ∨ ∃ stat, snapshot.file name = .ok stat

theorem calm_homeEntries (seen : Nat) (names : List String) :
    calm (homeEntries seen names) = if names = [] ∨
      seen + names.length ≤ maxHomeEntries then some true else none := by
  induction names generalizing seen with
  | nil => simp [homeEntries]
  | cons name names ih =>
    simp only [homeEntries, calm_bind, calm_expired, Option.bind_some, Bool.false_eq_true, if_false]
    by_cases full : maxHomeEntries < seen + 1
    · have more : ¬ seen + (names.length + 1) ≤ maxHomeEntries := by omega
      simp [full, more]
    · rw [if_neg full, ih]
      have room : (names = [] ∨ seen + 1 + names.length ≤ maxHomeEntries) ↔
          seen + (names.length + 1) ≤ maxHomeEntries := by
        constructor
        · rintro (rfl | within)
          · simp only [List.length_nil]
            omega
          · omega
        · intro within
          exact .inr (by omega)
      simp [room]

def Room (snapshot : Snapshot) : Nat → List String → Prop
  | _, [] => True
  | found, name :: names =>
      found < maxDatabases ∧ Room snapshot (if snapshot.regular name then found + 1
        else found) names

theorem calm_checkCandidates {found names : List String} {complete : Bool} {result : List String × Bool} :
    calm (checkCandidates snapshot found complete names) = some result ↔
      (∀ name ∈ names, snapshot.Known name) ∧ Room snapshot found.length names ∧
        result = (found ++ names.filter snapshot.regular, complete) := by
  induction names generalizing found complete with
  | nil => simp [checkCandidates, Room, eq_comm]
  | cons name names ih =>
    simp only [checkCandidates, calm_bind, calm_expired, Option.bind_some, Bool.false_eq_true, if_false]
    by_cases full : maxDatabases ≤ found.length
    · have none : ¬ found.length < maxDatabases := Nat.not_lt.mpr full
      simp [full, Room, none]
    · rw [if_neg full]
      have space : found.length < maxDatabases := Nat.lt_of_not_le full
      cases looked : snapshot.file name with
      | error error =>
        cases error with
        | missing => simp [ih, Room, space, Snapshot.Known, Snapshot.regular, looked]
        | denied => simp [Snapshot.Known, looked]
        | other => simp [Snapshot.Known, looked]
      | ok stat =>
        cases regular : stat.regular with
        | false => simp [ih, Room, space, Snapshot.Known, Snapshot.regular, looked, regular]
        | true => simp [ih, Room, space, Snapshot.Known, Snapshot.regular, looked, regular]

def databases (snapshot : Snapshot) (names : List String) : List String :=
  (candidates names).filter snapshot.regular

/-- The names of the home are not too many, and what each candidate is was found out. -/
structure Discovered (snapshot : Snapshot) (names : List String) : Prop where
  home : snapshot.home = .ok names
  few : names.length ≤ maxHomeEntries
  known : ∀ name ∈ candidates names, snapshot.Known name
  room : Room snapshot 0 (candidates names)

theorem calm_dbPaths {result : List String × Bool} : calm (dbPaths snapshot) = some result ↔
    snapshot.home = .error .missing ∧ result = ([], true) ∨
      ∃ names, Discovered snapshot names ∧ result = (databases snapshot names, true) := by
  unfold dbPaths
  cases listed : snapshot.home with
  | error error =>
    have absent : ¬ ∃ names, Discovered snapshot names ∧ result = (databases snapshot names, true) := by
      rintro ⟨names, discovered, _⟩
      have both := discovered.home
      rw [listed] at both
      cases both
    cases error with
    | missing => simp [absent, eq_comm]
    | denied => simp [absent]
    | other => simp [absent]
  | ok names =>
    have few : (names = [] ∨ 0 + names.length ≤ maxHomeEntries) ↔ names.length ≤ maxHomeEntries := by
      rw [Nat.zero_add, or_iff_right_iff_imp]
      rintro rfl
      exact Nat.zero_le _
    simp only [calm_bind, calm_homeEntries, if_congr few rfl rfl]
    constructor
    · intro calmed
      split at calmed
      next within =>
        simp only [Option.bind_some, if_true, calm_checkCandidates] at calmed
        obtain ⟨known, room, same⟩ := calmed
        exact .inr ⟨names, ⟨listed, within, known, room⟩, same⟩
      next => cases calmed
    · rintro (⟨missing, _⟩ | ⟨others, discovered, same⟩)
      · cases missing
      · obtain rfl : names = others := by
          have both := discovered.home
          rw [listed] at both
          exact Except.ok.inj both
        rw [if_pos discovered.few]
        simp only [Option.bind_some, if_true, calm_checkCandidates]
        exact ⟨discovered.known, discovered.room, same⟩

def targetOf (snapshot : Snapshot) (db : String) (part : String × Role) : Option FileIdentity :=
  match snapshot.file part.1 with
  | .ok stat => if stat.regular then some ⟨part.1, stat.device, stat.inode, stat.uid, part.2, db⟩ else none
  | .error _ => none

def targetsOf (snapshot : Snapshot) (db : String) : List FileIdentity :=
  (parts db).filterMap (targetOf snapshot db)

theorem calm_targetFrom {db : String} {targets : List FileIdentity} {complete : Bool}
    {rest : List (String × Role)}
    {result : List FileIdentity × Bool} : calm (targetFrom snapshot db targets complete rest) = some result ↔
      (∀ part ∈ rest, snapshot.Known part.1) ∧
          result = (targets ++ rest.filterMap (targetOf snapshot db), complete) := by
  induction rest generalizing targets complete with
  | nil => simp [targetFrom, eq_comm]
  | cons part rest ih =>
    obtain ⟨path, role⟩ := part
    simp only [targetFrom, calm_bind, calm_expired, Option.bind_some, Bool.false_eq_true, if_false]
    cases looked : snapshot.file path with
    | error error =>
      cases error with
      | missing => simp [ih, Snapshot.Known, targetOf, looked]
      | denied => simp [Snapshot.Known, looked]
      | other => simp [Snapshot.Known, looked]
    | ok stat =>
      cases regular : stat.regular with
      | false => simp [ih, Snapshot.Known, targetOf, looked, regular]
      | true => simp [ih, Snapshot.Known, targetOf, looked, regular]

theorem calm_targetFiles {db : String} {result : List FileIdentity × Bool} :
    calm (targetFiles snapshot db) = some result ↔
    (∀ part ∈ parts db, snapshot.Known part.1) ∧ result = (targetsOf snapshot db, true) := by
  rw [targetFiles, calm_targetFrom, List.nil_append]
  rfl

theorem calm_targetsByDb {dbs : List String} {result : List (String × List FileIdentity)} :
    calm (targetsByDb snapshot dbs) = some result ↔
      (∀ db ∈ dbs, ∀ part ∈ parts db, snapshot.Known part.1) ∧ result = dbs.map fun db =>
          (db, targetsOf snapshot db) := by
  induction dbs generalizing result with
  | nil => simp [targetsByDb, eq_comm]
  | cons db dbs ih =>
    simp only [targetsByDb, calm_bind, Option.bind_eq_some_iff, calm_targetFiles]
    constructor
    · rintro ⟨_, ⟨known, rfl⟩, later⟩
      simp only [Bool.not_true, Bool.false_eq_true, if_false, calm_bind, calm_pure,
        Option.bind_eq_some_iff, ih] at later
      obtain ⟨_, ⟨others, rfl⟩, same⟩ := later
      refine ⟨?_, (Option.some.inj same).symm⟩
      intro other member
      rcases List.mem_cons.mp member with rfl | there
      · exact known
      · exact others other there
    · rintro ⟨known, rfl⟩
      refine ⟨_, ⟨known db List.mem_cons_self, rfl⟩, ?_⟩
      simp only [Bool.not_true, Bool.false_eq_true, if_false, calm_bind, calm_pure,
        Option.bind_eq_some_iff, ih]
      exact ⟨_, ⟨fun other there => known other (List.mem_cons_of_mem _ there), rfl⟩, rfl⟩

end Databases

section Locks
variable {builtins : Builtins} {snapshot : Snapshot}

def Understood (builtins : Builtins) (row : String) : Prop :=
  (parseProcLockLine builtins row).isSome = true ∨ Text.strip row = ""

theorem calm_lockRows {error : Option OsError} {count : Nat} {locks : List ProcLock}
    {complete : Bool} {rows : List String}
    {result : List ProcLock × Bool} : calm (lockRows builtins error count locks complete rows) = some result ↔
      error = none ∧ (rows = [] ∨ count + rows.length ≤ maxProcLockRows) ∧
        (∀ row ∈ rows, Understood builtins row) ∧
        result = (locks ++ rows.filterMap (parseProcLockLine builtins), complete) := by
  induction rows generalizing count locks complete with
  | nil => cases error <;> simp [lockRows, eq_comm (b := result)]
  | cons row rows ih =>
    simp only [lockRows, calm_bind, calm_expired, Option.bind_some, Bool.false_eq_true, if_false]
    by_cases full : maxProcLockRows < count + 1
    · have more : ¬ count + (rows.length + 1) ≤ maxProcLockRows := by omega
      simp [full, more]
    · rw [if_neg full]
      have room : (rows = [] ∨ count + 1 + rows.length ≤ maxProcLockRows) ↔
          count + (rows.length + 1) ≤ maxProcLockRows := by
        constructor
        · rintro (rfl | within)
          · simp only [List.length_nil]
            omega
          · omega
        · intro within
          exact .inr (by omega)
      cases parsed : parseProcLockLine builtins row with
      | some lock => simp [ih, room, Understood, parsed]
      | none =>
        by_cases blank : Text.strip row = ""
        · simp [ih, room, Understood, parsed, blank]
        · simp [Understood, parsed, blank]

/-- The locks that the kernel lists are all read and understood. -/
structure Listed (builtins : Builtins) (snapshot : Snapshot) (rows : List String) : Prop where
  read : snapshot.locks = .ok ⟨rows, none⟩
  few : rows.length ≤ maxProcLockRows
  understood : ∀ row ∈ rows, Understood builtins row

theorem calm_readProcLocks {result : List ProcLock × Bool} :
    calm (readProcLocks builtins snapshot) = some result ↔
    ∃ rows, Listed builtins snapshot rows ∧ result = (rows.filterMap (parseProcLockLine builtins), true) := by
  unfold readProcLocks
  cases opened : snapshot.locks with
  | error error =>
    simp only [calm_bind, calm_note, Option.bind_none, reduceCtorEq, false_iff]
    rintro ⟨rows, listed, _⟩
    have both := listed.read
    rw [opened] at both
    cases both
  | ok listing =>
    obtain ⟨entries, error⟩ := listing
    have few : (entries = [] ∨ 0 + entries.length ≤ maxProcLockRows) ↔ entries.length ≤ maxProcLockRows := by
      rw [Nat.zero_add, or_iff_right_iff_imp]
      rintro rfl
      exact Nat.zero_le _
    simp only [calm_lockRows, few]
    constructor
    · rintro ⟨rfl, within, understood, same⟩
      exact ⟨entries, ⟨opened, within, understood⟩, same⟩
    · rintro ⟨rows, listed, same⟩
      have both := listed.read
      rw [opened] at both
      cases both
      exact ⟨rfl, listed.few, listed.understood, same⟩

end Locks

section Processes
variable {builtins : Builtins} {depth : Nat} {snapshot : Snapshot}
variable {info : ProcessInfo} {scan : FdScan} {total : Nat}

theorem read_succ {pid : Int} (found : readProcessInfo builtins snapshot depth pid = .found info) :
    readProcessInfo builtins snapshot (depth + 1) pid = .found info := by
  induction depth generalizing pid with
  | zero => cases found
  | succ depth ih =>
    rw [readProcessInfo] at found ⊢
    split at found
    · cases found
    next positive =>
      rw [if_neg positive]
      split at found
      next status stat statusRead statRead =>
        split at found
        next tgid uid parsed =>
          split at found
          next thread =>
            rw [if_pos thread]
            exact ih found
          next leader =>
            rw [if_neg leader]
            exact found
        · cases found
      · cases found

theorem parseStat_pid {pid uid : Int} {stat : String}
    (parsed : parseStat builtins pid uid stat = some info) : info.pid = pid := by
  simp only [parseStat, Option.bind_eq_bind, Option.bind_eq_some_iff] at parsed
  obtain ⟨tail, _, parsed⟩ := parsed
  split at parsed
  · cases parsed
  · simp only [Option.bind_eq_some_iff] at parsed
    obtain ⟨_, _, _, _, _, _, same⟩ := parsed
    cases same
    rfl

theorem read_leader {pid : Int}
    (found : readProcessInfo builtins snapshot depth pid = .found info) :
    readProcessInfo builtins snapshot depth info.pid = .found info := by
  induction depth generalizing pid with
  | zero => cases found
  | succ depth ih =>
    have whole := found
    rw [readProcessInfo] at found
    split at found
    · cases found
    · split at found
      · split at found
        · split at found
          · exact read_succ (ih found)
          next leader =>
            split at found
            next parsed =>
              cases found
              rw [parseStat_pid parsed]
              exact whole
            · cases found
        · cases found
      · cases found

theorem calm_readProcess {pid : Int} {result : Option ProcessInfo} :
    calm (readProcess builtins depth snapshot pid) = some result ↔
    readProcessInfo builtins snapshot depth pid = .absent ∧ result = none ∨
      ∃ info, readProcessInfo builtins snapshot depth pid = .found info ∧ result = some info := by
  unfold readProcess
  cases readProcessInfo builtins snapshot depth pid <;> simp [eq_comm]

theorem calm_readProcess_found {pid : Int}
    (read : readProcessInfo builtins snapshot depth pid = .found info) :
    calm (readProcess builtins depth snapshot pid) = some (some info) := by
  simp [readProcess, read]

theorem calm_revalidate (read : readProcessInfo builtins snapshot depth info.pid = .found info)
    (live : info.dead = false) :
    calm (revalidateProcess builtins depth snapshot info) = some (.same, some info) := by
  simp [revalidateProcess, calm_readProcess_found read, live]

/-- A failure that is no reason to stop: somebody else's process, or one without permission that
seems to be harmless. -/
def Harmless (builtins : Builtins) (snapshot : Snapshot) (owners : List Nat) (info : ProcessInfo)
    (error : OsError) : Prop :=
  info.uid ∉ owners.map Int.ofNat ∨ error = .denied ∧
    codexProcessKind builtins (snapshot.process info.pid) = some false

instance {owners : List Nat} {info : ProcessInfo} {error : OsError} :
    Decidable (Harmless builtins snapshot owners info error) :=
  inferInstanceAs (Decidable (_ ∨ _))

theorem calm_judgeFailure {owners : List Nat} {error : OsError} {safe : Bool}
    (read : readProcessInfo builtins snapshot depth info.pid = .found info)
    (live : info.dead = false) :
    calm (judgeFailure builtins depth snapshot owners info error) = some safe ↔
      Harmless builtins snapshot owners info error ∧ safe = true := by
  unfold judgeFailure inspectionFailureIsUnsafe Harmless
  by_cases stranger : info.uid ∉ owners.map Int.ofNat
  · simp only [stranger, if_true, calm_bind, calm_pure, Option.bind_some, not_false_eq_true]
    simp [eq_comm]
  · simp only [stranger, if_false, calm_bind, calm_revalidate read live, Option.bind_some, false_or]
    by_cases denied : error = .denied
    · by_cases benign : codexProcessKind builtins (snapshot.process info.pid) = some false
      · simp [denied, benign]
      · simp [denied, benign]
    · simp [denied]

variable {owners : List Nat} {identities : List Identity}

/-- A descriptor that was looked at, is gone, or failed without harm. -/
def LookedAt (builtins : Builtins) (snapshot : Snapshot) (owners : List Nat) (info : ProcessInfo)
    (descriptor : String) : Prop :=
  ∀ error, (snapshot.process info.pid).descriptor descriptor = .error error →
    error = .missing ∨ Harmless builtins snapshot owners info error

def openTarget (snapshot : Snapshot) (identities : List Identity) (info : ProcessInfo) (descriptor : String) :
    Option (String × Identity) :=
  match (snapshot.process info.pid).descriptor descriptor with
  | .ok identity => if identity ∈ identities then some (descriptor, identity) else none
  | .error _ => none

theorem calm_matchDescriptors {found : List (String × Identity)} {complete : Bool}
    {descriptors : List String} {result : List (String × Identity) × Bool}
    (read : readProcessInfo builtins snapshot depth info.pid = .found info)
    (live : info.dead = false) :
    calm (matchDescriptors builtins depth snapshot owners identities info found complete descriptors) = some result ↔
      (∀ descriptor ∈ descriptors, LookedAt builtins snapshot owners info descriptor) ∧
        result = (found ++ descriptors.filterMap (openTarget snapshot identities info), complete) := by
  have judged (error : OsError) {next : Bool → Option (List (String × Identity) × Bool)} :
      ((calm (judgeFailure builtins depth snapshot owners info error)).bind next = some result) ↔
        Harmless builtins snapshot owners info error ∧ next true = some result := by
    simp only [Option.bind_eq_some_iff, calm_judgeFailure read live]
    constructor
    · rintro ⟨_, ⟨harmless, rfl⟩, later⟩
      exact ⟨harmless, later⟩
    · rintro ⟨harmless, later⟩
      exact ⟨true, ⟨harmless, rfl⟩, later⟩
  induction descriptors generalizing found complete with
  | nil => simp [matchDescriptors, eq_comm]
  | cons descriptor descriptors ih =>
    simp only [matchDescriptors, calm_bind, calm_expired, Option.bind_some, Bool.false_eq_true, if_false]
    cases looked : (snapshot.process info.pid).descriptor descriptor with
    | ok identity =>
      by_cases target : identity ∈ identities
      · simp [ih, LookedAt, openTarget, looked, target]
      · simp [ih, LookedAt, openTarget, looked, target]
    | error error =>
      cases error with
      | missing => simp [ih, LookedAt, openTarget, looked]
      | denied => simp [judged, ih, LookedAt, openTarget, looked, and_assoc]
      | other => simp [judged, ih, LookedAt, openTarget, looked, and_assoc]

theorem calm_holderLocks {result : FdScan} {found : List (String × Identity)}
    (calmed : calm (holderLocks builtins depth snapshot owners info scan found) = some result) :
    result.attachments = scan.attachments := by
  induction found generalizing scan with
  | nil =>
    cases calmed
    rfl
  | cons entry found ih =>
    obtain ⟨descriptor, identity⟩ := entry
    simp only [holderLocks, calm_bind, calm_expired, Option.bind_some, Bool.false_eq_true, if_false] at calmed
    split at calmed
    · exact ih calmed
    · simp only [calm_bind, Option.bind_eq_some_iff] at calmed
      obtain ⟨_, _, calmed⟩ := calmed
      have same := ih calmed
      exact same
    · have same := ih calmed
      exact same

theorem calm_attach {result : FdScan} {found : List (String × Identity)}
    (read : readProcessInfo builtins snapshot depth info.pid = .found info)
    (live : info.dead = false)
    (calmed : calm (attach builtins depth snapshot owners info found scan) = some result) :
    result.attachments = scan.attachments.set info.pid (info, found.map Prod.snd) := by
  simp only [attach, calm_bind, calm_revalidate read live, Option.bind_some] at calmed
  exact calm_holderLocks calmed

/-- The descriptors that are counted for a process. -/
def tableSize (table : Listing String) : Nat := if table.error = none then table.entries.length else 0

/-- A live process that leaves the scan quiet: its descriptors were counted and looked at and none
is open on a target, or they could not be listed and that does no harm. -/
structure QuietTable (builtins : Builtins) (snapshot : Snapshot) (owners : List Nat)
    (identities : List Identity) (info : ProcessInfo) :
    Prop where
  few : (snapshot.process info.pid).descriptors.entries.length ≤ maxFdsPerProcess
  harmless : ∀ error, (snapshot.process info.pid).descriptors.error = some error →
    Harmless builtins snapshot owners info error
  looked : (snapshot.process info.pid).descriptors.error = none →
    ∀ descriptor ∈ (snapshot.process info.pid).descriptors.entries,
      LookedAt builtins snapshot owners info descriptor
  apart : (snapshot.process info.pid).descriptors.error = none →
    ∀ descriptor ∈ (snapshot.process info.pid).descriptors.entries,
      openTarget snapshot identities info descriptor = none

theorem calm_scanDescriptors {result : Bool × Nat × FdScan}
    (read : readProcessInfo builtins snapshot depth info.pid = .found info)
    (live : info.dead = false) (within : total ≤ maxTotalFds)
    (fresh : scan.attachments.entries = []) :
    calm (scanDescriptors builtins depth snapshot owners identities info total scan) = some result ∧
        result.2.2.attachments.entries = [] ↔
      QuietTable builtins snapshot owners identities info ∧
        total + tableSize (snapshot.process info.pid).descriptors ≤ maxTotalFds ∧
        result = (true, total + tableSize (snapshot.process info.pid).descriptors, scan) := by
  simp only [scanDescriptors, calm_bind, calm_boundedDirectoryEntries]
  by_cases few : (snapshot.process info.pid).descriptors.entries.length ≤ maxFdsPerProcess
  · rw [if_pos few, Option.bind_some]
    cases broken : (snapshot.process info.pid).descriptors.error with
    | some error =>
      have quiet : QuietTable builtins snapshot owners identities info ↔
          Harmless builtins snapshot owners info error := by
        constructor
        · intro quiet
          exact quiet.harmless error broken
        · intro harmless
          refine ⟨few, ?_, ?_, ?_⟩
          · intro second same
            rw [broken] at same
            cases same
            exact harmless
          · intro whole
            rw [broken] at whole
            cases whole
          · intro whole
            rw [broken] at whole
            cases whole
      have uncounted : tableSize (snapshot.process info.pid).descriptors = 0 := by simp [tableSize, broken]
      simp only [quiet, uncounted, calm_bind, Option.bind_eq_some_iff, calm_judgeFailure read live,
        calm_pure, Nat.add_zero]
      constructor
      · rintro ⟨⟨_, ⟨harmless, rfl⟩, same⟩, _⟩
        refine ⟨harmless, within, ?_⟩
        rw [← Option.some.inj same, Bool.and_true]
      · rintro ⟨harmless, _, rfl⟩
        refine ⟨⟨true, ⟨harmless, rfl⟩, ?_⟩, fresh⟩
        rw [Bool.and_true]
    | none =>
      have counted : tableSize (snapshot.process info.pid).descriptors =
          (snapshot.process info.pid).descriptors.entries.length := by
        simp [tableSize, broken]
      simp only [counted]
      by_cases many : maxTotalFds < total + (snapshot.process info.pid).descriptors.entries.length
      · have more : ¬ total + (snapshot.process info.pid).descriptors.entries.length ≤
            maxTotalFds :=
          Nat.not_le.mpr many
        simp [many, more]
      · have room : total + (snapshot.process info.pid).descriptors.entries.length ≤ maxTotalFds :=
          Nat.le_of_not_lt many
        simp only [many, if_false, calm_bind, Option.bind_eq_some_iff,
          calm_matchDescriptors read live, List.nil_append]
        constructor
        · rintro ⟨⟨_, ⟨looked, rfl⟩, _, ended, calmed⟩, empty⟩
          cases ended
          simp only [Bool.false_eq_true, if_false] at calmed
          split at calmed
          next apart =>
            rw [List.filterMap_eq_nil_iff] at apart
            refine ⟨⟨few, ?_, fun _ => looked, fun _ => apart⟩, room, (Option.some.inj calmed).symm⟩
            intro error same
            rw [broken] at same
            cases same
          next held =>
            simp only [calm_bind, Option.bind_eq_some_iff, calm_pure] at calmed
            obtain ⟨attached, calmed, same⟩ := calmed
            cases same
            rw [calm_attach read live calmed] at empty
            have there := Dict.mem_set scan.attachments info.pid
              (info, ((snapshot.process info.pid).descriptors.entries.filterMap (openTarget snapshot identities info)).map Prod.snd)
            rw [empty] at there
            exact absurd there List.not_mem_nil
        · rintro ⟨quiet, _, rfl⟩
          refine ⟨⟨_, ⟨quiet.looked broken, rfl⟩, false, rfl, ?_⟩, fresh⟩
          rw [List.filterMap_eq_nil_iff.mpr (quiet.apart broken)]
          simp
  · rw [if_neg few, Option.bind_none]
    constructor
    · rintro ⟨calmed, _⟩
      cases calmed
    · rintro ⟨quiet, _⟩
      exact absurd quiet.few few

/-- A process that leaves the scan quiet: it is gone, dead or unreadable and somebody else's, or its
descriptors are quiet. -/
def QuietProcess (builtins : Builtins) (depth : Nat) (snapshot : Snapshot) (owners : List Nat)
    (identities : List Identity) (pid : Int) :
    Prop :=
  readProcessInfo builtins snapshot depth pid = .absent ∧
      ((snapshot.process pid).directory = .error .missing ∨
        ∃ uid, (snapshot.process pid).directory = .ok uid ∧ uid ∉ owners) ∨
    ∃ info, readProcessInfo builtins snapshot depth pid = .found info ∧
      (info.dead = true ∨ info.dead = false ∧ QuietTable builtins snapshot owners identities info)

def countedFor (builtins : Builtins) (depth : Nat) (snapshot : Snapshot) (pid : Int) : Nat :=
  match readProcessInfo builtins snapshot depth pid with
  | .found info => if info.dead then 0 else tableSize (snapshot.process info.pid).descriptors
  | _ => 0

theorem calm_scanUnread {pid : Nat} {result : FdScan} :
    calm (scanUnread snapshot owners pid scan) = some result ↔
    ((snapshot.process pid).directory = .error .missing ∨
      ∃ uid, (snapshot.process pid).directory = .ok uid ∧ uid ∉ owners) ∧
      result = scan := by
  unfold scanUnread
  cases owned : (snapshot.process pid).directory with
  | error error => cases error <;> simp [eq_comm]
  | ok uid =>
    by_cases own : uid ∈ owners
    · simp [own]
    · simp [own, eq_comm]

theorem calm_scanProcess {pid : Nat} {result : Bool × Nat × FdScan} (within : total ≤ maxTotalFds)
    (fresh : scan.attachments.entries = []) :
    calm (scanProcess builtins depth snapshot owners identities pid total scan) = some result ∧
        result.2.2.attachments.entries = [] ↔
      QuietProcess builtins depth snapshot owners identities pid ∧
        total + countedFor builtins depth snapshot pid ≤ maxTotalFds ∧
        result = (true, total + countedFor builtins depth snapshot pid, scan) := by
  simp only [scanProcess, calm_bind, calm_expired, Option.bind_some, Bool.false_eq_true, if_false]
  cases read : readProcessInfo builtins snapshot depth pid with
  | recursionError => simp [readProcess, read, QuietProcess]
  | absent =>
    have uncounted : countedFor builtins depth snapshot pid = 0 := by simp [countedFor, read]
    simp only [readProcess, read, calm_pure, Option.bind_some, calm_bind, Option.bind_eq_some_iff,
      calm_scanUnread, QuietProcess,
      uncounted, Nat.add_zero, true_and, reduceCtorEq, false_and, exists_false, or_false]
    constructor
    · rintro ⟨⟨_, ⟨passed, rfl⟩, same⟩, _⟩
      exact ⟨passed, within, (Option.some.inj same).symm⟩
    · rintro ⟨passed, _, rfl⟩
      exact ⟨⟨scan, ⟨passed, rfl⟩, rfl⟩, fresh⟩
  | found info =>
    rw [calm_readProcess_found read, Option.bind_some]
    cases dead : info.dead with
    | true =>
      have uncounted : countedFor builtins depth snapshot pid = 0 := by simp [countedFor, read, dead]
      simp only [dead, if_true, calm_pure, uncounted, Nat.add_zero]
      constructor
      · rintro ⟨same, _⟩
        exact ⟨.inr ⟨info, read, .inl dead⟩, within, (Option.some.inj same).symm⟩
      · rintro ⟨_, _, rfl⟩
        exact ⟨rfl, fresh⟩
    | false =>
      have counted : countedFor builtins depth snapshot pid =
          tableSize (snapshot.process info.pid).descriptors := by
        simp [countedFor, read, dead]
      have unattached : scan.attachments.get info.pid = none := by
        rw [Dict.get_eq_none_iff, fresh]
        exact List.not_mem_nil
      have quiet : QuietProcess builtins depth snapshot owners identities pid ↔
          QuietTable builtins snapshot owners identities info := by
        simp [QuietProcess, read, dead]
      simp only [dead, Bool.false_eq_true, if_false, unattached, Option.isSome_none]
      rw [calm_scanDescriptors (read_leader read) dead within fresh, quiet, counted]

theorem openTarget_identity {descriptor : String} {entry : String × Identity}
    (opened : openTarget snapshot identities info descriptor = some entry) :
    entry.2 ∈ identities := by
  unfold openTarget at opened
  split at opened
  · split at opened
    next target =>
      cases opened
      exact target
    · cases opened
  · cases opened

/-- What is known of a holder: it lives, and one of its descriptors is open on a target. -/
def Held (builtins : Builtins) (depth : Nat) (snapshot : Snapshot) (identities : List Identity)
    (entry : Int × ProcessInfo × List Identity) : Prop :=
  readProcessInfo builtins snapshot depth entry.2.1.pid = .found entry.2.1 ∧ entry.2.1.dead = false ∧
    ∃ identity ∈ entry.2.2, identity ∈ identities

theorem scanProcess_holders {pid : Nat} {result : Bool × Nat × FdScan}
    (calmed : calm (scanProcess builtins depth snapshot owners identities pid total scan) = some result) :
    result.2.2.attachments = scan.attachments ∨ ∃ entry, Held builtins depth snapshot identities entry ∧
      result.2.2.attachments = scan.attachments.set entry.1 entry.2 := by
  simp only [scanProcess, calm_bind, calm_expired, Option.bind_some, Bool.false_eq_true, if_false,
    Option.bind_eq_some_iff] at calmed
  obtain ⟨reading, readCalm, calmed⟩ := calmed
  cases reading with
  | none =>
    simp only [calm_bind, Option.bind_eq_some_iff, calm_scanUnread, calm_pure] at calmed
    obtain ⟨_, ⟨_, rfl⟩, same⟩ := calmed
    cases same
    exact .inl rfl
  | some info =>
    rcases calm_readProcess.mp readCalm with ⟨_, none⟩ | ⟨_, read, same⟩
    · cases none
    cases same
    cases dead : info.dead with
    | true =>
      simp only [dead, if_true, calm_pure] at calmed
      cases calmed
      exact .inl rfl
    | false =>
      simp only [dead, Bool.false_eq_true, if_false] at calmed
      split at calmed
      · cases calmed
        exact .inl rfl
      simp only [scanDescriptors, calm_bind, Option.bind_eq_some_iff] at calmed
      obtain ⟨listing, _, calmed⟩ := calmed
      split at calmed
      · simp only [calm_bind, Option.bind_eq_some_iff] at calmed
        obtain ⟨_, _, same⟩ := calmed
        cases same
        exact .inl rfl
      · split at calmed
        · simp at calmed
        · simp only [calm_bind, Option.bind_eq_some_iff,
            calm_matchDescriptors (read_leader read) dead] at calmed
          obtain ⟨_, ⟨_, rfl⟩, _, ended, calmed⟩ := calmed
          cases ended
          simp only [Bool.false_eq_true, if_false, List.nil_append] at calmed
          split at calmed
          · cases calmed
            exact .inl rfl
          next opened =>
            simp only [calm_bind, Option.bind_eq_some_iff] at calmed
            obtain ⟨attached, attachCalm, same⟩ := calmed
            cases same
            obtain ⟨matching, there⟩ := List.exists_mem_of_ne_nil _ opened
            obtain ⟨_, _, found⟩ := List.mem_filterMap.mp there
            exact .inr ⟨(info.pid, info, _),
              ⟨read_leader read, dead, matching.2, List.mem_map_of_mem there,
              openTarget_identity found⟩,
              calm_attach (read_leader read) dead attachCalm⟩

theorem scanProcess_attached {pid : Nat} {result : Bool × Nat × FdScan}
    (calmed : calm (scanProcess builtins depth snapshot owners identities pid total scan) = some result)
    (held : scan.attachments.entries ≠ []) : result.2.2.attachments.entries ≠ [] := by
  rcases scanProcess_holders calmed with same | ⟨entry, _, same⟩
  · rw [same]
    exact held
  · rw [same]
    exact List.ne_nil_of_mem (Dict.mem_set _ _ _)

theorem scanProcesses_keeps {kept : FdScan → Prop}
    (keeps : ∀ {pid total : Nat} {scan : FdScan} {result : Bool × Nat × FdScan},
      calm (scanProcess builtins depth snapshot owners identities pid total scan) = some result →
      kept scan → kept result.2.2) {result : FdScan} {entries : List (Option Nat)}
    (calmed : calm (scanProcesses builtins depth snapshot owners identities total scan entries) = some result)
    (held : kept scan) : kept result := by
  induction entries generalizing total scan with
  | nil =>
    cases calmed
    exact held
  | cons entry entries ih =>
    cases entry with
    | none => exact ih calmed held
    | some pid =>
      simp only [scanProcesses, calm_bind, Option.bind_eq_some_iff] at calmed
      obtain ⟨⟨onward, later, next⟩, one, calmed⟩ := calmed
      have still := keeps one held
      split at calmed
      · exact ih calmed still
      · cases calmed
        exact still

def countedForAll (builtins : Builtins) (depth : Nat) (snapshot : Snapshot)
    (entries : List (Option Nat)) : Nat :=
  ((entries.filterMap id).map fun pid : Nat => countedFor builtins depth snapshot pid).sum

theorem calm_scanProcesses {result : FdScan} {entries : List (Option Nat)}
    (within : total ≤ maxTotalFds) (fresh : scan.attachments.entries = []) :
    calm (scanProcesses builtins depth snapshot owners identities total scan entries) = some result ∧
        result.attachments.entries = [] ↔
      (∀ pid : Nat, some pid ∈ entries → QuietProcess builtins depth snapshot owners identities pid) ∧
        total + countedForAll builtins depth snapshot entries ≤ maxTotalFds ∧ result = scan := by
  induction entries generalizing total with
  | nil =>
    simp only [scanProcesses, calm_pure, List.not_mem_nil, false_implies, implies_true,
      countedForAll, List.filterMap_nil, List.map_nil,
      List.sum_nil, Nat.add_zero, within, true_and]
    constructor
    · rintro ⟨same, _⟩
      exact (Option.some.inj same).symm
    · rintro rfl
      exact ⟨rfl, fresh⟩
  | cons entry entries ih =>
    cases entry with
    | none =>
      have same : countedForAll builtins depth snapshot (none :: entries) =
          countedForAll builtins depth snapshot entries :=
        rfl
      rw [scanProcesses, ih within, same]
      simp
    | some pid =>
      have count : countedForAll builtins depth snapshot (some pid :: entries) =
          countedFor builtins depth snapshot pid + countedForAll builtins depth snapshot entries := rfl
      simp only [scanProcesses, calm_bind, Option.bind_eq_some_iff]
      constructor
      · rintro ⟨⟨⟨onward, later, next⟩, one, calmed⟩, empty⟩
        have unheld : next.attachments.entries = [] := by
          by_contra held
          split at calmed
          · exact scanProcesses_keeps scanProcess_attached calmed held empty
          · cases calmed
            exact held empty
        obtain ⟨quiet, room, same⟩ := (calm_scanProcess within fresh).mp ⟨one, unheld⟩
        cases same
        rw [if_pos rfl] at calmed
        obtain ⟨others, space, same⟩ := (ih room).mp ⟨calmed, empty⟩
        refine ⟨?_, by omega, same⟩
        intro other member
        rcases List.mem_cons.mp member with first | there
        · cases first
          exact quiet
        · exact others other there
      · rintro ⟨quiet, room, rfl⟩
        have space : total + countedFor builtins depth snapshot pid ≤ maxTotalFds := by omega
        obtain ⟨one, _⟩ := (calm_scanProcess within fresh).mpr ⟨quiet pid List.mem_cons_self, space, rfl⟩
        obtain ⟨rest, empty⟩ :=
          (ih space).mpr ⟨fun other there => quiet other (List.mem_cons_of_mem _ there),
            by omega, rfl⟩
        exact ⟨⟨_, one, by rw [if_pos rfl]; exact rest⟩, empty⟩

theorem scanProcess_held {pid : Nat} {result : Bool × Nat × FdScan}
    (calmed : calm (scanProcess builtins depth snapshot owners identities pid total scan) = some result)
    (held : ∀ entry ∈ scan.attachments.entries, Held builtins depth snapshot identities entry) :
    ∀ entry ∈ result.2.2.attachments.entries, Held builtins depth snapshot identities entry := by
  rcases scanProcess_holders calmed with same | ⟨holder, holding, same⟩
  · rw [same]
    exact held
  · intro entry member
    rw [same] at member
    rcases Dict.mem_entries_set member with old | rfl
    · exact held entry old
    · exact holding

/-- The targets that are open or locked, and the owners of the databases. -/
def ownersOf (targets : List FileIdentity) : List Nat :=
  (targets.filter (·.role = .main)).map FileIdentity.ownerUid

structure QuietProcesses (builtins : Builtins) (depth : Nat) (snapshot : Snapshot)
    (targets : List FileIdentity) : Prop where
  listed : snapshot.processes.error = none
  few : snapshot.processes.entries.length ≤ maxProcesses
  quiet : ∀ pid : Nat, some pid ∈ snapshot.processes.entries →
    QuietProcess builtins depth snapshot (ownersOf targets) (targets.map FileIdentity.identity) pid
  counted : countedForAll builtins depth snapshot snapshot.processes.entries ≤ maxTotalFds

theorem calm_scanFdHolders {targets : List FileIdentity} {result : FdScan} :
    calm (scanFdHolders builtins depth snapshot targets) = some result ∧ result.attachments.entries = [] ↔
      QuietProcesses builtins depth snapshot targets ∧ result = ⟨Dict.empty, [], true⟩ := by
  simp only [scanFdHolders, calm_bind, calm_boundedDirectoryEntries]
  by_cases few : snapshot.processes.entries.length ≤ maxProcesses
  · rw [if_pos few, Option.bind_some]
    cases broken : snapshot.processes.error with
    | some error =>
      simp only [calm_bind, calm_note, Option.bind_none, reduceCtorEq, false_and, false_iff]
      rintro ⟨quiet, _⟩
      have both := quiet.listed
      rw [broken] at both
      cases both
    | none =>
      have scanned :=
        @calm_scanProcesses builtins depth snapshot ⟨Dict.empty, [], true⟩ 0 (ownersOf targets)
          (targets.map FileIdentity.identity) result snapshot.processes.entries (Nat.zero_le _) rfl
      rw [Nat.zero_add] at scanned
      apply scanned.trans
      constructor
      · rintro ⟨quiet, counted, same⟩
        exact ⟨⟨broken, few, quiet, counted⟩, same⟩
      · rintro ⟨quiet, same⟩
        exact ⟨quiet.quiet, quiet.counted, same⟩
  · rw [if_neg few, Option.bind_none]
    simp only [reduceCtorEq, false_and, false_iff]
    rintro ⟨quiet, _⟩
    exact few quiet.few

end Processes

end TokenPak.Companion.StateLock
