import Mathlib.Data.List.Infix
import Mathlib.Data.List.Sort
import TokenPak.Library.Dict
import TokenPak.Library.Inspection
import TokenPak.Library.Text

/-! The diagnostics that stand before a Codex home is removed: who holds one of its databases open
or locked. The home and the files of the kernel do not change while they are inspected, so each
operation on a path has one answer; the clock is read anew each time. The texts for the reader are
left out. -/

namespace TokenPak.Companion.StateLock
open Library Library.Inspection

/-- What the source language brings along: `int` in base ten and sixteen, and `casefold`. -/
structure Builtins where
  int : List Char → Option Int
  hex : List Char → Option Int
  casefold : String → String

/-- The errors of an operation on a file, as far as they are told apart. -/
inductive OsError where
  | missing
  | denied
  | other
  deriving DecidableEq

inductive Reason where
  | databaseDiscoveryIncomplete
  | databaseLimit
  | databaseTargetIncomplete
  | databaseSetChanged
  | targetInodeReplaced
  | procInspectionIncomplete
  | processLimit
  | fdLimit
  | pidReuse
  | processChanged
  | procLockLimit
  | probeTimeout
  | recursionError
  deriving DecidableEq

structure FileStat where
  regular : Bool
  device : Nat
  inode : Nat
  uid : Nat

structure Listing (Entry : Type) where
  entries : List Entry
  error : Option OsError

abbrev Identity := Nat × Nat

/-- Named, so that every membership test uses this proof. -/
instance lawfulIdentity : LawfulBEq Identity := inferInstance

/-- What the kernel tells about a process: texts as their lines, the arguments of the command as the
words that are not empty. -/
structure ProcessFiles where
  status : Except OsError (List String)
  stat : Except OsError String
  directory : Except OsError Nat
  comm : Except OsError String
  cmdline : Except OsError (List String)
  descriptors : Listing String
  descriptor : String → Except OsError Identity
  fdinfo : String → Except OsError (List String)

/-- A home, with the files whose names it lists, and what the kernel tells. Entries that name no
process are `none`. -/
structure Snapshot where
  home : Except OsError (List String)
  file : String → Except OsError FileStat
  processes : Listing (Option Nat)
  process : Int → ProcessFiles
  locks : Except OsError (Listing String)

def maxDatabases : Nat := 128
def maxHomeEntries : Nat := 4096
def maxProcesses : Nat := 65536
def maxFdsPerProcess : Nat := 65536
def maxTotalFds : Nat := 262144
def maxProcLockRows : Nat := 262144

def pendingByte : Int := 0x40000000
def mainLockLast : Int := pendingByte + 2 + 510 - 1
def shmLockFirst : Int := 120
def shmDms : Int := 128

inductive Role where
  | main | wal | shm
  deriving DecidableEq

structure FileIdentity where
  path : String
  device : Nat
  inode : Nat
  ownerUid : Nat
  role : Role
  dbPath : String
  deriving DecidableEq

namespace FileIdentity

def identity (file : FileIdentity) : Identity := (file.device, file.inode)

/-- `os.major`, `os.minor` -/
def major (device : Nat) : Nat := (device / 2 ^ 8 % 2 ^ 12) + device / 2 ^ 44 % 2 ^ 20 * 2 ^ 12
def minor (device : Nat) : Nat := device % 2 ^ 8 + device / 2 ^ 20 % 2 ^ 24 * 2 ^ 8

end FileIdentity

structure ProcLock where
  pid : Int
  deviceMajor : Int
  deviceMinor : Int
  inode : Int
  start : Int
  last : Option Int
  deriving DecidableEq

structure ProcessInfo where
  pid : Int
  uid : Int
  state : String
  startTime : Int
  deriving DecidableEq

def ProcessInfo.dead (info : ProcessInfo) : Bool := info.state = "X" ∨ info.state = "x" ∨ info.state = "Z"
def ProcessInfo.stopped (info : ProcessInfo) : Bool := info.state = "T" ∨ info.state = "t"

section Directories
variable {Entry : Type}

/-- `_bounded_directory_entries`, behind the entries that were seen. -/
def boundedFrom (limit : Nat) (limitReason : Reason) (error : Option OsError) (seen : List Entry) :
    List Entry → Inspection Reason (List Entry × Option OsError)
  | [] => pure (seen, error)
  | entry :: entries => do
    if ← expired then return (seen, some .other)
    if limit ≤ seen.length then
      note limitReason
      return (seen, some .other)
    boundedFrom limit limitReason error (seen ++ [entry]) entries

def boundedDirectoryEntries (listing : Listing Entry) (limit : Nat) (limitReason : Reason) :
    Inspection Reason (List Entry × Option OsError) :=
  boundedFrom limit limitReason listing.error [] listing.entries

end Directories

section Databases

def isState (name : String) : Bool := "state_".toList.isPrefixOf name.toList
def isCandidate (name : String) : Bool :=
  ".sqlite".toList.isSuffixOf name.toList && (isState name || "logs_".toList.isPrefixOf name.toList)

/-- The databases of the state come first, each kind in the order of the names. -/
def before (first second : String) : Bool :=
  if isState first = isState second then first ≤ second else isState first

/-- The names of a home, unless there are too many. -/
def homeEntries (seen : Nat) : List String → Inspection Reason Bool
  | [] => pure true
  | _ :: names => do
    if ← expired then return false
    if maxHomeEntries < seen + 1 then
      note .databaseLimit
      return false
    homeEntries (seen + 1) names

def checkCandidates (snapshot : Snapshot) (found : List String) (complete : Bool) :
    List String → Inspection Reason (List String × Bool)
  | [] => pure (found, complete)
  | name :: names => do
    if ← expired then return (found, false)
    if maxDatabases ≤ found.length then
      note .databaseLimit
      return (found, false)
    match snapshot.file name with
    | .error .missing => checkCandidates snapshot found complete names
    | .error _ => do
      note .databaseDiscoveryIncomplete
      checkCandidates snapshot found false names
    | .ok stat => checkCandidates snapshot (if stat.regular then found ++ [name] else found) complete names

def candidates (names : List String) : List String :=
  (names.filter isCandidate).insertionSort fun first second => before first second = true

/-- `_db_paths` -/
def dbPaths (snapshot : Snapshot) : Inspection Reason (List String × Bool) :=
  match snapshot.home with
  | .error .missing => pure ([], true)
  | .error _ => do
    note .databaseDiscoveryIncomplete
    return ([], false)
  | .ok names => do
    if ← homeEntries 0 names then checkCandidates snapshot [] true (candidates names)
    else return ([], false)

def parts (db : String) : List (String × Role) := [(db, .main), (db ++ "-wal", .wal), (db ++ "-shm", .shm)]

def targetFrom (snapshot : Snapshot) (db : String) (targets : List FileIdentity) (complete : Bool) :
    List (String × Role) → Inspection Reason (List FileIdentity × Bool)
  | [] => pure (targets, complete)
  | (path, role) :: rest => do
    if ← expired then return (targets, false)
    match snapshot.file path with
    | .error .missing => targetFrom snapshot db targets complete rest
    | .error _ => do
      note .databaseTargetIncomplete
      targetFrom snapshot db targets false rest
    | .ok stat =>
      targetFrom snapshot db
        (if stat.regular then targets ++ [⟨path, stat.device, stat.inode, stat.uid, role, db⟩]
          else targets) complete rest

/-- `_target_files` -/
def targetFiles (snapshot : Snapshot) (db : String) : Inspection Reason (List FileIdentity × Bool) :=
  targetFrom snapshot db [] true (parts db)

end Databases

section Locks
variable (builtins : Builtins)

/-- `split(":", 2)` into exactly three parts. -/
def threeParts (field : List Char) : Option (List Char × List Char × List Char) :=
  match field.dropWhile (· ≠ ':') with
  | [] => none
  | _ :: rest =>
    match rest.dropWhile (· ≠ ':') with
    | [] => none
    | _ :: inode => some (field.takeWhile (· ≠ ':'), rest.takeWhile (· ≠ ':'), inode)

def parseFields : List (List Char) → Option ProcLock
  | _ :: _ :: _ :: _ :: pid :: file :: start :: last :: _ => do
    let pid ← builtins.int pid
    let (major, minor, inode) ← threeParts file
    let major ← builtins.hex major
    let minor ← builtins.hex minor
    let inode ← builtins.int inode
    let start ← builtins.int start
    if last = "EOF".toList then return ⟨pid, major, minor, inode, start, none⟩
    else return ⟨pid, major, minor, inode, start, some (← builtins.int last)⟩
  | _ => none

/-- `_parse_proc_lock_line` -/
def parseProcLockLine (line : String) : Option ProcLock :=
  let line := Text.strip line
  let line :=
    if "lock:".toList.isPrefixOf line.toList then Text.strip (String.ofList (line.toList.drop 5))
      else line
  let fields := Text.split line.toList
  if fields.length < 8 then none
  else parseFields builtins (if fields[1]? = some "->".toList then fields.eraseIdx 1 else fields)

def lockRows (error : Option OsError) (count : Nat) (locks : List ProcLock) (complete : Bool) :
    List String → Inspection Reason (List ProcLock × Bool)
  | [] =>
    match error with
    | none => pure (locks, complete)
    | some _ => do
      note .procInspectionIncomplete
      return (locks, false)
  | row :: rows => do
    if ← expired then return (locks, false)
    if maxProcLockRows < count + 1 then
      note .procLockLimit
      return (locks, false)
    match parseProcLockLine builtins row with
    | some lock => lockRows error (count + 1) (locks ++ [lock]) complete rows
    | none =>
      if Text.strip row = "" then lockRows error (count + 1) locks complete rows
      else do
        note .procInspectionIncomplete
        lockRows error (count + 1) locks false rows

/-- `_read_proc_locks` -/
def readProcLocks (snapshot : Snapshot) : Inspection Reason (List ProcLock × Bool) :=
  match snapshot.locks with
  | .error _ => do
    note .procInspectionIncomplete
    return ([], false)
  | .ok listing => lockRows builtins listing.error 0 [] true listing.entries

def rangesOverlap (firstStart : Int) (firstLast : Option Int) (secondStart secondLast : Int) : Bool :=
  firstStart ≤ secondLast ∧ secondStart ≤ firstLast.getD (2 ^ 63 - 1)

/-- The row is about the file with these numbers. -/
def ProcLock.names (lock : ProcLock) (target : FileIdentity) : Bool :=
  lock.deviceMajor = FileIdentity.major target.device ∧
    lock.deviceMinor = FileIdentity.minor target.device ∧ lock.inode = target.inode

/-- `_lock_targets_file` -/
def lockTargetsFile (lock : ProcLock) (target : FileIdentity) : Bool :=
  lock.names target &&
    match target.role with
    | .main => rangesOverlap lock.start lock.last pendingByte mainLockLast
    | .shm => rangesOverlap lock.start lock.last shmLockFirst shmDms
    | .wal => false

end Locks

section Processes
variable (builtins : Builtins)

/-- The last lines that name the leader of the threads and the owner. -/
def parseStatus (tgid uid : Option Int) : List String → Option (Option Int × Option Int)
  | [] => some (tgid, uid)
  | line :: lines =>
    if "Tgid:".toList.isPrefixOf line.toList then
      match builtins.int (Text.strip (String.ofList (line.toList.drop 5))).toList with
      | some number => parseStatus (some number) uid lines
      | none => none
    else if "Uid:".toList.isPrefixOf line.toList then
      match (Text.split (line.toList.drop 4)).head?.bind builtins.int with
      | some number => parseStatus tgid (some number) lines
      | none => none
    else parseStatus tgid uid lines

/-- What stands behind the last closing parenthesis. -/
def behindName (stat : List Char) : Option (List Char) :=
  if ')' ∈ stat then some (stat.reverse.takeWhile (· ≠ ')')).reverse else none

def parseStat (pid uid : Int) (stat : String) : Option ProcessInfo := do
  let tail := Text.split (← behindName stat.toList)
  if tail.length ≤ 19 then none
  else
    let state ← tail[0]?
    let startTime ← (← tail[19]?) |> builtins.int
    return ⟨pid, uid, String.ofList state, startTime⟩

inductive ProcessRead where
  | recursionError
  | absent
  | found (info : ProcessInfo)
  deriving DecidableEq

/-- `_read_process_info`, with the calls that the interpreter allows one inside the other. -/
def readProcessInfo (snapshot : Snapshot) : Nat → Int → ProcessRead
  | 0, _ => .recursionError
  | depth + 1, pid =>
    if pid ≤ 0 then .absent
    else
      match (snapshot.process pid).status, (snapshot.process pid).stat with
      | .ok status, .ok stat =>
        match parseStatus builtins none none status with
        | some (some tgid, some uid) =>
          if tgid ≠ pid then readProcessInfo snapshot depth tgid
          else
            match parseStat builtins pid uid stat with
            | some info => .found info
            | none => .absent
        | _ => .absent
      | _, _ => .absent

/-- An exception that ends the inspection is noted. -/
def readProcess (depth : Nat) (snapshot : Snapshot) (pid : Int) : Inspection Reason (Option ProcessInfo) :=
  match readProcessInfo builtins snapshot depth pid with
  | .found info => pure (some info)
  | .absent => pure none
  | .recursionError => do
    note .recursionError
    return none

inductive Outcome where
  | same | reused | dead | exited | unreadable
  deriving DecidableEq

/-- `_revalidate_process` -/
def revalidateProcess (depth : Nat) (snapshot : Snapshot) (info : ProcessInfo) :
    Inspection Reason (Outcome × Option ProcessInfo) := do
  match ← readProcess builtins depth snapshot info.pid with
  | some current =>
    if current.dead then return (.dead, some current)
    else if current.startTime ≠ info.startTime then return (.reused, some current)
    else return (.same, some current)
  | none =>
    match (snapshot.process info.pid).directory with
    | .error .missing => return (.exited, none)
    | _ => return (.unreadable, none)

/-- Parentheses around a name are taken off; as many rounds as letters are enough. -/
def unwrap : Nat → List Char → List Char
  | 0, name => name
  | rounds + 1, name =>
    if 2 ≤ name.length ∧ name.head? = some '(' ∧ name.getLast? = some ')' then
      unwrap rounds (Text.strip (String.ofList name.tail.dropLast)).toList
    else name

/-- `Path.name`: the last component that is not a dot. -/
def pathName (path : List Char) : List Char :=
  ((path.splitOn '/').filter fun component => component ≠ [] ∧ component ≠ ['.']).getLast?.getD []

/-- `_normalize_process_name` -/
def normalizeProcessName (value : String) : String :=
  let stripped := (Text.strip value).toList
  builtins.casefold (String.ofList (pathName (unwrap stripped.length stripped)))

def mentionsCodex (text : String) : Bool := "codex".toList <:+: text.toList

/-- `_codex_process_kind` -/
def codexProcessKind (files : ProcessFiles) : Option Bool :=
  let comm := match files.comm with
    | .ok text => Text.strip text
    | .error _ => ""
  let argv := match files.cmdline with
    | .ok words => words
    | .error _ => []
  let allNames := (if comm = "" then [] else [comm]) ++ argv
  let normalized := (allNames.map (normalizeProcessName builtins)).filter (· ≠ "")
  if normalized = [] then none else some (normalized.any mentionsCodex)

/-- `_inspection_failure_is_unsafe` -/
def inspectionFailureIsUnsafe (depth : Nat) (snapshot : Snapshot) (info : ProcessInfo)
    (owners : List Nat) (error : OsError) :
    Inspection Reason (Bool × Option Reason) := do
  if info.uid ∉ owners.map Int.ofNat then return (false, none)
  match ← revalidateProcess builtins depth snapshot info with
  | (.exited, _) => return (false, none)
  | (.dead, _) => return (false, none)
  | (.reused, _) => return (true, some .pidReuse)
  | (.unreadable, _) => return (true, some .processChanged)
  | (.same, none) => return (true, some .processChanged)
  | (.same, some current) =>
    if current.uid ∉ owners.map Int.ofNat then return (true, some .pidReuse)
    else if error ≠ .denied then return (true, some .procInspectionIncomplete)
    else if codexProcessKind builtins (snapshot.process current.pid) ≠ some false then
      return (true, some .procInspectionIncomplete)
    else return (false, none)

end Processes

structure FdScan where
  attachments : Dict Int (ProcessInfo × List Identity)
  locks : List ProcLock
  complete : Bool

section Scan
variable (builtins : Builtins) (depth : Nat) (snapshot : Snapshot) (owners : List Nat)
  (identities : List Identity)

def judgeFailure (info : ProcessInfo) (error : OsError) : Inspection Reason Bool := do
  let (unsafeFailure, reason) ← inspectionFailureIsUnsafe builtins depth snapshot info owners error
  if unsafeFailure then
    note (reason.getD .procInspectionIncomplete)
    return false
  return true

def matchDescriptors (info : ProcessInfo) (found : List (String × Identity)) (complete : Bool) :
    List String → Inspection Reason (List (String × Identity) × Bool)
  | [] => pure (found, complete)
  | descriptor :: descriptors => do
    if ← expired then return (found, false)
    match (snapshot.process info.pid).descriptor descriptor with
    | .error .missing => matchDescriptors info found complete descriptors
    | .error error => do
      let safe ← judgeFailure builtins depth snapshot owners info error
      matchDescriptors info found (complete && safe) descriptors
    | .ok identity =>
      matchDescriptors info (if identity ∈ identities then found ++ [(descriptor, identity)]
        else found) complete descriptors

def holderLocks (info : ProcessInfo) (scan : FdScan) : List (String × Identity) → Inspection Reason FdScan
  | [] => pure scan
  | (descriptor, _) :: rest => do
    if ← expired then return { scan with complete := false }
    match (snapshot.process info.pid).fdinfo descriptor with
    | .error .missing => holderLocks info scan rest
    | .error error => do
      let safe ← judgeFailure builtins depth snapshot owners info error
      holderLocks info { scan with complete := scan.complete && safe } rest
    | .ok rows =>
      let locks :=
        (rows.filter fun row =>
          "lock:".toList.isPrefixOf (row.toList.dropWhile Text.isSpace)).filterMap
        (parseProcLockLine builtins)
      holderLocks info { scan with locks := scan.locks ++ locks } rest

/-- A process that has descriptors on targets is a holder, when it is still the same. -/
def attach (info : ProcessInfo) (found : List (String × Identity)) (scan : FdScan) :
    Inspection Reason FdScan := do
  match ← revalidateProcess builtins depth snapshot info with
  | (.exited, _) => return scan
  | (.dead, _) => return scan
  | (.reused, _) =>
    note .pidReuse
    return { scan with complete := false }
  | (.same, some current) =>
    holderLocks builtins depth snapshot owners current
      { scan with attachments := scan.attachments.set current.pid (current, found.map Prod.snd) } found
  | _ =>
    note .processChanged
    return { scan with complete := false }

/-- The descriptors of a live process: whether the scan goes on, the descriptors counted so far, and
what was found. -/
def scanDescriptors (info : ProcessInfo) (total : Nat) (scan : FdScan) :
    Inspection Reason (Bool × Nat × FdScan) := do
  let (descriptors, error) ← boundedDirectoryEntries (snapshot.process info.pid).descriptors maxFdsPerProcess .fdLimit
  match error with
  | some error => do
    let safe ← judgeFailure builtins depth snapshot owners info error
    return (true, total, { scan with complete := scan.complete && safe })
  | none =>
    if maxTotalFds < total + descriptors.length then
      note .fdLimit
      return (false, total + descriptors.length, { scan with complete := false })
    let (found, complete) ← matchDescriptors builtins depth snapshot owners identities info [] scan.complete descriptors
    if ← expired then return (false, total + descriptors.length, { scan with complete := complete })
    if found = [] then return (true, total + descriptors.length, { scan with complete := complete })
    let scan ← attach builtins depth snapshot owners info found { scan with complete := complete }
    return (true, total + descriptors.length, scan)

/-- A process whose files cannot be read is passed over when it is gone or belongs to somebody else. -/
def scanUnread (pid : Nat) (scan : FdScan) : Inspection Reason FdScan :=
  match (snapshot.process pid).directory with
  | .error .missing => pure scan
  | .error _ => do
    note .procInspectionIncomplete
    return { scan with complete := false }
  | .ok uid =>
    if uid ∈ owners then do
      note .procInspectionIncomplete
      return { scan with complete := false }
    else pure scan

def scanProcess (pid total : Nat) (scan : FdScan) : Inspection Reason (Bool × Nat × FdScan) := do
  if ← expired then return (false, total, { scan with complete := false })
  match ← readProcess builtins depth snapshot pid with
  | none => return (true, total, ← scanUnread snapshot owners pid scan)
  | some info =>
    if info.dead then return (true, total, scan)
    else if (scan.attachments.get info.pid).isSome then return (true, total, scan)
    else scanDescriptors builtins depth snapshot owners identities info total scan

def scanProcesses (total : Nat) (scan : FdScan) : List (Option Nat) → Inspection Reason FdScan
  | [] => pure scan
  | none :: entries => scanProcesses total scan entries
  | some pid :: entries => do
    let (onward, total, scan) ← scanProcess builtins depth snapshot owners identities pid total scan
    if onward then scanProcesses total scan entries else return scan

end Scan

section Probe
variable (builtins : Builtins) (depth : Nat) (snapshot : Snapshot)

/-- `_scan_fd_holders` -/
def scanFdHolders (targets : List FileIdentity) : Inspection Reason FdScan := do
  let (entries, error) ← boundedDirectoryEntries snapshot.processes maxProcesses .processLimit
  match error with
  | some _ =>
    note .procInspectionIncomplete
    return ⟨Dict.empty, [], false⟩
  | none =>
    scanProcesses builtins depth snapshot ((targets.filter (·.role = .main)).map FileIdentity.ownerUid)
      (targets.map FileIdentity.identity) 0 ⟨Dict.empty, [], true⟩ entries

def targetsByDb : List String → Inspection Reason (List (String × List FileIdentity))
  | [] => pure []
  | db :: dbs => do
    let (targets, complete) ← targetFiles snapshot db
    if !complete then note .databaseTargetIncomplete
    let others ← targetsByDb dbs
    return (db, targets) :: others

/-- `_targets_unchanged` -/
def targetsUnchanged (db : String) (earlier : List FileIdentity) : Inspection Reason Unit := do
  let (later, complete) ← targetFiles snapshot db
  if !complete then note .databaseTargetIncomplete
  else if !(earlier.all (· ∈ later) && later.all (· ∈ earlier)) then note .targetInodeReplaced

def targetsOfUnchanged : List (String × List FileIdentity) → Inspection Reason Unit
  | [] => pure ()
  | (db, targets) :: rest => do
    if ← expired then return ()
    targetsUnchanged snapshot db targets
    targetsOfUnchanged rest

/-- `_revalidate_database_snapshot` -/
def revalidateDatabaseSnapshot (dbs : List String) (targets : List (String × List FileIdentity)) :
    Inspection Reason Unit := do
  let (later, complete) ← dbPaths snapshot
  if !complete then note .databaseDiscoveryIncomplete
  else if later ≠ dbs then note .databaseSetChanged
  targetsOfUnchanged snapshot targets

/-- The owners of the locks on targets, as they are before the processes are scanned. -/
def observeLockOwners (targets : List FileIdentity) (observed : Dict Int (Option ProcessInfo)) :
    List ProcLock → Inspection Reason (Dict Int (Option ProcessInfo))
  | [] => pure observed
  | lock :: locks => do
    if ← expired then return observed
    if lock.pid ≤ 0 ∨ (observed.get lock.pid).isSome then observeLockOwners targets observed locks
    else if targets.any (lockTargetsFile lock) then
      match ← readProcess builtins depth snapshot lock.pid with
      | some info =>
        if info.dead then
          note .processChanged
          observeLockOwners targets (observed.set lock.pid none) locks
        else observeLockOwners targets (observed.set lock.pid (some info)) locks
      | none =>
        note .processChanged
        observeLockOwners targets (observed.set lock.pid none) locks
    else observeLockOwners targets observed locks

/-- `_revalidate_attachments` -/
def revalidateAttachments (validated : List (Int × ProcessInfo × List Identity)) :
    List (Int × ProcessInfo × List Identity) → Inspection Reason (List (Int × ProcessInfo × List Identity))
  | [] => pure validated
  | (pid, observed, attached) :: rest => do
    if ← expired then return validated
    match ← revalidateProcess builtins depth snapshot observed with
    | (.exited, _) => revalidateAttachments validated rest
    | (.dead, _) => revalidateAttachments validated rest
    | (.reused, _) =>
      note .pidReuse
      revalidateAttachments validated rest
    | (.same, some current) => revalidateAttachments (validated ++ [(pid, current, attached)]) rest
    | _ =>
      note .processChanged
      revalidateAttachments validated rest

/-- What is known of each database: its holders, and whether a lock lies on it. -/
structure Evidence where
  holders : Dict String (Dict Int ProcessInfo)
  relevant : Dict String Bool

namespace Evidence

def hold (evidence : Evidence) (pid : Int) (info : ProcessInfo) (target : FileIdentity) : Evidence :=
  { evidence with
    holders := evidence.holders.set target.dbPath (((evidence.holders.get target.dbPath).getD Dict.empty).set pid info) }

def lockedBy (evidence : Evidence) (target : FileIdentity) : Evidence :=
  { evidence with relevant := evidence.relevant.set target.dbPath true }

/-- The holders of a database, when it is held or locked. -/
def unsafeHolders (evidence : Evidence) (db : String) : Option (List (Int × ProcessInfo)) :=
  let holders := ((evidence.holders.get db).getD Dict.empty).entries
  if holders ≠ [] ∨ (evidence.relevant.get db).getD false = true then some holders else none

end Evidence

def collectHolders (targets : List FileIdentity) (evidence : Evidence) :
    List (Int × ProcessInfo × List Identity) → Inspection Reason Evidence
  | [] => pure evidence
  | (pid, info, attached) :: rest => do
    if ← expired then return evidence
    let held := attached.flatMap fun identity => targets.filter (·.identity = identity)
    collectHolders targets (held.foldl (fun evidence target => evidence.hold pid info target) evidence) rest

def lockOwner (observations : Dict Int (Option ProcessInfo))
    (attachments : Dict Int (ProcessInfo × List Identity)) (pid : Int) :
    Inspection Reason (Option ProcessInfo) := do
  let observed := match observations.get pid with
    | some observed => observed
    | none => (attachments.get pid).map Prod.fst
  match observed with
  | none =>
    note .processChanged
    return none
  | some observed =>
    match ← revalidateProcess builtins depth snapshot observed with
    | (.reused, _) =>
      note .pidReuse
      return none
    | (.same, some current) => return some current
    | _ =>
      note .processChanged
      return none

def judgeLocks (targets : List FileIdentity) (observations : Dict Int (Option ProcessInfo))
    (attachments : Dict Int (ProcessInfo × List Identity)) (cache : Dict Int (Option ProcessInfo))
    (evidence : Evidence) :
    List ProcLock → Inspection Reason Evidence
  | [] => pure evidence
  | lock :: locks => do
    if ← expired then return evidence
    let relevant := targets.filter (lockTargetsFile lock)
    if relevant = [] then judgeLocks targets observations attachments cache evidence locks
    else
      let evidence := relevant.foldl Evidence.lockedBy evidence
      if lock.pid ≤ 0 then judgeLocks targets observations attachments cache evidence locks
      else
        let current ← match cache.get lock.pid with
          | some current => pure current
          | none => lockOwner builtins depth snapshot observations attachments lock.pid
        let evidence := match current with
          | some info => relevant.foldl (fun evidence target => evidence.hold info.pid info target) evidence
          | none => evidence
        judgeLocks targets observations attachments (cache.set lock.pid current) evidence locks

/-- What the inspection comes to, before the reasons are looked at. -/
inductive Found where
  | undiscovered
  | noDatabase
  | judged (dbs : List String) (discoveryComplete : Bool) (evidence : Evidence)

def inspectDatabases (dbs : List String) (discoveryComplete : Bool) : Inspection Reason Found := do
  let targetsOf ← targetsByDb snapshot dbs
  let targets := targetsOf.flatMap Prod.snd
  let (locks, locksComplete) ← readProcLocks builtins snapshot
  let observations ← observeLockOwners builtins depth snapshot targets Dict.empty locks
  let scan ← scanFdHolders builtins depth snapshot targets
  if !locksComplete || !scan.complete then note .procInspectionIncomplete
  revalidateDatabaseSnapshot snapshot dbs targetsOf
  let validated ← revalidateAttachments builtins depth snapshot [] scan.attachments.entries
  let evidence ← collectHolders targets ⟨Dict.empty, Dict.empty⟩ validated
  let evidence ← judgeLocks builtins depth snapshot targets observations scan.attachments Dict.empty evidence (locks ++ scan.locks)
  let _ ← expired
  return .judged dbs discoveryComplete evidence

def inspect : Inspection Reason Found := do
  let (dbs, discoveryComplete) ← dbPaths snapshot
  if dbs = [] then return if discoveryComplete then .noDatabase else .undiscovered
  else inspectDatabases builtins depth snapshot dbs discoveryComplete

structure LockStatus where
  dbPath : String
  found : Bool
  locked : Bool
  holderPids : List Int
  stoppedPids : List Int
  runningPids : List Int
  diagnosticsComplete : Bool
  incompleteReasons : List Reason
  deriving DecidableEq

/-- The file that is named when there is no database. -/
def stateDbName : String := "state_5.sqlite"

def sortedPids (holders : List (Int × ProcessInfo)) : List Int := (holders.map Prod.fst).insertionSort (· ≤ ·)

/-- The first database that is held or locked decides, then the reasons for which the inspection is
incomplete. -/
def statusOf (reasons : List Reason) : Found → LockStatus
  | .undiscovered =>
      ⟨stateDbName, true, true, [], [], [], false,
        if reasons = [] then [.databaseDiscoveryIncomplete] else reasons⟩
  | .noDatabase => ⟨stateDbName, false, false, [], [], [], true, []⟩
  | .judged dbs discoveryComplete evidence =>
    let complete := discoveryComplete && reasons.isEmpty
    match dbs.findSome? fun db => (evidence.unsafeHolders db).map fun holders => (db, holders) with
    | some (db, holders) =>
      ⟨db, true, true, sortedPids holders, sortedPids (holders.filter (·.2.stopped)),
        sortedPids (holders.filter (!·.2.stopped)),
        complete, reasons⟩
    | none => ⟨dbs.headD stateDbName, true, !complete, [], [], [], complete, reasons⟩

/-- `probe` on Linux, with which readings of the clock are before the deadline: none when an
exception ends it. -/
def probe (early : Nat → Bool) : Option LockStatus :=
  let (found, budget) := (inspect builtins depth snapshot).run .probeTimeout early ⟨0, []⟩
  if .recursionError ∈ budget.reasons then none else some (statusOf budget.reasons found)

end Probe
end TokenPak.Companion.StateLock
