import TokenPak.Cache.CacheStore

/-! What a shared file holds after a save. A save writes everything that is in the copy of its
process, what it has changed and what it has only loaded alike, so it is right about a key that
it has not written only as long as nobody else has. -/

namespace TokenPak.Cache.CacheStore
open Library

section Writes
variable {Value : Type} {calls later : List (Call Value)} {key : String} {value : Option Value}

/-- What the file should hold for a key after a call, where it held a value before. -/
def Call.outcome (key : String) (held : Option Value) : Call Value → Option Value
  | .get _ => held
  | .set other value _ => if other = key then some value else held
  | .delete other => if other = key then none else held
  | .clear => none

def latest (key : String) (held : Option Value) (calls : List (Call Value)) : Option Value :=
  calls.foldl (Call.outcome key) held

def Call.Touches (key : String) : Call Value → Prop
  | .get _ => False
  | .set other _ _ | .delete other => other = key
  | .clear => True

theorem outcome_of_not_touches {call : Call Value} (apart : ¬ call.Touches key) :
    call.outcome key value = value := by
  cases call with
  | get other => rfl
  | set other set ttl => exact if_neg apart
  | delete other => exact if_neg apart
  | clear => exact absurd trivial apart

theorem outcome_of_touches {call : Call Value} (touches : call.Touches key) (other : Option Value) :
    call.outcome key value = call.outcome key other := by
  cases call with
  | get name => exact touches.elim
  | set name set ttl =>
    have same : name = key := touches
    simp [Call.outcome, same]
  | delete name =>
    have same : name = key := touches
    simp [Call.outcome, same]
  | clear => rfl

theorem latest_append :
    latest key value (calls ++ later) = latest key (latest key value calls) later :=
  List.foldl_append

theorem latest_of_untouched (apart : ∀ call ∈ calls, ¬ call.Touches key) :
    latest key value calls = value := by
  induction calls generalizing value with
  | nil => rfl
  | cons call calls ih =>
    have first : call.outcome key value = value := outcome_of_not_touches (apart call List.mem_cons_self)
    have rest : latest key (call.outcome key value) calls = call.outcome key value :=
      ih fun other member => apart other (List.mem_cons_of_mem _ member)
    exact rest.trans first

/-- Once a key is written, what it held before does not matter. -/
theorem latest_of_touched (touched : ∃ call ∈ calls, call.Touches key) (other : Option Value) :
    latest key value calls = latest key other calls := by
  induction calls generalizing value other with
  | nil =>
    obtain ⟨_, member, _⟩ := touched
    cases member
  | cons call calls ih =>
    by_cases here : call.Touches key
    · have same : call.outcome key value = call.outcome key other := outcome_of_touches here other
      exact congrArg (fun held => latest key held calls) same
    · obtain ⟨found, member, touches⟩ := touched
      rcases List.mem_cons.mp member with same | rest
      · exact absurd (same ▸ touches) here
      · exact ih ⟨found, rest, touches⟩ _

end Writes

section Copies
variable {Value : Type} {disk : Disk Value} {store : Store Value} {key : String} {calls : List (Call Value)}

def Lasting (dict : Dict String (CacheEntry Value)) :
    Prop := ∀ key entry, dict.get key = some entry → entry.expiresAt = none

def shown (dict : Dict String (CacheEntry Value)) (key : String) : Option Value :=
  (dict.get key).map CacheEntry.value

/-- What a process knows of a key that it has written since its last save, and of one that it has not. -/
structure Tracks (store : Store Value) (calls : List (Call Value)) (key : String) : Prop where
  written : (∃ call ∈ calls, call.Touches key) → shown store.data key = latest key none calls ∧
    (store.data.get key = none → store.resetPending = true ∨ key ∈ store.deleted)
  unwritten : (∀ call ∈ calls, ¬ call.Touches key) → store.resetPending = false ∧ key ∉ store.deleted

theorem get_merged (disk : Disk Value) (store : Store Value) (key : String) : (merged disk store).get key =
    (store.data.get key).or (if store.resetPending = true ∨ key ∈ store.deleted then none
      else disk.get key) := by
  rw [merged, Dict.get_update]
  congr 1
  cases store.resetPending with
  | true => rfl
  | false =>
    simp only [Bool.false_eq_true, false_or]
    exact Dict.get_popAll disk store.deleted key

theorem Lasting.merged (disk_lasting : Lasting disk) (data_lasting : Lasting store.data) :
    Lasting (merged disk store) := by
  intro key entry found
  rw [get_merged] at found
  cases own : store.data.get key with
  | some held =>
    rw [own] at found
    cases found
    exact data_lasting key entry own
  | none =>
    rw [own] at found
    split at found
    · cases found
    · exact disk_lasting key entry found

theorem save_disk (disk_lasting : Lasting disk) (data_lasting : Lasting store.data) (now : Int) :
    (save now disk store).1 = merged disk store := by
  apply Dict.filter_eq_self
  intro entry member
  have lasting := (disk_lasting.merged data_lasting) entry.1 entry.2 (Dict.get_of_mem member)
  rw [lasting]
  rfl

theorem shown_written (tracks : Tracks store calls key) (touched : ∃ call ∈ calls, call.Touches key)
    (held : Option Value) :
    shown (merged disk store) key = latest key held calls := by
  obtain ⟨same, gone⟩ := tracks.written touched
  rw [latest_of_touched touched none, ← same, shown, shown, get_merged]
  cases own : store.data.get key with
  | some entry => rfl
  | none => rw [if_pos (gone own), Option.none_or]

theorem shown_unwritten (tracks : Tracks store calls key) (apart : ∀ call ∈ calls, ¬ call.Touches key) :
    shown (merged disk store) key = (shown store.data key).or (shown disk key) := by
  obtain ⟨kept, standing⟩ := tracks.unwritten apart
  rw [shown, shown, get_merged]
  have disk_read : ¬ (store.resetPending = true ∨ key ∈ store.deleted) := by
    rw [kept]
    simpa using standing
  rw [if_neg disk_read]
  cases store.data.get key with
  | some entry => rfl
  | none => rfl

end Copies

section Calls
variable {Value : Type} {disk : Disk Value} {store : Store Value} {key : String} {calls : List (Call Value)}

theorem Tracks.load (tracks : Tracks store calls key) (unloaded : store.loaded = false → calls = [])
    (disk : Disk Value) :
    Tracks (ensureLoaded disk store) calls key := by
  unfold ensureLoaded
  split
  · exact tracks
  next fresh =>
    have none_called : calls = [] := unloaded (by simpa using fresh)
    subst none_called
    exact ⟨fun touched => absurd touched (by simp), tracks.unwritten⟩

theorem Lasting.load (disk_lasting : Lasting disk) (data_lasting : Lasting store.data) :
    Lasting (ensureLoaded disk store).data := by
  unfold ensureLoaded
  split
  · exact data_lasting
  · exact disk_lasting

theorem Tracks.other (tracks : Tracks store calls key) {after : Store Value} {call : Call Value}
    (apart : ¬ call.Touches key)
    (data : after.data.get key = store.data.get key) (reset : after.resetPending = store.resetPending)
    (deleted : key ∈ after.deleted ↔ key ∈ store.deleted) : Tracks after (calls ++ [call]) key := by
  have same : latest key none (calls ++ [call]) = latest key none calls := by
    rw [latest_append]
    exact outcome_of_not_touches apart
  constructor
  · rintro ⟨found, member, touches⟩
    rcases List.mem_append.mp member with old | new
    · rw [shown, data, same, reset, deleted]
      exact tracks.written ⟨found, old, touches⟩
    · exact absurd (List.mem_singleton.mp new ▸ touches) apart
  · intro untouched
    rw [reset, deleted]
    exact tracks.unwritten fun found member => untouched found (List.mem_append_left _ member)

theorem Tracks.own {after : Store Value} {call : Call Value} (touches : call.Touches key)
    (value : shown after.data key = call.outcome key none)
    (gone : after.data.get key = none → after.resetPending = true ∨ key ∈ after.deleted) :
    Tracks after (calls ++ [call]) key := by
  constructor
  · intro _
    refine ⟨?_, gone⟩
    rw [value, latest_append]
    exact outcome_of_touches touches _
  · intro untouched
    exact absurd touches (untouched call (by simp))

theorem tracks_set (tracks : Tracks store calls key) (now : Int)
    (unloaded : store.loaded = false → calls = [])
    (other : String) (value : Value) (ttl : Option Int) :
    Tracks (set now disk other value ttl store) (calls ++ [Call.set other value ttl]) key := by
  have loaded := tracks.load unloaded disk
  by_cases same : other = key
  · subst same
    have touches : (Call.set other value ttl).Touches other := rfl
    apply Tracks.own touches
    · simp [set, shown, Dict.get_set_self, Call.outcome]
    · simp [set, Dict.get_set_self]
  · exact loaded.other same (Dict.get_set_of_ne (Ne.symm same)) rfl Iff.rfl

theorem tracks_delete (tracks : Tracks store calls key)
    (unloaded : store.loaded = false → calls = []) (other : String) :
    Tracks (delete disk other store).2 (calls ++ [Call.delete other]) key := by
  have loaded := tracks.load unloaded disk
  by_cases same : other = key
  · subst same
    have touches : (Call.delete other : Call Value).Touches other := rfl
    apply Tracks.own touches
    · simp [delete, shown, Dict.get_pop_self, Call.outcome]
    · intro _
      exact .inr (by simp [delete])
  · have apart : ¬ (Call.delete other : Call Value).Touches key := same
    refine loaded.other apart (Dict.get_pop_of_ne (Ne.symm same)) rfl ?_
    simp [delete, Ne.symm same]

theorem tracks_clear (disk : Disk Value) (store : Store Value) (calls : List (Call Value)) (key : String) :
    Tracks (clear disk store) (calls ++ [Call.clear]) key :=
  Tracks.own trivial rfl fun _ => .inl rfl

theorem get_store (disk_lasting : Lasting disk) (data_lasting : Lasting store.data) (now : Int)
    (other : String) :
    (get now disk other store).2 = ensureLoaded disk store := by
  simp only [get]
  split
  · rfl
  next entry found =>
    have lasting := (disk_lasting.load data_lasting) other entry found
    simp [CacheEntry.expired, lasting]

end Calls

section Histories
variable {Process Value : Type} [DecidableEq Process] {initial : Disk Value} {shared : Shared Process Value}
variable {actions : List (Action Process Value)}

/-- What holds of the file, the copies and the calls since the last saves. -/
structure Kept (shared : Shared Process Value) : Prop where
  disk : Lasting shared.disk
  data : ∀ process, Lasting (shared.stores process).data
  unloaded : ∀ process, (shared.stores process).loaded = false → shared.unsaved process = []
  tracks : ∀ process key, Tracks (shared.stores process) (shared.unsaved process) key

/-- The file holds the last write of every key, in the order of the saves. -/
def Law (initial : Disk Value) (shared : Shared Process Value) : Prop :=
  ∀ key, shown shared.disk key = latest key (shown initial key) shared.saved

def Action.Permanent : Action Process Value → Prop
  | .call _ _ (.set _ _ ttl) => ttl = none
  | _ => True

/-- A save comes while the file still has, of every key that the process has not written since its
last save, the value in the copy of the process. -/
def UpToDate (shared : Shared Process Value) : Action Process Value → Prop
  | .call .. => True
  | .save process _ =>
      shared.owed process ≠ 0 → ∀ key value, shown (shared.stores process).data key = some value →
      (∀ call ∈ shared.unsaved process, ¬ call.Touches key) → shown shared.disk key = some value

omit [DecidableEq Process] in
theorem start_kept (lasting : Lasting initial) : Kept (start initial : Shared Process Value) := by
  refine ⟨lasting, ?_, fun _ _ => rfl, ?_⟩
  · intro process key entry found
    cases found
  · intro process key
    refine ⟨?_, fun _ => ⟨rfl, List.not_mem_nil⟩⟩
    rintro ⟨_, member, _⟩
    cases member

theorem Kept.write (kept : Kept shared) {process : Process} {store : Store Value}
    {call : Call Value} {saves : Bool}
    (loaded : store.loaded = true) (lasting : Lasting store.data)
    (tracks : ∀ key, Tracks store (shared.unsaved process ++ [call]) key) :
    Kept (shared.write process store call saves) := by
  refine ⟨kept.disk, ?_, ?_, ?_⟩
  · intro other
    by_cases same : other = process
    · subst same
      simpa [Shared.write] using lasting
    · simpa [Shared.write, same] using kept.data other
  · intro other
    by_cases same : other = process
    · subst same
      simp [Shared.write, loaded]
    · simpa [Shared.write, same] using kept.unloaded other
  · intro other key
    by_cases same : other = process
    · subst same
      simpa [Shared.write] using tracks key
    · simpa [Shared.write, same] using kept.tracks other key

theorem ensureLoaded_loaded (disk : Disk Value) (store : Store Value) :
    (ensureLoaded disk store).loaded = true := by
  unfold ensureLoaded
  split
  next loaded => exact loaded
  next => rfl

theorem Lasting.set {dict : Dict String (CacheEntry Value)} (lasting : Lasting dict) (key : String)
    (value : Value) :
    Lasting (dict.set key ⟨value, none⟩) := by
  intro other entry found
  by_cases same : other = key
  · subst same
    rw [Dict.get_set_self] at found
    cases found
    rfl
  · rw [Dict.get_set_of_ne same] at found
    exact lasting other entry found

theorem Lasting.pop {dict : Dict String (CacheEntry Value)} (lasting : Lasting dict)
    (key : String) : Lasting (dict.pop key) := by
  intro other entry found
  by_cases same : other = key
  · subst same
    rw [Dict.get_pop_self] at found
    cases found
  · rw [Dict.get_pop_of_ne same] at found
    exact lasting other entry found

theorem act_kept (kept : Kept shared) {action : Action Process Value}
    (permanent : action.Permanent) : Kept (act shared action) := by
  cases action with
  | call process now call =>
    have lasting := kept.disk.load (kept.data process)
    have loaded := ensureLoaded_loaded shared.disk (shared.stores process)
    cases call with
    | get key =>
      simp only [act, get_store kept.disk (kept.data process)]
      refine ⟨kept.disk, ?_, ?_, ?_⟩
      · intro other
        by_cases same : other = process
        · subst same
          simpa using lasting
        · simpa [same] using kept.data other
      · intro other
        by_cases same : other = process
        · subst same
          simp [loaded]
        · simpa [same] using kept.unloaded other
      · intro other key
        by_cases same : other = process
        · subst same
          simpa using (kept.tracks other key).load (kept.unloaded other) shared.disk
        · simpa [same] using kept.tracks other key
    | set key value ttl =>
      have never : ttl = none := permanent
      subst never
      exact kept.write loaded (lasting.set key value) fun other =>
        tracks_set (kept.tracks process other) now (kept.unloaded process) key value none
    | delete key =>
      exact kept.write loaded (lasting.pop key) fun other =>
        tracks_delete (kept.tracks process other) (kept.unloaded process) key
    | clear =>
      refine kept.write loaded ?_ fun other => tracks_clear shared.disk (shared.stores process) _ other
      intro key entry found
      cases found
  | save process now =>
    simp only [act]
    split
    · exact kept
    · have merged_lasting := kept.disk.merged (kept.data process)
      have written : (save now shared.disk (shared.stores process)).1 =
          merged shared.disk (shared.stores process) :=
        save_disk kept.disk (kept.data process) now
      have copied : (save now shared.disk (shared.stores process)).2.data =
          merged shared.disk (shared.stores process) :=
        written
      refine ⟨?_, ?_, ?_, ?_⟩
      · rw [written]
        exact merged_lasting
      · intro other
        by_cases same : other = process
        · subst same
          simpa [copied] using merged_lasting
        · simpa [same] using kept.data other
      · intro other
        by_cases same : other = process
        · subst same
          simp
        · simpa [same] using kept.unloaded other
      · intro other key
        by_cases same : other = process
        · subst same
          simp only [Function.update_self]
          refine ⟨fun touched => absurd touched (by simp), fun _ => ⟨rfl, List.not_mem_nil⟩⟩
        · simpa [same] using kept.tracks other key

/-- The one step that matters. -/
theorem act_law_iff (kept : Kept shared) (law : Law initial shared) (action : Action Process Value) :
    Law initial (act shared action) ↔ UpToDate shared action := by
  cases action with
  | call process now call =>
    refine iff_of_true ?_ trivial
    cases call with
    | get key => exact law
    | set key value ttl => exact law
    | delete key => exact law
    | clear => exact law
  | save process now =>
    by_cases owes : shared.owed process = 0
    · simp only [act, owes, if_pos]
      exact iff_of_true law fun owed => absurd owes owed
    · have written : (save now shared.disk (shared.stores process)).1 =
          merged shared.disk (shared.stores process) :=
        save_disk kept.disk (kept.data process) now
      have read : Law initial (act shared (.save process now)) ↔
          ∀ key, shown (merged shared.disk (shared.stores process)) key =
            latest key (shown shared.disk key) (shared.unsaved process) := by
        simp only [act, if_neg owes, Law, written, latest_append]
        constructor
        · intro after key
          rw [after key, ← law key]
        · intro after key
          rw [after key, ← law key]
      rw [read]
      constructor
      · intro after _ key value copied apart
        have kept_value := after key
        rw [shown_unwritten (kept.tracks process key) apart, latest_of_untouched apart, copied] at kept_value
        exact kept_value.symm
      · intro current key
        by_cases touched : ∃ call ∈ shared.unsaved process, call.Touches key
        · exact shown_written (kept.tracks process key) touched _
        · have apart : ∀ call ∈ shared.unsaved process, ¬ call.Touches key := by
            intro call member touches
            exact touched ⟨call, member, touches⟩
          rw [shown_unwritten (kept.tracks process key) apart, latest_of_untouched apart]
          cases copied : shown (shared.stores process).data key with
          | none => rfl
          | some value => exact (current owes key value copied apart).symm

theorem run_law_iff (kept : Kept shared) (law : Law initial shared)
    (permanent : ∀ action ∈ actions, action.Permanent) :
    (∀ early late, actions = early ++ late → Law initial (Machine.run act shared early)) ↔
      Machine.Each act UpToDate shared actions := by
  induction actions generalizing shared with
  | nil =>
    refine iff_of_true ?_ trivial
    intro early late split
    rw [List.append_eq_nil_iff.mp split.symm |>.1]
    exact law
  | cons action actions ih =>
    have after := act_kept kept (permanent action List.mem_cons_self)
    have rest : ∀ other ∈ actions, other.Permanent :=
      fun other member => permanent other (List.mem_cons_of_mem _ member)
    constructor
    · intro always
      have first : Law initial (act shared action) := always [action] actions rfl
      refine ⟨(act_law_iff kept law action).mp first, (ih after first rest).mp ?_⟩
      intro early late split
      exact always (action :: early) late (by rw [split]; rfl)
    · intro current
      have first := (act_law_iff kept law action).mpr current.1
      have later := (ih after first rest).mpr current.2
      intro early late split
      cases early with
      | nil => exact law
      | cons head early =>
        obtain ⟨same, tails⟩ := List.cons.inj split
        rw [Machine.run_cons, ← same]
        exact later early late tails

/-- After every save the file is right about every key exactly if every save comes while what its
process has only loaded is up to date. -/
theorem saves_lose_nothing_iff (lasting : Lasting initial)
    (permanent : ∀ action ∈ actions, action.Permanent) :
    (∀ early late, actions = early ++ late → Law initial (Machine.run act (start initial) early)) ↔
      Machine.Each act UpToDate (start initial) actions :=
  run_law_iff (start_kept lasting) (fun _ => rfl) permanent

theorem lasting_empty : Lasting (Dict.empty : Disk Value) := by
  intro key entry found
  cases found

end Histories

/-! Two processes. -/

def disjointKeys : List (Action Bool Nat) :=
  [.call true 0 (.set "left" 1 none), .call false 0 (.get "right"), .save true 1,
    .call false 2 (.set "right" 2 none),
    .save false 3]

theorem upToDate_of_own {Process Value : Type} {shared : Shared Process Value} {process : Process}
    {now : Int} {own : String}
    {held : CacheEntry Value} (data : (shared.stores process).data = Dict.empty.set own held)
    (wrote : ∃ call ∈ shared.unsaved process, call.Touches own) : UpToDate shared (.save process now) := by
  intro _ key value copied apart
  obtain ⟨call, member, touches⟩ := wrote
  by_cases same : key = own
  · exact absurd (same ▸ touches) (apart call member)
  · rw [shown, data, Dict.get_set_of_ne same] at copied
    cases copied

theorem saves_lose_nothing_disjoint : Law Dict.empty (Machine.run act (start Dict.empty) disjointKeys) := by
  have permanent : ∀ action ∈ disjointKeys, action.Permanent := by
    intro action member
    simp only [disjointKeys, List.mem_cons, List.not_mem_nil, or_false] at member
    rcases member with rfl | rfl | rfl | rfl | rfl <;> trivial
  have current : Machine.Each act UpToDate (start Dict.empty) disjointKeys := by
    refine ⟨trivial, trivial, ?_, trivial, ?_, trivial⟩
    · exact upToDate_of_own rfl ⟨.set "left" 1 none, List.mem_singleton_self _, rfl⟩
    · exact upToDate_of_own rfl ⟨.set "right" 2 none, List.mem_singleton_self _, rfl⟩
  exact (saves_lose_nothing_iff lasting_empty permanent).mpr current disjointKeys [] (List.append_nil _).symm

/-- The second loads the key, the first changes it, and a save of the second about another key
brings the old value back. -/
def staleCopy : List (Action Bool Nat) :=
  [.call true 0 (.set "key" 1 none), .save true 1, .call false 2 (.get "key"),
    .call true 3 (.set "key" 2 none),
    .save true 4, .call false 5 (.set "other" 0 none), .save false 6]

def staleKey : List (Action Bool Nat) :=
  [.call true 0 (.set "key" 1 none), .save true 1, .call false 2 (.get "key"), .call true 3 (.delete "key"),
    .save true 4, .call false 5 (.set "other" 0 none), .save false 6]

theorem stale_copy_wins : ((∀ action ∈ staleCopy, action.Permanent) ∧
      ¬ Law Dict.empty (Machine.run act (start Dict.empty) staleCopy)) ∧
    (∀ action ∈ staleKey, action.Permanent) ∧
      ¬ Law Dict.empty (Machine.run act (start Dict.empty) staleKey) := by
  refine ⟨⟨?_, ?_⟩, ?_, ?_⟩
  · intro action member
    simp only [staleCopy, List.mem_cons, List.not_mem_nil, or_false] at member
    rcases member with rfl | rfl | rfl | rfl | rfl | rfl | rfl <;> trivial
  · intro law
    exact absurd (law "key") (by decide +kernel)
  · intro action member
    simp only [staleKey, List.mem_cons, List.not_mem_nil, or_false] at member
    rcases member with rfl | rfl | rfl | rfl | rfl | rfl | rfl <;> trivial
  · intro law
    exact absurd (law "key") (by decide +kernel)

end TokenPak.Cache.CacheStore
