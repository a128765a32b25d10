import TokenPak.Library.Dict
import TokenPak.Library.Machine

/-! The key-value store in a JSON file that processes share. Each process works on its own copy,
which it loads once, and a save merges the copy with what the file holds at that moment. A call
may end with a save that comes later, when other processes have been at the file. -/

namespace TokenPak.Cache.CacheStore
open Library

structure CacheEntry (Value : Type) where
  value : Value
  expiresAt : Option Int

/-- What the file holds; a file that is not there holds nothing. -/
abbrev Disk (Value : Type) := Dict String (CacheEntry Value)

structure Store (Value : Type) where
  data : Dict String (CacheEntry Value)
  loaded : Bool
  deleted : List String
  resetPending : Bool

inductive Call (Value : Type) where
  | get (key : String)
  | set (key : String) (value : Value) (ttl : Option Int)
  | delete (key : String)
  | clear

section Operations
variable {Value : Type}

def Store.new : Store Value := ⟨Dict.empty, false, [], false⟩

def ensureLoaded (disk : Disk Value) (store : Store Value) : Store Value :=
  if store.loaded then store else { store with data := disk, loaded := true }

def CacheEntry.expired (now : Int) (entry : CacheEntry Value) : Bool :=
  entry.expiresAt.any fun moment => moment < now

/-- An entry that has expired is dropped when it is asked for. -/
def get (now : Int) (disk : Disk Value) (key : String) (store : Store Value) : Option Value × Store Value :=
  let store := ensureLoaded disk store
  match store.data.get key with
  | none => (none, store)
  | some entry =>
    if entry.expired now then (none, { store with data := store.data.pop key }) else (some entry.value, store)

/-- `set` up to its save. -/
def set (now : Int) (disk : Disk Value) (key : String) (value : Value) (ttl : Option Int)
    (store : Store Value) : Store Value :=
  let store := ensureLoaded disk store
  { store with data := store.data.set key ⟨value, ttl.map (now + ·)⟩ }

/-- `delete` up to its save, which there is only if the key was in the copy. -/
def delete (disk : Disk Value) (key : String) (store : Store Value) : Bool × Store Value :=
  let store := ensureLoaded disk store
  ((store.data.get key).isSome,
    { store with data := store.data.pop key, deleted := store.deleted.insert key })

def clear (disk : Disk Value) (store : Store Value) : Store Value :=
  let store := ensureLoaded disk store
  { store with data := Dict.empty, deleted := [], resetPending := true }

def merged (disk : Disk Value) (store : Store Value) : Dict String (CacheEntry Value) :=
  (if store.resetPending then Dict.empty else disk.popAll store.deleted).update store.data

/-- `_save`: what is then in the file, and the store. -/
def save (now : Int) (disk : Disk Value) (store : Store Value) : Disk Value × Store Value :=
  let clean := (merged disk store).filter fun entry => entry.2.expiresAt.all fun moment => now < moment
  (clean, { store with data := clean, deleted := [], resetPending := false })

end Operations

/-- The file, each process's store, how many saves its calls still owe, what it has written since
its last save, and what has been saved, in the order of the saves. -/
structure Shared (Process Value : Type) where
  disk : Disk Value
  stores : Process → Store Value
  owed : Process → Nat
  unsaved : Process → List (Call Value)
  saved : List (Call Value)

inductive Action (Process Value : Type) where
  | call (process : Process) (now : Int) (call : Call Value)
  | save (process : Process) (now : Int)

section Sharing
variable {Process Value : Type} [DecidableEq Process]

def start (disk : Disk Value) : Shared Process Value :=
  ⟨disk, fun _ => Store.new, fun _ => 0, fun _ => [], []⟩

/-- A call with the store that it leaves, the write that it is, and whether a save follows. -/
def Shared.write (shared : Shared Process Value) (process : Process) (store : Store Value)
    (call : Call Value) (saves : Bool) :
    Shared Process Value :=
  { shared with
    stores := Function.update shared.stores process store
    owed := Function.update shared.owed process (shared.owed process + saves.toNat)
    unsaved := Function.update shared.unsaved process (shared.unsaved process ++ [call]) }

def act (shared : Shared Process Value) : Action Process Value → Shared Process Value
  | .call process now (.get key) =>
    { shared with stores := Function.update shared.stores process (get now shared.disk key (shared.stores process)).2 }
  | .call process now (.set key value ttl) =>
    shared.write process (set now shared.disk key value ttl (shared.stores process)) (.set key value ttl) true
  | .call process _ (.delete key) =>
    let (existed, store) := delete shared.disk key (shared.stores process)
    shared.write process store (.delete key) existed
  | .call process _ .clear => shared.write process (clear shared.disk (shared.stores process)) .clear true
  | .save process now =>
    if shared.owed process = 0 then shared
    else
      let (disk, store) := save now shared.disk (shared.stores process)
      { disk
        stores := Function.update shared.stores process store
        owed := Function.update shared.owed process (shared.owed process - 1)
        unsaved := Function.update shared.unsaved process []
        saved := shared.saved ++ shared.unsaved process }

end Sharing

end TokenPak.Cache.CacheStore
