import Mathlib.Data.List.Infix

/-! A tree of directories and files without links. Every path is a list of names
from the root; moves lead from a directory upwards or into a name. -/

namespace TokenPak.Library

inductive Move (Name : Type) where
  | up | into (name : Name)
  deriving DecidableEq

inductive Node (Content : Type) where
  | directory | file (content : Content)
  deriving DecidableEq

/-- What exists stands in a directory and has a name that can be used. -/
structure FileTree (Name Content : Type) (usable : Name → Prop) where
  node : List Name → Option (Node Content)
  root : node [] = some .directory
  above : ∀ path name, node (path ++ [name]) ≠ none → node path = some .directory
  named : ∀ path, node path ≠ none → ∀ name ∈ path, usable name

variable {Name Content : Type}

/-- The directory above the root is the root. -/
def Move.apply (path : List Name) : Move Name → List Name
  | .up => path.dropLast
  | .into name => path ++ [name]

/-- Where the moves lead. Without links nothing but the moves decides this. -/
def locate (path : List Name) (moves : List (Move Name)) : List Name := moves.foldl Move.apply path

namespace FileTree
variable {usable : Name → Prop}

/-- What is found by following the moves; nothing unless each starts in a directory. -/
def stat (tree : FileTree Name Content usable) : List Name → List (Move Name) → Option (Node Content)
  | path, [] => tree.node path
  | path, move :: moves =>
    match tree.node path with
    | some .directory => tree.stat (move.apply path) moves
    | _ => none

def create [DecidableEq Name] (tree : FileTree Name Content usable) (path : List Name) (name : Name)
    (entry : Node Content)
    (inside : tree.node path = some .directory) (absent : tree.node (path ++ [name]) = none)
    (valid : usable name) :
    FileTree Name Content usable where
  node := Function.update tree.node (path ++ [name]) (some entry)
  root := by
    rw [Function.update_of_ne (by simp), tree.root]
  above other last present := by
    have kept : other ≠ path ++ [name] := by
      intro same
      subst same
      have under : path ++ [name] ++ [last] ≠ path ++ [name] := by simp
      rw [Function.update_of_ne under] at present
      rw [tree.above _ _ present] at absent
      cases absent
    rw [Function.update_of_ne kept]
    by_cases same : other ++ [last] = path ++ [name]
    · rw [(List.append_inj' same rfl).1]
      exact inside
    · rw [Function.update_of_ne same] at present
      exact tree.above other last present
  named other present := by
    by_cases same : other = path ++ [name]
    · subst same
      intro entryName member
      rcases List.mem_append.mp member with above | last
      · exact tree.named path (by simp [inside]) entryName above
      · rw [List.mem_singleton.mp last]
        exact valid
    · rw [Function.update_of_ne same] at present
      exact tree.named other present

/-- Make the directories that the moves pass; fails at a file and at a name that cannot be used. -/
def makeDirectories [DecidableEq Name] [DecidableEq Content] [DecidablePred usable]
    (tree : FileTree Name Content usable) :
    List Name → List (Move Name) → Option (FileTree Name Content usable)
  | _, [] => some tree
  | path, .up :: moves => tree.makeDirectories path.dropLast moves
  | path, .into name :: moves =>
    match found : tree.node (path ++ [name]) with
    | some .directory => tree.makeDirectories (path ++ [name]) moves
    | some (.file _) => none
    | none =>
      if fit : tree.node path = some .directory ∧ usable name then
        (tree.create path name .directory fit.1 found fit.2).makeDirectories (path ++ [name]) moves
      else none

section Lookup
variable {tree : FileTree Name Content usable} {path : List Name} {moves : List (Move Name)}

theorem node_dropLast (inside : tree.node path = some .directory) :
    tree.node path.dropLast = some .directory := by
  rcases List.eq_nil_or_concat path with rfl | ⟨front, last, rfl⟩
  · exact inside
  · rw [List.concat_eq_append, List.dropLast_concat]
    exact tree.above front last (by simp [← List.concat_eq_append, inside])

theorem stat_up (inside : tree.node path = some .directory) (upwards : ∀ move ∈ moves, move = .up) :
    tree.stat path moves = some .directory := by
  induction moves generalizing path with
  | nil => exact inside
  | cons move moves ih =>
    obtain rfl := upwards move List.mem_cons_self
    simp only [stat, inside]
    exact ih (node_dropLast inside) fun move member => upwards move (List.mem_cons_of_mem _ member)

theorem stat_of_absent (absent : tree.node path = none) : tree.stat path moves = none := by
  cases moves with
  | nil => exact absent
  | cons move moves => simp only [stat, absent]

end Lookup

section Making
variable [DecidableEq Name] [DecidableEq Content] [DecidablePred usable]
  {tree after : FileTree Name Content usable}
  {path : List Name} {moves : List (Move Name)}

theorem makeDirectories_usable (made : tree.makeDirectories path moves = some after) {name : Name}
    (member : .into name ∈ moves) : usable name := by
  induction moves generalizing tree path with
  | nil => cases member
  | cons move moves ih =>
    cases move with
    | up => exact ih made ((List.mem_cons.mp member).resolve_left (by simp))
    | into own =>
      simp only [makeDirectories] at made
      split at made
      next found =>
        rcases List.mem_cons.mp member with same | later
        · cases same
          exact tree.named (path ++ [name]) (by simp [found]) name (by simp)
        · exact ih made later
      · cases made
      · split at made
        next fit =>
          rcases List.mem_cons.mp member with same | later
          · cases same
            exact fit.2
          · exact ih made later
        · cases made

theorem makeDirectories_of_no_file (directories : ∀ path, tree.node path = none ∨
    tree.node path = some .directory)
    (inside : tree.node path = some .directory) (valid : ∀ name, .into name ∈ moves → usable name) :
    ∃ after, tree.makeDirectories path moves = some after := by
  induction moves generalizing tree path with
  | nil => exact ⟨tree, rfl⟩
  | cons move moves ih =>
    have later : ∀ name, .into name ∈ moves → usable name :=
      fun name member => valid name (List.mem_cons_of_mem _ member)
    cases move with
    | up => exact ih directories (node_dropLast inside) later
    | into own =>
      have fit := And.intro inside (valid own List.mem_cons_self)
      simp only [makeDirectories]
      split
      next found => exact ih directories found later
      next found => simpa [found] using directories (path ++ [own])
      next found =>
        rw [dif_pos fit]
        refine ih (fun other => ?_) (Function.update_self ..) later
        by_cases same : other = path ++ [own]
        · subst same
          exact .inr (Function.update_self ..)
        · simpa only [create, Function.update_of_ne same] using directories other

end Making

section Bare
variable [DecidableEq Name] {base path : List Name} {moves : List (Move Name)}

/-- The tree that holds one directory and those above it. -/
def bare (base : List Name) (valid : ∀ name ∈ base, usable name) : FileTree Name Content usable where
  node path := if path <+: base then some .directory else none
  root := if_pos List.nil_prefix
  above path name present := by
    split at present
    next inside => exact if_pos ((List.prefix_append path [name]).trans inside)
    next => exact absurd rfl present
  named path present name member := by
    split at present
    next inside => exact valid name (inside.subset member)
    next => exact absurd rfl present

theorem stat_bare {valid : ∀ name ∈ base, usable name} {name : Name} (inside : path <+: base)
    (fresh : ∀ name, .into name ∈ moves → name ∉ base) (member : .into name ∈ moves) :
    (bare base valid : FileTree Name Content usable).stat path moves = none := by
  induction moves generalizing path with
  | nil => cases member
  | cons move moves ih =>
    have here : (bare base valid : FileTree Name Content usable).node path = some .directory := if_pos inside
    simp only [stat, here]
    cases move with
    | up =>
      apply ih ((List.dropLast_prefix path).trans inside) fun name later =>
        fresh name (List.mem_cons_of_mem _ later)
      exact (List.mem_cons.mp member).resolve_left (by simp)
    | into own =>
      apply stat_of_absent
      apply if_neg
      intro reached
      exact fresh own List.mem_cons_self (reached.subset (by simp [Move.apply]))

end Bare

end FileTree

theorem locate_length_le (path : List Name) (moves : List (Move Name)) :
    (locate path moves).length ≤ path.length + moves.length := by
  induction moves generalizing path with
  | nil => exact Nat.le_refl _
  | cons move moves ih =>
    have step : (move.apply path).length ≤ path.length + 1 := by cases move <;> simp [Move.apply]; omega
    calc (locate (move.apply path) moves).length
        ≤ (move.apply path).length + moves.length := ih _
      _ ≤ path.length + (move :: moves).length := by rw [List.length_cons]; omega

theorem locate_length_lt {path : List Name} {moves : List (Move Name)} (climbs : .up ∈ moves) :
    (locate path moves).length < path.length + moves.length := by
  obtain ⟨before, after, rfl⟩ := List.append_of_mem climbs
  have first := locate_length_le path before
  have last := locate_length_le (locate path before).dropLast after
  have whole : locate path (before ++ .up :: after) = locate (locate path before).dropLast after := by
    simp [locate, Move.apply]
  rw [whole, List.length_append, List.length_cons]
  rw [List.length_dropLast] at last
  omega

theorem mem_locate {path : List Name} {moves : List (Move Name)} {name : Name}
    (member : name ∈ locate path moves) :
    name ∈ path ∨ .into name ∈ moves := by
  induction moves generalizing path with
  | nil => exact .inl member
  | cons move moves ih =>
    have tail : name ∈ locate (move.apply path) moves := member
    rcases ih tail with there | later
    · cases move with
      | up => exact .inl (List.mem_of_mem_dropLast there)
      | into own =>
        rcases List.mem_append.mp there with old | new
        · exact .inl old
        · exact .inr (List.mem_singleton.mp new ▸ List.mem_cons_self)
    · exact .inr (List.mem_cons_of_mem _ later)

theorem locate_into (path names : List Name) : locate path (names.map .into) = path ++ names := by
  induction names generalizing path with
  | nil => simp [locate]
  | cons name names ih =>
    have next := ih (path ++ [name])
    simpa [locate, Move.apply] using next

end TokenPak.Library
