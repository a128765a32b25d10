import TokenPak.Library.JsonOrder

/-! Digests of request histories. The texts of a history are code points, surrogates among
them: a body can carry these as bytes or as escapes. What is fed to the hash is ASCII, so
that a byte is a character. -/

namespace TokenPak.SpendGuard.UsageAnchor
open Library Json StableSort

variable {N : Type}

abbrev Points := List (Fin 0x110000)

theorem point_lt (unit : Nat) : unit % 0x110000 < 0x110000 := Nat.mod_lt _ (by decide)

def point (unit : Nat) : Fin 0x110000 := ⟨unit % 0x110000, point_lt unit⟩

def points (text : String) : Points := text.toList.map fun c => point c.toNat

abbrev Tree (N : Type) := Json N Points

def cacheControl : Points := points "cache_control"

/-- The entries of a dictionary that count, in the order of their keys. -/
def counted (entries : List (Points × Tree N)) : List (Points × Tree N) :=
  sortBy Prod.fst (entries.filter fun entry => entry.1 ≠ cacheControl)

/-- A dictionary on the stack: each key lies above its value. -/
def pushed (entries : List (Points × Tree N)) : List (Tree N) :=
  entries.flatMap fun entry => [.string entry.1, entry.2]

section Shrinks

theorem sum_items_le (items : List (Tree N)) : (items.map rounds).sum ≤ itemRounds items := by
  induction items with
  | nil => exact Nat.le_refl _
  | cons item items ih =>
    simp only [List.map_cons, List.sum_cons, itemRounds]
    omega

theorem sum_pushed (entries : List (Points × Tree N)) :
    ((pushed entries).map rounds).sum = entryRounds entries := by
  induction entries with
  | nil => rfl
  | cons entry entries ih =>
    simp only [pushed] at ih
    simp [pushed, entryRounds, rounds, ih, Nat.add_assoc]

theorem entryRounds_counted (entries : List (Points × Tree N)) :
    entryRounds (counted entries) ≤ entryRounds entries := by
  have perm : (counted entries).Perm (entries.filter fun entry => entry.1 ≠ cacheControl) := sortBy_perm
  have same : entryRounds (counted entries) = entryRounds (entries.filter fun entry =>
      entry.1 ≠ cacheControl) := by
    rw [← sum_pushed, ← sum_pushed]
    exact ((perm.flatMap_right _).map rounds).sum_eq
  rw [same]
  clear perm same
  induction entries with
  | nil => exact Nat.le_refl _
  | cons entry entries ih =>
    rw [List.filter_cons]
    split <;> simp only [entryRounds] <;> omega

theorem array_shrinks (items stack : List (Tree N)) :
    ((items ++ stack).map rounds).sum < ((array items :: stack).map rounds).sum := by
  have less := sum_items_le items
  simp only [List.map_append, List.sum_append, List.map_cons, List.sum_cons, rounds]
  omega

theorem object_shrinks (entries : List (Points × Tree N)) (stack : List (Tree N)) :
    ((pushed (counted entries) ++ stack).map rounds).sum < ((object entries :: stack).map rounds).sum := by
  have less := entryRounds_counted entries
  simp only [List.map_append, List.sum_append, List.map_cons, List.sum_cons, rounds, sum_pushed]
  omega

theorem pop_shrinks (item : Tree N) (stack : List (Tree N)) :
    (stack.map rounds).sum < ((item :: stack).map rounds).sum := by
  have positive := rounds_pos item
  rw [List.map_cons, List.sum_cons]
  omega

end Shrinks

variable [Numerals N]

def compact : Style := ⟨false, true⟩

def tag (letter : Char) (n : Nat) : List Char := letter :: (printNatural n ++ [':'])

/-- A surrogate that no character stands for is escaped by itself. -/
def pointEscape (point : Fin 0x110000) : List Char :=
  if point.val.isValidChar then escape true (Char.ofNat point.val) else unitEscape point.val

/-- `json.dumps` of an item that is no container. -/
def dumpsItem : Tree N → List Char
  | .null => (.null : Json N).dumps compact
  | .bool value => (.bool value : Json N).dumps compact
  | .number value => (.number value : Json N).dumps compact
  | .string text => '"' :: (text.flatMap pointEscape ++ ['"'])
  | .array _ | .object _ => []

def scalar (item : Tree N) : List Char := tag 'v' (dumpsItem item).length ++ dumpsItem item

def walk (stack : List (Tree N)) : List Char :=
  match stack with
  | [] => []
  | .object entries :: stack => tag 'd' (counted entries).length ++ walk (pushed (counted entries) ++ stack)
  | .array items :: stack => tag 'l' items.length ++ walk (items ++ stack)
  | item :: stack => scalar item ++ walk stack
termination_by (stack.map rounds).sum
decreasing_by
  · exact object_shrinks entries stack
  · exact array_shrinks items stack
  · exact pop_shrinks item stack

/-- `_digest`, for a hash function. -/
def digest {Digest : Type} (sha256 : List Char → Digest) (value : Tree N) : Digest := sha256 (walk [value])

end TokenPak.SpendGuard.UsageAnchor
