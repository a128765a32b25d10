import TokenPak.Compression.Pack

/-! The packing of a context in turns. The blocks that pass the quality filter come to the budget
one after the other; each finds the room that the ones in front of it left, and takes what it is
given of it. -/

namespace TokenPak.Compression.Pack
open Library StableSort
variable {Q : Type} {reading : Reading Q} {pack : ContextPack Q} {block : PackBlock Q}

section Truncation

theorem countTokens_pos (text : List Char) : 0 < countTokens text := by
  unfold countTokens
  omega

theorem length_truncate {text : List Char} {maxTokens : Int} (positive : 0 ≤ maxTokens)
    (long : (text.length : Int) > maxTokens * 4) :
    ((truncateToTokens text maxTokens).length : Int) = maxTokens * 4 + 3 := by
  have room : 0 ≤ maxTokens * 4 := by omega
  rw [truncateToTokens, if_pos long, Pipeline.sliceTo, if_pos room, List.length_append, List.length_take]
  simp only [List.length_cons, List.length_nil]
  omega

theorem countTokens_truncate {text : List Char} {room : Int} (some_room : 0 < room)
    (beyond : room < countTokens text) :
    countTokens (truncateToTokens text room) = room := by
  unfold countTokens at beyond
  have length := @length_truncate text _ some_room.le (by omega)
  unfold countTokens
  omega

end Truncation

namespace PackBlock

/-- The block has a cap that it does not keep. -/
def isCapped (block : PackBlock Q) : Bool := block.maxTokens.any fun cap => cap < countTokens block.content

def cut (block : PackBlock Q) : List Char :=
  (block.maxTokens.filter fun cap =>
    cap < countTokens block.content).elim block.content (truncateToTokens block.content)

def size (block : PackBlock Q) : Int := countTokens block.cut

def held (block : PackBlock Q) : Held Q := ⟨block, block.cut, block.size⟩

theorem size_pos (block : PackBlock Q) : 0 < block.size := countTokens_pos _

end PackBlock

namespace ContextPack

/-- The block is not below the quality threshold. -/
def stands (pack : ContextPack Q) (reading : Reading Q) (block : PackBlock Q) : Bool :=
  (pack.lowQuality reading block).isNone

/-- The blocks in the order in which they come to the budget. -/
def queue (pack : ContextPack Q) (reading : Reading Q) : List (PackBlock Q) :=
  sortBy (PackBlock.rank reading) (pack.blocks.filter (pack.stands reading)).reverse

end ContextPack

structure Turn (Q : Type) where
  block : PackBlock Q
  room : Int

namespace Turn

def Whole (turn : Turn Q) : Prop := turn.block.size ≤ turn.room

instance (turn : Turn Q) : Decidable turn.Whole := inferInstanceAs (Decidable (_ ≤ _))

/-- A block that does not fit is cut to the room there is. -/
def Shortened (turn : Turn Q) : Prop := 0 < turn.room ∧ ContextPack.isFirm turn.block = true

instance (turn : Turn Q) : Decidable turn.Shortened := inferInstanceAs (Decidable (_ ∧ _))

def taken (turn : Turn Q) : Int :=
  if turn.Whole then turn.block.size else if turn.Shortened then turn.room else 0

def part (turn : Turn Q) : Option (Held Q) :=
  if turn.Whole then some turn.block.held
  else if turn.Shortened then some ⟨turn.block, truncateToTokens turn.block.cut turn.room, turn.room⟩
  else none

/-- The decision that is made over the budget. -/
def overflow (turn : Turn Q) : List (Decision Q) :=
  if turn.Whole then []
  else if turn.Shortened then
    [⟨turn.block.id, turn.block.type, .truncated, conversationBudgetExceeded, none,
      turn.block.priority, turn.block.size, turn.room, none⟩]
  else [⟨turn.block.id, turn.block.type, .removed, overTotalBudget, none, turn.block.priority,
    turn.block.size, 0, turn.block.quality⟩]

end Turn

def turns (room : Int) : List (PackBlock Q) → List (Turn Q)
  | [] => []
  | block :: rest => ⟨block, room⟩ :: turns (room - Turn.taken ⟨block, room⟩) rest

namespace ContextPack

def allTurns (pack : ContextPack Q) (reading : Reading Q) : List (Turn Q) :=
  turns pack.budget (pack.queue reading)

end ContextPack

section Turns
variable {room : Int} {blocks : List (PackBlock Q)} {turn : Turn Q}

theorem map_block_turns (room : Int) (blocks : List (PackBlock Q)) :
    (turns room blocks).map Turn.block = blocks := by
  induction blocks generalizing room with
  | nil => rfl
  | cons block rest ih => rw [turns, List.map_cons, ih]

theorem Turn.part_block {held : Held Q} (kept : turn.part = some held) : held.block = turn.block := by
  unfold Turn.part at kept
  split at kept
  · cases kept
    rfl
  · split at kept
    · cases kept
      rfl
    · cases kept

theorem Turn.part_tokens {held : Held Q} (kept : turn.part = some held) : held.tokens = turn.taken := by
  unfold Turn.part at kept
  unfold Turn.taken
  split at kept
  next whole =>
    cases kept
    rw [if_pos whole]
    rfl
  next long =>
    rw [if_neg long]
    split at kept
    next shortened =>
      cases kept
      rw [if_pos shortened]
    · cases kept

theorem Turn.taken_of_none (gone : turn.part = none) : turn.taken = 0 := by
  unfold Turn.part at gone
  unfold Turn.taken
  split at gone
  · cases gone
  next long =>
    rw [if_neg long]
    split at gone
    · cases gone
    next dropped => rw [if_neg dropped]

theorem Turn.taken_nonneg (turn : Turn Q) : 0 ≤ turn.taken := by
  unfold Turn.taken
  split
  · exact turn.block.size_pos.le
  · split
    next shortened => exact shortened.1.le
    · exact le_rfl

theorem Turn.taken_le (some_room : 0 ≤ turn.room) : turn.taken ≤ turn.room := by
  unfold Turn.taken
  split
  next whole => exact whole
  · split
    · exact le_rfl
    · exact some_room

theorem sum_taken_le (some_room : 0 ≤ room) : ((turns room blocks).map Turn.taken).sum ≤ room := by
  induction blocks generalizing room with
  | nil => exact some_room
  | cons block rest ih =>
    have first : Turn.taken ⟨block, room⟩ ≤ room := Turn.taken_le some_room
    have left : 0 ≤ room - Turn.taken ⟨block, room⟩ := by omega
    have others := ih left
    rw [turns, List.map_cons, List.sum_cons]
    omega

theorem enforce_cons (runningTotal : Int) (rest : List (Held Q)) :
    pack.enforce runningTotal (block.held :: rest) =
      ((Turn.part ⟨block, pack.budget - runningTotal⟩).toList ++
          (pack.enforce (runningTotal + Turn.taken ⟨block, pack.budget - runningTotal⟩) rest).1,
        Turn.overflow ⟨block, pack.budget - runningTotal⟩ ++
          (pack.enforce (runningTotal + Turn.taken ⟨block, pack.budget - runningTotal⟩) rest).2) := by
  have fits : runningTotal + block.held.tokens ≤ pack.budget ↔
      Turn.Whole ⟨block, pack.budget - runningTotal⟩ := by
    change runningTotal + block.size ≤ pack.budget ↔ block.size ≤ pack.budget - runningTotal
    omega
  rw [ContextPack.enforce]
  simp only [fits, Turn.part, Turn.overflow, Turn.taken]
  split
  · rfl
  next long =>
    have cutting : (pack.budget - runningTotal > 0 ∧ ContextPack.isFirm block.held.block = true) ↔
        Turn.Shortened ⟨block, pack.budget - runningTotal⟩ := Iff.rfl
    simp only [cutting]
    split
    next shortened =>
      have beyond : pack.budget - runningTotal < block.size := not_le.mp long
      have counted : countTokens (truncateToTokens block.held.text (pack.budget - runningTotal)) =
          pack.budget - runningTotal :=
        countTokens_truncate shortened.1 beyond
      rw [counted]
      rfl
    · rw [add_zero]
      rfl

theorem enforce_turns (runningTotal : Int) (blocks : List (PackBlock Q)) :
    pack.enforce runningTotal (blocks.map PackBlock.held) =
      ((turns (pack.budget - runningTotal) blocks).filterMap Turn.part,
          (turns (pack.budget - runningTotal) blocks).flatMap Turn.overflow) := by
  induction blocks generalizing runningTotal with
  | nil => rfl
  | cons block rest ih =>
    rw [List.map_cons, enforce_cons, ih, turns, sub_sub, List.flatMap_cons,
      List.filterMap_eq_flatMap_toList, List.filterMap_eq_flatMap_toList,
      List.flatMap_cons]

end Turns

section Screening
variable (distinct : (pack.blocks.map PackBlock.id).Nodup)
include distinct

theorem byId_get {Value : Type} (value : PackBlock Q → Nat → Value) {index : Nat}
    (there : pack.blocks[index]? = some block) :
    (byId value pack.blocks).get block.id = some (value block index) := by
  apply Dict.get_foldl_set_of_mem
  · rw [List.map_map]
    have names : (pack.blocks.zipIdx.map (Prod.fst ∘ fun entry =>
        (entry.1.id, value entry.1 entry.2))) = pack.blocks.map PackBlock.id := by
      change pack.blocks.zipIdx.map (PackBlock.id ∘ Prod.fst) = _
      rw [← List.map_map, List.zipIdx_map_fst]
    exact names.symm ▸ distinct
  · exact List.mem_map.mpr ⟨(block, index), List.mem_zipIdx_iff_getElem?.mpr there, rfl⟩

variable (member : block ∈ pack.blocks)
include member

theorem blockTokens_get : pack.blockTokens.get block.id = some (countTokens block.content) := by
  obtain ⟨index, there⟩ := List.mem_iff_getElem?.mp member
  exact byId_get distinct _ there

theorem priorityIdx_get : (pack.priorityIdx reading).get block.id = some (block.rank reading) := by
  obtain ⟨index, there⟩ := List.mem_iff_getElem?.mp member
  exact byId_get distinct _ there

omit distinct member in
/-- The decision over a block before the budget pass, if there is one. -/
def judged (pack : ContextPack Q) (reading : Reading Q) (block : PackBlock Q) : List (Decision Q) :=
  (pack.screen reading block).1

omit distinct member in
/-- The reasons of the other passes begin in other ways. -/
theorem reason_ne {words rest : String} (start : ¬ words.toList <+: overTotalBudget.toList) :
    words ++ rest ≠ overTotalBudget := by
  intro same
  apply start
  rw [← same, String.toList_append]
  exact List.prefix_append _ _

omit distinct member in
theorem screen_low (low : pack.stands reading block = false) :
    ∃ decision, pack.screen reading block = ([decision], []) ∧
    decision.blockId = block.id ∧ decision.tokensAfter = 0 ∧ decision.reason ≠ overTotalBudget := by
  unfold ContextPack.stands at low
  cases quality : pack.lowQuality reading block with
  | none => rw [quality] at low; cases low
  | some quality' =>
    unfold ContextPack.screen
    rw [quality]
    exact ⟨_, rfl, rfl, rfl, reason_ne (by decide)⟩

theorem screen_capped (stands : pack.stands reading block = true) (capped : block.isCapped = true) :
    ∃ decision, pack.screen reading block = ([decision], [block.held]) ∧
      decision.blockId = block.id ∧ decision.tokensAfter = block.size ∧
      decision.reason ≠ overTotalBudget := by
  have standing : pack.lowQuality reading block = none := Option.isNone_iff_eq_none.mp stands
  unfold PackBlock.isCapped at capped
  cases bound : block.maxTokens with
  | none => rw [bound] at capped; cases capped
  | some cap =>
    have exceeds : cap < countTokens block.content := by simpa [bound] using capped
    unfold ContextPack.screen
    simp only [standing, bound, blockTokens_get distinct member, Option.getD_some, PackBlock.held,
      PackBlock.size, PackBlock.cut,
      Option.filter_some, exceeds, decide_true, if_true, Option.elim_some]
    exact ⟨_, rfl, rfl, rfl, reason_ne (by decide)⟩

theorem screen_free (stands : pack.stands reading block = true) (free : block.isCapped = false) :
    pack.screen reading block = ([], [block.held]) := by
  have standing : pack.lowQuality reading block = none := Option.isNone_iff_eq_none.mp stands
  unfold ContextPack.screen
  cases bound : block.maxTokens with
  | none =>
    simp only [standing, blockTokens_get distinct member, Option.getD_some, PackBlock.held,
      PackBlock.size, PackBlock.cut, bound]
    rfl
  | some cap =>
    have within : ¬ cap < countTokens block.content := by simpa [PackBlock.isCapped, bound] using free
    simp only [standing, bound, blockTokens_get distinct member, Option.getD_some, PackBlock.held,
      PackBlock.size, PackBlock.cut,
      Option.filter_some, within, decide_false, Bool.false_eq_true, if_false, Option.elim_none]

theorem screen_held : (pack.screen reading block).2 = if pack.stands reading block then [block.held]
    else [] := by
  cases stands : pack.stands reading block with
  | false =>
    obtain ⟨_, screened, _⟩ := screen_low stands
    rw [screened]
    rfl
  | true =>
    cases capped : block.isCapped with
    | true =>
      obtain ⟨_, screened, _⟩ := screen_capped distinct member stands capped
      rw [screened]
      rfl
    | false =>
      rw [screen_free distinct member stands capped]
      rfl

end Screening

section Passes
variable (distinct : (pack.blocks.map PackBlock.id).Nodup)

theorem mem_ordered : block ∈ pack.ordered reading ↔ block ∈ pack.blocks := sortBy_perm.mem_iff

theorem queue_perm : (pack.queue reading).Perm (pack.blocks.filter (pack.stands reading)) :=
  sortBy_perm.trans (List.reverse_perm _)

theorem mem_queue : block ∈ pack.queue reading ↔ block ∈ pack.blocks ∧ pack.stands reading block = true :=
  queue_perm.mem_iff.trans List.mem_filter

theorem queue_sorted : (pack.queue reading).Pairwise (Before (PackBlock.rank reading)) := pairwise_sortBy

theorem mem_queue_of_turn {turn : Turn Q} (member : turn ∈ pack.allTurns reading) :
    turn.block ∈ pack.queue reading := by
  rw [← map_block_turns pack.budget (pack.queue reading)]
  exact List.mem_map_of_mem member

theorem turn_block {turn : Turn Q} (member : turn ∈ pack.allTurns reading) :
    turn.block ∈ pack.blocks ∧ pack.stands reading turn.block = true :=
      mem_queue.mp (mem_queue_of_turn member)

theorem turns_sorted : (pack.allTurns reading).Pairwise fun first second => first.block.rank reading ≤ second.block.rank reading := by
  have blocks : (pack.queue reading).Pairwise (Before (PackBlock.rank reading)) := queue_sorted
  rw [← map_block_turns pack.budget (pack.queue reading), List.pairwise_map] at blocks
  exact blocks

include distinct

theorem keptBlocks_eq :
    pack.keptBlocks reading =
    ((pack.ordered reading).filter (pack.stands reading)).map PackBlock.held := by
  have held : ∀ blocks : List (PackBlock Q), (∀ block ∈ blocks, block ∈ pack.blocks) →
      blocks.flatMap (fun block => (pack.screen reading block).2) =
          (blocks.filter (pack.stands reading)).map PackBlock.held := by
    intro blocks inside
    induction blocks with
    | nil => rfl
    | cons block rest ih =>
      rw [List.flatMap_cons, screen_held distinct (inside block List.mem_cons_self),
        ih fun other there => inside other (List.mem_cons_of_mem _ there)]
      cases stands : pack.stands reading block <;> simp [stands]
  exact held _ fun block there => mem_ordered.mp there

/-- The blocks come to the budget in the order of the queue. -/
theorem keptByPrio_reverse : (pack.keptByPrio reading).reverse = (pack.queue reading).map PackBlock.held := by
  have ranks : sortBy (PackBlock.rank reading)
      ((pack.ordered reading).filter (pack.stands reading)).reverse = pack.queue reading := by
    rw [ContextPack.queue, sortBy_eq_iff]
    intro k
    rw [List.filter_reverse, List.filter_reverse, ContextPack.ordered, ← sortBy_filter, filter_sortBy]
  rw [ContextPack.keptByPrio, sortByDescending, List.reverse_reverse, keptBlocks_eq distinct,
    ← List.map_reverse, sortBy_map]
  exact congrArg (List.map PackBlock.held) ranks

theorem enforced_eq :
    pack.enforced reading = ((pack.allTurns reading).filterMap Turn.part,
    (pack.allTurns reading).flatMap Turn.overflow) := by
  rw [ContextPack.enforced, keptByPrio_reverse distinct, enforce_turns, sub_zero]
  rfl

theorem finalKept_eq : pack.finalKept reading = (pack.allTurns reading).filterMap Turn.part := by
  rw [ContextPack.finalKept, enforced_eq distinct]

/-- What is kept comes out of the budget pass in its final order. -/
theorem finalSorted_eq : pack.finalSorted reading = (pack.allTurns reading).filterMap Turn.part := by
  rw [ContextPack.finalSorted, finalKept_eq distinct]
  apply sortBy_of_pairwise
  have ranks : ∀ turn ∈ pack.allTurns reading,
      ((pack.priorityIdx reading).get turn.block.id).getD 0 = turn.block.rank reading := by
    intro turn member
    rw [priorityIdx_get distinct (mem_queue.mp (mem_queue_of_turn member)).1]
    rfl
  rw [List.pairwise_filterMap]
  apply turns_sorted.imp_of_mem
  intro first second here there before held kept other left
  change ((pack.priorityIdx reading).get held.block.id).getD 0 ≤
    ((pack.priorityIdx reading).get other.block.id).getD 0
  rw [Turn.part_block kept, Turn.part_block left, ranks first here, ranks second there]
  exact before

theorem queue_nodup : ((pack.queue reading).map PackBlock.id).Nodup := by
  rw [(queue_perm.map PackBlock.id).nodup_iff]
  exact distinct.sublist (List.filter_sublist.map PackBlock.id)

theorem turns_nodup : ((pack.allTurns reading).map fun turn => turn.block.id).Nodup := by
  have ids : ((pack.queue reading).map PackBlock.id).Nodup := queue_nodup distinct
  rw [← map_block_turns pack.budget (pack.queue reading), List.map_map] at ids
  exact ids

theorem turn_unique {first second : Turn Q} (here : first ∈ pack.allTurns reading)
    (there : second ∈ pack.allTurns reading)
    (same : first.block.id = second.block.id) : first = second :=
      List.inj_on_of_nodup_map (turns_nodup distinct) here there same

end Passes

end TokenPak.Compression.Pack
