import Mathlib.Algebra.Order.BigOperators.Group.List
import TokenPak.Proofs.PackTurns

/-! The report of a packed context. It accounts for every block once as long as no block that its
own cap has cut is cut or dropped again over the budget, and the kept blocks stand in the order in
which they were added as long as no two of them have the same priority. -/

namespace TokenPak.Compression.Pack
open Library StableSort
variable {Q : Type} {reading : Reading Q} {pack : ContextPack Q} {block : PackBlock Q} {turn : Turn Q}

section Excerpts

/-- A text as it is, or its beginning with a mark behind it. -/
def Excerpt (text content : List Char) :
    Prop := text = content ∨ ∃ count, text = content.take count ++ ['.', '.', '.']

theorem excerpt_truncate (text : List Char) (maxTokens : Int) :
    Excerpt (truncateToTokens text maxTokens) text := by
  unfold truncateToTokens Pipeline.sliceTo
  by_cases long : (text.length : Int) > maxTokens * 4
  · right
    rw [if_pos long]
    split
    · exact ⟨_, rfl⟩
    · exact ⟨_, rfl⟩
  · left
    have room : 0 ≤ maxTokens * 4 := by omega
    rw [if_neg long, if_pos room, List.append_nil, List.take_of_length_le (by omega)]

theorem excerpt_cut (block : PackBlock Q) : Excerpt block.cut block.content := by
  unfold PackBlock.cut
  cases block.maxTokens.filter fun cap => cap < countTokens block.content with
  | none => exact .inl rfl
  | some cap => exact excerpt_truncate block.content cap

theorem Excerpt.truncate {text content : List Char} {room : Int} (excerpt : Excerpt text content)
    (some_room : 0 < room)
    (beyond : room < countTokens text) : Excerpt (truncateToTokens text room) content := by
  rcases excerpt with rfl | ⟨count, rfl⟩
  · exact excerpt_truncate _ room
  · unfold countTokens at beyond
    rw [List.length_append, List.length_cons, List.length_cons, List.length_cons, List.length_nil] at beyond
    have long : ((content.take count ++ ['.', '.', '.']).length : Int) > room * 4 := by
      rw [List.length_append, List.length_cons, List.length_cons, List.length_cons, List.length_nil]
      omega
    have nonneg : 0 ≤ room * 4 := by omega
    right
    refine ⟨min (room * 4).toNat count, ?_⟩
    rw [truncateToTokens, if_pos long, Pipeline.sliceTo, if_pos nonneg,
      List.take_append_of_le_length (by omega), List.take_take]

theorem Turn.part_excerpt {held : Held Q} (kept : turn.part = some held) :
    Excerpt held.text held.block.content := by
  unfold Turn.part at kept
  split at kept
  · cases kept
    exact excerpt_cut turn.block
  next long =>
    split at kept
    next shortened =>
      cases kept
      exact (excerpt_cut turn.block).truncate shortened.1 (not_le.mp long)
    · cases kept

end Excerpts

/-- The report of a packing accounts for it: each block has one decision, the tokens after the
decisions are those of the output, which keeps the budget, and the text joins the kept blocks by
their priorities, those of one priority in the order in which they were added. -/
structure Faithful (pack : ContextPack Q) (reading : Reading Q) (result : CompiledResult Q) : Prop where
  decided : (result.report.decisions.map Decision.blockId).Perm (pack.blocks.map PackBlock.id)
  account : result.report.outputTokens = (result.report.decisions.map Decision.tokensAfter).sum
  bounded : result.report.outputTokens ≤ pack.budget
  joined : ∃ parts : List (PackBlock Q × List Char),
    result.text = pack.separator.intercalate (parts.map Prod.snd) ∧
    (∀ part ∈ parts, Excerpt part.2 part.1.content) ∧
      result.report.finalOrder = parts.map (fun part => part.1.id) ∧
    parts.map Prod.fst = sortBy (PackBlock.rank reading) (pack.blocks.filter fun block =>
      block.id ∈ result.report.finalOrder)

def Turn.stays (turn : Turn Q) : Bool := decide (turn.Whole ∨ turn.Shortened)

theorem Turn.part_none_iff : turn.part = none ↔ turn.stays = false := by
  unfold Turn.part Turn.stays
  split
  next whole => simp [whole]
  next long =>
    split
    next shortened => simp [shortened]
    next dropped => simp [long, dropped]

section Records

/-- The decision over a block that is kept without another word. -/
def quiet (pack : ContextPack Q) (turn : Turn Q) : List (Decision Q) :=
  if turn.Whole ∧ turn.block.isCapped = false then [pack.quietlyKept turn.block.held] else []

/-- All the decisions over the block of a turn. -/
def record (pack : ContextPack Q) (reading : Reading Q) (turn : Turn Q) : List (Decision Q) :=
  judged pack reading turn.block ++ (turn.overflow ++ quiet pack turn)

theorem overflow_nil_iff : turn.overflow = [] ↔ turn.Whole := by
  unfold Turn.overflow
  split
  next whole => simp [whole]
  next long =>
    split
    · simp [long]
    · simp [long]

theorem overflow_long (long : ¬ turn.Whole) :
    ∃ decision, turn.overflow = [decision] ∧ decision.blockId = turn.block.id ∧
    decision.tokensAfter = turn.taken := by
  unfold Turn.overflow Turn.taken
  rw [if_neg long, if_neg long]
  split
  · exact ⟨_, rfl, rfl, rfl⟩
  · exact ⟨_, rfl, rfl, rfl⟩

variable (distinct : (pack.blocks.map PackBlock.id).Nodup)
include distinct

theorem judged_id (member : block ∈ pack.blocks) {decision : Decision Q}
    (made : decision ∈ judged pack reading block) :
    decision.blockId = block.id := by
  unfold judged at made
  cases stands : pack.stands reading block with
  | false =>
    obtain ⟨low, screened, named, _⟩ := screen_low stands
    rw [screened, List.mem_singleton] at made
    exact made ▸ named
  | true =>
    cases capped : block.isCapped with
    | true =>
      obtain ⟨compacted, screened, named, _⟩ := screen_capped distinct member stands capped
      rw [screened, List.mem_singleton] at made
      exact made ▸ named
    | false =>
      rw [screen_free distinct member stands capped] at made
      cases made

variable (member : turn ∈ pack.allTurns reading)
include member

theorem screened_iff : turn.block.id ∈ (pack.screened reading).map Decision.blockId ↔
    turn.block.isCapped = true := by
  obtain ⟨inside, stands⟩ := turn_block member
  constructor
  · intro named
    obtain ⟨decision, made, same⟩ := List.mem_map.mp named
    obtain ⟨other, there, judging⟩ := List.mem_flatMap.mp made
    have whose : other.id = turn.block.id :=
      (judged_id distinct (mem_ordered.mp there) judging).symm.trans same
    have here : other = turn.block := List.inj_on_of_nodup_map distinct (mem_ordered.mp there) inside whose
    rw [here] at judging
    cases capped : turn.block.isCapped with
    | true => rfl
    | false =>
      rw [screen_free distinct inside stands capped] at judging
      cases judging
  · intro capped
    obtain ⟨decision, screened, named, _⟩ := screen_capped distinct inside stands capped
    apply List.mem_map.mpr
    refine ⟨decision, List.mem_flatMap.mpr ⟨turn.block, mem_ordered.mpr inside, ?_⟩, named⟩
    rw [screened]
    exact List.mem_cons_self

theorem overflowing_iff :
    turn.block.id ∈ ((pack.allTurns reading).flatMap Turn.overflow).map Decision.blockId ↔
    ¬ turn.Whole := by
  constructor
  · intro named whole
    obtain ⟨decision, made, same⟩ := List.mem_map.mp named
    obtain ⟨other, there, deciding⟩ := List.mem_flatMap.mp made
    have long : ¬ other.Whole := fun fits => by
      rw [overflow_nil_iff.mpr fits] at deciding
      cases deciding
    obtain ⟨only, overflow, whose, _⟩ := overflow_long long
    rw [overflow, List.mem_singleton] at deciding
    rw [deciding, whose] at same
    rw [turn_unique distinct there member same] at long
    exact long whole
  · intro long
    obtain ⟨decision, overflow, named, _⟩ := overflow_long long
    apply List.mem_map.mpr
    refine ⟨decision, List.mem_flatMap.mpr ⟨turn, member, ?_⟩, named⟩
    rw [overflow]
    exact List.mem_cons_self

/-- A block that its cap has cut and that does not fit has two decisions. -/
theorem record_twice (capped : turn.block.isCapped = true) (long : ¬ turn.Whole) :
    (record pack reading turn).map Decision.blockId = [turn.block.id, turn.block.id] := by
  obtain ⟨inside, stands⟩ := turn_block member
  obtain ⟨compacted, screened, first, _⟩ := screen_capped distinct inside stands capped
  obtain ⟨decision, overflow, second, _⟩ := overflow_long long
  rw [record, judged, screened, overflow, quiet, if_neg (fun both => long both.1)]
  simp only [List.append_nil, List.cons_append, List.nil_append, List.map_cons, List.map_nil, first, second]

theorem record_once (fits : turn.block.isCapped = true → turn.Whole) :
    ∃ decision, record pack reading turn = [decision] ∧
    decision.blockId = turn.block.id ∧ decision.tokensAfter = turn.taken := by
  obtain ⟨inside, stands⟩ := turn_block member
  cases capped : turn.block.isCapped with
  | true =>
    have whole := fits capped
    obtain ⟨compacted, screened, named, counted, _⟩ := screen_capped distinct inside stands capped
    refine ⟨compacted, ?_, named, ?_⟩
    · rw [record, judged, screened, overflow_nil_iff.mpr whole, quiet, if_neg (by simp [capped])]
      rfl
    · rw [counted, Turn.taken, if_pos whole]
  | false =>
    rw [record, judged, screen_free distinct inside stands capped, List.nil_append]
    by_cases whole : turn.Whole
    · rw [overflow_nil_iff.mpr whole, quiet, if_pos ⟨whole, capped⟩, List.nil_append, Turn.taken,
        if_pos whole]
      exact ⟨_, rfl, rfl, rfl⟩
    · obtain ⟨decision, overflow, named, counted⟩ := overflow_long whole
      rw [overflow, quiet, if_neg (fun both => whole both.1)]
      exact ⟨decision, rfl, named, counted⟩

end Records

section Account
variable (distinct : (pack.blocks.map PackBlock.id).Nodup)
include distinct

theorem quietly_eq : ((pack.finalKept reading).filter fun held =>
      decide (held.block.id ∉ (pack.screened reading ++ (pack.enforced reading).2).map Decision.blockId)).map pack.quietlyKept =
    (pack.allTurns reading).flatMap (quiet pack) := by
  rw [finalKept_eq distinct, enforced_eq distinct, List.filterMap_eq_flatMap_toList,
    List.filter_flatMap, List.map_flatMap]
  apply List.flatMap_congr
  intro turn member
  have named : turn.block.id ∉ (pack.screened reading ++
    (pack.allTurns reading).flatMap Turn.overflow).map Decision.blockId ↔
      turn.block.isCapped = false ∧ turn.Whole := by
    rw [List.map_append, List.mem_append, screened_iff distinct member,
      overflowing_iff distinct member, not_or, not_not, Bool.not_eq_true]
  unfold Turn.part quiet
  split
  next whole =>
    have unnamed : turn.block.held.block.id ∉ (pack.screened reading ++
      (pack.allTurns reading).flatMap Turn.overflow).map Decision.blockId ↔
        turn.block.isCapped = false := named.trans (and_iff_left whole)
    simp only [Option.toList_some, List.filter_cons, List.filter_nil, unnamed, decide_eq_true_eq,
      whole, true_and]
    split <;> rfl
  next long =>
    have loud : ¬ (turn.Whole ∧ turn.block.isCapped = false) := fun both => long both.1
    rw [if_neg loud]
    split
    next shortened =>
      simp only [Option.toList_some, List.filter_cons, List.filter_nil, named, decide_eq_true_eq,
        long, and_false, if_false, List.map_nil]
    · rfl

theorem decisions_perm : (pack.decisions reading).Perm
    ((pack.blocks.filter fun block => ! pack.stands reading block).flatMap (judged pack reading) ++
      (pack.allTurns reading).flatMap (record pack reading)) := by
  have screened : (pack.screened reading).Perm ((pack.blocks.filter fun block =>
    ! pack.stands reading block).flatMap (judged pack reading) ++
      (pack.allTurns reading).flatMap fun turn => judged pack reading turn.block) := by
    have split : pack.blocks.Perm ((pack.blocks.filter fun block => ! pack.stands reading block) ++
        pack.queue reading) :=
      ((List.filter_append_perm (pack.stands reading) pack.blocks).symm.trans List.perm_append_comm).trans (queue_perm.symm.append_left _)
    have judging : (pack.queue reading).flatMap (judged pack reading) =
        (pack.allTurns reading).flatMap fun turn => judged pack reading turn.block := by
      rw [← map_block_turns pack.budget (pack.queue reading), List.flatMap_map]
      rfl
    have all : (pack.screened reading).Perm (pack.blocks.flatMap (judged pack reading)) :=
      sortBy_perm.flatMap_right _
    rw [← judging, ← List.flatMap_append]
    exact all.trans (split.flatMap_right _)
  have together :=
    (List.flatMap_append_perm (pack.allTurns reading) (judged pack reading ∘ Turn.block) fun turn =>
      turn.overflow ++ quiet pack turn)
  have passes := List.flatMap_append_perm (pack.allTurns reading) Turn.overflow (quiet pack)
  rw [ContextPack.decisions, ContextPack.decisionsMade]
  refine sortBy_perm.trans ?_
  rw [quietly_eq distinct, enforced_eq distinct, List.append_assoc]
  refine (screened.append passes).trans ?_
  rw [List.append_assoc]
  exact together.append_left _

theorem outputTokens_eq :
    (pack.compile reading).report.outputTokens = ((pack.allTurns reading).map Turn.taken).sum := by
  change ((pack.finalSorted reading).map Held.tokens).sum = _
  rw [finalSorted_eq distinct]
  induction pack.allTurns reading with
  | nil => rfl
  | cons turn rest ih =>
    cases kept : turn.part with
    | none =>
        rw [List.filterMap_cons_none kept, ih, List.map_cons, List.sum_cons,
          Turn.taken_of_none kept, zero_add]
    | some held =>
      rw [List.filterMap_cons_some kept, List.map_cons, List.sum_cons, ih, List.map_cons,
        List.sum_cons, Turn.part_tokens kept]

/-- The tokens that are taken are within a budget that is not negative. -/
theorem outputTokens_le_iff : (pack.compile reading).report.outputTokens ≤ pack.budget ↔ 0 ≤ pack.budget := by
  rw [outputTokens_eq distinct]
  constructor
  · intro within
    have nonneg : 0 ≤ ((pack.allTurns reading).map Turn.taken).sum := by
      apply List.sum_nonneg
      intro taken member
      obtain ⟨turn, _, rfl⟩ := List.mem_map.mp member
      exact turn.taken_nonneg
    exact nonneg.trans within
  · intro some_room
    exact sum_taken_le some_room

theorem decisions_seen {Seen : Type} {see : Decision Q → Seen} {low : PackBlock Q → Seen}
    {taking : Turn Q → Seen}
    (removed : ∀ block ∈ pack.blocks, pack.stands reading block = false →
      (judged pack reading block).map see = [low block])
    (turned : ∀ turn ∈ pack.allTurns reading, (record pack reading turn).map see = [taking turn]) :
    ((pack.decisions reading).map see).Perm
      ((pack.blocks.filter fun block => ! pack.stands reading block).map low ++
          (pack.allTurns reading).map taking) := by
  refine ((decisions_perm distinct).map see).trans (List.Perm.of_eq ?_)
  rw [List.map_append, List.map_flatMap, List.map_flatMap, List.map_eq_flatMap, List.map_eq_flatMap]
  congr 1
  · apply List.flatMap_congr
    intro block there
    obtain ⟨inside, fails⟩ := List.mem_filter.mp there
    exact removed block inside (by simpa using fails)
  · exact List.flatMap_congr turned

theorem decided_of_whole (fits : ∀ turn ∈ pack.allTurns reading, turn.block.isCapped = true → turn.Whole) :
    ((pack.decisions reading).map Decision.blockId).Perm (pack.blocks.map PackBlock.id) := by
  have low : ∀ block ∈ pack.blocks, pack.stands reading block = false →
      (judged pack reading block).map Decision.blockId = [block.id] := by
    intro block inside fails
    obtain ⟨decision, screened, named, _⟩ := screen_low fails
    rw [judged, screened, List.map_singleton, named]
  have turned : ∀ turn ∈ pack.allTurns reading,
      (record pack reading turn).map Decision.blockId = [turn.block.id] := by
    intro turn member
    obtain ⟨decision, single, named, _⟩ := record_once distinct member (fits turn member)
    rw [single, List.map_singleton, named]
  have standing : (pack.allTurns reading).map (fun turn => turn.block.id) =
      (pack.queue reading).map PackBlock.id := by
    rw [← map_block_turns pack.budget (pack.queue reading), List.map_map]
    rfl
  refine (decisions_seen distinct low turned).trans ?_
  rw [standing]
  refine ((queue_perm.map PackBlock.id).append_left _).trans ?_
  rw [← List.map_append]
  exact (List.perm_append_comm.trans (List.filter_append_perm (pack.stands reading) pack.blocks)).map PackBlock.id

theorem account_of_whole (fits : ∀ turn ∈ pack.allTurns reading, turn.block.isCapped = true → turn.Whole) :
    ((pack.decisions reading).map Decision.tokensAfter).sum =
      ((pack.allTurns reading).map Turn.taken).sum := by
  have low : ∀ block ∈ pack.blocks, pack.stands reading block = false →
      (judged pack reading block).map Decision.tokensAfter = [0] := by
    intro block inside fails
    obtain ⟨decision, screened, _, counted, _⟩ := screen_low fails
    rw [judged, screened, List.map_singleton, counted]
  have turned : ∀ turn ∈ pack.allTurns reading,
      (record pack reading turn).map Decision.tokensAfter = [turn.taken] := by
    intro turn member
    obtain ⟨decision, single, _, counted⟩ := record_once distinct member (fits turn member)
    rw [single, List.map_singleton, counted]
  rw [(decisions_seen distinct low turned).sum_eq, List.sum_append, List.map_const',
    List.sum_replicate, nsmul_zero, zero_add]

/-- A second decision over a block shows among the ids. -/
theorem whole_of_decided (decided : ((pack.decisions reading).map Decision.blockId).Perm (pack.blocks.map PackBlock.id))
    (member : turn ∈ pack.allTurns reading) (capped : turn.block.isCapped = true) : turn.Whole := by
  by_contra long
  have once : ((pack.decisions reading).map Decision.blockId).Nodup := decided.nodup_iff.mpr distinct
  rw [((decisions_perm distinct).map Decision.blockId).nodup_iff, List.map_append] at once
  have inside : (record pack reading turn).Sublist ((pack.allTurns reading).flatMap (record pack reading)) :=
    List.sublist_flatten_of_mem (List.mem_map_of_mem member)
  have twice : ((record pack reading turn).map Decision.blockId).Nodup :=
    once.sublist ((inside.map Decision.blockId).trans (List.sublist_append_right _ _))
  rw [record_twice distinct member capped long] at twice
  simp at twice

end Account

section Order
variable (distinct : (pack.blocks.map PackBlock.id).Nodup)

def keptOrder (pack : ContextPack Q) (reading : Reading Q) : List (PackBlock Q) :=
  ((pack.allTurns reading).filter Turn.stays).map Turn.block

theorem keptOrder_sublist : (keptOrder pack reading).Sublist (pack.queue reading) := by
  have turns : ((pack.allTurns reading).filter Turn.stays).Sublist (pack.allTurns reading) :=
    List.filter_sublist
  have blocks := turns.map Turn.block
  rwa [ContextPack.allTurns, map_block_turns] at blocks

include distinct

theorem eq_of_ids {blocks others : List (PackBlock Q)} (inside : ∀ block ∈ blocks, block ∈ pack.blocks)
    (members : ∀ block ∈ others, block ∈ pack.blocks)
    (same : blocks.map PackBlock.id = others.map PackBlock.id) : blocks = others := by
  induction blocks generalizing others with
  | nil => exact (List.map_eq_nil_iff.mp same.symm).symm
  | cons block rest ih =>
    cases others with
    | nil => cases same
    | cons other behind =>
      obtain ⟨id, ids⟩ := List.cons.inj same
      have first : block = other :=
        List.inj_on_of_nodup_map distinct (inside block List.mem_cons_self)
          (members other List.mem_cons_self) id
      rw [first, ih (fun item there => inside item (List.mem_cons_of_mem _ there)) (fun item there => members item (List.mem_cons_of_mem _ there)) ids]

theorem map_block_final : (pack.finalSorted reading).map Held.block = keptOrder pack reading := by
  rw [finalSorted_eq distinct, keptOrder]
  induction pack.allTurns reading with
  | nil => rfl
  | cons turn rest ih =>
    cases kept : turn.part with
    | none =>
        rw [List.filterMap_cons_none kept, ih,
          List.filter_cons_of_neg (by simp [Turn.part_none_iff.mp kept])]
    | some held =>
      have stays : turn.stays = true := by
        by_contra gone
        rw [Turn.part_none_iff.mpr (by simpa using gone)] at kept
        cases kept
      rw [List.filterMap_cons_some kept, List.map_cons, ih, List.filter_cons_of_pos stays,
        List.map_cons, Turn.part_block kept]

theorem finalOrder_eq :
    (pack.compile reading).report.finalOrder = (keptOrder pack reading).map PackBlock.id := by
  rw [← map_block_final distinct, List.map_map]
  rfl

theorem keptOrder_nodup : (keptOrder pack reading).Nodup :=
  (List.Nodup.of_map PackBlock.id (queue_nodup distinct)).sublist keptOrder_sublist

def named (pack : ContextPack Q) (reading : Reading Q) : List (PackBlock Q) :=
  pack.blocks.filter fun block => block.id ∈ (pack.compile reading).report.finalOrder

theorem mem_named : block ∈ named pack reading ↔ block ∈ keptOrder pack reading := by
  rw [named, List.mem_filter, decide_eq_true_eq, finalOrder_eq distinct]
  constructor
  · rintro ⟨inside, there⟩
    obtain ⟨other, kept, same⟩ := List.mem_map.mp there
    have member : other ∈ pack.blocks := (mem_queue.mp (keptOrder_sublist.subset kept)).1
    exact List.inj_on_of_nodup_map distinct member inside same ▸ kept
  · intro kept
    exact ⟨(mem_queue.mp (keptOrder_sublist.subset kept)).1, List.mem_map_of_mem kept⟩

theorem keptOrder_eq : keptOrder pack reading = sortBy (PackBlock.rank reading)
    (named pack reading).reverse := by
  have queued : (pack.queue reading).filter (fun block =>
      block.id ∈ (pack.compile reading).report.finalOrder) = keptOrder pack reading := by
    have unique : (pack.queue reading).Nodup := List.Nodup.of_map PackBlock.id (queue_nodup distinct)
    have inside : (keptOrder pack reading).Sublist
        ((pack.queue reading).filter fun block => block.id ∈ (pack.compile reading).report.finalOrder) := by
      have all : (keptOrder pack reading).filter (fun block =>
          block.id ∈ (pack.compile reading).report.finalOrder) = keptOrder pack reading := by
        apply List.filter_eq_self.mpr
        intro block kept
        rw [decide_eq_true_eq, finalOrder_eq distinct]
        exact List.mem_map_of_mem kept
      rw [← all]
      exact keptOrder_sublist.filter _
    apply (inside.eq_of_length_le _).symm
    apply (List.subperm_of_subset (unique.filter _) _).length_le
    intro block there
    obtain ⟨queued, here⟩ := List.mem_filter.mp there
    exact (mem_named distinct).mp (List.mem_filter.mpr ⟨(mem_queue.mp queued).1, here⟩)
  rw [← queued, ContextPack.queue, ← sortBy_filter, List.filter_reverse, List.filter_filter]
  refine congrArg (fun blocks => sortBy (PackBlock.rank reading) (List.reverse blocks)) ?_
  apply List.filter_congr
  intro block inside
  cases stands : pack.stands reading block with
  | true => simp
  | false =>
    have gone : block.id ∉ (pack.compile reading).report.finalOrder := by
      intro there
      have kept := (mem_named distinct).mp (List.mem_filter.mpr ⟨inside, by simpa using there⟩)
      rw [(mem_queue.mp (keptOrder_sublist.subset kept)).2] at stands
      cases stands
    simp [gone]

/-- The kept blocks stand as they were added when no two of them have the same priority. -/
theorem keptOrder_iff : keptOrder pack reading = sortBy (PackBlock.rank reading) (named pack reading) ↔
    (((pack.allTurns reading).filter Turn.stays).map fun turn => turn.block.rank reading).Nodup := by
  have unique : (named pack reading).Nodup := (List.Nodup.of_map PackBlock.id distinct).filter _
  have same : (named pack reading).Perm (keptOrder pack reading) :=
    (List.perm_ext_iff_of_nodup unique (keptOrder_nodup distinct)).mpr fun block => mem_named distinct
  rw [keptOrder_eq distinct, sortBy_reverse_iff unique,
    (same.map (PackBlock.rank reading)).nodup_iff, keptOrder, List.map_map]
  rfl

end Order

theorem compile_faithful (distinct : (pack.blocks.map PackBlock.id).Nodup) :
    Faithful pack reading (pack.compile reading) ↔
    0 ≤ pack.budget ∧ (∀ turn ∈ pack.allTurns reading, turn.block.isCapped = true → turn.Whole) ∧
      (((pack.allTurns reading).filter Turn.stays).map fun turn => turn.block.rank reading).Nodup := by
  constructor
  · intro faithful
    refine ⟨(outputTokens_le_iff distinct).mp faithful.bounded, fun turn member =>
      whole_of_decided distinct faithful.decided member, ?_⟩
    obtain ⟨parts, _, _, order, blocks⟩ := faithful.joined
    apply (keptOrder_iff distinct).mp
    have ids : (keptOrder pack reading).map PackBlock.id =
        (sortBy (PackBlock.rank reading) (named pack reading)).map PackBlock.id := by
      rw [← finalOrder_eq distinct, named, ← blocks, List.map_map, order]
      rfl
    have kept_inside : ∀ block ∈ keptOrder pack reading, block ∈ pack.blocks := fun block kept =>
      (mem_queue.mp (keptOrder_sublist.subset kept)).1
    have named_inside : ∀ block ∈ sortBy (PackBlock.rank reading) (named pack reading),
        block ∈ pack.blocks :=
      fun block there =>
      List.mem_of_mem_filter (sortBy_perm.mem_iff.mp there)
    exact eq_of_ids distinct kept_inside named_inside ids
  · rintro ⟨some_room, fits, ranks⟩
    refine ⟨decided_of_whole distinct fits, ?_, (outputTokens_le_iff distinct).mpr some_room, ?_⟩
    · rw [outputTokens_eq distinct]
      exact (account_of_whole distinct fits).symm
    · refine ⟨(pack.finalSorted reading).map fun held => (held.block, held.text), ?_, ?_, ?_, ?_⟩
      · rw [List.map_map]
        rfl
      · intro part member
        obtain ⟨held, there, rfl⟩ := List.mem_map.mp member
        rw [finalSorted_eq distinct] at there
        obtain ⟨turn, _, kept⟩ := List.mem_filterMap.mp there
        exact turn.part_excerpt kept
      · rw [List.map_map]
        rfl
      · rw [List.map_map]
        exact (map_block_final distinct).trans ((keptOrder_iff distinct).mpr ranks)

def plainReading : Reading Nat := ⟨id, fun first second => decide (first < second), toString⟩

def sampleBlock (id priority : String) (length : Nat) (maxTokens : Option Int) : PackBlock Nat :=
  ⟨id, "knowledge", List.replicate length 'x', priority, none, maxTokens⟩

def samplePack (budget : Int) (blocks : List (PackBlock Nat)) : ContextPack Nat := ⟨budget, 1, ['-'], blocks⟩

def threeBlocks : ContextPack Nat :=
  samplePack 12 [sampleBlock "history" "low" 20 none, sampleBlock "docs" "high" 40 (some 5),
    sampleBlock "system" "critical" 16 none]

theorem threeBlocks_faithful : Faithful threeBlocks plainReading (threeBlocks.compile plainReading) :=
  (compile_faithful (by decide +kernel)).mpr ⟨by decide, by decide +kernel, by decide +kernel⟩

def cappedHistory : ContextPack Nat := samplePack 2 [sampleBlock "history" "low" 20 (some 3)]

/-- A block that its own cap has cut is dropped over the budget with a second decision. -/
theorem cappedHistory_twice :
    (cappedHistory.blocks.map PackBlock.id).Nodup ∧
    ¬ Faithful cappedHistory plainReading (cappedHistory.compile plainReading) := by
  refine ⟨by decide, ?_⟩
  intro faithful
  have once := faithful.decided.length_eq
  revert once
  decide +kernel

end TokenPak.Compression.Pack

/-! The priorities in a packed context. The critical blocks come first, so they are kept whole when
they fit together and none of them is below the quality threshold; a block of a lower priority is
kept in the place of one that is dropped where the blocks of the same priority have taken the room
of the latter. -/

namespace TokenPak.Compression.Pack
open Library StableSort
variable {Q : Type} {reading : Reading Q} {pack : ContextPack Q} {block : PackBlock Q} {turn : Turn Q}

def critical (pack : ContextPack Q) (reading : Reading Q) : List (PackBlock Q) :=
  pack.blocks.filter fun block => block.rank reading = 0

/-- The block is kept with its full text, or with what its own cap leaves of it. -/
def KeptWhole (pack : ContextPack Q) (reading : Reading Q) (block : PackBlock Q) : Prop :=
  block.held ∈ pack.finalSorted reading

def RemovedForBudget (pack : ContextPack Q) (reading : Reading Q) (block : PackBlock Q) : Prop :=
  ∃ decision ∈ (pack.compile reading).report.decisions, decision.blockId = block.id ∧
    decision.action = .removed ∧ decision.reason = overTotalBudget

/-- What the higher priorities leave of the budget. -/
def leftFor (pack : ContextPack Q) (reading : Reading Q) (block : PackBlock Q) : Int :=
  pack.budget - (((pack.finalSorted reading).filter fun held =>
    held.block.rank reading < block.rank reading).map Held.tokens).sum

structure Prioritised (pack : ContextPack Q) (reading : Reading Q) : Prop where
  critical_kept : ((critical pack reading).map PackBlock.size).sum ≤ pack.budget →
    ∀ block ∈ critical pack reading, KeptWhole pack reading block
  in_order : ∀ removed ∈ pack.blocks, ∀ kept ∈ pack.blocks,
    removed.rank reading < kept.rank reading → KeptWhole pack reading kept →
    pack.stands reading removed = true → RemovedForBudget pack reading removed →
      leftFor pack reading removed < removed.size

def roomFor (pack : ContextPack Q) (reading : Reading Q) (block : PackBlock Q) : Int :=
  pack.budget - (((pack.allTurns reading).filter fun turn =>
    turn.block.rank reading < block.rank reading).map Turn.taken).sum

section Turns
variable (distinct : (pack.blocks.map PackBlock.id).Nodup)

theorem whole_of_critical {room : Int} {blocks : List (PackBlock Q)}
    (sorted : blocks.Pairwise (Before (PackBlock.rank reading)))
    (fits : ((blocks.filter fun block => block.rank reading = 0).map PackBlock.size).sum ≤ room) :
    ∀ turn ∈ turns room blocks, turn.block.rank reading = 0 → turn.Whole := by
  induction blocks generalizing room with
  | nil =>
    intro turn member
    cases member
  | cons block rest ih =>
    obtain ⟨first, others⟩ := List.pairwise_cons.mp sorted
    by_cases urgent : block.rank reading = 0
    · rw [List.filter_cons_of_pos (by simpa using urgent), List.map_cons, List.sum_cons] at fits
      have nonneg : 0 ≤ ((rest.filter fun block => block.rank reading = 0).map PackBlock.size).sum := by
        apply List.sum_nonneg
        intro size member
        obtain ⟨other, _, rfl⟩ := List.mem_map.mp member
        exact other.size_pos.le
      have whole : Turn.Whole ⟨block, room⟩ := by
        change block.size ≤ room
        omega
      intro turn member
      rcases List.mem_cons.mp member with rfl | behind
      · exact fun _ => whole
      · have left : ((rest.filter fun block => block.rank reading = 0).map PackBlock.size).sum ≤
            room - Turn.taken ⟨block, room⟩ := by
          rw [Turn.taken, if_pos whole]
          change _ ≤ room - block.size
          omega
        exact ih others left turn behind
    · intro turn member top
      have ranked : block.rank reading ≤ turn.block.rank reading := by
        rcases List.mem_cons.mp member with rfl | behind
        · exact le_rfl
        · apply first
          rw [← map_block_turns (room - Turn.taken ⟨block, room⟩) rest]
          exact List.mem_map_of_mem behind
      omega

theorem exists_turn (queued : block ∈ pack.queue reading) :
    ∃ turn ∈ pack.allTurns reading, turn.block = block := by
  rw [← map_block_turns pack.budget (pack.queue reading)] at queued
  exact List.mem_map.mp queued

theorem Turn.part_whole_iff : turn.part = some turn.block.held ↔ turn.Whole := by
  unfold Turn.part
  split
  next whole => simp [whole]
  next long =>
    split
    next shortened =>
      constructor
      · intro same
        have tokens : turn.room = turn.block.size := congrArg Held.tokens (Option.some.inj same)
        exact absurd tokens.ge long
      · exact fun whole => absurd whole long
    · simp [long]

include distinct

theorem keptWhole_iff : KeptWhole pack reading block ↔ ∃ turn ∈ pack.allTurns reading,
    turn.block = block ∧ turn.Whole := by
  rw [KeptWhole, finalSorted_eq distinct, List.mem_filterMap]
  constructor
  · rintro ⟨turn, member, kept⟩
    have same : block = turn.block := Turn.part_block kept
    rw [same] at kept
    exact ⟨turn, member, same.symm, Turn.part_whole_iff.mp kept⟩
  · rintro ⟨turn, member, rfl, whole⟩
    exact ⟨turn, member, Turn.part_whole_iff.mpr whole⟩

theorem leftFor_eq : leftFor pack reading block = roomFor pack reading block := by
  rw [leftFor, roomFor, finalSorted_eq distinct]
  congr 1
  induction pack.allTurns reading with
  | nil => rfl
  | cons turn rest ih =>
    cases kept : turn.part with
    | none =>
      rw [List.filterMap_cons_none kept, ih, List.filter_cons]
      split
      · rw [List.map_cons, List.sum_cons, Turn.taken_of_none kept, zero_add]
      · rfl
    | some held =>
      rw [List.filterMap_cons_some kept, List.filter_cons, List.filter_cons, Turn.part_block kept]
      split
      · rw [List.map_cons, List.sum_cons, ih, List.map_cons, List.sum_cons, Turn.part_tokens kept]
      · exact ih

theorem removedForBudget_iff (inside : block ∈ pack.blocks) :
    RemovedForBudget pack reading block ↔ ∃ turn ∈ pack.allTurns reading,
      turn.block = block ∧ turn.stays = false := by
  constructor
  · rintro ⟨decision, made, whose, removed, beyond⟩
    rcases List.mem_append.mp ((decisions_perm distinct).mem_iff.mp made) with low | turned
    · obtain ⟨other, there, judging⟩ := List.mem_flatMap.mp low
      have fails : pack.stands reading other = false := by simpa using (List.mem_filter.mp there).2
      obtain ⟨only, screened, _, _, reason⟩ := screen_low fails
      rw [judged, screened, List.mem_singleton] at judging
      exact absurd (judging ▸ beyond) reason
    · obtain ⟨turn, member, recorded⟩ := List.mem_flatMap.mp turned
      obtain ⟨turn_inside, stands⟩ := turn_block member
      rcases List.mem_append.mp recorded with judging | late
      · exfalso
        cases capped : turn.block.isCapped with
        | true =>
          obtain ⟨only, screened, _, _, reason⟩ := screen_capped distinct turn_inside stands capped
          rw [judged, screened, List.mem_singleton] at judging
          exact reason (judging ▸ beyond)
        | false =>
          rw [judged, screen_free distinct turn_inside stands capped] at judging
          cases judging
      · rcases List.mem_append.mp late with overflowing | quietly
        · have gone : turn.stays = false := by
            unfold Turn.overflow at overflowing
            unfold Turn.stays
            split at overflowing
            · cases overflowing
            next long =>
              split at overflowing
              · rw [List.mem_singleton.mp overflowing] at removed
                cases removed
              next dropped => simp [long, dropped]
          have named : decision.blockId = turn.block.id := by
            have long : ¬ turn.Whole := fun whole => by simp [Turn.stays, whole] at gone
            obtain ⟨only, overflow, named, _⟩ := overflow_long long
            rw [overflow, List.mem_singleton] at overflowing
            exact overflowing ▸ named
          exact ⟨turn, member,
            List.inj_on_of_nodup_map distinct turn_inside inside (named.symm.trans whose), gone⟩
        · exfalso
          unfold quiet at quietly
          split at quietly
          · rw [List.mem_singleton.mp quietly] at removed
            cases removed
          · cases quietly
  · rintro ⟨turn, member, rfl, gone⟩
    have long : ¬ turn.Whole := fun whole => by simp [Turn.stays, whole] at gone
    have dropped : ¬ turn.Shortened := fun shortened => by simp [Turn.stays, shortened] at gone
    have made : (⟨turn.block.id, turn.block.type, .removed, overTotalBudget, none,
      turn.block.priority, turn.block.size, 0,
        turn.block.quality⟩ : Decision Q) ∈ record pack reading turn := by
      rw [record, Turn.overflow, if_neg long, if_neg dropped]
      exact List.mem_append_right _ List.mem_cons_self
    have reported := (decisions_perm distinct).mem_iff.mpr (List.mem_append_right _ (List.mem_flatMap.mpr ⟨turn, member, made⟩))
    exact ⟨_, reported, rfl, rfl, rfl⟩

end Turns

theorem priorities_kept (distinct : (pack.blocks.map PackBlock.id).Nodup) : Prioritised pack reading ↔
    (((critical pack reading).map PackBlock.size).sum ≤ pack.budget →
      ∀ block ∈ critical pack reading, pack.stands reading block = true) ∧
      ∀ removed ∈ pack.allTurns reading, ∀ kept ∈ pack.allTurns reading, removed.stays = false → kept.Whole →
        removed.block.rank reading < kept.block.rank reading →
            roomFor pack reading removed.block < removed.block.size := by
  constructor
  · intro prioritised
    constructor
    · intro fits block urgent
      obtain ⟨turn, member, rfl, _⟩ :=
        (keptWhole_iff distinct).mp (prioritised.critical_kept fits block urgent)
      exact (turn_block member).2
    · intro removed there kept here gone whole below
      obtain ⟨inside, stands⟩ := turn_block there
      rw [← leftFor_eq distinct]
      apply prioritised.in_order removed.block inside kept.block (turn_block here).1 below
      · exact (keptWhole_iff distinct).mpr ⟨kept, here, rfl, whole⟩
      · exact stands
      · exact (removedForBudget_iff distinct inside).mpr ⟨removed, there, rfl, gone⟩
  · rintro ⟨stand, crowded⟩
    refine ⟨?_, ?_⟩
    · intro fits block urgent
      obtain ⟨inside, top⟩ := List.mem_filter.mp urgent
      obtain ⟨turn, member, rfl⟩ := exists_turn (mem_queue.mpr ⟨inside, stand fits block urgent⟩)
      apply (keptWhole_iff distinct).mpr
      refine ⟨turn, member, rfl, ?_⟩
      have standing : (critical pack reading).filter (pack.stands reading) = critical pack reading :=
        List.filter_eq_self.mpr (stand fits)
      have first : ((pack.queue reading).filter fun block => block.rank reading = 0).Perm (critical pack reading) := by
        rw [← standing, critical, List.filter_filter]
        refine (queue_perm.filter _).trans (List.Perm.of_eq ?_)
        rw [List.filter_filter]
        exact List.filter_congr fun block _ => Bool.and_comm _ _
      apply whole_of_critical queue_sorted _ turn member (by simpa using top)
      rw [(first.map PackBlock.size).sum_eq]
      exact fits
    · intro removed inside kept _ below whole _ beyond
      obtain ⟨lower, here, rfl, fits⟩ := (keptWhole_iff distinct).mp whole
      obtain ⟨higher, there, rfl, gone⟩ := (removedForBudget_iff distinct inside).mp beyond
      rw [leftFor_eq distinct]
      exact crowded higher there lower here gone fits below

/-- The documents find no room behind the system block, so the notes may stay. -/
def crowdedPack : ContextPack Nat :=
  samplePack 9 [sampleBlock "docs" "medium" 40 none, sampleBlock "notes" "low" 12 none,
    sampleBlock "system" "critical" 16 none]

theorem crowdedPack_prioritised : Prioritised crowdedPack plainReading ∧
    (∃ removed ∈ crowdedPack.blocks, ∃ kept ∈ crowdedPack.blocks,
      removed.rank plainReading < kept.rank plainReading ∧ KeptWhole crowdedPack plainReading kept ∧
      RemovedForBudget crowdedPack plainReading removed) := by
  refine ⟨(priorities_kept (by decide +kernel)).mpr ⟨by decide +kernel, by decide +kernel⟩,
    sampleBlock "docs" "medium" 40 none, by decide +kernel, sampleBlock "notes" "low" 12 none,
    by decide +kernel, by decide +kernel, ?_, ?_⟩
  · unfold KeptWhole
    decide +kernel
  · unfold RemovedForBudget
    decide +kernel

def weakCritical : ContextPack Nat :=
  samplePack 100 [⟨"system", "instructions", List.replicate 8 'x', "critical", some 0, none⟩]

/-- A critical block below the quality threshold is lost although it fits. -/
theorem weakCritical_lost :
    (weakCritical.blocks.map PackBlock.id).Nodup ∧ ¬ Prioritised weakCritical plainReading := by
  refine ⟨by decide, ?_⟩
  intro prioritised
  have kept :=
    prioritised.critical_kept (by decide +kernel) ⟨"system", "instructions", List.replicate 8 'x',
      "critical", some 0, none⟩ (by decide +kernel)
  revert kept
  unfold KeptWhole
  decide +kernel

end TokenPak.Compression.Pack
