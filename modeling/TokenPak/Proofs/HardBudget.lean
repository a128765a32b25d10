import Mathlib.Algebra.Order.BigOperators.Group.List
import Mathlib.Algebra.Order.Ring.Nat
import Mathlib.Algebra.Order.Ring.Rat
import TokenPak.Telemetry.Budgeter

/-! The limit of the budgeter. Every action leaves a component no larger, so what remains when all
listed actions and the emergency have gone through decides whether the limit is met; each component
comes down to its least size by itself. -/

namespace TokenPak.Telemetry
open Library.StableSort
variable {Score Other : Type} [LinearOrder Score] [Zero Score]
variable {budgeter : Budgeter} {space : Char → Bool} {components : Components Score Other}
  {comp : Component Score Other}
variable {items current : List (Item Score Other)} {action key : String}

section Statement
variable (budgeter : Budgeter) (space : Char → Bool) (components : Components Score Other)

/-- The item is one of the input, or one with its text cut short and marked; its other fields are as
they were. -/
def Shortened (span : Int) (original item : Item Score Other) : Prop :=
  item.score = original.score ∧ item.rest = original.rest ∧
    (item.shown = original.shown ∨
      ∃ start, start <+: original.shown ∧ (0 ≤ span → (start.length : Int) = span * 4) ∧ item.shown = start ++ dots)

/-- Items of the input, perhaps shortened; none that was dropped scores above one that was kept. -/
def Selected (span : Int) (items current : List (Item Score Other)) : Prop :=
  ∃ (pairs : List (Item Score Other × Item Score Other)) (dropped : List (Item Score Other)),
    (pairs.map Prod.fst ++ dropped).Perm items ∧ current = pairs.map Prod.snd ∧
      (∀ pair ∈ pairs, Shortened span pair.1 pair.2) ∧ ∀ pair ∈ pairs, ∀ item ∈ dropped,
        item.rank ≤ pair.1.rank

def EvidenceKept (span : Int) (before after : Component Score Other) : Prop :=
  after.text = before.text ∧ after.rest = before.rest ∧
    match before.items with
    | none => after.items = none
    | some items => ∃ current, after.items = some current ∧ Selected span items current

/-- A component keeps its key; the state is as it was, and evidence is what was selected of it. -/
structure EntryKept (span : Int) (before after : String × Component Score Other) : Prop where
  key : after.1 = before.1
  state : before.1 = "state" → after.2 = before.2
  evidence : before.1 = "evidence" → EvidenceKept span before.2 after.2

structure HardLimit : Prop where
  total : (totalUsed (allocate budgeter space components) : Int) ≤ budgeter.totalTokens
  entries : List.Forall₂ (EntryKept budgeter.evidenceMaxSpanTokens) components (allocate budgeter space components)
  steps : ∀ action (found : Components Score Other),
    totalUsed (trim budgeter space action found) ≤ totalUsed found
  emergency : ∀ found : Components Score Other, totalUsed (bestItem found) ≤ totalUsed found

/-- What is left of a component after all listed actions, and of evidence the best item. -/
def leastOf (key : String) (comp : Component Score Other) : Component Score Other :=
  let cut := budgeter.trimOrder.foldl (fun comp action => trimComponent budgeter space action key comp) comp
  if key = "evidence" then trimItems (fun items => (byScore items).take 1) cut else cut

/-- What no trimming removes. -/
def leastTokens : Nat := (components.map fun entry => (leastOf budgeter space entry.1 entry.2).tokens).sum

end Statement

section Shrinking

theorem countTokens_mono {text other : List Char} (shorter : text.length ≤ other.length) :
    countTokens text ≤ countTokens other := by
  simp only [countTokens]
  omega

theorem countTokens_truncate (text : List Char) (span : Int) :
    countTokens (truncateTokens text span) ≤ countTokens text := by
  simp only [countTokens, truncateTokens, List.length_append, upTo, List.length_take]
  by_cases long : span * 4 < text.length
  · rw [if_pos long]
    split <;> simp only [dots, List.length_cons, List.length_nil] <;> omega
  · rw [if_neg long]
    simp only [List.length_nil]
    omega

theorem length_intercalate (turns : List (List Char)) :
    (['\n', '\n'].intercalate turns).length + 2 = (turns.map fun turn => turn.length + 2).sum ∨
      turns = [] := by
  induction turns with
  | nil => exact .inr rfl
  | cons turn turns ih =>
    left
    cases turns with
    | nil => simp
    | cons next rest =>
      rcases ih with ih | none
      · rw [List.intercalate_cons_cons, List.map_cons, List.sum_cons, ← ih]
        simp only [List.length_append, List.length_cons, List.length_nil]
        omega
      · cases none

theorem splitTurns_length (text : List Char) :
    ((splitTurns text).map fun turn => turn.length + 2).sum = text.length + 2 := by
  induction text using splitTurns.induct with
  | case1 => rfl
  | case2 rest ih => simp [splitTurns, ih, Nat.add_comm, Nat.add_left_comm]
  | case3 c rest apart none ih =>
    rw [none] at ih
    simp at ih
  | case4 c rest apart turn turns same ih =>
    rw [same] at ih
    rw [splitTurns, same]
    · simp only [List.map_cons, List.sum_cons, List.length_cons] at ih ⊢
      omega
    · exact apart

theorem length_joined {turns : List (List Char)} {text : List Char} (part : turns.Sublist (splitTurns text)) :
    (['\n', '\n'].intercalate turns).length ≤ text.length := by
  have less := (part.map fun turn => turn.length + 2).sum_le_sum fun _ _ => Nat.zero_le _
  rw [splitTurns_length] at less
  rcases length_intercalate turns with size | rfl
  · exact Nat.le_of_add_le_add_right (size.trans_le less)
  · exact Nat.zero_le _

omit [LinearOrder Score] [Zero Score] in
theorem tokens_trimHistory (comp : Component Score Other) :
    (trimHistory budgeter space comp).tokens ≤ comp.tokens := by
  simp only [trimHistory]
  split
  · exact Nat.le_refl _
  · split
    · rw [Component.tokens, Component.tokens]
      cases comp.items with
      | some items => exact Nat.le_refl _
      | none =>
        apply countTokens_mono
        have sub : ∀ turns : List (List Char), (lastTurns turns budgeter.recentKeepTurns).Sublist turns := by
          intro turns
          rw [lastTurns]
          split <;> exact List.drop_sublist ..
        exact length_joined ((sub _).trans List.filter_sublist)
    · exact Nat.le_refl _

omit [LinearOrder Score] [Zero Score] in
theorem tokens_trimItems {change : List (Item Score Other) → List (Item Score Other)}
    (less : ∀ items, ((change items).map fun item => countTokens item.shown).sum ≤
      (items.map fun item => countTokens item.shown).sum) :
    (trimItems change comp).tokens ≤ comp.tokens := by
  unfold trimItems
  split
  next item items same =>
    rw [Component.tokens, Component.tokens, same]
    exact less _
  · exact Nat.le_refl _

theorem sum_take_byScore (count : Nat) (items : List (Item Score Other)) :
    (((byScore items).take count).map fun item => countTokens item.shown).sum ≤
      (items.map fun item => countTokens item.shown).sum := by
  have part := (List.take_sublist count (byScore items)).map fun item => countTokens item.shown
  have perm : (byScore items).Perm items := sortBy_perm
  exact (part.sum_le_sum fun _ _ => Nat.zero_le _).trans_eq (perm.map _).sum_eq

theorem tokens_trimComponent (action key : String) (comp : Component Score Other) :
    (trimComponent budgeter space action key comp).tokens ≤ comp.tokens := by
  unfold trimComponent
  split
  · exact tokens_trimHistory comp
  · split
    · exact tokens_trimItems fun items => sum_take_byScore _ items
    · split
      · apply tokens_trimItems
        intro items
        rw [List.map_map]
        exact List.sum_le_sum fun item _ => countTokens_truncate item.shown budgeter.evidenceMaxSpanTokens
      · split
        · unfold trimSkills
          split
          next long =>
            rw [Component.tokens, Component.tokens]
            cases comp.items with
            | some items => exact Nat.le_refl _
            | none =>
              have stub : countTokens omittedSchemas ≤ 200 := by decide +kernel
              exact stub.trans long.le
          · exact Nat.le_refl _
        · split
          · unfold trimProseBackground
            split
            · exact Nat.le_refl _
            · rw [Component.tokens, Component.tokens]
              cases comp.items with
              | some items => exact Nat.le_refl _
              | none => exact countTokens_truncate comp.shown _
          · exact Nat.le_refl _

omit [LinearOrder Score] [Zero Score] in
theorem totalUsed_map (change : String → Component Score Other → Component Score Other)
    (less : ∀ key comp, (change key comp).tokens ≤ comp.tokens) (components : Components Score Other) :
    totalUsed (components.map fun entry => (entry.1, change entry.1 entry.2)) ≤ totalUsed components := by
  rw [totalUsed, totalUsed, List.map_map]
  exact List.sum_le_sum fun entry _ => less entry.1 entry.2

theorem totalUsed_trim (action : String) (components : Components Score Other) :
    totalUsed (trim budgeter space action components) ≤ totalUsed components :=
  totalUsed_map _ (tokens_trimComponent action) components

theorem totalUsed_bestItem (components : Components Score Other) :
    totalUsed (bestItem components) ≤ totalUsed components := by
  apply totalUsed_map (fun key comp =>
    if key = "evidence" then trimItems (fun items => (byScore items).take 1) comp else comp)
  intro key comp
  split
  · exact tokens_trimItems fun items => sum_take_byScore 1 items
  · exact Nat.le_refl _

end Shrinking

section Least

def allTrimmed (budgeter : Budgeter) (space : Char → Bool) (order : List String)
    (components : Components Score Other) : Components Score Other :=
  order.foldl (fun found action => trim budgeter space action found) components

theorem totalUsed_allTrimmed (order : List String) :
    totalUsed (allTrimmed budgeter space order components) ≤ totalUsed components := by
  induction order generalizing components with
  | nil => exact Nat.le_refl _
  | cons action order ih => exact ih.trans (totalUsed_trim action components)

/-- Stopping at the budget leaves at least as much as all the actions, and the same when the budget
is not met. -/
theorem allTrimmed_spec (budgeter : Budgeter) (space : Char → Bool) (order : List String)
    (components : Components Score Other) :
    let found :=
      order.foldl (fun found action => if budgeter.fits found then found
        else trim budgeter space action found) components
    totalUsed (allTrimmed budgeter space order components) ≤ totalUsed found ∧
      (budgeter.fits found = false → found = allTrimmed budgeter space order components) := by
  induction order generalizing components with
  | nil => exact ⟨Nat.le_refl _, fun _ => rfl⟩
  | cons action order ih =>
    cases enough : budgeter.fits components with
    | false => simpa [allTrimmed, enough] using ih (trim budgeter space action components)
    | true =>
      have stays : ∀ order : List String,
          order.foldl (fun found action => if budgeter.fits found then found
              else trim budgeter space action found) components = components := by
        intro order
        induction order with
        | nil => rfl
        | cons action order ih => simpa [enough] using ih
      simp only [stays, enough]
      exact ⟨totalUsed_allTrimmed (action :: order), by simp⟩

theorem allTrimmed_eq (order : List String) (components : Components Score Other) :
    allTrimmed budgeter space order components =
    components.map fun entry =>
      (entry.1, order.foldl (fun comp action =>
      trimComponent budgeter space action entry.1 comp) entry.2) := by
  induction order generalizing components with
  | nil => simp [allTrimmed]
  | cons action order ih =>
    have step : allTrimmed budgeter space (action :: order) components =
        allTrimmed budgeter space order (trim budgeter space action components) :=
      rfl
    rw [step, ih, trim, List.map_map]
    rfl

theorem totalUsed_least (components : Components Score Other) :
    totalUsed (bestItem (allTrimmed budgeter space budgeter.trimOrder components)) =
      leastTokens budgeter space components := by
  rw [allTrimmed_eq, bestItem, totalUsed, leastTokens, List.map_map, List.map_map]
  rfl

/-- The limit is met exactly when what no trimming removes is within it. -/
theorem total_iff : (totalUsed (allocate budgeter space components) : Int) ≤ budgeter.totalTokens ↔
    (leastTokens budgeter space components : Int) ≤ budgeter.totalTokens := by
  obtain ⟨less, same⟩ := allTrimmed_spec budgeter space budgeter.trimOrder components
  rw [← totalUsed_least, allocate]
  cases met : budgeter.fits (trimmed budgeter space components) with
  | true =>
    have within : (totalUsed (trimmed budgeter space components) : Int) ≤ budgeter.totalTokens := by
      simpa [Budgeter.fits] using met
    have cut := totalUsed_bestItem (allTrimmed budgeter space budgeter.trimOrder components)
    rw [if_pos rfl]
    refine iff_of_true within ?_
    have below : totalUsed (allTrimmed budgeter space budgeter.trimOrder components) ≤
        totalUsed (trimmed budgeter space components) :=
      less
    omega
  | false =>
    have whole : trimmed budgeter space components =
        allTrimmed budgeter space budgeter.trimOrder components :=
      same met
    rw [if_neg Bool.false_ne_true, whole]

end Least

section Evidence
variable {span : Int}

omit [LinearOrder Score] in
theorem rank_eq {original item : Item Score Other} (short : Shortened span original item) :
    item.rank = original.rank := by
  rw [Item.rank, Item.rank, short.1]

theorem Selected.refl (items : List (Item Score Other)) : Selected span items items := by
  refine ⟨items.map fun item => (item, item), [], ?_, ?_, ?_, ?_⟩
  · simp [Function.comp_def]
  · simp [Function.comp_def]
  · intro pair member
    obtain ⟨item, -, rfl⟩ := List.mem_map.mp member
    exact ⟨rfl, rfl, .inl rfl⟩
  · intro pair _ item none
    cases none

theorem Selected.best (selected : Selected span items current) (count : Nat) :
    Selected span items ((byScore current).take count) := by
  obtain ⟨pairs, dropped, perm, rfl, short, above⟩ := selected
  let sorted := sortBy (fun pair : Item Score Other × Item Score Other => OrderDual.toDual pair.2.rank) pairs
  have order : sorted.Perm pairs := sortBy_perm
  have descending : sorted.Pairwise fun first second => second.2.rank ≤ first.2.rank :=
    @pairwise_sortBy _ _ pairs _ fun pair : Item Score Other × Item Score Other =>
      OrderDual.toDual pair.2.rank
  have split := List.take_append_drop count sorted
  refine ⟨sorted.take count, (sorted.drop count).map Prod.fst ++ dropped, ?_, ?_, ?_, ?_⟩
  · rw [← List.append_assoc, ← List.map_append, split]
    exact ((order.map Prod.fst).append_right dropped).trans perm
  · rw [byScore, sortBy_map, List.map_take]
  · intro pair member
    exact short pair (order.mem_iff.mp (List.mem_of_mem_take member))
  · intro pair member item lost
    have kept := order.mem_iff.mp (List.mem_of_mem_take member)
    rcases List.mem_append.mp lost with lost | lost
    · obtain ⟨other, behind, rfl⟩ := List.mem_map.mp lost
      have there := order.mem_iff.mp (List.mem_of_mem_drop behind)
      rw [← split] at descending
      have ranks := (List.pairwise_append.mp descending).2.2 pair member other behind
      rwa [rank_eq (short pair kept), rank_eq (short other there)] at ranks
    · exact above pair kept item lost

omit [LinearOrder Score] [Zero Score] in
theorem truncate_shortened {original item : Item Score Other} (short : Shortened span original item) :
    Shortened span original (item.truncated span) := by
  obtain ⟨score, rest, text⟩ := short
  refine ⟨score, rest, ?_⟩
  have shown : (item.truncated span).shown = truncateTokens item.shown span := rfl
  rw [shown, truncateTokens]
  by_cases long : span * 4 < item.shown.length
  · right
    rw [if_pos long]
    rcases text with same | ⟨start, part, size, same⟩
    · refine ⟨upTo item.shown (span * 4), by rw [upTo, same]; exact List.take_prefix .., ?_, rfl⟩
      intro positive
      rw [upTo, if_pos (by omega), List.length_take]
      omega
    · have shorter : upTo item.shown (span * 4) <+: start := by
        rw [same, upTo, List.take_append_of_le_length]
        · exact List.take_prefix ..
        · rw [List.length_append, dots]
          simp only [List.length_cons, List.length_nil]
          split <;> omega
      refine ⟨_, shorter.trans part, ?_, rfl⟩
      intro positive
      rw [upTo, if_pos (by omega), List.length_take]
      omega
  · rw [if_neg long, List.append_nil]
    have whole : upTo item.shown (span * 4) = item.shown := by
      rw [upTo, List.take_of_length_le]
      split <;> omega
    rw [whole]
    exact text

theorem Selected.truncated (selected : Selected span items current) :
    Selected span items (current.map (Item.truncated span)) := by
  obtain ⟨pairs, dropped, perm, rfl, short, above⟩ := selected
  refine ⟨pairs.map fun pair => (pair.1, pair.2.truncated span), dropped, ?_, ?_, ?_, ?_⟩
  · simpa [Function.comp_def] using perm
  · simp [Function.comp_def]
  · intro pair member
    obtain ⟨pair, inside, rfl⟩ := List.mem_map.mp member
    exact truncate_shortened (short pair inside)
  · intro pair member
    obtain ⟨pair, inside, rfl⟩ := List.mem_map.mp member
    exact above pair inside

variable {before after : String × Component Score Other} {original : Component Score Other}

theorem kept_trimItems {change : List (Item Score Other) → List (Item Score Other)}
    (kept : EvidenceKept span original comp)
    (selects : ∀ items current, Selected span items current → Selected span items (change current)) :
    EvidenceKept span original (trimItems change comp) := by
  unfold trimItems
  split
  next item rest same =>
    obtain ⟨text, others, found⟩ := kept
    refine ⟨text, others, ?_⟩
    split at found
    · rw [same] at found
      cases found
    · obtain ⟨current, here, selected⟩ := found
      rw [same] at here
      cases here
      exact ⟨_, rfl, selects _ _ selected⟩
  · exact kept

theorem EntryKept.refl (entry : String × Component Score Other) : EntryKept span entry entry := by
  refine ⟨rfl, fun _ => rfl, fun _ => ⟨rfl, rfl, ?_⟩⟩
  split
  next none => exact none
  next items some => exact ⟨items, some, Selected.refl items⟩

theorem EntryKept.trim (kept : EntryKept budgeter.evidenceMaxSpanTokens before after) (action : String) :
    EntryKept budgeter.evidenceMaxSpanTokens before (after.1,
      trimComponent budgeter space action after.1 after.2) := by
  obtain ⟨same, state, evidence⟩ := kept
  refine ⟨same, ?_, ?_⟩
  · intro named
    rw [← state named, same, named]
    simp [trimComponent]
  · intro named
    rw [same, named]
    unfold trimComponent
    split
    next other => exact absurd other.2 (by decide)
    · split
      · exact kept_trimItems (evidence named) fun _ _ selected => selected.best _
      · split
        · exact kept_trimItems (evidence named) fun _ _ selected => selected.truncated
        · split
          next other => exact absurd other.2 (by decide)
          · split
            next other => exact absurd other.2 (by decide)
            · exact evidence named

theorem EntryKept.best (kept : EntryKept span before after) : EntryKept span before
    (after.1, if after.1 = "evidence" then trimItems (fun items => (byScore items).take 1) after.2
      else after.2) := by
  obtain ⟨same, state, evidence⟩ := kept
  refine ⟨same, ?_, ?_⟩
  · intro named
    rw [← state named, same, named]
    simp
  · intro named
    rw [same, named, if_pos rfl]
    exact kept_trimItems (evidence named) fun _ _ selected => selected.best 1

theorem entries_allocate : List.Forall₂ (EntryKept budgeter.evidenceMaxSpanTokens) components (allocate budgeter space components) := by
  have all : ∀ (order : List String) (found : Components Score Other),
      List.Forall₂ (EntryKept budgeter.evidenceMaxSpanTokens) components found →
      List.Forall₂ (EntryKept budgeter.evidenceMaxSpanTokens) components
        (order.foldl (fun found action => if budgeter.fits found then found
            else Telemetry.trim budgeter space action found) found) := by
    intro order
    induction order with
    | nil => intro found kept; exact kept
    | cons action order ih =>
      intro found kept
      apply ih
      dsimp only
      split
      · exact kept
      · exact List.forall₂_map_right_iff.mpr (kept.imp fun _ _ entry => entry.trim action)
  have kept := all budgeter.trimOrder components (List.forall₂_same.mpr fun entry _ => EntryKept.refl entry)
  simp only [allocate]
  split
  · exact kept
  · exact List.forall₂_map_right_iff.mpr (kept.imp fun _ _ entry => entry.best)

end Evidence

/-- The limit is hard exactly when what no trimming removes is within it. -/
theorem hard_limit_iff (budgeter : Budgeter) (space : Char → Bool) (components : Components Score Other) :
    HardLimit budgeter space components ↔
      (leastTokens budgeter space components : Int) ≤ budgeter.totalTokens := by
  rw [← total_iff]
  constructor
  · intro limit
    exact limit.total
  · intro within
    exact ⟨within, entries_allocate, totalUsed_trim, totalUsed_bestItem⟩

section LongTurn

def defaultOrder : List String :=
  ["older_history", "low_score_evidence", "verbose_evidence", "nonessential_skills",
    "prose_background"]

def smallBudget : Budgeter := ⟨50, defaultOrder, 5, fun count => count * 4 / 5, 30⟩

def longTurn : Components ℚ Unit :=
  [("state", ⟨some "state".toList, none, []⟩),
    ("recent", ⟨some (List.replicate 800 'a'), none, []⟩)]

/-- One long turn is halved once and stays over the limit, though the state alone is within it. -/
theorem longTurn_over :
    (totalUsed (longTurn.take 1) : Int) ≤ smallBudget.totalTokens ∧
    ¬ HardLimit smallBudget (· = ' ') longTurn := by
  refine ⟨by decide +kernel, ?_⟩
  intro limit
  exact absurd limit.total (by decide +kernel)

end LongTurn
end TokenPak.Telemetry
