import TokenPak.Library.StableSort

/-! Pages of a table in the order of a key. A page starts behind the last key of the page before it. -/

namespace TokenPak.Library.Keyset
open StableSort
variable {Item Key : Type} [LinearOrder Key] {key : Item → Key}

/-- The item belongs to the pages behind `bound`. -/
def Behind (key : Item → Key) (bound : Option Key) (item : Item) : Prop := ∀ k ∈ bound, k < key item

instance (key : Item → Key) (bound : Option Key) (item : Item) : Decidable (Behind key bound item) :=
  inferInstanceAs (Decidable (∀ k ∈ bound, k < key item))

/-- All the items behind `bound`, in order. -/
def window (key : Item → Key) (items : List Item) (bound : Option Key) : List Item :=
  sortBy key (items.filter fun item => decide (Behind key bound item))

/-- A page and, when there is more, where the next one starts. One row too many is looked at. -/
def page (key : Item → Key) (items : List Item) (bound : Option Key) (limit : Nat) : List Item × Option Key :=
  let rows := (window key items bound).take (limit + 1)
  if rows.length > limit then (rows.take limit, (rows.take limit).getLast?.map key) else (rows, none)

/-- One page after another, each of a table and with a limit of its own, and where the next one
would start. -/
def pages (key : Item → Key) : List (List Item × Nat) → Option Key → List (List Item) × Option Key
  | [], bound => ([], bound)
  | (items, limit) :: visits, bound =>
    match page key items bound limit with
    | (rows, none) => ([rows], none)
    | (rows, some next) =>
      let rest := pages key visits (some next)
      (rows :: rest.1, rest.2)

section Page
variable {items : List Item} {bound : Option Key} {limit : Nat}

theorem mem_window {item : Item} : item ∈ window key items bound ↔ item ∈ items ∧ Behind key bound item := by
  rw [window, sortBy_perm.mem_iff, List.mem_filter, decide_eq_true_iff]

theorem window_all : window key items none = sortBy key items := by
  have all : (items.filter fun item => decide (Behind key none item)) = items := by
    apply List.filter_eq_self.mpr
    intro item _
    simp [Behind]
  rw [window, all]

theorem window_strict (distinct : (items.map key).Nodup) :
    (window key items bound).Pairwise fun first second => key first < key second := by
  have apart : ((window key items bound).map key).Nodup :=
    ((sortBy_perm.map key).nodup_iff).mpr ((List.filter_sublist.map key).nodup distinct)
  have both :=
    (@pairwise_sortBy _ _ (items.filter fun item =>
      decide (Behind key bound item)) _ key).and (List.pairwise_map.mp apart)
  exact both.imp fun order => lt_of_le_of_ne order.1 order.2

theorem page_of_le (short : (window key items bound).length ≤ limit) :
    page key items bound limit = (window key items bound, none) := by
  have whole : (window key items bound).take (limit + 1) = window key items bound :=
    List.take_of_length_le (by omega)
  rw [page, whole, if_neg (by omega)]

theorem page_of_lt (positive : 0 < limit) (long : limit < (window key items bound).length) :
    ∃ front last back, window key items bound = front ++ last :: back ∧ front.length + 1 = limit ∧
      page key items bound limit = (front ++ [last], some (key last)) := by
  have inside : limit - 1 < (window key items bound).length := by omega
  refine ⟨(window key items bound).take (limit - 1), (window key items bound)[limit - 1],
    (window key items bound).drop limit, ?_, ?_, ?_⟩
  · have split := List.take_append_drop (limit - 1) (window key items bound)
    rw [List.drop_eq_getElem_cons inside, show limit - 1 + 1 = limit by omega] at split
    exact split.symm
  · rw [List.length_take]
    omega
  · have rows : ((window key items bound).take (limit + 1)).take limit =
        (window key items bound).take (limit - 1) ++ [(window key items bound)[limit - 1]] := by
      rw [List.take_take, Nat.min_eq_left (by omega), List.take_append_getElem inside]
      congr 1
      omega
    rw [page, List.length_take, if_pos (by omega), rows, List.getLast?_concat]
    rfl

theorem window_next {front back : List Item} {last : Item} (distinct : (items.map key).Nodup)
    (split : window key items bound = front ++ last :: back) : window key items (some (key last)) = back := by
  have strict := @window_strict _ _ _ key items bound distinct
  have member : last ∈ window key items bound := by
    rw [split]
    simp
  rw [split, List.pairwise_append, List.pairwise_cons] at strict
  obtain ⟨_, ⟨after_last, ordered⟩, before⟩ := strict
  apply List.Perm.eq_of_pairwise' (@window_strict _ _ _ key items (some (key last)) distinct) ordered
  apply (List.perm_ext_iff_of_nodup _ _).mpr
  · intro item
    rw [mem_window]
    constructor
    · rintro ⟨inside, behind⟩
      have further : Behind key bound item := by
        intro k here
        exact ((mem_window.mp member).2 k here).trans (behind _ rfl)
      have there : item ∈ front ++ last :: back := split ▸ mem_window.mpr ⟨inside, further⟩
      have less : key last < key item := behind _ rfl
      rcases List.mem_append.mp there with there | there
      · exact absurd (before item there last List.mem_cons_self) less.asymm
      · rcases List.mem_cons.mp there with rfl | there
        · exact absurd less (lt_irrefl _)
        · exact there
    · intro there
      have inside : item ∈ window key items bound := by
        rw [split]
        simp [there]
      refine ⟨(mem_window.mp inside).1, ?_⟩
      rintro _ ⟨⟩
      exact after_last item there
  · exact (window_strict distinct).imp fun less same => less.ne (congrArg key same)
  · exact ordered.imp fun less same => less.ne (congrArg key same)

end Page

section Fixed
variable {items : List Item} {bound : Option Key}

/-- The pages of one table are the table in order, and they come to an end. -/
theorem pages_fixed (distinct : (items.map key).Nodup) (limits : List Nat)
    (positive : ∀ limit ∈ limits, 0 < limit)
    (enough : (window key items bound).length < limits.length) :
    (pages key (limits.map fun limit => (items, limit)) bound).1.flatten = window key items bound ∧
      (pages key (limits.map fun limit => (items, limit)) bound).2 = none := by
  induction limits generalizing bound with
  | nil => cases enough
  | cons limit limits ih =>
    obtain ⟨here, positive⟩ := List.forall_mem_cons.mp positive
    rw [List.map_cons, pages]
    rcases Nat.lt_or_ge limit (window key items bound).length with long | short
    · obtain ⟨front, last, back, split, size, made⟩ := page_of_lt here long
      have next := window_next distinct split
      have fewer : (window key items (some (key last))).length < limits.length := by
        rw [split, List.length_append, List.length_cons, List.length_cons] at enough
        rw [next]
        omega
      obtain ⟨listed, ended⟩ := ih positive fewer
      rw [made]
      refine ⟨?_, ended⟩
      rw [List.flatten_cons, listed, next, split, List.append_assoc]
      rfl
    · rw [page_of_le short]
      exact ⟨List.append_nil _, rfl⟩

end Fixed

section Changing
variable [DecidableEq Item] {bound : Option Key} {item : Item}

theorem count_window {items : List Item} (distinct : (items.map key).Nodup) :
    (window key items bound).count item = if item ∈ items ∧ Behind key bound item then 1
    else 0 := by
  have once : (window key items bound).Nodup :=
    (window_strict distinct).imp fun less same => less.ne (congrArg key same)
  rw [once.count]
  simp only [mem_window]

/-- An item that is in every table is listed once when the pages end, and never twice; from a page
behind it on it is not listed. -/
theorem count_pages (visits : List (List Item × Nat)) (distinct : ∀ visit ∈ visits, (visit.1.map key).Nodup)
    (positive : ∀ visit ∈ visits, 0 < visit.2) (stays : ∀ visit ∈ visits, item ∈ visit.1) :
    (¬ Behind key bound item → (pages key visits bound).1.flatten.count item = 0) ∧
      (Behind key bound item → (pages key visits bound).1.flatten.count item ≤ 1 ∧
        ((pages key visits bound).2 = none → visits ≠ [] → (pages key visits bound).1.flatten.count item = 1)) := by
  induction visits generalizing bound with
  | nil => simp [pages]
  | cons visit visits ih =>
    obtain ⟨items, limit⟩ := visit
    obtain ⟨keys, distinct⟩ := List.forall_mem_cons.mp distinct
    obtain ⟨room, positive⟩ := List.forall_mem_cons.mp positive
    obtain ⟨inside, stays⟩ := List.forall_mem_cons.mp stays
    have counted := @count_window _ _ _ key _ bound item _ keys
    rw [pages]
    rcases Nat.lt_or_ge limit (window key items bound).length with long | short
    · obtain ⟨front, last, back, split, _, made⟩ := page_of_lt room long
      obtain ⟨beyond, later⟩ := @ih (some (key last)) distinct positive stays
      have next := @count_window _ _ _ key _ (some (key last)) item _ keys
      rw [window_next keys split] at next
      rw [split, show front ++ last :: back = (front ++ [last]) ++
        back by simp, List.count_append, List.count_append] at counted
      have narrower : Behind key (some (key last)) item → Behind key bound item := by
        intro behind k here
        have there : last ∈ window key items bound := by
          rw [split]
          simp
        exact ((mem_window.mp there).2 k here).trans (behind _ rfl)
      rw [made]
      simp only [List.flatten_cons, List.count_append]
      by_cases behind : Behind key (some (key last)) item
      · -- the item is on a later page
        obtain ⟨most, exact'⟩ := later behind
        rw [if_pos ⟨inside, behind⟩] at next
        rw [if_pos ⟨inside, narrower behind⟩] at counted
        refine ⟨fun before => absurd (narrower behind) before, fun _ => ⟨by omega, fun ended _ => ?_⟩⟩
        cases visits with
        | nil => cases ended
        | cons visit visits =>
          have := exact' ended (by simp)
          omega
      · have gone := beyond behind
        rw [if_neg fun both => behind both.2] at next
        constructor
        · intro before
          rw [if_neg fun both => before both.2] at counted
          omega
        · intro ahead
          rw [if_pos ⟨inside, ahead⟩] at counted
          exact ⟨by omega, fun _ _ => by omega⟩
    · rw [page_of_le short]
      simp only [List.flatten_cons, List.flatten_nil, List.append_nil, counted]
      exact ⟨fun front => if_neg fun both => front both.2, fun front => by simp [inside, front]⟩

end Changing

end TokenPak.Library.Keyset
