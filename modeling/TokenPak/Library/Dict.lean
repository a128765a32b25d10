import Mathlib.Algebra.BigOperators.Group.List.Basic
import Mathlib.Data.List.Nodup

/-! Dictionaries: entries in insertion order, one for each key. An assignment to a
key that is there keeps its place. -/

namespace TokenPak.Library

structure Dict (Key Value : Type) where
  entries : List (Key × Value)
  unique : (entries.map Prod.fst).Nodup

namespace Dict
variable {Key Value : Type}

theorem ext_entries {first second : Dict Key Value} (same : first.entries = second.entries) :
    first = second := by
  cases first
  cases second
  cases same
  rfl

def empty : Dict Key Value := ⟨[], List.nodup_nil⟩

def values (dict : Dict Key Value) : List Value := dict.entries.map Prod.snd

variable [DecidableEq Key]

def get (dict : Dict Key Value) (key : Key) : Option Value := (dict.entries.find? (·.1 = key)).map Prod.snd

def set (dict : Dict Key Value) (key : Key) (value : Value) : Dict Key Value :=
  if taken : key ∈ dict.entries.map Prod.fst then
    ⟨dict.entries.map fun entry => if entry.1 = key then (key, value) else entry, by
      have same : Prod.fst ∘ (fun entry : Key × Value => if entry.1 = key then (key, value)
          else entry) = Prod.fst := by
        funext entry
        by_cases found : entry.1 = key <;> simp [found]
      rw [List.map_map, same]
      exact dict.unique⟩
  else
    ⟨dict.entries ++ [(key, value)], by
      rw [List.map_append, List.nodup_append']
      exact ⟨dict.unique, by simp, by simpa using taken⟩⟩

def pop (dict : Dict Key Value) (key : Key) : Dict Key Value :=
  ⟨dict.entries.filter (·.1 ≠ key), (List.filter_sublist.map Prod.fst).nodup dict.unique⟩

def filter (dict : Dict Key Value) (test : Key × Value → Bool) : Dict Key Value :=
  ⟨dict.entries.filter test, (List.filter_sublist.map Prod.fst).nodup dict.unique⟩

def dropOldest (dict : Dict Key Value) (count : Nat) : Dict Key Value :=
  ⟨dict.entries.drop count, ((List.drop_sublist count _).map Prod.fst).nodup dict.unique⟩

variable {dict : Dict Key Value} {key : Key} {value : Value}

theorem mem_entries (found : dict.get key = some value) : (key, value) ∈ dict.entries := by
  obtain ⟨entry, there, same⟩ := Option.map_eq_some_iff.mp found
  have named : entry.1 = key := by simpa using List.find?_some there
  have whole : entry = (key, value) := Prod.ext named same
  exact whole ▸ List.mem_of_find?_eq_some there

theorem get_of_mem (member : (key, value) ∈ dict.entries) : dict.get key = some value := by
  cases found : dict.entries.find? (·.1 = key) with
  | none => simpa using List.find?_eq_none.mp found _ member
  | some entry =>
    have named : entry.1 = key := by simpa using List.find?_some found
    have same : entry = (key, value) :=
      List.inj_on_of_nodup_map dict.unique (List.mem_of_find?_eq_some found) member named
    simp [get, found, same]

theorem get_eq_some_iff : dict.get key = some value ↔ (key, value) ∈ dict.entries := ⟨mem_entries, get_of_mem⟩

theorem get_filter {test : Key × Value → Bool} :
    (dict.filter test).get key = some value ↔ dict.get key = some value ∧ test (key, value) = true := by
  rw [get_eq_some_iff, get_eq_some_iff]
  exact List.mem_filter

theorem get_of_dropOldest {count : Nat} (found : (dict.dropOldest count).get key = some value) :
    dict.get key = some value :=
  get_of_mem (List.mem_of_mem_drop (mem_entries found))

theorem mem_values (found : dict.get key = some value) : value ∈ dict.values :=
  List.mem_map.mpr ⟨_, mem_entries found, rfl⟩

theorem not_mem_keys (absent : dict.get key = none) : key ∉ dict.entries.map Prod.fst := by
  intro taken
  obtain ⟨⟨_, value⟩, member, rfl⟩ := List.mem_map.mp taken
  rw [get_of_mem member] at absent
  cases absent

theorem get_pop_none {other : Key} (absent : dict.get key = none) : (dict.pop other).get key = none := by
  cases found : (dict.pop other).get key with
  | none => rfl
  | some value =>
    have member := List.mem_of_mem_filter (mem_entries found)
    rw [get_of_mem member] at absent
    cases absent

theorem get_eq_none_iff : dict.get key = none ↔ key ∉ dict.entries.map Prod.fst := by
  refine ⟨not_mem_keys, fun apart => ?_⟩
  cases found : dict.get key with
  | none => rfl
  | some value => exact absurd (List.mem_map.mpr ⟨_, mem_entries found, rfl⟩) apart

theorem get_pop_self (dict : Dict Key Value) (key : Key) : (dict.pop key).get key = none := by
  apply get_eq_none_iff.mpr
  intro taken
  obtain ⟨entry, member, same⟩ := List.mem_map.mp taken
  simpa [same] using (List.mem_filter.mp member).2

theorem get_pop_of_ne {other : Key} (differs : other ≠ key) : (dict.pop key).get other = dict.get other := by
  have same : ∀ entry : Key × Value, (entry.1 ≠ key ∧ entry.1 = other) ↔ entry.1 = other := by
    intro entry
    exact ⟨And.right, fun named => ⟨named ▸ differs, named⟩⟩
  simp only [get, pop, List.find?_filter, decide_eq_true_eq, same]

theorem filter_key (dict : Dict Key Value) (key : Key) :
    dict.entries.filter (·.1 = key) = (dict.get key).toList.map fun value => (key, value) := by
  cases found : dict.get key with
  | none =>
    apply List.filter_eq_nil_iff.mpr
    intro entry member named
    exact get_eq_none_iff.mp found (List.mem_map.mpr ⟨entry, member, by simpa using named⟩)
  | some value =>
    have distinct : (dict.entries.filter (·.1 = key)).Nodup :=
      (List.Nodup.of_map Prod.fst dict.unique).filter _
    apply List.perm_singleton.mp
    apply (List.perm_ext_iff_of_nodup distinct (List.nodup_singleton _)).mpr
    intro entry
    rw [List.mem_filter, List.mem_singleton]
    constructor
    · intro ⟨inside, named⟩
      exact List.inj_on_of_nodup_map dict.unique inside (mem_entries found) (by simpa using named)
    · intro same
      subst same
      exact ⟨mem_entries found, by simp⟩

theorem values_pop (found : dict.get key = some value) :
    dict.values.Perm (value :: (dict.pop key).values) := by
  have single : dict.entries.filter (·.1 = key) = [(key, value)] := by simp [filter_key, found]
  have split := (List.filter_append_perm (·.1 = key) dict.entries).symm.map Prod.snd
  rw [single] at split
  simpa [values, pop] using split

theorem mem_set (dict : Dict Key Value) (key : Key) (value : Value) :
    (key, value) ∈ (dict.set key value).entries := by
  by_cases taken : key ∈ dict.entries.map Prod.fst
  · obtain ⟨entry, member, same⟩ := List.mem_map.mp taken
    simp only [set, taken, dif_pos]
    exact List.mem_map.mpr ⟨entry, member, if_pos same⟩
  · simp [set, taken]

theorem mem_entries_set {entry : Key × Value} (member : entry ∈ (dict.set key value).entries) :
    entry ∈ dict.entries ∨ entry = (key, value) := by
  unfold set at member
  split at member
  · obtain ⟨old, there, same⟩ := List.mem_map.mp member
    split at same
    · exact .inr same.symm
    · exact .inl (same ▸ there)
  · simpa using member

theorem get_set_self (dict : Dict Key Value) (key : Key) (value : Value) :
    (dict.set key value).get key = some value :=
  get_of_mem (mem_set dict key value)

theorem get_set_of_ne {other : Key} (differs : other ≠ key) :
    (dict.set key value).get other = dict.get other := by
  unfold set
  split
  · rw [get, get, List.find?_map, Option.map_map]
    have same : ((fun entry : Key × Value => decide (entry.1 = other)) ∘
        fun entry => if entry.1 = key then (key, value) else entry) = fun entry => decide (entry.1 = other) := by
      funext entry
      by_cases named : entry.1 = key
      · simp [named]
      · simp [named]
    rw [same]
    cases found : dict.entries.find? fun entry => decide (entry.1 = other) with
    | none => rfl
    | some entry =>
      have named : entry.1 = other := by simpa using List.find?_some found
      simp [named, differs]
  · simp [get, List.find?_append, differs.symm]

theorem entries_set_of_mem (taken : key ∈ dict.entries.map Prod.fst) : (dict.set key value).entries =
    dict.entries.map fun entry => if entry.1 = key then (key, value) else entry := by
  rw [set, dif_pos taken]

theorem set_of_get (found : dict.get key = some value) : dict.set key value = dict := by
  apply ext_entries
  rw [entries_set_of_mem (List.mem_map.mpr ⟨_, mem_entries found, rfl⟩)]
  conv_rhs => rw [← List.map_id dict.entries]
  apply List.map_congr_left
  intro entry member
  by_cases named : entry.1 = key
  · rw [if_pos named]
    exact (List.inj_on_of_nodup_map dict.unique member (mem_entries found) named).symm
  · exact if_neg named

theorem set_set {old again : Value} (found : dict.get key = some old) :
    (dict.set key value).set key again = dict.set key again := by
  have taken : key ∈ dict.entries.map Prod.fst := List.mem_map.mpr ⟨_, mem_entries found, rfl⟩
  have still : key ∈ (dict.set key value).entries.map Prod.fst :=
    List.mem_map.mpr ⟨_, mem_set dict key value, rfl⟩
  apply ext_entries
  rw [entries_set_of_mem still, entries_set_of_mem taken, entries_set_of_mem taken, List.map_map]
  apply List.map_congr_left
  intro entry _
  by_cases named : entry.1 = key
  · simp [named]
  · simp [named]

theorem values_set_new (absent : dict.get key = none) :
    (dict.set key value).values = dict.values ++ [value] := by
  simp [values, set, not_mem_keys absent]

theorem map_values_set {Seen : Type} {old : Value} {see : Value → Seen} (found : dict.get key = some old)
    (same : see value = see old) : (dict.set key value).values.map see = dict.values.map see := by
  have taken : key ∈ dict.entries.map Prod.fst := List.mem_map.mpr ⟨_, mem_entries found, rfl⟩
  simp only [values, set, taken, dif_pos, List.map_map]
  apply List.map_congr_left
  intro ⟨other, held⟩ member
  by_cases named : other = key
  · subst named
    have held_old : held = old := by simpa [get_of_mem member] using found
    simp [same, held_old]
  · simp [named]

/-- The entries of the second dictionary on top of the first, as Python's `update` does. -/
def update (dict other : Dict Key Value) : Dict Key Value :=
  other.entries.foldl (fun dict entry => dict.set entry.1 entry.2) dict

def popAll (dict : Dict Key Value) (keys : List Key) : Dict Key Value := keys.foldl pop dict

theorem get_foldl_set (dict : Dict Key Value) (entries : List (Key × Value))
    (unique : (entries.map Prod.fst).Nodup) (key : Key) :
    (entries.foldl (fun dict entry => dict.set entry.1 entry.2) dict).get key =
      ((entries.find? (·.1 = key)).map Prod.snd).or (dict.get key) := by
  induction entries generalizing dict with
  | nil => simp
  | cons entry entries ih =>
    obtain ⟨fresh, unique⟩ := List.nodup_cons.mp unique
    rw [List.foldl_cons, ih _ unique]
    by_cases named : entry.1 = key
    · have absent : entries.find? (fun entry => decide (entry.1 = key)) = none := by
        rw [List.find?_eq_none]
        intro other member same
        apply fresh
        rw [named, ← of_decide_eq_true same]
        exact List.mem_map_of_mem member
      rw [absent, List.find?_cons_of_pos (by simpa using named), ← named, get_set_self]
      rfl
    · rw [get_set_of_ne (Ne.symm named)]
      simp [named]

theorem get_foldl_set_of_mem {entries : List (Key × Value)} (unique : (entries.map Prod.fst).Nodup)
    (member : (key, value) ∈ entries) :
    (entries.foldl (fun dict entry => dict.set entry.1 entry.2) dict).get key = some value := by
  have found : (entries.find? (·.1 = key)).map Prod.snd = some value :=
    @get_of_mem _ _ _ ⟨entries, unique⟩ _ _ member
  rw [get_foldl_set dict entries unique, found]
  rfl

theorem get_foldl_set_of_notMem {entries : List (Key × Value)}
    (unique : (entries.map Prod.fst).Nodup) (apart : key ∉ entries.map Prod.fst) :
    (entries.foldl (fun dict entry => dict.set entry.1 entry.2) dict).get key = dict.get key := by
  have found : (entries.find? (·.1 = key)).map Prod.snd = none :=
    (@get_eq_none_iff _ _ _ ⟨entries, unique⟩ _).mpr apart
  rw [get_foldl_set dict entries unique, found]
  rfl

theorem get_update (dict other : Dict Key Value) (key : Key) :
    (dict.update other).get key = (other.get key).or (dict.get key) :=
  get_foldl_set dict other.entries other.unique key

theorem get_popAll (dict : Dict Key Value) (keys : List Key) (key : Key) :
    (dict.popAll keys).get key = if key ∈ keys then none else dict.get key := by
  induction keys generalizing dict with
  | nil => rfl
  | cons first keys ih =>
    have rest : (dict.popAll (first :: keys)).get key = ((dict.pop first).popAll keys).get key := rfl
    rw [rest, ih]
    by_cases same : key = first
    · subst same
      simp [get_pop_self]
    · simp [same, get_pop_of_ne same]

/-- What is seen of the values is seen of the keys, in the order of the entries. -/
theorem values_in_order {Seen : Type} (see : Value → Seen) (nothing : Seen) {keys : List Key}
    (distinct : keys.Nodup) (same : ∀ key, key ∈ keys ↔ dict.get key ≠ none) :
    ∃ order : List Key, order.Perm keys ∧
      dict.values.map see = order.map fun key => ((dict.get key).map see).getD nothing := by
  refine ⟨dict.entries.map Prod.fst, ?_, ?_⟩
  · apply (List.perm_ext_iff_of_nodup dict.unique distinct).mpr
    intro key
    rw [same, Ne, get_eq_none_iff, not_not]
  · rw [values, List.map_map, List.map_map]
    apply List.map_congr_left
    rintro ⟨key, value⟩ member
    simp [get_of_mem member]

theorem sum_values {Total : Type} [AddCommMonoid Total] (amount : Value → Total) {keys : List Key}
    (distinct : keys.Nodup)
    (same : ∀ key, key ∈ keys ↔ dict.get key ≠ none) :
    (dict.values.map amount).sum = (keys.map fun key => ((dict.get key).map amount).getD 0).sum := by
  obtain ⟨order, perm, seen⟩ := values_in_order amount 0 distinct same
  rw [seen]
  exact (perm.map _).sum_eq

/-- Items gathered under their names: each key sees the items of its name only. -/
theorem get_foldl_group {Item : Type} (name : Item → Key) (add : Option Value → Item → Value)
    (items : List Item)
    (dict : Dict Key Value) (key : Key) :
    (items.foldl (fun dict item => dict.set (name item) (add (dict.get (name item)) item)) dict).get key =
      (items.filter fun item => name item = key).foldl (fun held item => some (add held item))
          (dict.get key) := by
  induction items generalizing dict with
  | nil => rfl
  | cons item items ih =>
    rw [List.foldl_cons, ih, List.filter_cons]
    by_cases named : name item = key
    · subst named
      simp [get_set_self]
    · simp [named, get_set_of_ne (Ne.symm named)]

omit [DecidableEq Key] in
theorem filter_eq_self {test : Key × Value → Bool}
    (all : ∀ entry ∈ dict.entries, test entry = true) : dict.filter test = dict :=
  ext_entries (List.filter_eq_self.mpr all)

end Dict
end TokenPak.Library
