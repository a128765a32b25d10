import TokenPak.Library.Traversal
import TokenPak.Proofs.ToolPairing

/-! When a deduplication leaves no similar turns, when each turn that it takes out has one that
stands for it, and when a second one would find nothing. To keep the last, no two similar turns are
left. To keep the first, a turn takes out one similar turn only, and a second one may be left. Two
texts that are too short for a run of four characters count as similar whatever they say. -/

namespace TokenPak.Compression.Dedup
open Library

section Taking
variable {rival : Nat → Nat → Prop} {p q r h : Nat}

theorem Spoils.rivals (spoils : Spoils rival p q) : rival p q := by
  rw [Spoils] at spoils
  exact spoils.1

/-- Each turn is taken out by one other. -/
theorem Spoils.unique (first : Spoils rival p r) (second : Spoils rival q r) : p = q := by
  rcases Nat.lt_trichotomy p q with before | same | behind
  · rw [Spoils] at second
    exact absurd first (second.2.2.1 p before)
  · exact same
  · rw [Spoils] at first
    exact absurd second (first.2.2.1 q behind)

theorem Spoils.single (ahead : ∀ p q, rival p q → p < q) (first : Spoils rival p q)
    (second : Spoils rival p r) : q = r := by
  have order {q r : Nat} (first : Spoils rival p q) (second : Spoils rival p r) : ¬ q < r := by
    intro before
    have behind := ahead p q first.rivals
    have rivals := first.rivals
    rw [Spoils] at second
    obtain ⟨g, lower, taken⟩ := second.2.2.2 q behind before rivals
    exact absurd lower (first.unique taken ▸ Nat.lt_irrefl p)
  exact Nat.le_antisymm (Nat.not_lt.mp (order second first)) (Nat.not_lt.mp (order first second))

/-- A turn that stays and has a rival that nobody took out before takes out one. -/
theorem exists_spoils (staying : ∀ h, h < p → ¬ Spoils rival h p) (rivals : rival p q)
    (free : ∀ h, h < p → ¬ Spoils rival h q) :
    ∃ r, Spoils rival p r := by
  classical
  have some_rival : ∃ r, rival p r ∧ ∀ h, h < p → ¬ Spoils rival h r := ⟨q, rivals, free⟩
  refine ⟨Nat.find some_rival, ?_⟩
  rw [Spoils]
  obtain ⟨own, untaken⟩ := Nat.find_spec some_rival
  refine ⟨own, staying, untaken, fun k _ before other => ?_⟩
  by_contra none
  apply Nat.find_min some_rival before
  exact ⟨other, fun h lower taken => none ⟨h, lower, taken⟩⟩

end Taking

section Overlaps

theorem nodup_ngrams (n : Nat) (text : List Char) : (ngrams n text).Nodup := by
  unfold ngrams
  split
  · exact List.nodup_nil
  · exact List.nodup_dedup _

theorem jaccard_comm (F : Type) [Ratios F] (a b : String) : jaccard F a b = jaccard F b a := by
  have first := nodup_ngrams 4 a.toList
  have second := nodup_ngrams 4 b.toList
  have common : ((ngrams 4 a.toList).filter (· ∈ ngrams 4 b.toList)).length =
      ((ngrams 4 b.toList).filter (· ∈ ngrams 4 a.toList)).length := by
    apply List.Perm.length_eq
    rw [List.perm_ext_iff_of_nodup (first.filter _) (second.filter _)]
    intro gram
    simp [and_comm]
  have all : (ngrams 4 a.toList ++ ngrams 4 b.toList).dedup.length = (ngrams 4 b.toList ++
      ngrams 4 a.toList).dedup.length :=
    (List.perm_append_comm.dedup).length_eq
  simp only [jaccard, common, all, and_comm, or_comm]

end Overlaps

section Pairs
variable {F Hash : Type} [Ratios F] [DecidableEq Hash] (sha256 : String → Hash) (keep : Keep)
  (threshold : F) (turns : List Turn)

/-- A turn has another one's role and its text, or enough of its runs of four characters. -/
def StandsFor (p q : Nat) : Prop :=
  ∃ a b, turns[p]? = some a ∧ turns[q]? = some b ∧ a.role = b.role ∧
    (a.text = b.text ∨
      (ngrams 4 a.text.toList ≠ [] ∨ ngrams 4 b.text.toList ≠ []) ∧ Ratios.atLeast (jaccard F a.text b.text) threshold = true)

def SameHash (p q : Nat) :
    Prop := ∃ hash, (turns.map (key sha256))[p]? = some hash ∧
    (turns.map (key sha256))[q]? = some hash

/-- The second turn is the reason why the first one is taken out. -/
def Displaces (p q : Nat) : Prop :=
  match keep with
  | .last => p < q ∧ SameHash sha256 turns p q ∨ Rivals sha256 keep threshold turns p q
  | .first => q < p ∧ SameHash sha256 turns p q ∨ Spoils (Rivals sha256 keep threshold turns) q p

/-- Turns that are taken for each other by mistake: of different roles, or with different texts that
are both too short or have one hash. -/
def Mistaken (a b : Turn) : Prop :=
  a.role ≠ b.role ∨
    a.text ≠ b.text ∧ (ngrams 4 a.text.toList = [] ∧ ngrams 4 b.text.toList = [] ∨
      key sha256 a = key sha256 b)

/-- No turn is lost to one that it is taken for by mistake, and to keep the first, no turn that
stays has two similar ones behind it that no other turn takes out. -/
structure Sound : Prop where
  mistaken : ∀ p q a b, Displaces sha256 keep threshold turns p q → turns[p]? = some a →
    turns[q]? = some b → Mistaken sha256 a b →
    ∃ r, r ≠ p ∧ StandsFor threshold turns p r
  single : keep = .first → ∀ p q r, ¬ Displaced sha256 keep threshold turns p →
    Rivals sha256 keep threshold turns p q →
    Rivals sha256 keep threshold turns p r → q ≠ r →
    ∃ h, h ≠ p ∧ (Spoils (Rivals sha256 keep threshold turns) h q ∨
      Spoils (Rivals sha256 keep threshold turns) h r)

variable {sha256 keep threshold turns} {p q : Nat}

omit [DecidableEq Hash] in
theorem Rivals.lt (rivals : Rivals sha256 keep threshold turns p q) : p < q := rivals.2.2.2.1

omit [DecidableEq Hash] in
theorem not_stands_iff (inside : p < turns.length) : ¬ Stands keep (turns.map (key sha256)) p ↔
    ∃ q, (match keep with | .last => p < q | .first => q < p) ∧ SameHash sha256 turns p q := by
  have place : (turns.map (key sha256))[p]? = some (key sha256 turns[p]) := by simp [inside]
  cases keep <;> simp [Stands, SameHash, place]

omit [DecidableEq Hash] in
theorem displaced_iff (inside : p < turns.length) :
    Displaced sha256 keep threshold turns p ↔ ∃ q, Displaces sha256 keep threshold turns p q := by
  unfold Displaced
  rw [not_stands_iff inside]
  cases keep <;> simp only [Displaces, exists_or]

omit [DecidableEq Hash] in
theorem Displaces.ne (displaces : Displaces sha256 keep threshold turns p q) : q ≠ p := by
  cases keep with
  | last =>
    rcases displaces with ⟨behind, _⟩ | rivals
    · omega
    · exact (Nat.ne_of_lt rivals.lt).symm
  | first =>
    rcases displaces with ⟨before, _⟩ | spoils
    · omega
    · exact Nat.ne_of_lt spoils.rivals.lt

omit [DecidableEq Hash] in
theorem Displaces.inside (displaces : Displaces sha256 keep threshold turns p q) : q < turns.length := by
  have of_hash (same : SameHash sha256 turns p q) : q < turns.length := by
    obtain ⟨_, _, found⟩ := same
    simpa using lt_of_getElem? found
  cases keep with
  | last =>
    rcases displaces with ⟨_, same⟩ | rivals
    · exact of_hash same
    · exact rivals.2.2.1.lt
  | first =>
    rcases displaces with ⟨_, same⟩ | spoils
    · exact of_hash same
    · exact spoils.rivals.2.1.lt

theorem similar_iff : similar threshold turns p q = true ↔
    ∃ a b, turns[p]? = some a ∧ turns[q]? = some b ∧ a.role = b.role ∧
      Ratios.atLeast (jaccard F a.text b.text) threshold = true := by
  unfold similar
  cases turns[p]? <;> cases turns[q]? <;> simp

omit [DecidableEq Hash] in
/-- A displaced turn has one that stands for it, but for turns that are taken for each other by mistake. -/
theorem standsFor_of_displaces {a b : Turn} (displaces : Displaces sha256 keep threshold turns p q)
    (here : turns[p]? = some a)
    (there : turns[q]? = some b) (clear : ¬ Mistaken sha256 a b) : StandsFor threshold turns p q := by
  have role : a.role = b.role := not_not.mp fun differs => clear (.inl differs)
  refine ⟨a, b, here, there, role, ?_⟩
  by_cases same : a.text = b.text
  · exact .inl same
  · right
    have long : ngrams 4 a.text.toList ≠ [] ∨ ngrams 4 b.text.toList ≠ [] :=
      not_and_or.mp fun short => clear (.inr ⟨same, .inl short⟩)
    have apart : ¬ SameHash sha256 turns p q := by
      rintro ⟨hash, first, second⟩
      simp only [List.getElem?_map, here, there, Option.map_some, Option.some_inj] at first second
      exact clear (.inr ⟨same, .inr (first.trans second.symm)⟩)
    have near : similar threshold turns p q = true ∨ similar threshold turns q p = true := by
      cases keep with
      | last => exact .inl (displaces.resolve_left fun exact => apart exact.2).2.2.2.2
      | first => exact .inr (displaces.resolve_left fun exact => apart exact.2).rivals.2.2.2.2
    refine ⟨long, ?_⟩
    rcases near with near | near
    · obtain ⟨_, _, first, second, _, enough⟩ := similar_iff.mp near
      cases first.symm.trans here
      cases second.symm.trans there
      exact enough
    · obtain ⟨_, _, first, second, _, enough⟩ := similar_iff.mp near
      cases first.symm.trans there
      cases second.symm.trans here
      rwa [jaccard_comm]

/-- Each turn that is taken out has one that stands for it. -/
def Covered (sha256 : String → Hash) (keep : Keep) (threshold : F) (turns : List Turn) : Prop :=
  ∀ p, p < turns.length → p ∉ keptPlaces sha256 keep threshold turns → ∃ q,
    q ≠ p ∧ StandsFor threshold turns p q

theorem covered_iff :
    Covered sha256 keep threshold turns ↔ ∀ p q a b, Displaces sha256 keep threshold turns p q →
    turns[p]? = some a →
    turns[q]? = some b → Mistaken sha256 a b → ∃ r, r ≠ p ∧ StandsFor threshold turns p r := by
  constructor
  · intro covered p q a b displaces here _ _
    have inside := (List.getElem?_eq_some_iff.mp here).1
    apply covered p inside
    rw [mem_keptPlaces, displaced_iff inside]
    exact fun kept => kept.2 ⟨q, displaces⟩
  · intro mistaken p inside gone
    rw [mem_keptPlaces, displaced_iff inside] at gone
    obtain ⟨q, displaces⟩ := not_not.mp fun none => gone ⟨inside, none⟩
    have there := displaces.inside
    by_cases clear : Mistaken sha256 turns[p] turns[q]
    · exact mistaken p q _ _ displaces (List.getElem?_eq_getElem inside)
        (List.getElem?_eq_getElem there) clear
    · exact ⟨q, displaces.ne, standsFor_of_displaces displaces (List.getElem?_eq_getElem inside) (List.getElem?_eq_getElem there) clear⟩

def Apart (sha256 : String → Hash) (keep : Keep) (threshold : F) (turns : List Turn) : Prop :=
  ∀ p q, p ∈ keptPlaces sha256 keep threshold turns → q ∈ keptPlaces sha256 keep threshold turns → p < q →
    similar threshold turns p q = false

/-- To keep the last, no similar turns are left; to keep the first, none are unless a turn that
stays has two, as it takes out one. -/
theorem apart_iff (low : Ratios.atLeast threshold Ratios.one = false) : Apart sha256 keep threshold turns ↔
    (keep = .first → ∀ p q r, ¬ Displaced sha256 keep threshold turns p →
      Rivals sha256 keep threshold turns p q →
      Rivals sha256 keep threshold turns p r → q ≠ r →
      ∃ h, h ≠ p ∧ (Spoils (Rivals sha256 keep threshold turns) h q ∨ Spoils (Rivals sha256 keep threshold turns) h r)) := by
  have rivals_of {p q : Nat} (here : p ∈ keptPlaces sha256 keep threshold turns)
    (there : q ∈ keptPlaces sha256 keep threshold turns)
      (before : p < q)
          (near : similar threshold turns p q = true) : Rivals sha256 keep threshold turns p q := by
    have stands {p : Nat} (kept : p ∈ keptPlaces sha256 keep threshold turns) : Stands keep (turns.map (key sha256)) p :=
      not_not.mp fun fallen => ((mem_keptPlaces keep).mp kept).2 (.inl fallen)
    exact ⟨low, stands here, stands there, before, near⟩
  constructor
  · rintro apart rfl p q r staying first second differs
    have here : p ∈ keptPlaces sha256 .first threshold turns :=
      (mem_keptPlaces .first).mpr ⟨first.2.1.lt, staying⟩
    have stolen {q : Nat} (rivals : Rivals sha256 .first threshold turns p q) :
        ∃ h, Spoils (Rivals sha256 .first threshold turns) h q := by
      by_contra none
      have stays : ¬ Displaced sha256 .first threshold turns q := fun displaced =>
        displaced.elim (fun fallen => fallen rivals.2.2.1) none
      have there := (mem_keptPlaces .first).mpr ⟨rivals.2.2.1.lt, stays⟩
      have near := rivals.2.2.2.2
      rw [apart p q here there rivals.lt] at near
      cases near
    obtain ⟨h, taken⟩ := stolen first
    obtain ⟨g, taken'⟩ := stolen second
    by_cases same : h = p
    · refine ⟨g, ?_, .inr taken'⟩
      intro also
      subst same also
      exact differs (taken.single (fun _ _ rivals => rivals.lt) taken')
    · exact ⟨h, same, .inl taken⟩
  · intro single p q here there before
    by_contra near
    have rivals := rivals_of here there before (by simpa using near)
    have staying := ((mem_keptPlaces keep).mp here).2
    have also := ((mem_keptPlaces keep).mp there).2
    cases keep with
    | last => exact staying (.inr ⟨q, rivals⟩)
    | first =>
      have free (h p : Nat) (stays : ¬ Displaced sha256 .first threshold turns p) : ¬ Spoils (Rivals sha256 .first threshold turns) h p :=
        fun taken => stays (.inr ⟨h, taken⟩)
      obtain ⟨r, taken⟩ := exists_spoils (fun h _ => free h p staying) rivals (fun h _ => free h q also)
      have differs : q ≠ r := fun same => free p q also (same ▸ taken)
      obtain ⟨h, other, stolen | stolen⟩ := single rfl p q r staying rivals taken.rivals differs
      · exact free h q also stolen
      · exact other (stolen.unique taken)

theorem keptPlaces_inside : ∀ p ∈ keptPlaces sha256 keep threshold turns, p < turns.length :=
  fun _ member => ((mem_keptPlaces keep).mp member).1

def remaining (sha256 : String → Hash) (keep : Keep) (threshold : F) (turns : List Turn) : List Turn :=
  (keptPlaces sha256 keep threshold turns).filterMap (turns[·]?)

theorem getElem?_remaining (a : Nat) : (remaining sha256 keep threshold turns)[a]? =
    (keptPlaces sha256 keep threshold turns)[a]?.bind (turns[·]?) :=
      getElem?_filterMap_places keptPlaces_inside a

theorem length_remaining :
    (remaining sha256 keep threshold turns).length =
    (keptPlaces sha256 keep threshold turns).length := by
  apply List.filterMap_length_eq_length.mpr
  intro p member
  simp [keptPlaces_inside p member]

theorem key_remaining {a p : Nat} (place : (keptPlaces sha256 keep threshold turns)[a]? = some p) :
    ((remaining sha256 keep threshold turns).map (key sha256))[a]? = (turns.map (key sha256))[p]? := by
  rw [List.getElem?_map, getElem?_remaining, place, List.getElem?_map]
  rfl

theorem stands_remaining {a p : Nat} (place : (keptPlaces sha256 keep threshold turns)[a]? = some p) :
    Stands keep ((remaining sha256 keep threshold turns).map (key sha256)) a := by
  have kept := ((mem_keptPlaces keep).mp (List.mem_iff_getElem?.mpr ⟨a, place⟩)).2
  obtain ⟨hash, found, others⟩ : Stands keep (turns.map (key sha256)) p :=
    not_not.mp fun fallen => kept (.inl fallen)
  have at_place {b : Nat} (same : ((remaining sha256 keep threshold turns).map (key sha256))[b]? =
    some hash) :
      ∃ q, (keptPlaces sha256 keep threshold turns)[b]? = some q ∧
          (turns.map (key sha256))[q]? = some hash := by
    have inside := lt_of_getElem? same
    rw [List.length_map, length_remaining] at inside
    have there := List.getElem?_eq_getElem inside
    exact ⟨_, there, by rw [← key_remaining there, same]⟩
  refine ⟨hash, by rw [key_remaining place, found], ?_⟩
  cases keep with
  | last =>
    intro b behind same
    obtain ⟨q, there, hashed⟩ := at_place same
    exact others q ((lt_iff_of_sorted (keptPlaces_sorted .last) place there).mp behind) hashed
  | first =>
    intro b before same
    obtain ⟨q, there, hashed⟩ := at_place same
    exact others q ((lt_iff_of_sorted (keptPlaces_sorted .first) there place).mp before) hashed

theorem not_rivals_remaining (apart : Apart sha256 keep threshold turns) (a b : Nat) :
    ¬ Rivals sha256 keep threshold (remaining sha256 keep threshold turns) a b := by
  intro rivals
  have first := rivals.2.1.lt
  have second := rivals.2.2.1.lt
  rw [length_remaining] at first second
  have here := List.getElem?_eq_getElem first
  have there := List.getElem?_eq_getElem second
  have same : similar threshold (remaining sha256 keep threshold turns) a b =
      similar threshold turns (keptPlaces sha256 keep threshold turns)[a]
          (keptPlaces sha256 keep threshold turns)[b] := by
    simp only [similar, getElem?_remaining, here, there, Option.bind_some]
  have near := rivals.2.2.2.2
  rw [same, apart _ _ (List.getElem_mem first) (List.getElem_mem second)
    ((lt_iff_of_sorted (keptPlaces_sorted keep) here there).mp rivals.lt)] at near
  cases near

theorem keptPlaces_remaining (apart : Apart sha256 keep threshold turns) :
    keptPlaces sha256 keep threshold (remaining sha256 keep threshold turns) =
      List.range (remaining sha256 keep threshold turns).length := by
  apply List.Perm.eq_of_pairwise' (keptPlaces_sorted keep) List.pairwise_lt_range
  rw [List.perm_ext_iff_of_nodup ((keptPlaces_sorted keep).imp Nat.ne_of_lt) List.nodup_range]
  intro a
  rw [mem_keptPlaces, List.mem_range]
  refine and_iff_left_of_imp ?_
  intro inside displaced
  rw [length_remaining] at inside
  rcases displaced with fallen | near
  · exact fallen (stands_remaining (List.getElem?_eq_getElem inside))
  · cases keep with
    | last => exact near.elim (not_rivals_remaining apart a)
    | first => exact near.elim fun b spoils => not_rivals_remaining apart b a spoils.rivals

end Pairs

section Messages
variable {N F Hash : Type} [Numerals N] [Ratios F] [DecidableEq Hash] (str : Json N → String)
  (sha256 : String → Hash)
variable (keep : Keep) (threshold : F) (messages : List (Message N))

/-- What a deduplication is to do: some messages are taken out, no two of one role that are left are
similar, each one that is taken out has one that stands for it, and a second deduplication takes out
nothing. -/
def Deduplicates : Prop :=
  ∃ turns kept, messages.mapM (turn str) = some turns ∧
    dedupMessages str sha256 keep threshold messages = some kept ∧
    kept.Sublist messages ∧
    kept.Pairwise (fun first second => ∀ a b, turn str first = some a → turn str second = some b → a.role = b.role →
      Ratios.atLeast (jaccard F a.text b.text) threshold = false) ∧
    Covered sha256 keep threshold turns ∧
    dedupMessages str sha256 keep threshold kept = some kept

variable {str sha256 keep threshold messages}

theorem filterMap_range {Item : Type} (items : List Item) :
    (List.range items.length).filterMap (items[·]?) = items := by
  apply List.ext_getElem?
  intro a
  rw [getElem?_filterMap_places fun p member => List.mem_range.mp member]
  by_cases inside : a < items.length
  · simp [inside]
  · simp [inside]

theorem filterMap_sublist {Item : Type} {items : List Item} {places : List Nat}
    (sorted : places.Pairwise (· < ·))
    (inside : ∀ p ∈ places, p < items.length) : (places.filterMap (items[·]?)).Sublist items := by
  have part : places.Sublist (List.range items.length) := by
    apply List.sublist_of_subperm_of_pairwise _ sorted List.pairwise_lt_range
    exact List.subperm_of_subset (sorted.imp Nat.ne_of_lt) fun p member =>
      List.mem_range.mpr (inside p member)
  have images := part.filterMap (items[·]?)
  rwa [filterMap_range] at images

theorem mapM_filterMap {turns : List Turn} (made : messages.mapM (turn str) = some turns) {places : List Nat}
    (inside : ∀ p ∈ places, p < turns.length) :
    (places.filterMap (messages[·]?)).mapM (turn str) = some (places.filterMap (turns[·]?)) := by
  induction places with
  | nil => rfl
  | cons p places ih =>
    obtain ⟨first, others⟩ := List.forall_mem_cons.mp inside
    rw [length_turns made] at first
    have here : messages[p]? = some messages[p] := List.getElem?_eq_getElem first
    obtain ⟨image, mapped, there⟩ := mapM_at made here
    rw [List.filterMap_cons_some here, List.filterMap_cons_some there, List.mapM_cons, mapped, ih others]
    rfl

theorem turn_at {turns : List Turn} (made : messages.mapM (turn str) = some turns) (p : Nat) :
    messages[p]?.bind (turn str) = turns[p]? := by
  cases here : messages[p]? with
  | none =>
    have outside := List.getElem?_eq_none_iff.mp here
    rw [← length_turns made] at outside
    simp [outside]
  | some message =>
    obtain ⟨image, mapped, there⟩ := mapM_at made here
    simp [mapped, there]

theorem pairwise_iff_apart {turns : List Turn} (made : messages.mapM (turn str) = some turns) :
    ((keptPlaces sha256 keep threshold turns).filterMap (messages[·]?)).Pairwise (fun first second => ∀ a b, turn str first = some a →
      turn str second = some b → a.role = b.role → Ratios.atLeast (jaccard F a.text b.text) threshold = false) ↔
    Apart sha256 keep threshold turns := by
  have inside : ∀ p ∈ keptPlaces sha256 keep threshold turns, p < messages.length := by
    rw [← length_turns made]
    exact keptPlaces_inside
  have turn_kept (i : Nat) : ((keptPlaces sha256 keep threshold turns).filterMap (messages[·]?))[i]?.bind (turn str) =
      (keptPlaces sha256 keep threshold turns)[i]?.bind (turns[·]?) := by
    rw [getElem?_filterMap_places inside, Option.bind_assoc]
    exact congrArg (Option.bind _) (funext (turn_at made))
  rw [List.pairwise_iff_getElem]
  constructor
  · intro pairwise p q here there before
    by_contra near
    obtain ⟨a, b, first, second, role, enough⟩ := similar_iff.mp (by simpa using near)
    obtain ⟨i, place⟩ := List.mem_iff_getElem?.mp here
    obtain ⟨j, other⟩ := List.mem_iff_getElem?.mp there
    have order := (lt_iff_of_sorted (keptPlaces_sorted keep) place other).mpr before
    have turn_first := turn_kept i
    have turn_second := turn_kept j
    rw [place, Option.bind_some, first] at turn_first
    rw [other, Option.bind_some, second] at turn_second
    obtain ⟨message, found, own⟩ := Option.bind_eq_some_iff.mp turn_first
    obtain ⟨message', found', own'⟩ := Option.bind_eq_some_iff.mp turn_second
    obtain ⟨shortI, rfl⟩ := List.getElem?_eq_some_iff.mp found
    obtain ⟨shortJ, rfl⟩ := List.getElem?_eq_some_iff.mp found'
    rw [pairwise i j shortI shortJ order a b own own' role] at enough
    cases enough
  · intro apart i j shortI shortJ before a b first second role
    have turn_first := turn_kept i
    have turn_second := turn_kept j
    rw [List.getElem?_eq_getElem shortI, Option.bind_some, first] at turn_first
    rw [List.getElem?_eq_getElem shortJ, Option.bind_some, second] at turn_second
    obtain ⟨p, place, here⟩ := Option.bind_eq_some_iff.mp turn_first.symm
    obtain ⟨q, other, there⟩ := Option.bind_eq_some_iff.mp turn_second.symm
    have order := (lt_iff_of_sorted (keptPlaces_sorted keep) place other).mp before
    have near := apart p q (List.mem_iff_getElem?.mpr ⟨i, place⟩) (List.mem_iff_getElem?.mpr ⟨j, other⟩) order
    by_contra enough
    have also : similar threshold turns p q = true :=
      similar_iff.mpr ⟨a, b, here, there, role, by simpa using enough⟩
    rw [near] at also
    cases also

/-- For every list of messages, every threshold below one and either mode: the deduplication does
what it is to do exactly when all texts can be made, no turn is lost to one that it is taken for by
mistake, and to keep the first, no turn that stays has two similar ones behind it that no other turn
takes out. -/
theorem deduplicates_iff (low : Ratios.atLeast threshold Ratios.one = false) :
    Deduplicates str sha256 keep threshold messages ↔
    ∃ turns, messages.mapM (turn str) = some turns ∧ Sound sha256 keep threshold turns := by
  constructor
  · rintro ⟨turns, kept, made, returned, _, pairwise, covered, _⟩
    obtain rfl : (keptPlaces sha256 keep threshold turns).filterMap (messages[·]?) = kept := by
      simpa [dedupMessages, made] using returned
    exact ⟨turns, made, covered_iff.mp covered, (apart_iff low).mp ((pairwise_iff_apart made).mp pairwise)⟩
  · rintro ⟨turns, made, mistaken, single⟩
    have apart := (apart_iff low).mpr single
    have inside : ∀ p ∈ keptPlaces sha256 keep threshold turns, p < messages.length := by
      rw [← length_turns made]
      exact keptPlaces_inside
    refine ⟨turns, (keptPlaces sha256 keep threshold turns).filterMap (messages[·]?), made,
      by simp [dedupMessages, made],
      filterMap_sublist (keptPlaces_sorted keep) inside, (pairwise_iff_apart made).mpr apart, covered_iff.mpr mistaken, ?_⟩
    have again : ((keptPlaces sha256 keep threshold turns).filterMap (messages[·]?)).mapM (turn str) =
        some ((keptPlaces sha256 keep threshold turns).filterMap (turns[·]?)) :=
          mapM_filterMap made keptPlaces_inside
    have same := length_turns again
    rw [dedupMessages, again, Option.map_some]
    change some ((keptPlaces sha256 keep threshold (remaining sha256 keep threshold turns)).filterMap _) = _
    change (remaining sha256 keep threshold turns).length = _ at same
    rw [keptPlaces_remaining apart, same, filterMap_range]

def saying (text : String) : Message Int := ⟨[("role", .string "user"), ("content", .string text)], by simp⟩

theorem turn_saying (text : String) : turn (fun _ => "") (saying text) = some ⟨"user", text⟩ := rfl

theorem turns_saying (texts : List String) :
    (texts.map saying).mapM (turn fun _ => "") = some (texts.map (Turn.mk "user")) := by
  induction texts with
  | nil => rfl
  | cons text texts ih =>
    rw [List.map_cons, List.mapM_cons, turn_saying, ih]
    rfl

/-- A text that is said twice is left once. -/
theorem said_twice_left_once : Deduplicates (fun _ => "") (id : String → String) .last (9 / 10 : Rat)
    (["good morning", "good morning"].map saying) := by
  apply (deduplicates_iff (by decide +kernel)).mpr
  refine ⟨_, turns_saying _, ?_, by simp⟩
  intro p q a b _ here there mistaken
  have said {p : Nat} {a : Turn}
    (found : (["good morning", "good morning"].map (Turn.mk "user"))[p]? = some a) :
      a = ⟨"user", "good morning"⟩ := by
    simpa using List.mem_of_getElem? found
  rw [said here, said there] at mistaken
  simp [Mistaken] at mistaken

/-- Of three short texts the first takes out the second, which nobody stands for, and the third,
which counts as similar to the first, is left. -/
theorem short_texts_lost : Ratios.atLeast (9 / 10 : Rat) Ratios.one = false ∧
    ¬ Deduplicates (fun _ => "") (id : String → String) .first (9 / 10 : Rat)
    (["yes", "no", "why"].map saying) := by
  refine ⟨by decide +kernel, ?_⟩
  rintro ⟨turns, kept, made, _, _, _, covered, _⟩
  obtain rfl := Option.some.inj ((turns_saying _).symm.trans made)
  have left : keptPlaces (id : String → String) .first (9 / 10 : Rat)
      (["yes", "no", "why"].map (Turn.mk "user")) = [0, 2] := by
    decide +kernel
  obtain ⟨q, differs, a, b, here, there, _, stands⟩ := covered 1 (by decide) (by rw [left]; decide)
  cases here
  have short : q < 3 := (List.getElem?_eq_some_iff.mp there).1
  interval_cases q
  · cases there
    exact absurd stands (by decide +kernel)
  · exact differs rfl
  · cases there
    exact absurd stands (by decide +kernel)

end Messages
end TokenPak.Compression.Dedup
