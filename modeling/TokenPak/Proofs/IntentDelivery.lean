import TokenPak.Companion.PreSend
import TokenPak.Library.JsonSound
import TokenPak.Library.Text

/-! What becomes of the queued intents. A file is removed only by a worker that has committed
its event to both databases, rows of the journal stay, and an estimate only gives way to one that
is not earlier; so every event is in its file or in the databases, whatever the workers do. -/

namespace TokenPak.Companion.PreSend
open Library

section Keys
variable {Time Cost Hash : Type}

/-- What makes journal entries distinct. -/
structure Key where
  sessionId : String
  entryType : String
  content : String
  metadataJson : String

def Event.key (event : Event Time Cost) : Key :=
  ⟨event.sessionId, event.entryType, event.content, event.metadataJson⟩

def Entry.key (row : Entry Time Hash) : Key := ⟨row.sessionId, row.entryType, row.content, row.metadataJson⟩

theorem separator_not_mem {N : Type} [Numerals N] {text : String} (object : encodesObject N text = true) :
    '\x1f' ∉ text.toList := by
  intro member
  unfold encodesObject at object
  split at object
  next entries parsed =>
    have legal := (Json.loads_sound parsed).2 '\x1f' member
    exact absurd legal (by decide)
  next => cases object

theorem nonempty_of_object {N : Type} [Numerals N] {text : String}
    (object : encodesObject N text = true) : text ≠ "" := by
  intro empty
  subst empty
  rw [encodesObject, String.toList_empty, Json.loads_nil] at object
  cases object

theorem contentHash_inj {N : Type} [Numerals N] {sha256 : String → Hash} (inj : Function.Injective sha256)
    {entryType content other metadata another : String} (object : encodesObject N metadata = true)
    (second : encodesObject N another = true)
    (same : entryContentHash sha256 entryType content metadata =
      entryContentHash sha256 entryType other another) :
    content = other ∧ metadata = another := by
  have texts := congrArg String.toList (inj same)
  rw [if_neg (nonempty_of_object object), if_neg (nonempty_of_object second)] at texts
  simp only [String.toList_append, List.append_assoc] at texts
  have tails := List.append_cancel_left texts
  have inner : content.toList ++ '\x1f' :: metadata.toList = other.toList ++ '\x1f' :: another.toList := by
    simpa using tails
  obtain ⟨contents, metadatas⟩ :=
    Text.split_at_last inner (separator_not_mem object) (separator_not_mem second)
  exact ⟨String.toList_inj.mp contents, String.toList_inj.mp metadatas⟩

end Keys

section Databases
variable {N Time Cost Hash : Type} [Numerals N] {sha256 : String → Hash}
variable {round6 : Cost → Cost} {events held : List (Event Time Cost)} {event : Event Time Cost}
variable {entries : List (Entry Time Hash)} {estimates : Dict (String × String) (Estimate Time Cost)}

structure Journal (sha256 : String → Hash) (events : List (Event Time Cost))
    (entries : List (Entry Time Hash)) : Prop where
  own : ∀ row ∈ entries, ∃ event ∈ events, row.key = event.key
  hashed : ∀ row ∈ entries,
    row.contentHash = entryContentHash sha256 row.entryType row.content row.metadataJson
  unique : (entries.map Entry.key).Nodup

theorem Journal.insert [DecidableEq Hash] (journal : Journal sha256 events entries)
    (inj : Function.Injective sha256)
    (objects : ∀ event ∈ events, encodesObject N event.metadataJson = true) (member : event ∈ events) :
    Journal sha256 events (insertEntry sha256 entries event) ∧
      (∃ row ∈ insertEntry sha256 entries event, row.key = event.key) ∧
      entries ⊆ insertEntry sha256 entries event := by
  simp only [insertEntry]
  split
  next found =>
    obtain ⟨row, inside, alike⟩ := List.any_eq_true.mp found
    simp only [decide_eq_true_eq] at alike
    obtain ⟨session, type, hash⟩ := alike
    obtain ⟨origin, among, same⟩ := journal.own row inside
    have object : encodesObject N row.metadataJson = true := by
      have metadata : row.metadataJson = origin.metadataJson := congrArg Key.metadataJson same
      rw [metadata]
      exact objects origin among
    rw [journal.hashed row inside, type] at hash
    obtain ⟨content, metadata⟩ := contentHash_inj inj object (objects event member) hash
    refine ⟨journal, ⟨row, inside, ?_⟩, fun _ => id⟩
    simp [Entry.key, Event.key, session, type, content, metadata]
  next unfound =>
    refine ⟨⟨?_, ?_, ?_⟩, ⟨_, List.mem_append_right _ List.mem_cons_self, rfl⟩, List.subset_append_left _ _⟩
    · intro row inside
      rcases List.mem_append.mp inside with old | new
      · exact journal.own row old
      · rw [List.mem_singleton.mp new]
        exact ⟨event, member, rfl⟩
    · intro row inside
      rcases List.mem_append.mp inside with old | new
      · exact journal.hashed row old
      · rw [List.mem_singleton.mp new]
    · rw [List.map_append, List.nodup_append']
      refine ⟨journal.unique, by simp, ?_⟩
      intro key old new
      obtain ⟨row, inside, same⟩ := List.mem_map.mp old
      have key_event : row.key = event.key := by
        rw [same]
        exact List.mem_singleton.mp new
      apply unfound
      apply List.any_eq_true.mpr
      refine ⟨row, inside, ?_⟩
      simp only [Entry.key, Event.key, Key.mk.injEq] at key_event
      obtain ⟨session, type, content, metadata⟩ := key_event
      rw [decide_eq_true_eq, journal.hashed row inside, session, type, content, metadata]
      exact ⟨rfl, rfl, rfl⟩

theorem Journal.insert_all [DecidableEq Hash] (journal : Journal sha256 events entries)
    (inj : Function.Injective sha256)
    (objects : ∀ event ∈ events, encodesObject N event.metadataJson = true)
    (ours : ∀ event ∈ held, event ∈ events) :
    Journal sha256 events (held.foldl (insertEntry sha256) entries) ∧
      (∀ event ∈ held, ∃ row ∈ held.foldl (insertEntry sha256) entries, row.key = event.key) ∧
      entries ⊆ held.foldl (insertEntry sha256) entries := by
  induction held generalizing entries with
  | nil => exact ⟨journal, by simp, fun _ => id⟩
  | cons event held ih =>
    obtain ⟨first, here, grown⟩ := journal.insert inj objects (ours event List.mem_cons_self)
    obtain ⟨all, others, grown_all⟩ := ih first fun other member => ours other (List.mem_cons_of_mem _ member)
    refine ⟨all, ?_, fun row inside => grown_all (grown inside)⟩
    intro other member
    rcases List.mem_cons.mp member with same | rest
    · obtain ⟨row, inside, key⟩ := here
      exact ⟨row, grown_all inside, same ▸ key⟩
    · exact others other rest

/-- The estimates are those of queued events. -/
def Budget (round6 : Cost → Cost) (events : List (Event Time Cost))
    (estimates : Dict (String × String) (Estimate Time Cost)) : Prop :=
  ∀ place row, estimates.get place = some row → ∃ event ∈ events, ∃ tokens cost,
    event.cost = some (tokens, cost) ∧
    (event.sessionId, event.date) = place ∧ row = ⟨event.timestamp, tokens, round6 cost⟩

variable [LinearOrder Time]

/-- Estimates are only replaced by later ones. -/
def Advances (estimates after : Dict (String × String) (Estimate Time Cost)) : Prop :=
  ∀ place row, estimates.get place = some row →
    ∃ next, after.get place = some next ∧ row.timestamp ≤ next.timestamp

/-- There is an estimate that is not earlier than the event's. -/
def Covers (estimates : Dict (String × String) (Estimate Time Cost)) (event : Event Time Cost) : Prop :=
  event.cost.isSome → ∃ row, estimates.get (event.sessionId, event.date) = some row ∧
    event.timestamp ≤ row.timestamp

theorem Advances.refl (estimates : Dict (String × String) (Estimate Time Cost)) :
    Advances estimates estimates :=
  fun _ row found => ⟨row, found, le_refl _⟩

theorem Advances.trans {middle after : Dict (String × String) (Estimate Time Cost)}
    (first : Advances estimates middle)
    (second : Advances middle after) : Advances estimates after := by
  intro place row found
  obtain ⟨next, there, lower⟩ := first place row found
  obtain ⟨last, here, upper⟩ := second place next there
  exact ⟨last, here, le_trans lower upper⟩

theorem Covers.advance {after : Dict (String × String) (Estimate Time Cost)} (covers : Covers estimates event)
    (advances : Advances estimates after) : Covers after event := by
  intro costed
  obtain ⟨row, found, bound⟩ := covers costed
  obtain ⟨next, there, later⟩ := advances _ row found
  exact ⟨next, there, le_trans bound later⟩

theorem upsert_cases (round6 : Cost → Cost)
    (estimates : Dict (String × String) (Estimate Time Cost)) (event : Event Time Cost) :
    upsertEstimate round6 estimates event = estimates ∧ Covers estimates event ∨
      ∃ tokens cost, event.cost = some (tokens, cost) ∧
        (∀ row, estimates.get (event.sessionId, event.date) = some row → row.timestamp ≤ event.timestamp) ∧
        upsertEstimate round6 estimates event =
          estimates.set (event.sessionId, event.date) ⟨event.timestamp, tokens, round6 cost⟩ := by
  cases costed : event.cost with
  | none =>
    apply Or.inl
    exact ⟨by simp only [upsertEstimate, costed], fun some_cost => by simp [costed] at some_cost⟩
  | some value =>
    obtain ⟨tokens, cost⟩ := value
    cases found : estimates.get (event.sessionId, event.date) with
    | none =>
      refine .inr ⟨tokens, cost, rfl, ?_, by simp only [upsertEstimate, costed, found]⟩
      intro row there
      cases there
    | some old =>
      by_cases later : old.timestamp ≤ event.timestamp
      · refine .inr ⟨tokens, cost, rfl, ?_, by simp only [upsertEstimate, costed, found, if_pos later]⟩
        intro row there
        cases there
        exact later
      · apply Or.inl
        exact ⟨by simp only [upsertEstimate, costed, found, if_neg later],
          fun _ => ⟨old, found, le_of_lt (not_le.mp later)⟩⟩

theorem upsert_covers (round6 : Cost → Cost)
    (estimates : Dict (String × String) (Estimate Time Cost)) (event : Event Time Cost) :
    Covers (upsertEstimate round6 estimates event) event ∧
      Advances estimates (upsertEstimate round6 estimates event) := by
  rcases upsert_cases round6 estimates event with ⟨same, covered⟩ | ⟨tokens, cost, costed, older, put⟩
  · rw [same]
    exact ⟨covered, Advances.refl estimates⟩
  · rw [put]
    refine ⟨fun _ => ⟨_, Dict.get_set_self _ _ _, le_refl _⟩, ?_⟩
    intro place row found
    by_cases here : place = (event.sessionId, event.date)
    · subst here
      exact ⟨_, Dict.get_set_self _ _ _, older row found⟩
    · exact ⟨row, (Dict.get_set_of_ne here).trans found, le_refl _⟩

theorem upsert_all_covers (round6 : Cost → Cost)
    (estimates : Dict (String × String) (Estimate Time Cost)) (held : List (Event Time Cost)) :
    (∀ event ∈ held, Covers (held.foldl (upsertEstimate round6) estimates) event) ∧
      Advances estimates (held.foldl (upsertEstimate round6) estimates) := by
  induction held generalizing estimates with
  | nil => exact ⟨by simp, Advances.refl estimates⟩
  | cons event held ih =>
    obtain ⟨here, advances⟩ := upsert_covers round6 estimates event
    obtain ⟨others, advances_all⟩ := ih (upsertEstimate round6 estimates event)
    refine ⟨?_, advances.trans advances_all⟩
    intro other member
    rcases List.mem_cons.mp member with same | rest
    · exact same ▸ here.advance advances_all
    · exact others other rest

theorem Budget.upsert (budget : Budget round6 events estimates) (member : event ∈ events) :
    Budget round6 events (upsertEstimate round6 estimates event) := by
  rcases upsert_cases round6 estimates event with ⟨same, _⟩ | ⟨tokens, cost, costed, _, put⟩
  · rw [same]
    exact budget
  · rw [put]
    intro place row found
    by_cases here : place = (event.sessionId, event.date)
    · subst here
      rw [Dict.get_set_self] at found
      cases found
      exact ⟨event, member, tokens, cost, costed, rfl, rfl⟩
    · rw [Dict.get_set_of_ne here] at found
      exact budget place row found

theorem Budget.upsert_all (budget : Budget round6 events estimates) (ours : ∀ event ∈ held, event ∈ events) :
    Budget round6 events (held.foldl (upsertEstimate round6) estimates) ∧
      (∀ event ∈ held, Covers (held.foldl (upsertEstimate round6) estimates) event) ∧
      Advances estimates (held.foldl (upsertEstimate round6) estimates) := by
  refine ⟨?_, upsert_all_covers round6 estimates held⟩
  induction held generalizing estimates with
  | nil => exact budget
  | cons event held ih =>
    exact ih (budget.upsert (ours event List.mem_cons_self)) fun other member =>
      ours other (List.mem_cons_of_mem _ member)

end Databases

section Runs
variable {N Time Cost Hash : Type} [Numerals N] {sha256 : String → Hash}
variable {round6 : Cost → Cost} {events : List (Event Time Cost)} {event : Event Time Cost}
  {world after : World Time Cost Hash}

def Journaled (world : World Time Cost Hash) (event : Event Time Cost) :
    Prop := ∃ row ∈ world.entries, row.key = event.key

variable [LinearOrder Time]

/-- What a worker holds is queued, and what it is about to remove is in the databases. -/
def Honest (events : List (Event Time Cost)) (world : World Time Cost Hash) : Worker Time Cost → Prop
  | .idle => True
  | .reading _ held => ∀ event ∈ held, event ∈ events
  | .journaling held => ∀ event ∈ held, event ∈ events
  | .charging held => ∀ event ∈ held, event ∈ events ∧ Journaled world event
  | .unlinking paths => ∀ path ∈ paths, ∃ event ∈ events, event.eventId = path ∧ Journaled world event ∧
      Covers world.estimates event

/-- Every queued event is in its file or in both databases. -/
structure Custody (N : Type) [Numerals N] (sha256 : String → Hash) (round6 : Cost → Cost)
    (events : List (Event Time Cost))
    (world : World Time Cost Hash) : Prop where
  objects : ∀ event ∈ events, encodesObject N event.metadataJson = true
  files : ∀ id event, world.files.get id = some event → event.eventId = id ∧ event ∈ events
  kept : ∀ event ∈ events, world.files.get event.eventId = some event ∨ Journaled world event ∧
    Covers world.estimates event
  journal : Journal sha256 events world.entries
  budget : Budget round6 events world.estimates
  honest : ∀ worker, Honest events world (world.workers worker)

/-- Both databases only move on. -/
structure Later (world after : World Time Cost Hash) : Prop where
  entries : world.entries ⊆ after.entries
  estimates : Advances world.estimates after.estimates

theorem Later.journaled (later : Later world after) (journaled : Journaled world event) :
    Journaled after event := by
  obtain ⟨row, inside, same⟩ := journaled
  exact ⟨row, later.entries inside, same⟩

theorem Honest.later {worker : Worker Time Cost} {more : List (Event Time Cost)}
    (honest : Honest events world worker)
    (later : Later world after) (grown : events ⊆ more) : Honest more after worker := by
  cases worker with
  | idle => trivial
  | reading paths held => exact fun event member => grown (honest event member)
  | journaling held => exact fun event member => grown (honest event member)
  | charging held =>
      exact fun event member =>
        ⟨grown (honest event member).1, later.journaled (honest event member).2⟩
  | unlinking paths =>
    intro path member
    obtain ⟨event, among, named, journaled, covered⟩ := honest path member
    exact ⟨event, grown among, named, later.journaled journaled, covered.advance later.estimates⟩

theorem Custody.assign {worker : Nat} {state : Worker Time Cost}
    (custody : Custody N sha256 round6 events world)
    (honest : Honest events world state) : Custody N sha256 round6 events (world.assign worker state) where
  objects := custody.objects
  files := custody.files
  kept := custody.kept
  journal := custody.journal
  budget := custody.budget
  honest other := by
    by_cases here : other = worker
    · subst here
      simp only [World.assign, Function.update_self]
      exact honest.later ⟨fun _ => id, Advances.refl _⟩ fun _ => id
    · simp only [World.assign, Function.update_of_ne here]
      exact (custody.honest other).later ⟨fun _ => id, Advances.refl _⟩ fun _ => id

theorem Custody.later (custody : Custody N sha256 round6 events world) (later : Later world after)
    (files : after.files = world.files) (workers : after.workers = world.workers)
    (journal : Journal sha256 events after.entries) (budget : Budget round6 events after.estimates) :
    Custody N sha256 round6 events after where
  objects := custody.objects
  files := files ▸ custody.files
  kept event member := by
    rw [files]
    rcases custody.kept event member with there | ⟨journaled, covered⟩
    · exact .inl there
    · exact .inr ⟨later.journaled journaled, covered.advance later.estimates⟩
  journal := journal
  budget := budget
  honest worker := by
    rw [workers]
    exact (custody.honest worker).later later fun _ => id

theorem Custody.journalAll [DecidableEq Hash] {held : List (Event Time Cost)}
    (custody : Custody N sha256 round6 events world)
    (inj : Function.Injective sha256) (ours : ∀ event ∈ held, event ∈ events) :
    Custody N sha256 round6 events (journalAll sha256 world held) ∧
      (∀ event ∈ held, Journaled (PreSend.journalAll sha256 world held) event) ∧
      Later world (PreSend.journalAll sha256 world held) := by
  obtain ⟨journal, written, grown⟩ := custody.journal.insert_all inj custody.objects ours
  have later : Later world (PreSend.journalAll sha256 world held) := ⟨grown, Advances.refl _⟩
  exact ⟨custody.later later rfl rfl journal custody.budget, written, later⟩

theorem Custody.chargeAll {held : List (Event Time Cost)} (custody : Custody N sha256 round6 events world)
    (ours : ∀ event ∈ held, event ∈ events) :
    Custody N sha256 round6 events (chargeAll round6 world held) ∧
      (∀ event ∈ held, Covers (PreSend.chargeAll round6 world held).estimates event) ∧
      Later world (PreSend.chargeAll round6 world held) := by
  obtain ⟨budget, covered, advances⟩ := custody.budget.upsert_all ours
  have later : Later world (PreSend.chargeAll round6 world held) := ⟨fun _ => id, advances⟩
  exact ⟨custody.later later rfl rfl custody.journal budget, covered, later⟩

/-- The file of an event that is in both databases may go. -/
theorem Custody.unlink (custody : Custody N sha256 round6 events world)
    (distinct : (events.map Event.eventId).Nodup)
    (member : event ∈ events) (journaled : Journaled world event) (covered : Covers world.estimates event) :
    Custody N sha256 round6 events { world with files := world.files.pop event.eventId } where
  objects := custody.objects
  files id other found := by
    by_cases here : id = event.eventId
    · rw [here, Dict.get_pop_self] at found
      cases found
    · rw [Dict.get_pop_of_ne here] at found
      exact custody.files id other found
  kept other among := by
    by_cases here : other.eventId = event.eventId
    · have same : other = event := List.inj_on_of_nodup_map distinct among member here
      subst same
      exact .inr ⟨journaled, covered⟩
    · rw [Dict.get_pop_of_ne here]
      exact custody.kept other among
  journal := custody.journal
  budget := custody.budget
  honest worker := (custody.honest worker).later ⟨fun _ => id, Advances.refl _⟩ fun _ => id

theorem honest_proceed {paths : List String} {held : List (Event Time Cost)}
    (ours : ∀ event ∈ held, event ∈ events) :
    Honest events world (.proceed paths held) := by
  unfold Worker.proceed
  split
  · exact ours
  · split
    · trivial
    · intro event member
      exact ours event ((List.mem_insertionSort _).mp member)

theorem honest_cleanUp {paths : List String} (done : Honest events world (.unlinking paths)) :
    Honest events world (.cleanUp paths) := by
  unfold Worker.cleanUp
  split
  · trivial
  · exact done

theorem Custody.move [DecidableEq Hash] (custody : Custody N sha256 round6 events world)
    (inj : Function.Injective sha256)
    (distinct : (events.map Event.eventId).Nodup) (worker : Nat) :
    Custody N sha256 round6 events (move sha256 round6 world worker) := by
  have honest := custody.honest worker
  unfold PreSend.move
  split
  next => exact custody
  next held phase =>
    rw [phase] at honest
    exact custody.assign (honest_proceed honest)
  next path paths held phase =>
    rw [phase] at honest
    apply custody.assign
    apply honest_proceed
    intro event member
    rcases List.mem_append.mp member with before | now
    · exact honest event before
    · exact (custody.files path event (Option.mem_toList.mp now)).2
  next held phase =>
    rw [phase] at honest
    obtain ⟨after, written, _⟩ := custody.journalAll inj honest
    exact after.assign fun event member => ⟨honest event member, written event member⟩
  next held phase =>
    rw [phase] at honest
    split
    · obtain ⟨after, covered, later⟩ := custody.chargeAll fun event member => (honest event member).1
      apply after.assign
      apply honest_cleanUp
      intro path member
      obtain ⟨event, inside, named⟩ := List.mem_map.mp member
      exact ⟨event, (honest event inside).1, named, later.journaled (honest event inside).2,
        covered event inside⟩
    · exact custody.assign trivial
  next => exact custody.assign trivial
  next path paths phase =>
    rw [phase] at honest
    obtain ⟨event, member, named, journaled, covered⟩ := honest path List.mem_cons_self
    subst named
    apply (custody.unlink distinct member journaled covered).assign
    apply honest_cleanUp
    exact fun other rest => honest other (List.mem_cons_of_mem _ rest)

theorem Custody.queue (custody : Custody N sha256 round6 events world)
    (distinct : ((events ++ [event]).map Event.eventId).Nodup)
    (object : encodesObject N event.metadataJson = true) :
    Custody N sha256 round6 (events ++ [event])
    { world with files := world.files.set event.eventId event } := by
  have fresh : ∀ other ∈ events, other.eventId ≠ event.eventId := by
    intro other member same
    rw [List.map_append, List.nodup_append'] at distinct
    exact distinct.2.2 (List.mem_map.mpr ⟨other, member, rfl⟩) (by simp [same])
  have grown : events ⊆ events ++ [event] := List.subset_append_left _ _
  have stays : Later world { world with files := world.files.set event.eventId event } :=
    ⟨fun _ => id, Advances.refl _⟩
  refine ⟨?_, ?_, ?_, ⟨?_, custody.journal.hashed, custody.journal.unique⟩, ?_, ?_⟩
  · intro other member
    rcases List.mem_append.mp member with before | now
    · exact custody.objects other before
    · exact List.mem_singleton.mp now ▸ object
  · intro id other found
    by_cases here : id = event.eventId
    · subst here
      rw [Dict.get_set_self] at found
      cases found
      exact ⟨rfl, List.mem_append_right _ List.mem_cons_self⟩
    · rw [Dict.get_set_of_ne here] at found
      exact ⟨(custody.files id other found).1, grown (custody.files id other found).2⟩
  · intro other member
    rcases List.mem_append.mp member with before | now
    · rw [Dict.get_set_of_ne (fresh other before)]
      exact custody.kept other before
    · rw [List.mem_singleton.mp now]
      exact .inl (Dict.get_set_self _ _ _)
  · intro row inside
    obtain ⟨origin, among, same⟩ := custody.journal.own row inside
    exact ⟨origin, grown among, same⟩
  · intro place row found
    obtain ⟨origin, among, rest⟩ := custody.budget place row found
    exact ⟨origin, grown among, rest⟩
  · exact fun worker => (custody.honest worker).later stays grown

omit [LinearOrder Time] in
theorem queuedEvent_spec {intent : Intent Time Cost} {eventId : String}
    (made : queuedEvent N intent eventId = some event) :
    event.eventId = eventId ∧ encodesObject N event.metadataJson = true := by
  unfold queuedEvent at made
  split at made
  · cases made
  next valid =>
    obtain ⟨cost, _, rfl⟩ := Option.map_eq_some_iff.mp made
    simp only [not_or, not_not] at valid
    exact ⟨rfl, valid.2.2.2⟩

omit [LinearOrder Time] in
theorem queued_append (first second : List (Action Time Cost)) :
    queued N (first ++ second) = queued N first ++ queued N second := List.filterMap_append

/-- Whatever the workers do, no queued event is lost. -/
theorem run_custody [DecidableEq Hash] (inj : Function.Injective sha256) (round6 : Cost → Cost)
    (actions : List (Action Time Cost))
    (distinct : ((queued N actions).map Event.eventId).Nodup) :
    Custody N sha256 round6 (queued N actions) (run sha256 round6 N empty actions) := by
  induction actions using List.reverseRecOn with
  | nil =>
    refine ⟨?_, ?_, ?_, ⟨?_, ?_, ?_⟩, ?_, fun _ => trivial⟩
    · simp [queued]
    · intro id event found
      cases found
    · simp [queued]
    · simp [run, empty]
    · simp [run, empty]
    · simp [run, empty]
    · intro place row found
      cases found
  | append_singleton actions action ih =>
    rw [queued_append] at distinct ⊢
    have before : ((queued N actions).map Event.eventId).Nodup := by
      rw [List.map_append, List.nodup_append'] at distinct
      exact distinct.1
    have custody := ih before
    have same : run sha256 round6 N empty (actions ++ [action]) =
        step sha256 round6 N (run sha256 round6 N empty actions) action := by
      simp [run, List.foldl_append]
    rw [same]
    cases action with
    | queue intent eventId =>
      cases made : queuedEvent N intent eventId with
      | none =>
        have nothing : queued N [Action.queue intent eventId] = [] := by simp [queued, made]
        simp only [step, made, nothing, List.append_nil]
        exact custody
      | some event =>
        have one : queued N [Action.queue intent eventId] = [event] := by simp [queued, made]
        obtain ⟨named, object⟩ := queuedEvent_spec made
        subst named
        rw [one] at distinct ⊢
        simp only [step, made]
        exact custody.queue distinct object
    | start worker =>
      have nothing : queued N [(Action.start worker : Action Time Cost)] = [] := by simp [queued]
      rw [nothing, List.append_nil]
      simp only [step]
      split
      · exact custody.assign (honest_proceed (by simp))
      · exact custody
    | move worker =>
      have nothing : queued N [(Action.move worker : Action Time Cost)] = [] := by simp [queued]
      rw [nothing, List.append_nil]
      exact custody.move inj before worker
    | crash worker =>
      have nothing : queued N [(Action.crash worker : Action Time Cost)] = [] := by simp [queued]
      rw [nothing, List.append_nil]
      exact custody.assign trivial

end Runs

section Flush
variable {N Time Cost Hash : Type} [Numerals N] {sha256 : String → Hash}
variable {round6 : Cost → Cost} {events : List (Event Time Cost)} {world : World Time Cost Hash}

variable [LinearOrder Time]

/-- The last of the events with a cost that share its session and date. -/
def Last (events : List (Event Time Cost)) (top : Event Time Cost) : Prop :=
  ∀ event ∈ events, event.cost.isSome → event.sessionId = top.sessionId → event.date = top.date →
    event.before top = true

/-- The journal has one row for each distinct event and no other, and the estimate of a session and
date is the one of its last event. -/
structure Delivered (round6 : Cost → Cost) (events : List (Event Time Cost))
    (world : World Time Cost Hash) : Prop where
  once : (world.entries.map Entry.key).Nodup
  exactly : ∀ key, key ∈ world.entries.map Entry.key ↔ key ∈ events.map Event.key
  estimates : ∀ top ∈ events, ∀ tokens cost, top.cost = some (tokens, cost) → Last events top →
    ∃ row, world.estimates.get (top.sessionId, top.date) = some row ∧ row.inputTokens = tokens ∧
      row.estimatedCost = round6 cost

/-- The ids are distinct, the tokens are numbers that the database takes, and events of one session,
date and time have one estimate. -/
structure Orderly (round6 : Cost → Cost) (events : List (Event Time Cost)) : Prop where
  distinct : (events.map Event.eventId).Nodup
  fitting : ∀ event ∈ events, fits event = true
  ties : ∀ first ∈ events, ∀ second ∈ events, first.sessionId = second.sessionId → first.date = second.date →
    first.timestamp = second.timestamp → ∀ tokens cost others another, first.cost = some (tokens, cost) →
    second.cost = some (others, another) → tokens = others ∧ round6 cost = round6 another

theorem delivered_of_all (orderly : Orderly round6 events) (journal : Journal sha256 events world.entries)
    (budget : Budget round6 events world.estimates)
    (all : ∀ event ∈ events, Journaled world event ∧ Covers world.estimates event) :
    Delivered round6 events world where
  once := journal.unique
  exactly key := by
    constructor
    · intro member
      obtain ⟨row, inside, same⟩ := List.mem_map.mp member
      obtain ⟨event, among, equal⟩ := journal.own row inside
      exact List.mem_map.mpr ⟨event, among, equal.symm.trans same⟩
    · intro member
      obtain ⟨event, among, same⟩ := List.mem_map.mp member
      obtain ⟨row, inside, equal⟩ := (all event among).1
      exact List.mem_map.mpr ⟨row, inside, equal.trans same⟩
  estimates top member tokens cost costed last := by
    obtain ⟨row, found, bound⟩ := (all top member).2 (by simp [costed])
    obtain ⟨event, among, others, another, priced, place, same⟩ := budget _ row found
    obtain ⟨session, date⟩ := Prod.mk.inj place
    -- The estimate is not earlier than the last event's, and the last event is not before it.
    have later : top.timestamp ≤ event.timestamp := by
      rw [same] at bound
      exact bound
    have upTo := last event among (by simp [priced]) session date
    simp only [Event.before, Bool.or_eq_true, Bool.and_eq_true, decide_eq_true_eq] at upTo
    have tie : event.timestamp = top.timestamp := by
      rcases upTo with earlier | ⟨equal, _⟩
      · exact absurd later (not_le.mpr earlier)
      · exact equal
    obtain ⟨tokens_same, cost_same⟩ :=
      orderly.ties event among top member session date tie others another tokens cost
      priced costed
    exact ⟨row, found, by rw [same]; exact tokens_same, by rw [same]; exact cost_same⟩

theorem mem_pendingEvents {event : Event Time Cost} (found : world.files.get event.eventId = some event) :
    event ∈ pendingEvents world.files := by
  apply (List.mem_insertionSort _).mpr
  apply List.mem_filterMap.mpr
  refine ⟨event.eventId, ?_, found⟩
  apply (List.mem_insertionSort _).mpr
  exact List.mem_map.mpr ⟨_, Dict.mem_entries found, rfl⟩

theorem pendingEvents_queued (custody : Custody N sha256 round6 events world) :
    ∀ event ∈ pendingEvents world.files, event ∈ events := by
  intro event member
  obtain ⟨path, _, found⟩ := List.mem_filterMap.mp ((List.mem_insertionSort _).mp member)
  exact (custody.files path event found).2

/-- A flush behind any run brings every event into both databases. -/
theorem Custody.flush [DecidableEq Hash] (custody : Custody N sha256 round6 events world)
    (inj : Function.Injective sha256) (orderly : Orderly round6 events) :
    Delivered round6 events (flushPreSendEvents sha256 round6 world) := by
  have ours := pendingEvents_queued custody
  have fitting : (pendingEvents world.files).all fits = true :=
    List.all_eq_true.mpr fun event member => orderly.fitting event (ours event member)
  unfold flushPreSendEvents
  by_cases nothing : pendingEvents world.files = []
  · simp only [if_pos nothing]
    apply delivered_of_all orderly custody.journal custody.budget
    intro event member
    rcases custody.kept event member with found | done
    · have inside := mem_pendingEvents found
      rw [nothing] at inside
      cases inside
    · exact done
  · simp only [if_neg nothing, if_pos fitting]
    obtain ⟨journaled, written, first⟩ := custody.journalAll inj ours
    obtain ⟨charged, covered, second⟩ := journaled.chargeAll ours
    have delivered := delivered_of_all orderly charged.journal charged.budget (by
      intro event member
      rcases custody.kept event member with found | ⟨old, before⟩
      · have inside := mem_pendingEvents found
        exact ⟨second.journaled (written event inside), covered event inside⟩
      · exact ⟨second.journaled (first.journaled old), (before.advance first.estimates).advance second.estimates⟩)
    exact ⟨delivered.once, delivered.exactly, delivered.estimates⟩

/-- For every interleaving of queued intents and workers that stop wherever they will, followed by a
flush: the intents are materialised exactly once, if events of one session, date and time have one
estimate, ids are not drawn twice and the database takes the tokens. -/
theorem intents_delivered_once [DecidableEq Hash] (inj : Function.Injective sha256)
    (round6 : Cost → Cost) (actions : List (Action Time Cost))
    (orderly : Orderly round6 (queued N actions)) :
    Delivered round6 (queued N actions)
    (flushPreSendEvents sha256 round6 (run sha256 round6 N empty actions)) :=
  (run_custody inj round6 actions orderly.distinct).flush inj orderly

/-- Two intents of one session and day at one time, with their costs. -/
def atOnce (time tokens : Nat) (content : String) : Intent Nat Nat :=
  ⟨"s", time, "2026-01-01", "prompt", content, "\x7b\x7d", some tokens, some tokens⟩

/-- One worker reads the first intent, another one materialises both, and the first worker goes on. -/
def overlapping (first second : Nat) : List (Action Nat Nat) :=
  [.queue (atOnce first 1 "one") "a", .start 0, .move 0, .queue (atOnce second 2 "two") "b",
    .start 1, .move 1, .move 1,
    .move 1, .move 1, .move 1, .move 1, .move 0, .move 0, .move 0]

def atOnceEvent (eventId : String) (time tokens : Nat) (content : String) : Event Nat Nat :=
  ⟨eventId, time, "2026-01-01", "s", "prompt", content, "\x7b\x7d", some (tokens, tokens)⟩

theorem queued_overlapping (first second : Nat) : queued Int (overlapping first second) =
    [atOnceEvent "a" first 1 "one", atOnceEvent "b" second 2 "two"] := by
  have object : encodesObject Int "\x7b\x7d" = true := by decide +kernel
  have made (eventId : String) (time tokens : Nat) (content : String) :
      queuedEvent Int (atOnce time tokens content) eventId =
          some (atOnceEvent eventId time tokens content) := by
    simp [queuedEvent, atOnce, cleanCost, object, atOnceEvent]
  simp [queued, overlapping, made]

theorem intents_delivered_overlapping : Delivered id (queued Int (overlapping 1 2))
    (flushPreSendEvents (id : String → String) id (run id id Int empty (overlapping 1 2))) := by
  apply intents_delivered_once (fun _ _ => id) id (overlapping 1 2)
  rw [queued_overlapping]
  refine ⟨by simp [atOnceEvent], by simp [atOnceEvent, fits], ?_⟩
  intro first among second others _ _ time tokens cost more another costed priced
  simp only [List.mem_cons, List.not_mem_nil, or_false] at among others
  rcases among with rfl | rfl
  · rcases others with rfl | rfl
    · rw [costed] at priced
      cases priced
      exact ⟨rfl, rfl⟩
    · cases time
  · rcases others with rfl | rfl
    · cases time
    · rw [costed] at priced
      cases priced
      exact ⟨rfl, rfl⟩

set_option maxRecDepth 4000 in
/-- At one time, the worker that comes last writes the estimate of the event that is not the last. -/
theorem estimate_overwritten : ¬ Delivered id (queued Int (overlapping 1 1))
    (flushPreSendEvents (id : String → String) id (run id id Int empty (overlapping 1 1))) := by
  intro delivered
  have last : Last (queued Int (overlapping 1 1)) (atOnceEvent "b" 1 2 "two") := by
    rw [queued_overlapping]
    intro event among _ _ _
    simp only [List.mem_cons, List.not_mem_nil, or_false] at among
    rcases among with rfl | rfl
    · decide +kernel
    · decide +kernel
  obtain ⟨row, found, tokens, _⟩ := delivered.estimates (atOnceEvent "b" 1 2 "two")
    (by simp [queued_overlapping]) 2 2 rfl last
  have written : ((flushPreSendEvents (id : String → String) id
      (run id id Int empty (overlapping 1 1))).estimates.get ("s", "2026-01-01")).map Estimate.inputTokens = some 1 := by
    decide +kernel
  have same : (flushPreSendEvents (id : String → String) id
      (run id id Int empty (overlapping 1 1))).estimates.get ("s", "2026-01-01") = some row := found
  rw [same, Option.map_some, tokens] at written
  cases written

end Flush

end TokenPak.Companion.PreSend
