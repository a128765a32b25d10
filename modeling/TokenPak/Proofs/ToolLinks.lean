import TokenPak.Proofs.Conversations

/-! Which call each result of a conversation refers to. A format links a result to an earlier call
by the key that both carry: the id of the call, or the name of its function. -/

namespace TokenPak.Proxy.Translator
open Library

/-- The tool calls and results of a conversation, without anything else. -/
inductive Event where
  | call (id name : String)
  | result (id : String)
  deriving DecidableEq

def Event.isCall : Event → Bool
  | .call .. => true
  | .result _ => false

/-- The event in a format that links by the names of functions. -/
def Event.named : Event → Event
  | .call _ name => .call name name
  | .result id => .result id

section Links

def Refers (events : List Event) (i j : Nat) : Prop :=
  i < j ∧ ∃ id name, events[i]? = some (.call id name) ∧ events[j]? = some (.result id)

def Linked (events : List Event) : Prop := ∀ j id, events[j]? = some (.result id) → ∃! i, Refers events i j

/-- The same calls and results in the same places, the same links, and no two calls under one key
that had two. -/
structure SameLinks (source target : List Event) : Prop where
  places : target.map Event.isCall = source.map Event.isCall
  refers : ∀ i j, Refers target i j ↔ Refers source i j
  apart : ∀ (i j : Nat) (id name id' name' key function key' function' : String),
    source[i]? = some (Event.call id name) →
    source[j]? = some (Event.call id' name') → target[i]? = some (Event.call key function) →
      target[j]? = some (Event.call key' function') → id ≠ id' → key ≠ key'

/-- A call that is referred to has the name of its function as its id, and calls with different ids
are calls of different functions. -/
structure SelfNamed (events : List Event) : Prop where
  referred : ∀ (i j : Nat) (id name : String), Refers events i j →
    events[i]? = some (Event.call id name) → name = id
  apart : ∀ id name id' name', Event.call id name ∈ events → Event.call id' name' ∈ events →
    id ≠ id' → name ≠ name'

theorem SameLinks.refl (events : List Event) : SameLinks events events where
  places := rfl
  refers _ _ := Iff.rfl
  apart := by
    intro i j id name id' name' key function key' function' first second first' second' differ
    rw [first] at first'
    rw [second] at second'
    cases first'
    cases second'
    exact differ

theorem SameLinks.length_eq {source target : List Event} (same : SameLinks source target) :
    target.length = source.length := by
  have lengths := congrArg List.length same.places
  simpa using lengths

theorem named_isCall (event : Event) : event.named.isCall = event.isCall := by
  cases event <;> rfl

theorem named_at {events : List Event} {i : Nat} {key function : String} :
    (events.map Event.named)[i]? = some (.call key function) ↔ key = function ∧ ∃ id,
      events[i]? = some (.call id function) := by
  rw [List.getElem?_map]
  cases events[i]? with
  | none => simp
  | some event =>
    cases event with
    | call id name =>
      constructor
      · rintro ⟨⟩
        exact ⟨rfl, id, rfl⟩
      · rintro ⟨rfl, id, ⟨⟩⟩
        rfl
    | result id => simp [Event.named]

theorem named_result_at {events : List Event} {j : Nat} {id : String} :
    (events.map Event.named)[j]? = some (.result id) ↔ events[j]? = some (.result id) := by
  rw [List.getElem?_map]
  cases events[j]? with
  | none => simp
  | some event => cases event <;> simp [Event.named]

theorem refers_named {events : List Event} {i j : Nat} :
    Refers (events.map Event.named) i j ↔ i < j ∧ ∃ id name, events[i]? = some (.call id name) ∧
      events[j]? = some (.result name) := by
  constructor
  · rintro ⟨before, key, function, called, answered⟩
    obtain ⟨rfl, id, call⟩ := named_at.mp called
    exact ⟨before, id, key, call, named_result_at.mp answered⟩
  · rintro ⟨before, id, name, call, answer⟩
    exact ⟨before, name, name, named_at.mpr ⟨rfl, id, call⟩, named_result_at.mpr answer⟩

/-- Links by names are the links by ids when the calls are named by their functions. -/
theorem named_links_iff {events : List Event} (linked : Linked events) :
    SameLinks events (events.map Event.named) ↔ SelfNamed events := by
  constructor
  · intro same
    refine ⟨?_, ?_⟩
    · intro i j id name refers call
      obtain ⟨_, id', name', call', answer⟩ := (refers_named.mp ((same.refers i j).mpr refers))
      obtain ⟨_, id'', name'', call'', answer'⟩ := refers
      rw [call] at call' call''
      cases call'
      cases call''
      rw [answer] at answer'
      cases answer'
      rfl
    · intro id name id' name' first second differ
      obtain ⟨i, first⟩ := List.mem_iff_getElem?.mp first
      obtain ⟨j, second⟩ := List.mem_iff_getElem?.mp second
      exact same.apart i j id name id' name' name name name' name' first second (named_at.mpr ⟨rfl, id, first⟩)
        (named_at.mpr ⟨rfl, id', second⟩) differ
  · intro selfNamed
    refine ⟨by rw [List.map_map]; exact List.map_congr_left fun event _ => named_isCall event, ?_, ?_⟩
    · intro i j
      rw [refers_named]
      constructor
      · rintro ⟨before, id, name, call, answer⟩
        obtain ⟨k, refers, _⟩ := linked j name answer
        have link := refers
        obtain ⟨_, id', name', call', answer'⟩ := link
        have own := selfNamed.referred k j id' name' refers call'
        rw [answer] at answer'
        cases answer'
        have same : id = name := by
          by_contra differ
          exact selfNamed.apart id name name name' (List.mem_of_getElem? call)
            (List.mem_of_getElem? call') differ own.symm
        exact ⟨before, id, name, call, same ▸ answer⟩
      · intro refers
        have link := refers
        obtain ⟨before, id, name, call, answer⟩ := link
        have own := selfNamed.referred i j id name refers call
        exact ⟨before, id, name, call, own ▸ answer⟩
    · intro i j id name id' name' key function key' function' first second first' second' differ
      obtain ⟨rfl, _, called⟩ := named_at.mp first'
      obtain ⟨rfl, _, called'⟩ := named_at.mp second'
      rw [first] at called
      rw [second] at called'
      cases called
      cases called'
      exact selfNamed.apart id _ id' _ (List.mem_of_getElem? first) (List.mem_of_getElem? second) differ

end Links

section Conversations
variable {N : Type}

def Item.event : Item N → Option Event
  | .call id name _ => some (.call id name)
  | .result id _ => some (.result id)
  | .text _ => none

def Turn.events (turn : Turn N) : List Event := turn.items.filterMap Item.event

def Conversation.events (conversation : Conversation N) : List Event := conversation.turns.flatMap Turn.events

/-- A turn holds calls or results, not both. -/
def Turn.Unmixed (turn : Turn N) : Prop := turn.calls = [] ∨ turn.results = []

theorem events_solid (item : Item N) : item.solid.filterMap Item.event = item.event.toList := by
  cases item with
  | text line => by_cases empty : line = "" <;> simp [Item.solid, empty, Item.event]
  | call id name arguments => rfl
  | result id texts => rfl

theorem events_flat (turn : Turn N) : turn.flat.filterMap (fun piece => piece.2.event) = turn.events := by
  obtain ⟨side, items⟩ := turn
  simp only [Turn.flat, Turn.events]
  induction items with
  | nil => rfl
  | cons item items ih =>
    have first : (item.solid.map (side, ·)).filterMap (fun piece => piece.2.event) = item.event.toList := by
      rw [List.filterMap_map]
      exact events_solid item
    rw [List.flatMap_cons, List.filterMap_append, first, ih]
    cases event : item.event <;> simp [event]

theorem events_of_flat {first second : Conversation N} (same : first.flat = second.flat) :
    first.events = second.events := by
  have whole (conversation : Conversation N) : conversation.flat.2.filterMap (fun piece =>
      piece.2.event) = conversation.events := by
    rw [Conversation.flat, Conversation.events, List.filterMap_flatMap]
    exact List.flatMap_congr fun turn _ => events_flat turn
  rw [← whole first, same, whole second]

theorem events_split (turn : Turn N) : turn.events.length = turn.calls.length + turn.results.length := by
  obtain ⟨side, items⟩ := turn
  simp only [Turn.events, Turn.calls, Turn.results]
  induction items with
  | nil => rfl
  | cons item items ih =>
    cases item with
    | text line =>
      rw [List.filterMap_cons_none rfl, List.filter_cons_of_neg (by simp [Item.isCall]),
        List.filter_cons_of_neg (by simp [Item.isResult])]
      exact ih
    | call id name arguments =>
      rw [List.filter_cons_of_pos rfl, List.filter_cons_of_neg (by simp [Item.isResult])]
      change (Event.call id name :: items.filterMap Item.event).length = _
      simp only [List.length_cons, ih]
      omega
    | result id texts =>
      rw [List.filter_cons_of_neg (by simp [Item.isCall]), List.filter_cons_of_pos rfl]
      change (Event.result id :: items.filterMap Item.event).length = _
      simp only [List.length_cons, ih]
      omega

theorem events_filter {items : List (Item N)} {p : Item N → Bool}
    (others : ∀ item ∈ items, p item = false → item.event = none) :
    (items.filter p).filterMap Item.event = items.filterMap Item.event := by
  rw [List.filterMap_filter]
  apply List.filterMap_congr
  intro item member
  cases kept : p item with
  | true => rfl
  | false => exact (others item member kept).symm

variable [Numerals N]

theorem event_settled (item : Item N) : item.settled.event = item.event := by
  cases item <;> rfl

theorem events_map_settled (items : List (Item N)) :
    (items.map Item.settled).filterMap Item.event = items.filterMap Item.event := by
  rw [List.filterMap_map]
  exact List.filterMap_congr fun item _ => event_settled item

theorem events_carried_cases (turn : Turn N) :
    (turn.calls = [] ∧ turn.carried.events = turn.results.filterMap Item.event) ∨
      (turn.calls = [] → turn.results = []) ∧ turn.carried.events = turn.calls.filterMap Item.event := by
  by_cases answers : turn.calls = [] ∧ turn.results ≠ []
  · left
    have carried : turn.carried = ⟨.user, turn.results.map Item.settled⟩ := by simp [Turn.carried, answers]
    exact ⟨answers.1, by rw [carried, Turn.events, events_map_settled]⟩
  · right
    have carried : turn.carried = ⟨turn.side, .text (lines turn.texts) :: turn.calls.map Item.settled⟩ := by
      rw [Turn.carried, if_neg (by simpa using answers)]
    refine ⟨by simpa using answers, ?_⟩
    rw [carried, Turn.events, List.filterMap_cons_none rfl, events_map_settled]

theorem events_carried {turn : Turn N} (unmixed : turn.Unmixed) : turn.carried.events = turn.events := by
  have no_call (none_there : turn.calls = []) : ∀ item ∈ turn.items, item.isResult = false →
      item.event = none := by
    intro item member other
    have absent := List.filter_eq_nil_iff.mp none_there item member
    cases item with
    | text line => rfl
    | call => simp [Item.isCall] at absent
    | result => cases other
  have no_result (none_there : turn.results = []) : ∀ item ∈ turn.items, item.isCall = false →
      item.event = none := by
    intro item member other
    have absent := List.filter_eq_nil_iff.mp none_there item member
    cases item with
    | text line => rfl
    | call => cases other
    | result => simp [Item.isResult] at absent
  rcases events_carried_cases turn with ⟨uncalled, same⟩ | ⟨alone, same⟩
  · exact same.trans (events_filter (no_call uncalled))
  · have unanswered : turn.results = [] := by
      rcases unmixed with uncalled | unanswered
      · exact alone uncalled
      · exact unanswered
    exact same.trans (events_filter (no_result unanswered))

theorem unmixed_of_length {turn : Turn N} (same : turn.carried.events.length = turn.events.length) :
    turn.Unmixed := by
  rcases events_carried_cases turn with ⟨uncalled, _⟩ | ⟨_, carried⟩
  · exact .inl uncalled
  · right
    have split := events_split turn
    have few := List.length_filterMap_le Item.event turn.calls
    rw [carried] at same
    exact List.length_eq_zero_iff.mp (by omega)

theorem length_events_carried (turn : Turn N) : turn.carried.events.length ≤ turn.events.length := by
  have split := events_split turn
  rcases events_carried_cases turn with ⟨_, carried⟩ | ⟨_, carried⟩
  · have few := List.length_filterMap_le Item.event turn.results
    rw [carried]
    omega
  · have few := List.length_filterMap_le Item.event turn.calls
    rw [carried]
    omega

/-- The events of a conversation are carried over when no turn is mixed, and only then. -/
theorem carried_events_iff (conversation : Conversation N) :
    (∀ turn ∈ conversation.turns, turn.Unmixed) ↔
      conversation.carried.events.length = conversation.events.length := by
  have carried : conversation.carried.events = conversation.turns.flatMap fun turn =>
      turn.carried.events := by
    rw [Conversation.events, Conversation.carried, List.flatMap_map]
  rw [carried, Conversation.events]
  constructor
  · intro unmixed
    rw [List.flatMap_congr fun turn member => events_carried (unmixed turn member)]
  · intro same turn member
    exact unmixed_of_length (length_each (fun turn _ => length_events_carried turn) same turn member)

theorem carried_events {conversation : Conversation N} (unmixed : ∀ turn ∈ conversation.turns, turn.Unmixed) :
    conversation.carried.events = conversation.events := by
  rw [Conversation.events, Conversation.carried, List.flatMap_map]
  exact List.flatMap_congr fun turn member => events_carried (unmixed turn member)

end Conversations
end TokenPak.Proxy.Translator
