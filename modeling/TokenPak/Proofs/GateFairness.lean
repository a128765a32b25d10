import TokenPak.Proxy.ConcurrencyGate

/-! The gate is safe and fair in every run: the counter is the number of callers in
flight, the queue is the list of the callers that wait, and only the one that waits
longest is admitted. -/

namespace TokenPak.Proxy.ConcurrencyGate

section History
variable (events : List Event) (event : Event)

@[simp] theorem waiting_snoc : waiting (events ++ [event]) = event.wait (waiting events) := by simp [waiting]

@[simp] theorem holding_snoc : holding (events ++ [event]) = event.hold (holding events) := by simp [holding]

@[simp] theorem admissions_snoc :
    admissions (events ++ [event]) = admissions events ++ event.admission?.toList := by
  cases event <;> simp [admissions, Event.admission?]

@[simp] theorem arrivals_snoc : arrivals (events ++ [event]) = arrivals events ++ event.arrival?.toList := by
  cases event <;> simp [arrivals, Event.arrival?]

@[simp] theorem releases_snoc : releases (events ++ [event]) = releases events ++ event.release?.toList := by
  cases event <;> simp [releases, Event.release?]

theorem admissions_subset : admissions events ⊆ events.map Event.ticket := by
  intro ticket member
  obtain ⟨event, there, made⟩ := List.mem_filterMap.mp member
  apply List.mem_map.mpr
  cases event with
  | admitted other cap => exact ⟨_, there, Option.some.inj made⟩
  | queued | queueFull | waitTimeout | interrupted | released => cases made

theorem arrivals_subset : arrivals events ⊆ events.map Event.ticket := by
  intro ticket member
  obtain ⟨event, there, made⟩ := List.mem_filterMap.mp member
  apply List.mem_map.mpr
  cases event with
  | queued other => exact ⟨_, there, Option.some.inj made⟩
  | admitted | queueFull | waitTimeout | interrupted | released => cases made

def queuedAdmissions : List Ticket := (admissions events).filter (· ∈ arrivals events)

end History

/-- At every admission the caller finds room under the cap, and nobody that came before it is
still waiting. -/
def Fair (events : List Event) : Prop :=
  ∀ before ticket cap after, events = before ++ Event.admitted ticket cap :: after →
    (admissions before).length + 1 ≤ cap + (releases before).length ∧
      (waiting before = [] ∨ ∃ later, waiting before = ticket :: later)

theorem Fair.snoc {events : List Event} {event : Event} (fair : Fair events)
    (last : ∀ ticket cap, event = .admitted ticket cap →
      (admissions events).length + 1 ≤ cap + (releases events).length ∧
      (waiting events = [] ∨ ∃ later, waiting events = ticket :: later)) : Fair (events ++ [event]) := by
  intro before ticket cap after split
  rcases List.eq_nil_or_concat after with rfl | ⟨rest, final, rfl⟩
  · obtain ⟨rfl, same⟩ := List.append_inj' split rfl
    exact last ticket cap (List.cons.inj same).1
  · rw [List.concat_eq_append, ← List.cons_append, ← List.append_assoc] at split
    obtain ⟨same, _⟩ := List.append_inj' split rfl
    exact fair before ticket cap rest same

structure Kept (maxQueue : Int) (events : List Event) (gate : Gate) : Prop where
  limit : gate.maxQueue = (max 0 maxQueue).toNat
  queue : gate.queue = waiting events
  bound : gate.queue.length ≤ gate.maxQueue
  inFlight : gate.inFlight = (holding events).length
  balance : (holding events).length + (releases events).length = (admissions events).length
  once : (arrivals events).Nodup
  order : (queuedAdmissions events ++ waiting events).Sublist (arrivals events)
  fair : Fair events

namespace Kept
variable {maxQueue : Int} {events : List Event} {gate middle after : Gate} {ticket : Ticket}
  {cap : Nat} {expired : Bool}

theorem start (maxQueue : Int) : Kept maxQueue [] (.new maxQueue) where
  limit := rfl
  queue := rfl
  bound := Nat.zero_le _
  inFlight := rfl
  balance := rfl
  once := List.nodup_nil
  order := List.Sublist.refl _
  fair := by
    intro before ticket cap after split
    simp at split

theorem arrived (kept : Kept maxQueue events gate) (waits : ticket ∈ waiting events) :
    ticket ∈ arrivals events :=
  kept.order.subset (List.mem_append_right _ waits)

theorem leave (kept : Kept maxQueue events gate) :
    (queuedAdmissions events ++ (waiting events).erase ticket).Sublist (arrivals events) :=
  (List.Sublist.append_left List.erase_sublist _).trans kept.order

/-- A slot is free under the cap: the counter is the number of callers in flight. -/
theorem room (kept : Kept maxQueue events gate) (free : gate.inFlight < cap) :
    (admissions events).length + 1 ≤ cap + (releases events).length := by
  have counted := kept.inFlight
  have balance := kept.balance
  omega

theorem balance_admitted (kept : Kept maxQueue events gate) :
    (holding (events ++ [Event.admitted ticket cap])).length +
      (releases (events ++ [Event.admitted ticket cap])).length =
      (admissions (events ++ [Event.admitted ticket cap])).length := by
  have balance := kept.balance
  simp only [holding_snoc, Event.hold, releases_snoc, Event.release?, admissions_snoc,
    Event.admission?, Option.toList_none,
    Option.toList_some, List.append_nil, List.length_append, List.length_singleton]
  omega

theorem answer {result : Result} (kept : Kept maxQueue events gate) (fresh : ticket ∉ events.map Event.ticket)
    (entered : gate.enter ticket cap = (after, some result)) :
    Kept maxQueue (events ++ [result.event ticket cap]) after := by
  unfold Gate.enter at entered
  split at entered
  next free =>
    cases entered
    have unknown : ticket ∉ arrivals events := fun there => fresh (arrivals_subset events there)
    have empty : waiting events = [] := kept.queue ▸ free.1
    refine ⟨kept.limit, ?_, kept.bound, ?_, kept.balance_admitted, ?_, ?_, ?_⟩
    · simp [Result.event, Event.wait, empty, free.1]
    · simp [Result.event, Event.hold, kept.inFlight]
    · simpa [Result.event, Event.arrival?] using kept.once
    · have order := kept.order
      simpa [queuedAdmissions, Result.event, Event.admission?, Event.arrival?, Event.wait, empty,
        unknown] using order
    · apply kept.fair.snoc
      intro other found same
      cases same
      exact ⟨kept.room free.2, .inl empty⟩
  · split at entered
    · cases entered
      refine ⟨kept.limit, ?_, kept.bound, ?_, ?_, ?_, ?_, ?_⟩
      · simpa [Result.event, Event.wait] using kept.queue
      · simpa [Result.event, Event.hold] using kept.inFlight
      · simpa [Result.event, Event.hold, Event.release?, Event.admission?] using kept.balance
      · simpa [Result.event, Event.arrival?] using kept.once
      · simpa [Result.event, queuedAdmissions, Event.admission?, Event.arrival?, Event.wait] using kept.order
      · apply kept.fair.snoc
        intro other found same
        cases same
    · cases entered

theorem enqueue (kept : Kept maxQueue events gate) (fresh : ticket ∉ events.map Event.ticket)
    (entered : gate.enter ticket cap = (after, none)) :
    Kept maxQueue (events ++ [Event.queued ticket]) after ∧ ticket ∈ waiting (events ++ [Event.queued ticket]) := by
  unfold Gate.enter at entered
  split at entered
  · cases entered
  · split at entered
    · cases entered
    next space =>
      cases entered
      refine ⟨⟨kept.limit, ?_, ?_, ?_, ?_, ?_, ?_, ?_⟩, ?_⟩
      · simp [Event.wait, kept.queue]
      · simp only [List.length_append, List.length_singleton]
        omega
      · simpa [Event.hold] using kept.inFlight
      · simpa [Event.hold, Event.release?, Event.admission?] using kept.balance
      · have unknown : ticket ∉ arrivals events := fun there => fresh (arrivals_subset events there)
        rw [arrivals_snoc, Event.arrival?, Option.toList_some, List.nodup_append]
        refine ⟨kept.once, by simp, ?_⟩
        intro other there last single
        rw [List.mem_singleton.mp single]
        exact fun same => unknown (same ▸ there)
      · have unadmitted : ticket ∉ admissions events := fun there => fresh (admissions_subset events there)
        have same : queuedAdmissions (events ++ [Event.queued ticket]) = queuedAdmissions events := by
          simp only [queuedAdmissions, admissions_snoc, Event.admission?, Option.toList_none,
            List.append_nil, arrivals_snoc,
            Event.arrival?, Option.toList_some]
          apply List.filter_congr
          intro other member
          have differs : other ≠ ticket := fun same => unadmitted (same ▸ member)
          simp [differs]
        rw [same, waiting_snoc, Event.wait, arrivals_snoc, ← List.append_assoc]
        exact kept.order.append (List.Sublist.refl _)
      · apply kept.fair.snoc
        intro other found same
        cases same
      · simp [Event.wait]

theorem attempt {result : Option Result} (kept : Kept maxQueue events gate) (waits : ticket ∈ waiting events)
    (tried : gate.attempt ticket cap expired = (after, result)) :
    Kept maxQueue (events ++ (result.map (Result.event ticket cap)).toList) after := by
  unfold Gate.attempt at tried
  split at tried
  next first =>
    cases tried
    obtain ⟨later, lined⟩ : ∃ later, waiting events = ticket :: later := by
      rw [← kept.queue]
      exact List.head?_eq_some_iff.mp first.1
    refine ⟨kept.limit, ?_, ?_, ?_, kept.balance_admitted, ?_, ?_, ?_⟩
    · simp [Result.event, Event.wait, kept.queue, lined]
    · have bound := kept.bound
      simp only [List.length_tail]
      omega
    · simp [Result.event, Event.hold, kept.inFlight]
    · simpa [Result.event, Event.arrival?] using kept.once
    · have order := kept.order
      have known := kept.arrived waits
      rw [lined] at order
      simpa [queuedAdmissions, Result.event, Event.admission?, Event.arrival?, Event.wait, lined,
        known] using order
    · apply kept.fair.snoc
      intro other found same
      cases same
      exact ⟨kept.room first.2, .inr ⟨later, lined⟩⟩
  · split at tried
    · cases tried
      refine ⟨kept.limit, ?_, ?_, ?_, ?_, ?_, ?_, ?_⟩
      · simp [Result.event, Event.wait, kept.queue]
      · exact Nat.le_trans List.erase_sublist.length_le kept.bound
      · simpa [Result.event, Event.hold] using kept.inFlight
      · simpa [Result.event, Event.hold, Event.release?, Event.admission?] using kept.balance
      · simpa [Result.event, Event.arrival?] using kept.once
      · have order : (queuedAdmissions events ++
            (waiting events).erase ticket).Sublist (arrivals events) :=
          kept.leave
        simpa [Result.event, queuedAdmissions, Event.admission?, Event.arrival?, Event.wait] using order
      · apply kept.fair.snoc
        intro other found same
        cases same
    · cases tried
      simpa using kept

theorem interrupt (kept : Kept maxQueue events gate) :
    Kept maxQueue (events ++ [Event.interrupted ticket]) (gate.interrupt ticket) := by
  refine ⟨kept.limit, ?_, ?_, ?_, ?_, ?_, ?_, ?_⟩
  · simp [Gate.interrupt, Event.wait, kept.queue]
  · exact Nat.le_trans List.erase_sublist.length_le kept.bound
  · simpa [Gate.interrupt, Event.hold] using kept.inFlight
  · simpa [Event.hold, Event.release?, Event.admission?] using kept.balance
  · simpa [Event.arrival?] using kept.once
  · have order : (queuedAdmissions events ++
        (waiting events).erase ticket).Sublist (arrivals events) :=
      kept.leave
    simpa [queuedAdmissions, Event.admission?, Event.arrival?, Event.wait] using order
  · apply kept.fair.snoc
    intro other found same
    cases same

theorem release (kept : Kept maxQueue events gate) (holds : ticket ∈ holding events) :
    Kept maxQueue (events ++ [Event.released ticket]) gate.release := by
  have positive : 0 < gate.inFlight := by
    rw [kept.inFlight]
    exact List.length_pos_of_mem holds
  rw [Gate.release, if_pos positive]
  refine ⟨kept.limit, ?_, kept.bound, ?_, ?_, ?_, ?_, ?_⟩
  · simpa [Event.wait] using kept.queue
  · simp [Event.hold, List.length_erase_of_mem holds, kept.inFlight]
  · have balance := kept.balance
    have counted := kept.inFlight
    simp only [holding_snoc, Event.hold, List.length_erase_of_mem holds, releases_snoc,
      Event.release?, admissions_snoc,
      Event.admission?, Option.toList_none, Option.toList_some, List.append_nil, List.length_append, List.length_singleton]
    omega
  · simpa [Event.arrival?] using kept.once
  · simpa [queuedAdmissions, Event.admission?, Event.arrival?, Event.wait] using kept.order
  · apply kept.fair.snoc
    intro other found same
    cases same

end Kept

theorem Runs.kept {maxQueue : Int} {events : List Event} {gate : Gate} (runs : Runs maxQueue events gate) :
    Kept maxQueue events gate := by
  induction runs with
  | start => exact Kept.start maxQueue
  | answer before fresh entered ih => exact ih.answer fresh entered
  | queue before fresh entered tried ih =>
    obtain ⟨queued, waits⟩ := ih.enqueue fresh entered
    exact queued.attempt waits tried
  | wake before waits tried ih => exact ih.attempt waits tried
  | interrupt before waits ih => exact ih.interrupt
  | release before holds ih => exact ih.release holds

/-- In every run, every admission is within the cap that it found and passes nobody who came
earlier; those who queue are admitted in the order in which they came; the queue stays within its
bound and is the list of those who wait; and the counter is what was admitted and not released. -/
theorem gate_safe_and_fair {maxQueue : Int} {events : List Event} {gate : Gate}
    (runs : Runs maxQueue events gate) :
    Fair events ∧ (queuedAdmissions events).Sublist (arrivals events) ∧ gate.queue = waiting events ∧
      gate.queue.length ≤ (max 0 maxQueue).toNat ∧
      gate.inFlight + (releases events).length = (admissions events).length := by
  have kept := runs.kept
  refine ⟨kept.fair, (List.sublist_append_left _ _).trans kept.order, kept.queue, ?_, ?_⟩
  · exact kept.limit ▸ kept.bound
  · rw [kept.inFlight]
    exact kept.balance

/-- Two callers and one slot: the second waits, the cap falls to one, and it is admitted after the
first has released. -/
def takingTurns : List Event := [.admitted 0 2, .queued 1, .released 0, .admitted 1 1]

theorem gate_safe_and_fair_in_turn : Fair takingTurns ∧ queuedAdmissions takingTurns = [1] := by
  let busy := ((Gate.new 4).enter 0 2).1
  have entered : (Gate.new 4).enter 0 2 = (busy, some .admitted) := rfl
  have first : Runs 4 [.admitted 0 2] busy := .answer .start (by decide) entered
  let lined := (busy.enter 1 1).1
  have queued : busy.enter 1 1 = (lined, none) := rfl
  have waits : lined.attempt 1 1 false = (lined, none) := rfl
  have second : Runs 4 [.admitted 0 2, .queued 1] lined := first.queue (by decide) queued waits
  have freed : Runs 4 [.admitted 0 2, .queued 1, .released 0] lined.release := second.release (by decide)
  have admitted : lined.release.attempt 1 1 false = ((lined.release.attempt 1 1 false).1,
      some .admitted) :=
    rfl
  have last : Runs 4 takingTurns _ := freed.wake (by decide) admitted
  exact ⟨(gate_safe_and_fair last).1, by decide⟩

end TokenPak.Proxy.ConcurrencyGate
