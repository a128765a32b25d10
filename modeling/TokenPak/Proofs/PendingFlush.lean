import TokenPak.Companion.PendingFiles
import TokenPak.Proofs.IntentDelivery

/-! When one file stands in the way of the others. A file whose parsing raises what nobody catches stops
every flush and every daily spend, and an event that a database does not take stops every flush. -/

namespace TokenPak.Companion.PendingFiles
open Library PreSend

section Escaping
variable {F : Type} [LinearOrder F] [Zero F] [One F] {builtins : Builtins F} {name : PyStr}
  {payload : List UInt8}

def Headed (builtins : Builtins F) (name : PyStr) (payload : List UInt8) (found : Head F) : Prop :=
  payload.length ≤ preSendEventMaxBytes ∧ ∃ event, builtins.loads payload = .ok event ∧
    head name event = some found

/-- The metadata is that of an object as well. -/
def Described (builtins : Builtins F) (name : PyStr) (payload : List UInt8) (found : Head F) : Prop :=
  Headed builtins name payload found ∧ ∃ metadata,
    builtins.loadsText found.metadataJson = .ok metadata ∧ isDict metadata = true

/-- The time is a number that is finite and not negative as well, and there is a cost. -/
def Priced (builtins : Builtins F) (name : PyStr) (payload : List UInt8)
    (cost : List (PyStr × Value F)) : Prop :=
  ∃ found, Described builtins name payload found ∧ found.cost = .dict cost ∧
    ∃ x time, toFloat builtins found.timestamp = .ok x ∧ clean x = .ok time

/-- How a file raises an exception that is not caught: its text or its metadata cannot be decoded
other than by a caught exception, its time or its cost is an integer too large for a float, or its
tokens are infinite. -/
inductive Escape (builtins : Builtins F) (name : PyStr) (payload : List UInt8) : Prop where
  | decoding {raised : Raised} (small : payload.length ≤ preSendEventMaxBytes) (fails : builtins.loads payload = .error raised)
      (uncaught : raised.caught = false)
  | metadata {found : Head F} {raised : Raised} (headed : Headed builtins name payload found)
      (fails : builtins.loadsText found.metadataJson = .error raised) (uncaught : raised.caught = false)
  | timestamp {found : Head F} {n : Int} (described : Described builtins name payload found) (time : found.timestamp = .int n)
      (large : builtins.floatOfInt n = none)
  | tokens {cost : List (PyStr × Value F)} (priced : Priced builtins name payload cost)
      (infinite : lookup cost "input_tokens" (.int (-1)) = .float .infinite)
  | cost {cost : List (PyStr × Value F)} {tokens n : Int} (priced : Priced builtins name payload cost)
      (counted : toInt builtins (lookup cost "input_tokens" (.int (-1))) = .ok tokens)
      (estimate : lookup cost "estimated_cost" (.int (-1)) = .int n) (large : builtins.floatOfInt n = none)

/-- The outcome of a parser that raises only what is caught. -/
def Tame {Result : Type} (outcome : Except Raised Result) :
    Prop := ∀ raised, outcome = .error raised → raised.caught = true

theorem tame_ok {Result : Type} (value : Result) : Tame (.ok value) := by
  intro raised fails
  cases fails

theorem tame_error {Result : Type} {raised : Raised} :
    Tame (.error raised : Except Raised Result) ↔ raised.caught = true := by
  constructor
  · intro tame
    exact tame raised rfl
  · intro caught other fails
    cases fails
    exact caught

theorem tame_bind {First Second : Type} {first : Except Raised First} {next : First → Except Raised Second} :
    Tame (first >>= next) ↔ Tame first ∧ ∀ value, first = .ok value → Tame (next value) := by
  cases first with
  | error raised =>
    simp only [bind, Except.bind, reduceCtorEq, false_implies, implies_true, and_true]
    rw [tame_error, tame_error]
  | ok value => simp [bind, Except.bind, tame_ok]

variable {value : Value F}

omit [LinearOrder F] in
theorem tame_toFloat :
    Tame (toFloat builtins value) ↔ ∀ n, value = .int n → builtins.floatOfInt n ≠ none := by
  cases value with
  | int n =>
    simp only [toFloat, Value.int.injEq, forall_eq']
    cases builtins.floatOfInt n with
    | none => simp [tame_error, Raised.caught]
    | some x => simp [tame_ok]
  | str text =>
    simp only [toFloat]
    cases builtins.floatOfText text with
    | none => simp [tame_error, Raised.caught]
    | some x => simp [tame_ok]
  | _ => simp [toFloat, tame_ok, tame_error, Raised.caught]

omit [LinearOrder F] [Zero F] [One F] in
theorem tame_toInt : Tame (toInt builtins value) ↔ value ≠ .float .infinite := by
  cases value with
  | float x => cases x <;> simp [toInt, tame_ok, tame_error, Raised.caught]
  | str text =>
    simp only [toInt]
    cases builtins.intOfText text with
    | none => simp [tame_error, Raised.caught]
    | some x => simp [tame_ok]
  | _ => simp [toInt, tame_ok, tame_error, Raised.caught]

omit [One F] in
theorem tame_clean (x : PyFloat F) : Tame (clean x) := by
  cases x with
  | finite x =>
    by_cases negative : x < 0
    · simp [clean, negative, tame_error, Raised.caught]
    · simp [clean, negative, tame_ok]
  | _ => simp [clean, tame_error, Raised.caught]

theorem tame_parseCost : Tame (parseCost builtins value) ↔ ∀ cost, value = .dict cost →
    lookup cost "input_tokens" (.int (-1)) ≠ .float .infinite ∧
      ∀ tokens, toInt builtins (lookup cost "input_tokens" (.int (-1))) = .ok tokens →
        ∀ n, lookup cost "estimated_cost" (.int (-1)) = .int n → builtins.floatOfInt n ≠ none := by
  cases value with
  | none => simp [parseCost, tame_ok]
  | dict cost =>
    simp only [parseCost, tame_bind, tame_toInt, tame_toFloat, Value.dict.injEq, forall_eq']
    apply and_congr_right
    intro _
    apply forall_congr'
    intro tokens
    apply imp_congr_right
    intro _
    rw [and_iff_left_iff_imp]
    intro _ costEst _
    have cleaned : Tame (do return some (tokens.toNat, ← clean costEst)) :=
      tame_bind.mpr ⟨tame_clean costEst, fun _ _ => tame_ok _⟩
    split
    · exact tame_error.mpr rfl
    · exact cleaned
  | _ => simp [parseCost, tame_error, Raised.caught]

theorem tame_parseTail {found : Head F} :
    Tame (parseTail builtins found) ↔ Tame (builtins.loadsText found.metadataJson) ∧
    ((∃ metadata, builtins.loadsText found.metadataJson = .ok metadata ∧ isDict metadata = true) →
      (∀ n, found.timestamp = .int n → builtins.floatOfInt n ≠ none) ∧
      ((∃ x time, toFloat builtins found.timestamp = .ok x ∧ clean x = .ok time) → Tame (parseCost builtins found.cost))) := by
  have rest : Tame (do
      let timestamp ← clean (← toFloat builtins found.timestamp)
      let cost ← parseCost builtins found.cost
      return ({ eventId := found.eventId, timestamp, date := found.date, sessionId := found.sessionId, entryType := found.entryType,
                content := found.content, metadataJson := found.metadataJson, cost } : Event F)) ↔
      (∀ n, found.timestamp = .int n → builtins.floatOfInt n ≠ none) ∧
        ((∃ x time, toFloat builtins found.timestamp = .ok x ∧ clean x = .ok time) →
            Tame (parseCost builtins found.cost)) := by
    simp only [tame_bind, tame_toFloat, tame_clean, true_and]
    apply and_congr_right
    intro _
    constructor
    · intro each ⟨x, time, converted, cleaned⟩
      exact (each x converted time cleaned).1
    · intro all x converted time cleaned
      exact ⟨all ⟨x, time, converted, cleaned⟩, fun _ _ => tame_ok _⟩
  unfold parseTail
  rw [tame_bind]
  apply and_congr_right
  intro _
  constructor
  · intro each ⟨metadata, decoded, object⟩
    have tail := each metadata decoded
    rw [if_neg (not_not.mpr object)] at tail
    exact rest.mp tail
  · intro all metadata decoded
    by_cases object : isDict metadata = true
    · rw [if_neg (not_not.mpr object)]
      exact rest.mpr (all ⟨metadata, decoded, object⟩)
    · rw [if_pos object]
      exact tame_error.mpr rfl

theorem tame_headed : Tame (parsePreSendEvent builtins name payload) ↔
    (payload.length ≤ preSendEventMaxBytes → Tame (builtins.loads payload)) ∧
      ∀ found, Headed builtins name payload found → Tame (parseTail builtins found) := by
  unfold parsePreSendEvent
  by_cases small : payload.length ≤ preSendEventMaxBytes
  · rw [if_neg (not_lt.mpr small), tame_bind]
    constructor
    · intro ⟨decoded, rest⟩
      refine ⟨fun _ => decoded, ?_⟩
      intro found ⟨_, event, loaded, headed⟩
      have tail := rest event loaded
      rw [headed] at tail
      exact tail
    · intro ⟨decoded, rest⟩
      refine ⟨decoded small, ?_⟩
      intro event loaded
      split
      · exact tame_error.mpr rfl
      next found headed => exact rest found ⟨small, event, loaded, headed⟩
  · rw [if_pos (not_le.mp small)]
    constructor
    · intro _
      exact ⟨fun fits => absurd fits small, fun found headed => absurd headed.1 small⟩
    · intro _
      exact tame_error.mpr rfl

theorem tame_of_caught {Result : Type} {outcome : Except Raised Result}
    (none_escapes : ∀ raised, outcome = .error raised → raised.caught = false → False) : Tame outcome := by
  intro raised fails
  cases caught : raised.caught with
  | true => rfl
  | false => exact (none_escapes raised fails caught).elim

/-- A file raises what is not caught exactly if it escapes. -/
theorem tame_parse : Tame (parsePreSendEvent builtins name payload) ↔ ¬ Escape builtins name payload := by
  rw [tame_headed]
  constructor
  · intro ⟨decoded, headed⟩ escape
    have described {found : Head F} (reached : Described builtins name payload found) :=
      (tame_parseTail.mp (headed found reached.1)).2 reached.2
    have priced {cost : List (PyStr × Value F)} (reached : Priced builtins name payload cost) :
        lookup cost "input_tokens" (.int (-1)) ≠ .float .infinite ∧
          ∀ tokens, toInt builtins (lookup cost "input_tokens" (.int (-1))) = .ok tokens →
            ∀ n, lookup cost "estimated_cost" (.int (-1)) = .int n → builtins.floatOfInt n ≠ none := by
      obtain ⟨found, reached, costed, converted⟩ := reached
      exact tame_parseCost.mp ((described reached).2 converted) cost costed
    cases escape with
    | decoding small fails uncaught => simp [decoded small _ fails] at uncaught
    | metadata reached fails uncaught => simp [(tame_parseTail.mp (headed _ reached)).1 _ fails] at uncaught
    | timestamp reached time large => exact (described reached).1 _ time large
    | tokens reached infinite => exact (priced reached).1 infinite
    | cost reached counted estimate large => exact (priced reached).2 _ counted _ estimate large
  · intro stays
    constructor
    · intro small
      apply tame_of_caught
      intro raised fails uncaught
      exact stays (.decoding small fails uncaught)
    · intro found headed
      rw [tame_parseTail]
      constructor
      · apply tame_of_caught
        intro raised fails uncaught
        exact stays (.metadata headed fails uncaught)
      · intro object
        constructor
        · intro n time large
          exact stays (.timestamp ⟨headed, object⟩ time large)
        · intro converted
          rw [tame_parseCost]
          intro cost costed
          have reached : Priced builtins name payload cost := ⟨found, ⟨headed, object⟩, costed, converted⟩
          exact ⟨fun infinite => stays (.tokens reached infinite),
            fun tokens counted n estimate large => stays (.cost reached counted estimate large)⟩

end Escaping

section Reading
variable {F : Type} [LinearOrder F] [Zero F] [One F] {builtins : Builtins F}
  {files : List (PyStr × List UInt8)}

def eventsOf (builtins : Builtins F) (files : List (PyStr × List UInt8)) : List (PyStr × Event F) :=
  files.filterMap fun file => (parsePreSendEvent builtins file.1 file.2).toOption.map fun event =>
    (file.1, event)

def invalidOf (builtins : Builtins F) (files : List (PyStr × List UInt8)) : List (PyStr × List UInt8) :=
  files.filter fun file => (parsePreSendEvent builtins file.1 file.2).toOption.isNone

theorem read_of_tame (builtins : Builtins F) (files : List (PyStr × List UInt8))
    (tame : ∀ file ∈ files, Tame (parsePreSendEvent builtins file.1 file.2)) :
    readPreSendEvents builtins files = .ok ⟨eventsOf builtins files, invalidOf builtins files⟩ := by
  induction files with
  | nil => rfl
  | cons file files ih =>
    have rest := ih fun other member => tame other (List.mem_cons_of_mem _ member)
    have here := tame file List.mem_cons_self
    simp only [readPreSendEvents, rest]
    cases parsed : parsePreSendEvent builtins file.1 file.2 with
    | ok event => simp [eventsOf, invalidOf, parsed, Except.toOption, bind, Except.bind, pure, Except.pure]
    | error raised =>
      have caught := here raised parsed
      simp [eventsOf, invalidOf, parsed, caught, Except.toOption, bind, Except.bind, pure, Except.pure]

theorem tame_of_read {found : Found F} (read : readPreSendEvents builtins files = .ok found) :
    ∀ file ∈ files, Tame (parsePreSendEvent builtins file.1 file.2) := by
  induction files generalizing found with
  | nil => simp
  | cons file files ih =>
    have parts : Tame (parsePreSendEvent builtins file.1 file.2) ∧ ∃ others,
        readPreSendEvents builtins files = .ok others := by
      simp only [readPreSendEvents] at read
      cases parsed : parsePreSendEvent builtins file.1 file.2 with
      | ok event =>
        rw [parsed] at read
        refine ⟨tame_ok event, ?_⟩
        cases rest : readPreSendEvents builtins files with
        | ok others => exact ⟨others, rfl⟩
        | error raised => simp [rest, bind, Except.bind] at read
      | error raised =>
        rw [parsed] at read
        cases caught : raised.caught with
        | false => simp [caught] at read
        | true =>
          refine ⟨tame_error.mpr caught, ?_⟩
          cases rest : readPreSendEvents builtins files with
          | ok others => exact ⟨others, rfl⟩
          | error raised => simp [caught, rest, bind, Except.bind] at read
    obtain ⟨tame, others, rest⟩ := parts
    intro other member
    rcases List.mem_cons.mp member with same | later
    · exact same ▸ tame
    · exact ih rest other later

end Reading

section Binding
variable {F : Type} {event : Event F}

/-- What the databases take: texts without lone surrogates, and tokens within their integers. -/
def Binds (event : Event F) : Prop :=
  event.sessionId.Encodes ∧ event.entryType.Encodes ∧ event.content.Encodes ∧ event.metadataJson.Encodes ∧
    ∀ cost, event.cost = some cost → event.date.Encodes ∧ fitsInteger cost.1 = true

theorem encode_some {text : PyStr} : (∃ bound, text.encode = some bound) ↔ text.Encodes := by
  by_cases encodes : text.Encodes
  · simp [PyStr.encode, encodes]
  · simp [PyStr.encode, encodes]

theorem entry_some : (∃ bound, event.entry = some bound) ↔
    event.sessionId.Encodes ∧ event.entryType.Encodes ∧ event.content.Encodes ∧
      event.metadataJson.Encodes := by
  simp only [Event.entry, Option.bind_eq_bind, Option.bind_eq_some_iff, Option.pure_def, ← encode_some]
  constructor
  · intro ⟨_, sessionId, first, entryType, second, content, third, metadataJson, fourth, _⟩
    exact ⟨⟨sessionId, first⟩, ⟨entryType, second⟩, ⟨content, third⟩, ⟨metadataJson, fourth⟩⟩
  · intro ⟨⟨sessionId, first⟩, ⟨entryType, second⟩, ⟨content, third⟩, ⟨metadataJson, fourth⟩⟩
    exact ⟨_, sessionId, first, entryType, second, content, third, metadataJson, fourth, rfl⟩

theorem charge_some {cost : Nat × F} (costed : event.cost = some cost) :
    (∃ bound, event.charge = some bound) ↔
    event.date.Encodes ∧ event.sessionId.Encodes ∧ fitsInteger cost.1 = true := by
  simp only [Event.charge, Option.bind_eq_bind, Option.bind_eq_some_iff,
    Option.ite_none_right_eq_some, ← encode_some]
  constructor
  · intro ⟨_, other, same, date, first, sessionId, second, fits, _⟩
    rw [costed] at same
    cases same
    exact ⟨⟨date, first⟩, ⟨sessionId, second⟩, fits⟩
  · intro ⟨⟨date, first⟩, ⟨sessionId, second⟩, fits⟩
    exact ⟨_, cost, costed, date, first, sessionId, second, fits, rfl⟩

theorem charge_cost {bound : PreSend.Event F F} (charged : event.charge = some bound) :
    bound.cost.isSome = true := by
  simp only [Event.charge, Option.bind_eq_bind, Option.bind_eq_some_iff,
    Option.ite_none_right_eq_some, Option.some.injEq] at charged
  obtain ⟨cost, _, date, _, sessionId, _, _, same⟩ := charged
  rw [← same]
  rfl

theorem mapM_of_all {First Second : Type} {f : First → Option Second} {items : List First}
    (all : ∀ item ∈ items, ∃ value, f item = some value) :
    ∃ values, items.mapM f = some values ∧ ∀ item ∈ items, ∀ value, f item = some value → value ∈ values := by
  induction items with
  | nil => exact ⟨[], rfl, by simp⟩
  | cons item items ih =>
    obtain ⟨value, found⟩ := all item List.mem_cons_self
    obtain ⟨values, rest, inside⟩ := ih fun other member => all other (List.mem_cons_of_mem _ member)
    refine ⟨value :: values, by simp [List.mapM_cons, found, rest], ?_⟩
    intro other member another same
    rcases List.mem_cons.mp member with here | later
    · subst here
      rw [found] at same
      cases same
      exact List.mem_cons_self
    · exact List.mem_cons_of_mem _ (inside other later another same)

variable {Hash : Type} [DecidableEq Hash] {sha256 : String → Hash} {held : List (PreSend.Event F F)}

omit [DecidableEq Hash] in
theorem sessions_of_fold (sessions : Dict String F) (held : List (PreSend.Event F F)) :
    (∀ event ∈ held, (held.foldl insertSession sessions).get event.sessionId ≠ none) ∧
      ∀ sessionId, sessions.get sessionId ≠ none →
          (held.foldl insertSession sessions).get sessionId ≠ none := by
  induction held generalizing sessions with
  | nil => exact ⟨by simp, fun _ => id⟩
  | cons event held ih =>
    have put : (insertSession sessions event).get event.sessionId ≠ none ∧
        ∀ sessionId, sessions.get sessionId ≠ none → (insertSession sessions event).get sessionId ≠ none := by
      unfold insertSession
      cases found : sessions.get event.sessionId with
      | some time => exact ⟨by simp [found], fun _ => id⟩
      | none =>
        refine ⟨by simp [Dict.get_set_self], ?_⟩
        intro sessionId there
        by_cases same : sessionId = event.sessionId
        · simp [same, Dict.get_set_self]
        · rwa [Dict.get_set_of_ne same]
    obtain ⟨inside, kept⟩ := ih (insertSession sessions event)
    refine ⟨?_, fun sessionId there => kept sessionId (put.2 sessionId there)⟩
    intro other member
    rcases List.mem_cons.mp member with same | later
    · exact same ▸ kept event.sessionId put.1
    · exact inside other later

/-- The row of an event, or one that the unique index takes for it. -/
def Written (sha256 : String → Hash) (entries : List (Entry F Hash)) (event : PreSend.Event F F) : Prop :=
  ∃ row ∈ entries, row.sessionId = event.sessionId ∧ row.entryType = event.entryType ∧
    row.contentHash = entryContentHash sha256 event.entryType event.content event.metadataJson

theorem entries_of_fold (sha256 : String → Hash) (entries : List (Entry F Hash))
    (held : List (PreSend.Event F F)) :
    (∀ event ∈ held, Written sha256 (held.foldl (insertEntry sha256) entries) event) ∧
      entries ⊆ held.foldl (insertEntry sha256) entries := by
  induction held generalizing entries with
  | nil => exact ⟨by simp, fun _ => id⟩
  | cons event held ih =>
    have put : Written sha256 (insertEntry sha256 entries event) event ∧
        entries ⊆ insertEntry sha256 entries event := by
      simp only [insertEntry]
      split
      next taken =>
        obtain ⟨row, inside, alike⟩ := List.any_eq_true.mp taken
        exact ⟨⟨row, inside, of_decide_eq_true alike⟩, fun _ => id⟩
      next =>
        exact ⟨⟨_, List.mem_append_right _ List.mem_cons_self, rfl, rfl, rfl⟩,
          List.subset_append_left _ _⟩
    obtain ⟨inside, kept⟩ := ih (insertEntry sha256 entries event)
    refine ⟨?_, fun row there => kept (put.2 there)⟩
    intro other member
    rcases List.mem_cons.mp member with same | later
    · obtain ⟨row, there, alike⟩ := put.1
      exact ⟨row, kept there, same ▸ alike⟩
    · exact inside other later

end Binding

section Flushing
variable {F Hash : Type} [LinearOrder F] [Zero F] [One F] [DecidableEq Hash]
variable {builtins : Builtins F} {sha256 : String → Hash} {round6 : F → F}
  {spool after : Spool F Hash} {event : Event F}

/-- The event is in both databases: its session, its entry, and an estimate that is not earlier. -/
def Materialised (sha256 : String → Hash) (spool : Spool F Hash) (event : Event F) : Prop :=
  (∃ bound, event.entry = some bound ∧ spool.sessions.get bound.sessionId ≠ none ∧
    Written sha256 spool.entries bound) ∧
    ∀ cost, event.cost = some cost → ∃ bound, event.charge = some bound ∧
      ∃ row, spool.estimates.get (bound.sessionId, bound.date) = some row ∧ bound.timestamp ≤ row.timestamp

/-- A flush does not raise, materialises and removes every event and quarantines every other file, and the
daily spend does not raise. -/
def Works (builtins : Builtins F) (sha256 : String → Hash) (round6 : F → F) {Cost : Type}
    (total : List (Event F) → Cost)
    (spool : Spool F Hash) : Prop :=
  (∃ after removed, flushPreSendEvents builtins sha256 round6 spool = .ok (after, removed) ∧
    ∀ name payload, spool.pending.get name = some payload → after.pending.get name = none ∧
      match parsePreSendEvent builtins name payload with
      | .ok event => Materialised sha256 after event
      | .error _ => after.invalid.get (invalidName name) = some payload) ∧
    ∃ spend, dailySpendWithPending builtins total spool = .ok spend

variable {name : PyStr} {payload : List UInt8} {files : List (PyStr × List UInt8)}

theorem mem_sortedFiles {files : Dict PyStr (List UInt8)} :
    (name, payload) ∈ sortedFiles files ↔ files.get name = some payload := by
  rw [sortedFiles, List.mem_insertionSort, Dict.get_eq_some_iff]

omit [DecidableEq Hash] in
theorem mem_eventsOf : (name, event) ∈ eventsOf builtins files ↔
    ∃ payload, (name, payload) ∈ files ∧ parsePreSendEvent builtins name payload = .ok event := by
  simp only [eventsOf, List.mem_filterMap, Prod.exists, Option.map_eq_some_iff, Prod.mk.injEq]
  constructor
  · intro ⟨other, payload, member, found, parsed, same, equal⟩
    subst same equal
    refine ⟨payload, member, ?_⟩
    cases outcome : parsePreSendEvent builtins other payload with
    | ok value =>
      rw [outcome] at parsed
      cases parsed
      rfl
    | error raised =>
      rw [outcome] at parsed
      cases parsed
  · intro ⟨payload, member, parsed⟩
    exact ⟨name, payload, member, event, by rw [parsed]; rfl, rfl, rfl⟩

omit [DecidableEq Hash] in
theorem mem_invalidOf : (name, payload) ∈ invalidOf builtins files ↔
      (name, payload) ∈ files ∧ ∃ raised, parsePreSendEvent builtins name payload = .error raised := by
  rw [invalidOf, List.mem_filter]
  apply and_congr_right
  intro _
  cases parsePreSendEvent builtins name payload with
  | ok value => simp [Except.toOption]
  | error raised => simp [Except.toOption]

theorem invalidName_inj {first second : PyStr} (same : invalidName first = invalidName second) :
    first = second :=
  List.append_cancel_right same

omit [LinearOrder F] [Zero F] [One F] [DecidableEq Hash] in
theorem quarantined (member : (name, payload) ∈ files)
    (alone : ∀ content, (name, content) ∈ files → content = payload) :
    (spool.quarantine files).invalid.get (invalidName name) = some payload := by
  have last (items : List (PyStr × List UInt8)) (start : Option (List UInt8)) (some_left : items ≠ [])
      (all : ∀ item ∈ items, item.2 = payload) : items.foldl (fun _ item => some item.2) start =
          some payload := by
    induction items generalizing start with
    | nil => exact absurd rfl some_left
    | cons item items ih =>
      rw [List.foldl_cons]
      by_cases rest : items = []
      · subst rest
        simp [all item List.mem_cons_self]
      · exact ih _ rest fun other inside => all other (List.mem_cons_of_mem _ inside)
  have grouped :=
    Dict.get_foldl_group (fun file : PyStr × List UInt8 => invalidName file.1)
      (fun _ file => file.2) files
    spool.invalid (invalidName name)
  rw [Spool.quarantine]
  apply grouped.trans
  apply last
  · apply List.ne_nil_of_mem (a := (name, payload))
    exact List.mem_filter.mpr ⟨member, by simp⟩
  · intro item inside
    obtain ⟨among, named⟩ := List.mem_filter.mp inside
    have same := invalidName_inj (of_decide_eq_true named)
    exact alone item.2 (same ▸ among)

theorem flush_of_clear (sha256 : String → Hash) (round6 : F → F)
    (clear : ∀ name payload, spool.pending.get name = some payload →
      Tame (parsePreSendEvent builtins name payload) ∧ ∀ event, parsePreSendEvent builtins name payload = .ok event → Binds event) :
    ∃ after removed, flushPreSendEvents builtins sha256 round6 spool = .ok (after, removed) ∧
      after.pending = ((spool.pending.popAll ((invalidOf builtins (sortedFiles spool.pending)).map Prod.fst)).popAll
        ((eventsOf builtins (sortedFiles spool.pending)).map Prod.fst)) ∧
      after.invalid = (spool.quarantine (invalidOf builtins (sortedFiles spool.pending))).invalid ∧
      ∀ event ∈ (eventsOf builtins (sortedFiles spool.pending)).map Prod.snd,
          Materialised sha256 after event := by
  have read : readPreSendEvents builtins (sortedFiles spool.pending) =
    .ok ⟨eventsOf builtins (sortedFiles spool.pending),
      invalidOf builtins (sortedFiles spool.pending)⟩ := by
    apply read_of_tame builtins (sortedFiles spool.pending)
    intro file member
    exact (clear file.1 file.2 (mem_sortedFiles.mp member)).1
  have binds : ∀ event ∈ (eventsOf builtins (sortedFiles spool.pending)).map Prod.snd, Binds event := by
    intro event member
    obtain ⟨⟨name, found⟩, inside, same⟩ := List.mem_map.mp member
    obtain ⟨payload, among, parsed⟩ := mem_eventsOf.mp inside
    exact same ▸ (clear name payload (mem_sortedFiles.mp among)).2 found parsed
  generalize eventsOf builtins (sortedFiles spool.pending) = events at read binds ⊢
  generalize invalidOf builtins (sortedFiles spool.pending) = invalid at read ⊢
  unfold flushPreSendEvents
  rw [read]
  by_cases nothing : events = []
  · subst nothing
    exact ⟨spool.quarantine invalid, 0, rfl, rfl, rfl, by simp⟩
  · have ordered : ∀ event ∈
        (events.map Prod.snd).insertionSort (fun first second => first.before second),
        Binds event := by
      intro event member
      exact binds event ((List.mem_insertionSort _).mp member)
    generalize sorted : (events.map Prod.snd).insertionSort (fun first second => first.before second) = queue at ordered
    obtain ⟨rows, entered, journaled⟩ := mapM_of_all fun event member =>
      entry_some.mpr ⟨(ordered event member).1, (ordered event member).2.1,
        (ordered event member).2.2.1, (ordered event member).2.2.2.1⟩
    have priced : ∀ event ∈ queue.filter (·.cost.isSome), ∃ bound, event.charge = some bound := by
      intro event member
      obtain ⟨among, costed⟩ := List.mem_filter.mp member
      obtain ⟨cost, found⟩ := Option.isSome_iff_exists.mp costed
      obtain ⟨date, fits⟩ := (ordered event among).2.2.2.2 cost found
      exact (charge_some found).mpr ⟨date, (ordered event among).1, fits⟩
    obtain ⟨charges, charged, estimated⟩ := mapM_of_all priced
    refine ⟨(((spool.quarantine invalid).journal sha256 rows).budget round6 charges).remove (events.map Prod.fst), events.length,
      ?_, rfl, rfl, ?_⟩
    · simp only [bind, Except.bind, nothing, if_false, sorted, entered, charged]
      rfl
    · intro event member
      have among : event ∈ queue := by
        rw [← sorted]
        exact (List.mem_insertionSort _).mpr member
      constructor
      · obtain ⟨bound, made⟩ :=
          entry_some.mpr ⟨(ordered event among).1, (ordered event among).2.1,
            (ordered event among).2.2.1,
          (ordered event among).2.2.2.1⟩
        have inside := journaled event among bound made
        exact ⟨bound, made, (sessions_of_fold _ rows).1 bound inside,
          (entries_of_fold sha256 _ rows).1 bound inside⟩
      · intro cost costed
        obtain ⟨date, fits⟩ := (ordered event among).2.2.2.2 cost costed
        obtain ⟨bound, made⟩ := (charge_some costed).mpr ⟨date, (ordered event among).1, fits⟩
        have inside := estimated event (List.mem_filter.mpr ⟨among, by simp [costed]⟩) bound made
        exact ⟨bound, made, (upsert_all_covers round6 _ charges).1 bound inside (charge_cost made)⟩

theorem read_of_flush {removed : Nat}
    (flushed : flushPreSendEvents builtins sha256 round6 spool = .ok (after, removed)) :
    ∃ found, readPreSendEvents builtins (sortedFiles spool.pending) = .ok found := by
  unfold flushPreSendEvents at flushed
  cases read : readPreSendEvents builtins (sortedFiles spool.pending) with
  | ok found => exact ⟨found, rfl⟩
  | error raised =>
    rw [read] at flushed
    cases flushed

/-- The flush and the daily spend do what they should exactly if no file escapes and every event binds. -/
theorem flush_works_iff (builtins : Builtins F) (sha256 : String → Hash) (round6 : F → F)
    {Cost : Type} (total : List (Event F) → Cost)
    (spool : Spool F Hash) : Works builtins sha256 round6 total spool ↔
      ∀ name payload, spool.pending.get name = some payload → ¬ Escape builtins name payload ∧
        ∀ event, parsePreSendEvent builtins name payload = .ok event → Binds event := by
  constructor
  · intro ⟨⟨after, removed, flushed, each⟩, _⟩ name payload there
    obtain ⟨found, read⟩ := read_of_flush flushed
    refine ⟨tame_parse.mp (tame_of_read read (name, payload) (mem_sortedFiles.mpr there)), ?_⟩
    intro event parsed
    have done := (each name payload there).2
    rw [parsed] at done
    obtain ⟨⟨bound, made, _⟩, costs⟩ := done
    obtain ⟨sessionId, entryType, content, metadataJson⟩ := entry_some.mp ⟨bound, made⟩
    refine ⟨sessionId, entryType, content, metadataJson, ?_⟩
    intro cost costed
    obtain ⟨bound, made, _⟩ := costs cost costed
    obtain ⟨date, _, fits⟩ := (charge_some costed).mp ⟨bound, made⟩
    exact ⟨date, fits⟩
  · intro clear
    have tame : ∀ name payload, spool.pending.get name = some payload →
        Tame (parsePreSendEvent builtins name payload) :=
      fun name payload there => tame_parse.mpr (clear name payload there).1
    obtain ⟨after, removed, flushed, pending, invalid, written⟩ := flush_of_clear sha256 round6
      fun name payload there => ⟨tame name payload there, (clear name payload there).2⟩
    constructor
    · refine ⟨after, removed, flushed, ?_⟩
      intro name payload there
      have among := mem_sortedFiles.mpr there
      rw [pending, Dict.get_popAll, Dict.get_popAll]
      cases parsed : parsePreSendEvent builtins name payload with
      | ok event =>
        have listed : (name, event) ∈ eventsOf builtins (sortedFiles spool.pending) :=
          mem_eventsOf.mpr ⟨payload, among, parsed⟩
        have named := List.mem_map_of_mem (f := Prod.fst) listed
        exact ⟨if_pos named, written event (List.mem_map_of_mem (f := Prod.snd) listed)⟩
      | error raised =>
        have listed : (name, payload) ∈ invalidOf builtins (sortedFiles spool.pending) :=
          mem_invalidOf.mpr ⟨among, raised, parsed⟩
        have named := List.mem_map_of_mem (f := Prod.fst) listed
        constructor
        · rw [if_pos named]
          simp
        · rw [invalid]
          apply quarantined listed
          intro content inside
          have same := mem_sortedFiles.mp (mem_invalidOf.mp inside).1
          rw [there] at same
          exact (Option.some.inj same).symm
    · refine ⟨total ((eventsOf builtins (sortedFiles spool.pending)).map Prod.snd), ?_⟩
      have read := read_of_tame builtins (sortedFiles spool.pending) fun file member =>
        tame file.1 file.2 (mem_sortedFiles.mp member)
      rw [dailySpendWithPending, read]
      rfl

end Flushing

section Blocked

mutual
def fromJson : Json Int → Value ℚ
  | .null => .none
  | .bool value => .bool value
  | .number n => .int n
  | .string text => .str (PyStr.of text)
  | .array items => .list (fromItems items)
  | .object entries => .dict (fromEntries entries)

def fromItems : List (Json Int) → List (Value ℚ)
  | [] => []
  | item :: items => fromJson item :: fromItems items

def fromEntries : List (String × Json Int) → List (PyStr × Value ℚ)
  | [] => []
  | (key, value) :: entries => (PyStr.of key, fromJson value) :: fromEntries entries
end

def decoded (text : List Char) : Except Raised (Value ℚ) :=
  match Json.loads text with
  | some value => .ok (fromJson value)
  | none => .error .valueError

def asciiBuiltins : Builtins ℚ where
  loads payload := decoded (payload.map fun byte => Char.ofNat byte.toNat)
  loadsText text := decoded (text.map fun c => Char.ofNat c.val)
  floatOfInt n := if n.natAbs < 2 ^ 1024 then some n else none
  floatOfText _ := none
  intOfText _ := none
  trunc x := if 0 ≤ x then x.floor else x.ceil

def intentFile (eventId : String) (timestamp inputTokens : List Char) : List UInt8 :=
  let pieces :=
    ["\x7b\"version\":1,".toList, "\"event_id\":\"".toList, eventId.toList,
      "\",\"timestamp\":".toList, timestamp,
    ",\"date\":\"d\",".toList, "\"session_id\":\"s\",".toList, "\"journal\":\x7b".toList,
      "\"entry_type\":\"e\",".toList,
    "\"content\":\"c\",".toList, "\"metadata_json\":".toList, "\"\x7b\x7d\"\x7d,".toList,
      "\"cost\":\x7b".toList,
    "\"input_tokens\":".toList, inputTokens, ",\"estimated_cost\"".toList, ":1\x7d\x7d".toList]
  pieces.flatten.map fun c => UInt8.ofNat c.toNat

def spoolWith (first : List UInt8) : Spool ℚ String :=
  { pending := (Dict.empty.set (PyStr.of "a.json") first).set (PyStr.of "b.json") (intentFile "b" ['2'] ['7'])
    invalid := Dict.empty
    sessions := Dict.empty
    entries := []
    estimates := Dict.empty }

def manyTokens : Spool ℚ String := spoolWith (intentFile "a" ['1'] "9223372036854775808".toList)

def farTime : Spool ℚ String := spoolWith (intentFile "a" ('1' :: List.replicate 400 '0') ['7'])

def raisedBy {Result : Type} : Except Raised Result → Option Raised
  | .error raised => some raised
  | .ok _ => none

theorem error_of_raisedBy {Result : Type} {outcome : Except Raised Result} {raised : Raised}
    (failed : raisedBy outcome = some raised) : outcome = .error raised := by
  cases outcome with
  | error other => exact congrArg Except.error (Option.some.inj failed)
  | ok value => cases failed

/-- A file with too many tokens keeps the one behind it from ever being removed, and one with too
large a time lets each flush and each daily spend raise. -/
theorem one_file_blocks :
    ((flushPreSendEvents asciiBuiltins id id manyTokens).toOption.map fun result =>
      (result.1.pending.entries, result.2)) =
        some (manyTokens.pending.entries, 0) ∧
      ¬ Works asciiBuiltins id id (fun _ => ()) manyTokens ∧
      flushPreSendEvents asciiBuiltins id id farTime = .error .overflowError ∧
      dailySpendWithPending asciiBuiltins (fun _ => ()) farTime = .error .overflowError := by
  have stays : ((flushPreSendEvents asciiBuiltins id id manyTokens).toOption.map fun result =>
      (result.1.pending.entries, result.2)) = some (manyTokens.pending.entries, 0) := by decide +kernel
  refine ⟨stays, ?_, error_of_raisedBy (by decide +kernel), error_of_raisedBy (by decide +kernel)⟩
  intro ⟨⟨after, removed, flushed, each⟩, _⟩
  rw [flushed] at stays
  have same : after.pending = manyTokens.pending :=
    Dict.ext_entries (congrArg Prod.fst (Option.some.inj stays))
  have there : manyTokens.pending.get (PyStr.of "b.json") = some (intentFile "b" ['2'] ['7']) :=
    Dict.get_set_self _ _ _
  have gone := (each _ _ there).1
  rw [same, there] at gone
  cases gone

end Blocked

end TokenPak.Companion.PendingFiles
