import TokenPak.Companion.JournalStore
import TokenPak.Library.JsonSound
import TokenPak.Proofs.EconomicsRules

/-! The savings of a session. Calls that say the same are one event, as a retried delivery is, and the
report adds up the events. -/

namespace TokenPak.Companion.JournalStore
open Library

structure SavingsEvent (F : Type) where
  tool : String
  tokens : Int
  cost : F
  modelHint : Option String
  deriving DecidableEq

section Events
variable {N F Hash : Type} [Numerals N] (numbers : Numbers N F) (sha256 : List Char → Hash)

/-- What the conversions do on the numbers that the events hold. -/
structure Lawful : Prop where
  toInt_ofInt : ∀ n, numbers.toInt (.number (numbers.ofInt n)) = some n
  toFloat_ofFloat : ∀ x, numbers.toFloat (.number (numbers.ofFloat x)) = some x
  zero_of_isZero : ∀ n, Numerals.isZero (numbers.ofInt n) = true → n = 0

def SavingsCall.hint (call : SavingsCall F) : Option String :=
  if call.modelHint = some "" then none else call.modelHint

def SavingsCall.event (call : SavingsCall F) : SavingsEvent F :=
  ⟨call.tool, max 0 call.tokensAvoided, numbers.clip call.costAvoidedUsd, call.hint⟩

namespace SavingsEvent

def fields (event : SavingsEvent F) : List (String × Json N) :=
  [("tool", Json.string event.tool), ("tokens_avoided", .number (numbers.ofInt event.tokens)),
    ("cost_avoided_usd", .number (numbers.ofFloat event.cost))] ++ (event.modelHint.map fun hint => ("model_hint", Json.string hint)).toList

def metadata (event : SavingsEvent F) : Json N := .object (event.fields numbers)

def content (event : SavingsEvent F) : List Char := numbers.content event.tool event.tokens event.cost

def row (sessionId : String) (event : SavingsEvent F) : Entry Hash :=
  ⟨sessionId, companionSavings, event.content numbers, (event.metadata numbers).dumps style,
    entryContentHash sha256 companionSavings (event.content numbers) ((event.metadata numbers).dumps style)⟩

end SavingsEvent

variable {numbers sha256} {call : SavingsCall F} {event other : SavingsEvent F}

omit [Numerals N] in
theorem savingsMetadata_eq : savingsMetadata numbers call = (call.event numbers).metadata numbers := by
  rw [savingsMetadata, SavingsEvent.metadata, SavingsEvent.fields, SavingsCall.event, SavingsCall.hint]
  cases call.modelHint with
  | none => simp
  | some hint => by_cases empty : hint = "" <;> simp [empty]

theorem recordSavings_eq [DecidableEq Hash] {entries : List (Entry Hash)} :
    recordSavings numbers sha256 call entries =
    if entries.any fun entry => decide (entry.sessionId = call.sessionId ∧
      entry.entryType = companionSavings ∧
        entry.contentHash = ((call.event numbers).row numbers sha256 call.sessionId).contentHash) then entries
    else entries ++ [(call.event numbers).row numbers sha256 call.sessionId] := by
  rw [recordSavings, savingsMetadata_eq]
  rfl

omit [Numerals N] in
theorem metadata_proper : (event.metadata numbers).Proper := by
  rw [SavingsEvent.metadata, SavingsEvent.fields]
  cases event.modelHint <;> simp [Json.Proper, Json.ProperEntries]

theorem loads_metadata :
    (Json.loads ((event.metadata numbers).dumps style) : Option (Json N)) =
    some (event.metadata numbers) :=
  Json.loads_dumps metadata_proper

theorem dumps_ne_nil : (event.metadata numbers).dumps style ≠ [] := by
  intro empty
  have read := @loads_metadata _ _ _ numbers event
  rw [empty, Json.loads_nil] at read
  cases read

theorem separator_notMem : separator ∉ (event.metadata numbers).dumps style := by
  intro member
  have legal := (Json.loads_sound (@loads_metadata _ _ _ numbers event)).2
  have absurd : ¬ (' ' ≤ separator ∨ Json.isBlank separator = true) := by decide
  exact absurd (legal separator member)

theorem metadata_injective (lawful : Lawful numbers)
    (same : event.metadata numbers = other.metadata numbers) : event = other := by
  obtain ⟨tool, tokens, cost, hint⟩ := event
  obtain ⟨tool', tokens', cost', hint'⟩ := other
  simp only [SavingsEvent.metadata, SavingsEvent.fields, Json.object.injEq, List.cons_append,
    List.nil_append, List.cons.injEq,
    Prod.mk.injEq, true_and, Json.string.injEq, Json.number.injEq] at same
  obtain ⟨rfl, counts, costs, hints⟩ := same
  have first := lawful.toInt_ofInt tokens
  rw [counts, lawful.toInt_ofInt] at first
  have second := lawful.toFloat_ofFloat cost
  rw [costs, lawful.toFloat_ofFloat] at second
  cases first
  cases second
  cases hint <;> cases hint' <;> simp at hints ⊢
  exact hints

theorem append_separator_inj {first second front back : List Char} (none_first : separator ∉ front)
    (none_second : separator ∉ back)
    (same : first ++ separator :: front = second ++ separator :: back) : front = back := by
  have reversed := congrArg List.reverse same
  simp only [List.reverse_append, List.reverse_cons, List.append_assoc, List.cons_append,
    List.nil_append] at reversed
  have plain : ∀ text : List Char, separator ∉ text → ∀ c ∈ text.reverse, decide (c ≠ separator) = true := by
    intro text absent c member
    apply decide_eq_true
    rintro rfl
    exact absent (List.mem_reverse.mp member)
  have taken := congrArg (List.takeWhile fun c => decide (c ≠ separator)) reversed
  rw [List.takeWhile_append_of_pos (plain front none_first),
    List.takeWhile_append_of_pos (plain back none_second)] at taken
  simp only [ne_eq, not_true_eq_false, decide_false, Bool.false_eq_true, not_false_eq_true,
    List.takeWhile_cons_of_neg, List.append_nil] at taken
  exact List.reverse_injective taken

theorem event_of_hash (collisionFree : Function.Injective sha256) (lawful : Lawful numbers)
    {sessionId sessionId' : String}
    (same : (event.row numbers sha256 sessionId).contentHash =
      (other.row numbers sha256 sessionId').contentHash) : event = other := by
  have texts := collisionFree same
  rw [if_neg dumps_ne_nil, if_neg dumps_ne_nil] at texts
  have printed := @append_separator_inj (companionSavings.toList ++ separator :: event.content numbers)
    (companionSavings.toList ++ separator :: other.content numbers) _ _ separator_notMem separator_notMem (by simpa using texts)
  have read := @loads_metadata _ _ _ numbers event
  rw [printed, loads_metadata] at read
  exact (metadata_injective lawful (Option.some.inj read)).symm

end Events

section Runs
variable {N F Hash : Type} [Numerals N] [DecidableEq F] [DecidableEq Hash] (numbers : Numbers N F)
  (sha256 : List Char → Hash)

/-- The events of the calls with their sessions, each once. -/
def happened (calls : List (SavingsCall F)) : List (String × SavingsEvent F) :=
  calls.foldl (fun seen call => if (call.sessionId, call.event numbers) ∈ seen then seen
    else seen ++ [(call.sessionId, call.event numbers)]) []

def recordAll (before : List (Entry Hash)) (calls : List (SavingsCall F)) : List (Entry Hash) :=
  calls.foldl (fun entries call => recordSavings numbers sha256 call entries) before

def NoSavings (before : List (Entry Hash)) : Prop := ∀ entry ∈ before, entry.entryType ≠ companionSavings

variable {numbers sha256}

omit [Numerals N] [DecidableEq Hash] in
theorem happened_concat (calls : List (SavingsCall F)) (call : SavingsCall F) :
    happened numbers (calls ++ [call]) =
    if (call.sessionId, call.event numbers) ∈ happened numbers calls then happened numbers calls
    else happened numbers calls ++ [(call.sessionId, call.event numbers)] := by
  rw [happened, List.foldl_append]
  rfl

omit [Numerals N] [DecidableEq Hash] in
theorem happened_nodup (calls : List (SavingsCall F)) : (happened numbers calls).Nodup := by
  induction calls using List.reverseRecOn with
  | nil => exact List.nodup_nil
  | append_singleton calls call ih =>
    rw [happened_concat]
    split
    next => exact ih
    next fresh =>
      exact List.nodup_append.mpr ⟨ih, List.nodup_singleton _, fun a there b here same => fresh (by
      rw [List.mem_singleton.mp here] at same
      exact same ▸ there)⟩

omit [Numerals N] [DecidableEq Hash] in
theorem mem_happened {calls : List (SavingsCall F)} {sessionId : String} {event : SavingsEvent F} :
    (sessionId, event) ∈ happened numbers calls ↔ ∃ call ∈ calls, call.sessionId = sessionId ∧
      call.event numbers = event := by
  induction calls using List.reverseRecOn with
  | nil => simp [happened]
  | append_singleton calls call ih =>
    have last : (∃ other ∈ calls ++ [call], other.sessionId = sessionId ∧ other.event numbers = event) ↔
        (sessionId, event) ∈ happened numbers calls ∨
            (call.sessionId = sessionId ∧ call.event numbers = event) := by
      rw [ih]
      simp only [List.mem_append, List.mem_singleton, or_and_right, exists_or, exists_eq_left]
    rw [last, happened_concat]
    split
    next seen =>
      refine ⟨.inl, fun either => ?_⟩
      rcases either with there | ⟨rfl, rfl⟩
      · exact there
      · exact seen
    next => simp [Prod.ext_iff, eq_comm]

/-- The new rows of the table are those of the events. -/
theorem recordAll_eq (collisionFree : Function.Injective sha256) (lawful : Lawful numbers)
    {before : List (Entry Hash)} (fresh : NoSavings before)
    (calls : List (SavingsCall F)) :
    recordAll numbers sha256 before calls = before ++ (happened numbers calls).map fun pair =>
      pair.2.row numbers sha256 pair.1 := by
  induction calls using List.reverseRecOn with
  | nil => exact (List.append_nil before).symm
  | append_singleton calls call ih =>
    have step : recordAll numbers sha256 before (calls ++ [call]) =
        recordSavings numbers sha256 call (recordAll numbers sha256 before calls) := by
      simp only [recordAll, List.foldl_append, List.foldl_cons, List.foldl_nil]
    have old : before.any (fun entry => decide (entry.sessionId = call.sessionId ∧
      entry.entryType = companionSavings ∧
        entry.contentHash = ((call.event numbers).row numbers sha256 call.sessionId).contentHash)) = false := by
      rw [List.any_eq_false]
      intro entry member alike
      exact fresh entry member (of_decide_eq_true alike).2.1
    have found : (before ++ (happened numbers calls).map fun pair =>
        pair.2.row numbers sha256 pair.1).any (fun entry =>
        decide (entry.sessionId = call.sessionId ∧ entry.entryType = companionSavings ∧
          entry.contentHash = ((call.event numbers).row numbers sha256 call.sessionId).contentHash)) = true ↔
        (call.sessionId, call.event numbers) ∈ happened numbers calls := by
      rw [List.any_append, old, Bool.false_or, List.any_map, List.any_eq_true]
      constructor
      · rintro ⟨⟨sessionId, event⟩, there, alike⟩
        obtain ⟨session, _, hash⟩ := of_decide_eq_true alike
        rw [← event_of_hash collisionFree lawful hash, ← show sessionId = call.sessionId from session]
        exact there
      · intro there
        exact ⟨_, there, decide_eq_true ⟨rfl, rfl, rfl⟩⟩
    rw [step, recordSavings_eq, ih, happened_concat]
    by_cases seen : (call.sessionId, call.event numbers) ∈ happened numbers calls
    · rw [if_pos (found.mpr seen), if_pos seen]
    · rw [if_neg (fun there => seen (found.mp there)), if_neg seen, List.map_append, ← List.append_assoc]
      rfl

def distinctEvents (numbers : Numbers N F) (sessionId : String) (calls : List (SavingsCall F)) :
    List (SavingsEvent F) :=
  ((calls.filter fun call => decide (call.sessionId = sessionId)).map (SavingsCall.event numbers)).dedup

omit [Numerals N] [DecidableEq Hash] in
theorem sessionEvents_perm (calls : List (SavingsCall F)) (sessionId : String) :
    (((happened numbers calls).filter fun pair =>
      decide (pair.1 = sessionId)).map Prod.snd).Perm (distinctEvents numbers sessionId calls) := by
  apply (List.perm_ext_iff_of_nodup _ (List.nodup_dedup _)).mpr
  · intro event
    simp only [List.mem_map, List.mem_filter, decide_eq_true_eq, Prod.exists, exists_eq_right, List.mem_dedup]
    constructor
    · intro there
      obtain ⟨call, made, same, kept⟩ := mem_happened.mp there
      exact ⟨call, ⟨made, same⟩, kept⟩
    · rintro ⟨call, ⟨made, same⟩, kept⟩
      exact mem_happened.mpr ⟨call, made, same, kept⟩
  · apply List.Nodup.map_on _ ((happened_nodup calls).filter _)
    rintro ⟨session, event⟩ here ⟨session', event'⟩ there same
    have first := of_decide_eq_true (List.mem_filter.mp here).2
    have second := of_decide_eq_true (List.mem_filter.mp there).2
    exact Prod.ext (first.trans second.symm) same

end Runs

section Totals
variable {N F : Type} [Numerals N] {numbers : Numbers N F}

def onTool (savings : Savings F) (tool : String) : Option (Int × Nat) :=
  (savings.byTool.get tool).map fun bucket => (bucket.tokensAvoided, bucket.events)

theorem tally_event (lawful : Lawful numbers) (savings : Savings F) (event : SavingsEvent F) :
    ∃ after, tally numbers savings ((event.metadata numbers).dumps style) = some after ∧
      after.tokensAvoided = savings.tokensAvoided + event.tokens ∧
      onTool after event.tool = some (((onTool savings event.tool).getD (0, 0)).1 + event.tokens,
        ((onTool savings event.tool).getD (0, 0)).2 + 1) ∧
      ∀ tool, tool ≠ event.tool → onTool after tool = onTool savings tool := by
  have tokens : reading numbers.toInt 0 (some (.number (numbers.ofInt event.tokens))) =
      some event.tokens := by
    rw [reading]
    split
    · exact lawful.toInt_ofInt event.tokens
    next zero =>
      have nothing : Numerals.isZero (numbers.ofInt event.tokens) = true := by simpa [Json.truthy] using zero
      rw [lawful.zero_of_isZero _ nothing]
  obtain ⟨cost, costs⟩ : ∃ cost,
      reading numbers.toFloat numbers.zero (some (.number (numbers.ofFloat event.cost))) =
      some cost := by
    rw [reading]
    split
    · exact ⟨_, lawful.toFloat_ofFloat event.cost⟩
    · exact ⟨_, rfl⟩
  have entries : ((event.fields numbers).lookup "tool" = some (.string event.tool)) ∧
      ((event.fields numbers).lookup "tokens_avoided" = some (.number (numbers.ofInt event.tokens))) ∧
      ((event.fields numbers).lookup "cost_avoided_usd" =
          some (.number (numbers.ofFloat event.cost))) :=
        ⟨rfl, rfl, rfl⟩
  obtain ⟨tool, amount, price⟩ := entries
  rw [tally, if_neg dumps_ne_nil, loads_metadata]
  simp only [SavingsEvent.metadata, tool, amount, price, tokens, costs, toolOf, Option.bind_eq_bind,
    Option.bind_some]
  refine ⟨_, rfl, rfl, ?_, ?_⟩
  · rw [onTool, Dict.get_set_self, onTool]
    cases savings.byTool.get event.tool <;> rfl
  · intro tool apart
    rw [onTool, Dict.get_set_of_ne apart, onTool]

theorem tally_events (lawful : Lawful numbers) (events : List (SavingsEvent F)) (savings : Savings F) :
    ∃ after, (events.map fun event =>
      (event.metadata numbers).dumps style).foldlM (tally numbers) savings = some after ∧
      after.tokensAvoided = savings.tokensAvoided + (events.map SavingsEvent.tokens).sum ∧
      ∀ tool, onTool after tool =
        if (events.filter fun event => decide (event.tool = tool)) = [] then onTool savings tool
        else some (((onTool savings tool).getD (0, 0)).1 +
          ((events.filter fun event => decide (event.tool = tool)).map SavingsEvent.tokens).sum,
          ((onTool savings tool).getD (0, 0)).2 + (events.filter fun event => decide (event.tool = tool)).length) := by
  induction events generalizing savings with
  | nil => exact ⟨savings, rfl, by simp, by simp⟩
  | cons event events ih =>
    obtain ⟨next, tallied, total, own, others⟩ := tally_event lawful savings event
    obtain ⟨after, rest, sum, byTool⟩ := ih next
    refine ⟨after, ?_, ?_, ?_⟩
    · rw [List.map_cons, List.foldlM_cons, tallied]
      exact rest
    · rw [sum, total, List.map_cons, List.sum_cons]
      omega
    · intro tool
      rw [byTool tool]
      by_cases named : event.tool = tool
      · subst named
        simp only [decide_true, List.filter_cons_of_pos, List.map_cons, List.sum_cons,
          List.length_cons, own, Option.getD_some]
        split
        next nothing => simp [nothing]
        next =>
          simp only [List.cons_ne_nil, if_false]
          congr 2 <;> omega
      · rw [List.filter_cons_of_neg (by simpa using named), others tool (Ne.symm named)]

end Totals

section Claims
variable {N F Hash : Type} [Numerals N] [DecidableEq F] [DecidableEq Hash] {numbers : Numbers N F}
  {sha256 : List Char → Hash}

omit [DecidableEq F] [DecidableEq Hash] in
theorem filter_rows (pairs : List (String × SavingsEvent F)) (sessionId : String) :
    ((pairs.map fun pair => pair.2.row numbers sha256 pair.1).filter fun entry =>
      decide (entry.sessionId = sessionId ∧ entry.entryType = companionSavings)).map Entry.metadataJson =
      ((pairs.filter fun pair => decide (pair.1 = sessionId)).map Prod.snd).map fun event =>
          (event.metadata numbers).dumps style := by
  rw [List.filter_map, List.map_map, List.map_map]
  have test : ((fun entry : Entry Hash => decide (entry.sessionId = sessionId ∧
    entry.entryType = companionSavings)) ∘
      fun pair : String × SavingsEvent F => pair.2.row numbers sha256 pair.1) = fun pair => decide (pair.1 = sessionId) := by
    funext pair
    simp [SavingsEvent.row]
  rw [test]
  rfl

/-- The report adds up the distinct events among the calls of the session. -/
theorem savings_of_distinct_events (collisionFree : Function.Injective sha256)
    (lawful : Lawful numbers) {before : List (Entry Hash)}
    (fresh : NoSavings before) (calls : List (SavingsCall F)) (sessionId : String) :
    ∃ savings, sessionSavings numbers sessionId (recordAll numbers sha256 before calls) = some savings ∧
      savings.tokensAvoided = ((distinctEvents numbers sessionId calls).map SavingsEvent.tokens).sum ∧
      ∀ tool, onTool savings tool =
        if ((distinctEvents numbers sessionId calls).filter fun event =>
          decide (event.tool = tool)) = [] then none
        else some ((((distinctEvents numbers sessionId calls).filter fun event => decide (event.tool = tool)).map SavingsEvent.tokens).sum,
          ((distinctEvents numbers sessionId calls).filter fun event => decide (event.tool = tool)).length) := by
  have perm := @sessionEvents_perm _ _ _ numbers calls sessionId
  obtain ⟨savings, tallied, total, byTool⟩ := tally_events lawful
    (((happened numbers calls).filter fun pair => decide (pair.1 = sessionId)).map Prod.snd)
      (noSavings numbers)
  refine ⟨{ savings with costAvoidedUsd := numbers.round savings.costAvoidedUsd }, ?_, ?_, ?_⟩
  · have old : (before.filter fun entry => decide (entry.sessionId = sessionId ∧
        entry.entryType = companionSavings)) = [] := by
      rw [List.filter_eq_nil_iff]
      intro entry member ours
      exact fresh entry member (of_decide_eq_true ours).2
    rw [sessionSavings, recordAll_eq collisionFree lawful fresh, List.filter_append, old,
      List.nil_append, filter_rows, tallied]
    rfl
  · rw [← (perm.map SavingsEvent.tokens).sum_eq]
    exact total.trans (zero_add _)
  · intro tool
    have own := perm.filter fun event => decide (event.tool = tool)
    refine (byTool tool).trans ?_
    rw [(own.map SavingsEvent.tokens).sum_eq, own.length_eq]
    by_cases none_there : ((distinctEvents numbers sessionId calls).filter fun event =>
      decide (event.tool = tool)) = []
    · rw [if_pos none_there, if_pos (by rw [none_there] at own; exact own.eq_nil)]
      rfl
    · rw [if_neg none_there, if_neg (by
        intro nothing
        rw [nothing] at own
        exact none_there own.symm.eq_nil)]
      simp [onTool, noSavings, Dict.get, Dict.empty]

end Claims

section Examples
open Core.Contracts

def wholeNumbers : Numbers (Number Int) Int where
  ofInt n := .int n
  ofFloat x := .float x
  toInt
    | .number (.int n) => some n
    | _ => none
  toFloat
    | .number (.float x) => some x
    | _ => none
  clip cost := max 0 cost
  zero := 0
  add first second := first + second
  round cost := cost
  content tool tokens cost :=
    tool.toList ++ ": -".toList ++ Numerals.print tokens ++ " tokens (~$".toList ++
      Numerals.print cost ++ [')']

theorem wholeNumbers_lawful : Lawful wholeNumbers := by
  refine ⟨fun _ => rfl, fun _ => rfl, ?_⟩
  intro n zero
  have either : (Number.int n : Number Int) = .int 0 ∨ (Number.int n : Number Int) = .float 0 :=
    of_decide_eq_true zero
  simpa using either

def pruned (tokens : Int) : SavingsCall Int := ⟨"s", "prune_context", tokens, 0, none⟩

def repeatedCalls : List (SavingsCall Int) := [pruned 100, pruned 100, pruned 250]

theorem repeatedCalls_savings :
    ∃ savings, sessionSavings wholeNumbers "s" (recordAll wholeNumbers id [] repeatedCalls) =
    some savings ∧
    savings.tokensAvoided = 350 := by
  obtain ⟨savings, reported, total, _⟩ := savings_of_distinct_events Function.injective_id wholeNumbers_lawful
    (show NoSavings ([] : List (Entry (List Char))) by simp [NoSavings]) repeatedCalls "s"
  exact ⟨savings, reported, total.trans (by decide +kernel)⟩

/-- Two calls that save a hundred tokens each are reported as one. -/
theorem equal_calls_collapse :
    ((sessionSavings wholeNumbers "s" (recordAll wholeNumbers id [] [pruned 100, pruned 100])).map Savings.tokensAvoided) = some 100 ∧
      ([pruned 100, pruned 100].map fun call => max 0 call.tokensAvoided).sum = 200 := by
  decide +kernel

end Examples

end TokenPak.Companion.JournalStore
