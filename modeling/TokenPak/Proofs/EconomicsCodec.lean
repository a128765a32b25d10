import TokenPak.Core.EconomicsText
import TokenPak.Library.JsonText

/-! A payload is read back from its text. A record finds each of its fields in the sorted object
under the same key, and the checks that it passed when it was built are passed again. Texts are
printed for every payload whose integers are not too long. -/

namespace TokenPak.Core.Contracts
open Library

namespace Value
variable {F : Type} {entries : List (String × Value F)}

theorem sortedEntries_eq (entries : List (String × Value F)) :
    sortedEntries entries = entries.map fun entry => (entry.1, sorted entry.2) := by
  induction entries with
  | nil => rfl
  | cons entry entries ih => rw [sortedEntries, ih, List.map_cons]

theorem keys_sortedEntries : (sortedEntries entries).map Prod.fst = entries.map Prod.fst := by
  rw [sortedEntries_eq, List.map_map]
  rfl

theorem sorted_dict (entries : List (String × Value F)) (distinct : (entries.map Prod.fst).Nodup) :
    ∃ data, (dict entries).sorted = .dict data ∧ ∀ key,
      data.lookup key = (entries.lookup key).map sorted := by
  have perm := (sortedEntries entries).perm_insertionSort fun first second => first.1 ≤ second.1
  have unique : ((sortedEntries entries).map Prod.fst).Nodup := by
    rw [keys_sortedEntries]
    exact distinct
  refine ⟨_, rfl, fun key => ?_⟩
  rw [← lookup_perm unique perm.symm, sortedEntries_eq, lookup_map_values]

theorem fitsEntries_eq (printable : Int → Bool) (entries : List (String × Value F)) :
    fitsEntries printable entries = entries.all fun entry => entry.2.fits printable := by
  induction entries with
  | nil => rfl
  | cons entry entries ih => rw [fitsEntries, ih, List.all_cons]

mutual
theorem fits_sorted (printable : Int → Bool) :
    (value : Value F) → value.sorted.fits printable = value.fits printable
  | .null | .bool _ | .number _ | .str _ | .surrogates _ => by simp [sorted]
  | .list items => by rw [sorted, fits, fits, fitsItems_sorted printable items]
  | .dict entries => by
    have perm := (sortedEntries entries).perm_insertionSort fun first second => first.1 ≤ second.1
    rw [sorted, fits, fits, fitsEntries_eq, perm.all_eq, ← fitsEntries_eq,
      fitsEntries_sorted printable entries]

theorem fitsItems_sorted (printable : Int → Bool) : (items : List (Value F)) →
    fitsItems printable (sortedItems items) = fitsItems printable items
  | [] => rfl
  | item :: items => by rw [sortedItems, fitsItems, fitsItems, fits_sorted printable item, fitsItems_sorted printable items]

theorem fitsEntries_sorted (printable : Int → Bool) : (entries : List (String × Value F)) →
    fitsEntries printable (sortedEntries entries) = fitsEntries printable entries
  | [] => rfl
  | (_, value) :: entries => by
    rw [sortedEntries, fitsEntries, fitsEntries, fits_sorted printable value,
      fitsEntries_sorted printable entries]
end

/-- A value that is printed, and read back with its keys in order. -/
def Coded (value : Value F) : Prop := ∃ json :
    Json (Number F), json.Proper ∧ value.sorted.encode = some json ∧ ofJson json = value.sorted

theorem coded_null : Coded (null : Value F) := ⟨.null, trivial, rfl, rfl⟩

theorem coded_bool (value : Bool) : Coded (bool value : Value F) := ⟨.bool value, trivial, rfl, rfl⟩

theorem coded_number (value : Number F) : Coded (number value) := ⟨.number value, trivial, rfl, rfl⟩

theorem coded_str (text : String) : Coded (str text : Value F) := ⟨.string text, trivial, rfl, rfl⟩

theorem encodeEntries_of_coded {entries : List (String × Value F)}
    (parts : ∀ entry ∈ entries, ∃ json : Json (Number F), json.Proper ∧ entry.2.encode = some json ∧
      ofJson json = entry.2) :
    ∃ jsons, encodeEntries entries = some jsons ∧ jsons.map Prod.fst = entries.map Prod.fst ∧
      Json.ProperEntries jsons ∧
      ofEntries jsons = entries := by
  induction entries with
  | nil => exact ⟨[], rfl, rfl, trivial, rfl⟩
  | cons entry entries ih =>
    obtain ⟨key, value⟩ := entry
    obtain ⟨json, proper, encoded, back⟩ := parts (key, value) List.mem_cons_self
    obtain ⟨jsons, all, keys, others, backs⟩ :=
      ih fun entry there => parts entry (List.mem_cons_of_mem _ there)
    refine ⟨(key, json) :: jsons, ?_, ?_, ⟨proper, others⟩, ?_⟩
    · simp only [encodeEntries, encoded, all]
      rfl
    · rw [List.map_cons, List.map_cons, keys]
    · rw [ofEntries, backs, back]

theorem coded_dict (distinct : (entries.map Prod.fst).Nodup)
    (parts : ∀ entry ∈ entries, Coded entry.2) : Coded (dict entries) := by
  have perm := (sortedEntries entries).perm_insertionSort fun first second => first.1 ≤ second.1
  have all : ∀ entry ∈ (sortedEntries entries).insertionSort fun first second => first.1 ≤ second.1,
      ∃ json : Json (Number F), json.Proper ∧ entry.2.encode = some json ∧ ofJson json = entry.2 := by
    intro entry there
    rw [perm.mem_iff, sortedEntries_eq] at there
    obtain ⟨part, held, rfl⟩ := List.mem_map.mp there
    exact parts part held
  obtain ⟨jsons, encoded, keys, proper, back⟩ := encodeEntries_of_coded all
  refine ⟨.object jsons, ⟨?_, proper⟩, ?_, ?_⟩
  · rw [keys, (perm.map Prod.fst).nodup_iff, keys_sortedEntries]
    exact distinct
  · rw [sorted, encode, encoded]
    rfl
  · rw [ofJson, back, sorted]

end Value

section Parts
variable {F : Type} {builtins : Builtins F}

@[simp] theorem ok_bind {α β : Type} (value : α) (next : α → Except Raised β) :
    (Except.ok value >>= next) = next value :=
  rfl

theorem construct_of_ok {R : Type} {check : Except Raised Unit} {build : check = .ok () → R}
    (passed : check = .ok ()) :
    construct check build = .ok (build passed) := by
  subst passed
  rfl

@[simp] theorem sorted_encodeEnum {E : Type} [Enumeration E] (member : E) :
    (encodeEnum member : Value F).sorted = encodeEnum member := by
  simp [encodeEnum, Value.sorted]

@[simp] theorem enum_encodeEnum {E : Type} [Enumeration E] (member : E) (path : String) :
    enum E (encodeEnum member : Value F) path = .ok member := by
  simp only [enum, encodeEnum, Enumeration.find_label member]

theorem coded_encodeEnum {E : Type} [Enumeration E] (member : E) :
    (encodeEnum member : Value F).Coded :=
  Value.coded_str _

/-- What is read for a text that is left out when it is empty. -/
def shown (text : String) : Option (Value F) := if text = "" then none else some (.str text)

variable {texts : List (String × String)} {value : Value F}

theorem lookup_present (distinct : (texts.map Prod.fst).Nodup) (key : String) :
    (present texts : List (String × Value F)).lookup key = (texts.lookup key).bind shown := by
  induction texts with
  | nil => rfl
  | cons entry texts ih =>
    obtain ⟨first, text⟩ := entry
    rw [List.map_cons, List.nodup_cons] at distinct
    have others := ih distinct.2
    by_cases same : key = first
    · subst same
      have gone : texts.lookup key = none := by
        rw [List.lookup_eq_none_iff]
        intro entry there
        exact bne_iff_ne.mpr fun same => distinct.1 (List.mem_map.mpr ⟨entry, there, same.symm⟩)
      rw [gone] at others
      by_cases empty : text = ""
      · simpa [present, shown, empty] using others
      · simp [present, shown, empty]
    · have apart : (key == first) = false := beq_eq_false_iff_ne.mpr same
      rw [List.lookup_cons, apart, ← others]
      by_cases empty : text = ""
      · simp [present, empty]
      · simp [present, empty, List.lookup_cons, apart]

theorem keys_present (texts : List (String × String)) :
    ((present texts : List (String × Value F)).map Prod.fst).Sublist (texts.map Prod.fst) := by
  rw [present, List.map_map]
  exact List.filter_sublist.map Prod.fst

theorem distinct_present {entries : List (String × Value F)}
    (distinct : (entries.map Prod.fst ++ texts.map Prod.fst).Nodup) :
    ((entries ++ present texts).map Prod.fst).Nodup := by
  rw [List.map_append]
  exact distinct.sublist ((List.Sublist.refl _).append (keys_present texts))

theorem sorted_fields (entries : List (String × Value F)) (texts : List (String × String))
    (distinct : (entries.map Prod.fst ++ texts.map Prod.fst).Nodup) :
    ∃ data, (Value.dict (entries ++ present texts)).sorted = .dict data ∧
      ∀ key, data.lookup key =
          ((entries.lookup key).or ((texts.lookup key).bind shown)).map Value.sorted := by
  obtain ⟨data, same, reads⟩ := Value.sorted_dict _ (distinct_present distinct)
  refine ⟨data, same, fun key => ?_⟩
  rw [reads, List.lookup_append, lookup_present (List.nodup_append.mp distinct).2.1]

theorem coded_present {entry : String × Value F} (there : entry ∈ present texts) :
    entry.2.Coded := by
  obtain ⟨text, _, rfl⟩ := List.mem_map.mp there
  exact Value.coded_str _

theorem coded_fields {entries : List (String × Value F)}
    (distinct : (entries.map Prod.fst ++ texts.map Prod.fst).Nodup)
    (parts : ∀ entry ∈ entries, entry.2.Coded) :
    (Value.dict (entries ++ present texts)).Coded := by
  apply Value.coded_dict (distinct_present distinct)
  intro entry there
  rcases List.mem_append.mp there with fixed | text
  · exact parts entry fixed
  · exact coded_present text

theorem inputString_shown {data : List (String × Value F)} {key path text : String}
    (found : data.lookup key = (shown text).map Value.sorted) : inputString data key path "" = .ok text := by
  unfold shown at found
  split at found
  next empty => simp [inputString, found, empty]
  next => simp [inputString, found, Value.sorted, string]

theorem number_ok {path : String} {result : Number F}
    (read : number builtins value path = .ok result) : value = .number result := by
  unfold number at read
  split at read
  · split at read
    · cases read
    · split at read
      · cases read
      · cases read
        rfl
  · split at read
    · cases read
    · cases read
      rfl
  · cases read
  · cases read

theorem isNull_iff : value.isNull = true ↔ value = .null := by
  cases value <;> simp [Value.isNull]

def Measured (value : Value F) : Prop := value = .null ∨ ∃ amount, value = .number amount

theorem Measured.coded (measured : Measured value) : value.Coded := by
  rcases measured with rfl | ⟨amount, rfl⟩
  · exact Value.coded_null
  · exact Value.coded_number amount

theorem Measured.sorted (measured : Measured value) : value.sorted = value := by
  rcases measured with rfl | ⟨amount, rfl⟩ <;> simp [Value.sorted]

def Texted (value : Value F) : Prop := value = .null ∨ ∃ text, value = .str text

theorem Texted.coded (texted : Texted value) : value.Coded := by
  rcases texted with rfl | ⟨text, rfl⟩
  · exact Value.coded_null
  · exact Value.coded_str text

theorem Texted.sorted (texted : Texted value) : value.sorted = value := by
  rcases texted with rfl | ⟨text, rfl⟩ <;> simp [Value.sorted]

end Parts

namespace NumericValue
variable {F : Type} {builtins : Builtins F}

theorem carries (value : NumericValue builtins) :
    value.state.hasValue = true ∧ (∃ amount, value.value = .number amount) ∨
      value.state.hasValue = false ∧ value.value = .null := by
  have checked := value.checked
  cases has : value.state.hasValue with
  | false =>
    simp only [checkNumericValue, has, Bool.false_eq_true, if_false, except_bind_ok, ensure_ok] at checked
    obtain ⟨_, _, _, _, _, _, _, _, _, null, _⟩ := checked
    exact .inr ⟨rfl, isNull_iff.mp null⟩
  | true =>
    simp only [checkNumericValue, has, if_true, except_bind_ok] at checked
    obtain ⟨_, _, _, _, _, _, _, _, amount, read, _⟩ := checked
    exact .inl ⟨rfl, amount, number_ok read⟩

theorem measured (value : NumericValue builtins) : Measured value.value := by
  rcases value.carries with ⟨_, number⟩ | ⟨_, null⟩
  · exact .inr number
  · exact .inl null

theorem coded (value : NumericValue builtins) : value.toDict.Coded := by
  apply coded_fields (by simp)
  simp [coded_encodeEnum, value.measured.coded]

theorem reads_back (value : NumericValue builtins) : fromDict builtins value.toDict.sorted = .ok value := by
  obtain ⟨data, same, reads⟩ :=
    sorted_fields (F := F) [("state", encodeEnum value.state), ("value", value.value)]
    [("source", value.source), ("confidence", value.confidence), ("reason", value.reason),
      ("unit", value.unit)] (by simp)
  have state : get data "state" = encodeEnum value.state := by simp [get, reads]
  have carried : get data "value" = value.value := by
    simp [get, reads, List.lookup_cons, value.measured.sorted]
  have source (path : String) : inputString data "source" path "" = .ok value.source :=
    inputString_shown (by simp [reads, List.lookup_cons])
  have confidence (path : String) : inputString data "confidence" path "" = .ok value.confidence :=
    inputString_shown (by simp [reads, List.lookup_cons])
  have reason (path : String) : inputString data "reason" path "" = .ok value.reason :=
    inputString_shown (by simp [reads, List.lookup_cons])
  have unit (path : String) : inputString data "unit" path "" = .ok value.unit :=
    inputString_shown (by simp [reads, List.lookup_cons])
  rw [toDict, same]
  simp only [fromDict, asMapping, ok_bind, state, enum_encodeEnum, source, confidence, reason, unit]
  rw [construct_of_ok (by rw [carried]; exact value.checked)]
  simp only [carried]

end NumericValue

namespace RateProvenance
variable {F : Type} {builtins : Builtins F}

theorem texted {value : Value F} {name : String} {result : Unit}
    (checked : provenanceText builtins value name = .ok result) :
    Texted value := by
  cases value with
  | null => exact .inl rfl
  | str text => exact .inr ⟨text, rfl⟩
  | bool _ | number _ | surrogates _ | list _ | dict _ => cases checked

theorem texts (provenance : RateProvenance builtins) :
    Texted provenance.catalogVersion ∧ Texted provenance.effectiveAt ∧ Texted provenance.source := by
  have checked := provenance.checked
  simp only [checkRateProvenance, except_bind_ok] at checked
  obtain ⟨_, catalog, _, effective, _, source, _⟩ := checked
  exact ⟨texted catalog, texted effective, texted source⟩

theorem coded (provenance : RateProvenance builtins) : provenance.toDict.Coded := by
  obtain ⟨catalog, effective, source⟩ := provenance.texts
  apply Value.coded_dict (by simp)
  simp [coded_encodeEnum, catalog.coded, effective.coded, source.coded]

theorem reads_back (provenance : RateProvenance builtins) :
    fromDict builtins provenance.toDict.sorted = .ok provenance := by
  obtain ⟨catalog, effective, source⟩ := provenance.texts
  obtain ⟨data, same, reads⟩ := Value.sorted_dict (F := F) [("catalog_version", provenance.catalogVersion),
    ("effective_at", provenance.effectiveAt), ("source", provenance.source), ("freshness", encodeEnum provenance.freshness)] (by simp)
  have catalogRead : get data "catalog_version" = provenance.catalogVersion := by
    simp [get, reads, catalog.sorted]
  have effectiveRead : get data "effective_at" = provenance.effectiveAt := by
    simp [get, reads, List.lookup_cons, effective.sorted]
  have sourceRead : get data "source" = provenance.source := by
    simp [get, reads, List.lookup_cons, source.sorted]
  have freshness : freshnessOf data = .ok provenance.freshness := by
    simp [freshnessOf, reads, List.lookup_cons]
  rw [toDict, same]
  simp only [fromDict, Value.isNull, Bool.false_eq_true, if_false, asMapping, ok_bind, freshness]
  rw [construct_of_ok (by rw [catalogRead, effectiveRead, sourceRead]; exact provenance.checked)]
  simp only [catalogRead, effectiveRead, sourceRead]

end RateProvenance

namespace CostValue
variable {F : Type} {builtins : Builtins F}

theorem carries (cost : CostValue builtins) :
    cost.state.hasValue = true ∧ (∃ amount, cost.value = .number amount) ∨
      cost.state.hasValue = false ∧ cost.value = .null := by
  have checked := cost.checked
  cases has : cost.state.hasValue with
  | false =>
    simp only [checkCostValue, has, Bool.false_eq_true, if_false, except_bind_ok, ensure_ok] at checked
    obtain ⟨_, _, _, _, _, null, _⟩ := checked
    exact .inr ⟨rfl, isNull_iff.mp null⟩
  | true =>
    simp only [checkCostValue, has, if_true, except_bind_ok] at checked
    obtain ⟨_, _, _, _, amount, read, _⟩ := checked
    exact .inl ⟨rfl, amount, number_ok read⟩

theorem measured (cost : CostValue builtins) : Measured cost.value := by
  rcases cost.carries with ⟨_, number⟩ | ⟨_, null⟩
  · exact .inr number
  · exact .inl null

theorem coded (cost : CostValue builtins) : cost.toDict.Coded := by
  apply coded_fields (by simp)
  simp [coded_encodeEnum, cost.measured.coded, cost.rateProvenance.coded]

theorem reads_back (cost : CostValue builtins) : fromDict builtins cost.toDict.sorted = .ok cost := by
  obtain ⟨data, same, reads⟩ :=
    sorted_fields (F := F) [("state", encodeEnum cost.state), ("value", cost.value),
    ("basis", encodeEnum cost.basis), ("rate_provenance", cost.rateProvenance.toDict)]
    [("source", cost.source), ("reason", cost.reason)] (by simp)
  have state : get data "state" = encodeEnum cost.state := by simp [get, reads]
  have carried : get data "value" = cost.value := by simp [get, reads, List.lookup_cons, cost.measured.sorted]
  have basis : basisOf data = .ok cost.basis := by simp [basisOf, reads, List.lookup_cons]
  have provenance : get data "rate_provenance" = cost.rateProvenance.toDict.sorted := by
    simp [get, reads, List.lookup_cons]
  have source (path : String) : inputString data "source" path "" = .ok cost.source :=
    inputString_shown (by simp [reads, List.lookup_cons])
  have reason (path : String) : inputString data "reason" path "" = .ok cost.reason :=
    inputString_shown (by simp [reads, List.lookup_cons])
  rw [toDict, same]
  simp only [fromDict, asMapping, ok_bind, state, enum_encodeEnum, basis, source, reason, provenance,
    cost.rateProvenance.reads_back]
  rw [construct_of_ok (by rw [carried]; exact cost.checked)]
  simp only [carried]

end CostValue

namespace SessionFacts
variable {F : Type} {builtins : Builtins F}

theorem coded (facts : SessionFacts builtins) : facts.toDict.Coded := by
  apply Value.coded_dict (by simp)
  simp [NumericValue.coded, CostValue.coded]

theorem reads_back (facts : SessionFacts builtins) : fromDict builtins facts.toDict.sorted = .ok facts := by
  obtain ⟨data, same, reads⟩ := Value.sorted_dict (F := F) [("input_tokens", facts.inputTokens.toDict),
    ("output_tokens", facts.outputTokens.toDict), ("cache_read_tokens", facts.cacheReadTokens.toDict),
    ("cache_write_tokens", facts.cacheWriteTokens.toDict), ("cost_usd", facts.costUsd.toDict)] (by simp)
  rw [toDict, same]
  simp [fromDict, asMapping, get, reads, List.lookup_cons, NumericValue.reads_back, CostValue.reads_back,
    construct_of_ok facts.checked]

end SessionFacts

namespace RecordedUsage
variable {F : Type} {builtins : Builtins F}

theorem count_ok {value : Value F} {text : String} {result : Nat} (read : count value text = .ok result) :
    value = .number (.int result) := by
  unfold count at read
  split at read
  next n =>
    split at read
    · cases read
    next natural =>
      cases read
      rw [Int.toNat_of_nonneg (not_lt.mp natural)]
  · cases read

theorem counts (usage : RecordedUsage builtins) : ∃ observed total failed :
    Nat, usage.requestsObserved = .number (.int observed) ∧
    usage.requestsTotal = .number (.int total) ∧ usage.failedRequests = .number (.int failed) := by
  have checked := usage.checked
  simp only [checkRecordedUsage, except_bind_ok] at checked
  obtain ⟨observed, first, total, second, failed, third, _⟩ := checked
  exact ⟨observed, total, failed, count_ok first, count_ok second, count_ok third⟩

theorem coded (usage : RecordedUsage builtins) : usage.toDict.Coded := by
  obtain ⟨observed, total, failed, first, second, third⟩ := usage.counts
  apply Value.coded_dict (by simp)
  simp [first, second, third, Value.coded_number, usage.facts.coded]

theorem reads_back (usage : RecordedUsage builtins) : fromDict builtins usage.toDict.sorted = .ok usage := by
  obtain ⟨observed, total, failed, first, second, third⟩ := usage.counts
  obtain ⟨data, same, reads⟩ := Value.sorted_dict (F := F) [("requests_observed", usage.requestsObserved),
    ("requests_total", usage.requestsTotal), ("failed_requests", usage.failedRequests), ("facts", usage.facts.toDict)] (by simp)
  have observedRead : get data "requests_observed" = usage.requestsObserved := by
    simp [get, reads, first, Value.sorted]
  have totalRead : get data "requests_total" = usage.requestsTotal := by
    simp [get, reads, List.lookup_cons, second, Value.sorted]
  have failedRead : get data "failed_requests" = usage.failedRequests := by
    simp [get, reads, List.lookup_cons, third, Value.sorted]
  have facts : get data "facts" = usage.facts.toDict.sorted := by simp [get, reads, List.lookup_cons]
  rw [toDict, same]
  simp only [fromDict, asMapping, ok_bind, facts, usage.facts.reads_back]
  rw [construct_of_ok (by rw [observedRead, totalRead, failedRead]; exact usage.checked)]
  simp only [observedRead, totalRead, failedRead]

end RecordedUsage

namespace ModelRef
variable {F : Type} {builtins : Builtins F}

theorem coded (model : ModelRef builtins) : model.toDict.Coded := by
  apply Value.coded_dict (by simp)
  simp [Value.coded_str]

theorem reads_back (model : ModelRef builtins) : fromDict builtins model.toDict.sorted = .ok model := by
  obtain ⟨data, same, reads⟩ :=
    Value.sorted_dict (F := F) [("id", .str model.id), ("effort", .str model.effort)] (by simp)
  rw [toDict, same]
  simp [fromDict, asMapping, inputString, reads, List.lookup_cons, Value.sorted, string,
    construct_of_ok model.checked]

end ModelRef

namespace SessionRef
variable {F : Type} {builtins : Builtins F}

theorem identity (session : SessionRef builtins) : Texted session.id := by
  have checked := session.checked
  simp only [checkSessionRef, except_bind_ok] at checked
  obtain ⟨_, _, _, identified, _⟩ := checked
  cases id : session.id with
  | null => exact .inl rfl
  | str text => exact .inr ⟨text, rfl⟩
  | bool _ | number _ | surrogates _ | list _ | dict _ =>
    rw [id] at identified
    cases identified

theorem coded (session : SessionRef builtins) : session.toDict.Coded := by
  apply coded_fields (by simp)
  simp [session.identity.coded, coded_encodeEnum, Value.coded_number, session.model.coded]

theorem reads_back (session : SessionRef builtins) :
    fromDict builtins session.toDict.sorted = .ok session := by
  obtain ⟨data, same, reads⟩ := sorted_fields (F := F) [("id", session.id),
    ("identity_state", encodeEnum session.identityState),
      ("turns_observed", .number (.int session.turnsObserved)),
    ("model", session.model.toDict)] [("reason", session.reason)] (by simp)
  have id : get data "id" = session.id := by simp [get, reads, session.identity.sorted]
  have state : get data "identity_state" = encodeEnum session.identityState := by
    simp [get, reads, List.lookup_cons]
  have turns (text : String) : integer (get data "turns_observed") text = .ok session.turnsObserved := by
    simp [get, reads, List.lookup_cons, Value.sorted, integer]
  have model : get data "model" = session.model.toDict.sorted := by simp [get, reads, List.lookup_cons]
  have reason (path : String) : inputString data "reason" path "" = .ok session.reason :=
    inputString_shown (by simp [reads, List.lookup_cons])
  rw [toDict, same]
  simp only [fromDict, asMapping, ok_bind, turns, state, enum_encodeEnum, model,
    session.model.reads_back, reason]
  rw [construct_of_ok (by rw [id]; exact session.checked)]
  simp only [id]

end SessionRef

namespace SessionState
variable {F : Type} {builtins : Builtins F}

theorem coded (state : SessionState builtins) : state.toDict.Coded := by
  apply Value.coded_dict (by simp)
  simp [NumericValue.coded, coded_encodeEnum]

theorem reads_back (state : SessionState builtins) : fromDict builtins state.toDict.sorted = .ok state := by
  obtain ⟨data, same, reads⟩ := Value.sorted_dict (F := F) [("context_tokens", state.contextTokens.toDict),
    ("base_tokens", state.baseTokens.toDict), ("context_growth_ewma", state.contextGrowthEwma.toDict),
    ("burn_tokens_per_turn", state.burnTokensPerTurn.toDict),
      ("burn_usd_per_turn", state.burnUsdPerTurn.toDict),
    ("burn_slope", encodeEnum state.burnSlope), ("idle_seconds", state.idleSeconds.toDict),
    ("cache_ttl_seconds", state.cacheTtlSeconds.toDict), ("cache_state", encodeEnum state.cacheState)] (by simp)
  rw [toDict, same]
  simp [fromDict, asMapping, get, reads, List.lookup_cons, NumericValue.reads_back,
    construct_of_ok state.checked]

end SessionState

namespace Runway
variable {F : Type} {builtins : Builtins F}

theorem carries (runway : Runway builtins) :
    runway.status = .available ∧ (∃ turns : Nat, runway.turns = .number (.int turns)) ∨
    runway.status ≠ .available ∧ runway.turns = .null := by
  have checked := runway.checked
  simp only [checkRunway, except_bind_ok] at checked
  obtain ⟨_, _, _, counted, _⟩ := checked
  unfold checkRunwayTurns at counted
  split at counted
  next available =>
    obtain ⟨turns, read, _⟩ := except_bind_ok.mp counted
    exact .inl ⟨available, turns, RecordedUsage.count_ok read⟩
  next other => exact .inr ⟨other, isNull_iff.mp (ensure_ok.mp counted)⟩

theorem measured (runway : Runway builtins) : Measured runway.turns := by
  rcases runway.carries with ⟨_, turns, number⟩ | ⟨_, null⟩
  · exact .inr ⟨_, number⟩
  · exact .inl null

theorem coded (runway : Runway builtins) : runway.toDict.Coded := by
  apply coded_fields (by simp)
  simp [coded_encodeEnum, runway.measured.coded]

theorem reads_back (runway : Runway builtins) : fromDict builtins runway.toDict.sorted = .ok runway := by
  obtain ⟨data, same, reads⟩ :=
    sorted_fields (F := F) [("status", encodeEnum runway.status), ("turns", runway.turns),
    ("binding_constraint", encodeEnum runway.bindingConstraint), ("guard_state", encodeEnum runway.guardState)]
    [("reason", runway.reason)] (by simp)
  have status : get data "status" = encodeEnum runway.status := by simp [get, reads]
  have turns : get data "turns" = runway.turns := by
    simp [get, reads, List.lookup_cons, runway.measured.sorted]
  have binding : get data "binding_constraint" = encodeEnum runway.bindingConstraint := by
    simp [get, reads, List.lookup_cons]
  have guard : get data "guard_state" = encodeEnum runway.guardState := by simp [get, reads, List.lookup_cons]
  have reason (path : String) : inputString data "reason" path "" = .ok runway.reason :=
    inputString_shown (by simp [reads, List.lookup_cons])
  rw [toDict, same]
  simp only [fromDict, asMapping, ok_bind, status, binding, guard, enum_encodeEnum, reason]
  rw [construct_of_ok (by rw [turns]; exact runway.checked)]
  simp only [turns]

end Runway

namespace IntervalEstimate
variable {F : Type} {builtins : Builtins F}

theorem carries (interval : IntervalEstimate builtins) :
    interval.state = .estimated ∧ (∃ low high, interval.low = .number low ∧ interval.high = .number high) ∨
      interval.state ≠ .estimated ∧ interval.low = .null ∧ interval.high = .null := by
  have checked := interval.checked
  simp only [checkIntervalEstimate, except_bind_ok] at checked
  obtain ⟨_, _, _, _, _, _, _, bounded, _⟩ := checked
  unfold checkIntervalBounds at bounded
  split at bounded
  next estimated =>
    simp only [except_bind_ok] at bounded
    obtain ⟨low, lowRead, high, highRead, _⟩ := bounded
    exact .inl ⟨estimated, low, high, number_ok lowRead, number_ok highRead⟩
  next other =>
    obtain ⟨low, high⟩ := ensure_ok.mp bounded
    exact .inr ⟨other, isNull_iff.mp low, isNull_iff.mp high⟩

theorem measured (interval : IntervalEstimate builtins) : Measured interval.low ∧ Measured interval.high := by
  rcases interval.carries with ⟨_, low, high, lowRead, highRead⟩ | ⟨_, low, high⟩
  · exact ⟨.inr ⟨low, lowRead⟩, .inr ⟨high, highRead⟩⟩
  · exact ⟨.inl low, .inl high⟩

theorem coded (interval : IntervalEstimate builtins) : interval.toDict.Coded := by
  apply coded_fields (by simp)
  simp [coded_encodeEnum, interval.measured.1.coded, interval.measured.2.coded]

theorem reads_back (interval : IntervalEstimate builtins) :
    fromDict builtins interval.toDict.sorted = .ok interval := by
  obtain ⟨data, same, reads⟩ :=
    sorted_fields (F := F) [("state", encodeEnum interval.state), ("low", interval.low),
    ("high", interval.high)] [("source", interval.source), ("reason", interval.reason), ("unit", interval.unit)] (by simp)
  have state : get data "state" = encodeEnum interval.state := by simp [get, reads]
  have low : get data "low" = interval.low := by
    simp [get, reads, List.lookup_cons, interval.measured.1.sorted]
  have high : get data "high" = interval.high := by
    simp [get, reads, List.lookup_cons, interval.measured.2.sorted]
  have source (path : String) : inputString data "source" path "" = .ok interval.source :=
    inputString_shown (by simp [reads, List.lookup_cons])
  have reason (path : String) : inputString data "reason" path "" = .ok interval.reason :=
    inputString_shown (by simp [reads, List.lookup_cons])
  have unit (path : String) : inputString data "unit" path "" = .ok interval.unit :=
    inputString_shown (by simp [reads, List.lookup_cons])
  rw [toDict, same]
  simp only [fromDict, asMapping, ok_bind, state, enum_encodeEnum, source, reason, unit]
  rw [construct_of_ok (by rw [low, high]; exact interval.checked)]
  simp only [low, high]

end IntervalEstimate

namespace Coverage
variable {F : Type} {builtins : Builtins F}

theorem texted (coverage : Coverage builtins) : Texted coverage.method := by
  have checked := coverage.checked
  simp only [checkCoverage, except_bind_ok] at checked
  obtain ⟨_, named, _⟩ := checked
  cases method : coverage.method with
  | null => exact .inl rfl
  | str text => exact .inr ⟨text, rfl⟩
  | bool _ | number _ | surrogates _ | list _ | dict _ =>
    rw [method] at named
    cases named

theorem measured (coverage : Coverage builtins) : Measured coverage.observed := by
  have checked := coverage.checked
  simp only [checkCoverage, except_bind_ok] at checked
  obtain ⟨_, _, _, shared, _⟩ := checked
  cases observed : coverage.observed with
  | null => exact .inl rfl
  | number share => exact .inr ⟨share, rfl⟩
  | bool _ | str _ | surrogates _ | list _ | dict _ =>
    rw [observed] at shared
    cases shared

theorem coded (coverage : Coverage builtins) : coverage.toDict.Coded := by
  apply Value.coded_dict (by simp)
  simp [coverage.texted.coded, coverage.measured.coded, Value.coded_number, coded_encodeEnum]

theorem reads_back (coverage : Coverage builtins) :
    fromDict builtins coverage.toDict.sorted = .ok coverage := by
  obtain ⟨data, same, reads⟩ :=
    Value.sorted_dict (F := F) [("method", coverage.method), ("observed", coverage.observed),
    ("history_n", .number (.int coverage.historyN)), ("drift_state", encodeEnum coverage.driftState)] (by simp)
  have method : get data "method" = coverage.method := by simp [get, reads, coverage.texted.sorted]
  have observed : get data "observed" = coverage.observed := by
    simp [get, reads, List.lookup_cons, coverage.measured.sorted]
  have history (text : String) :
      SessionRef.integer ((data.lookup "history_n").getD (.number (.int 0))) text =
          .ok coverage.historyN := by
    simp [reads, List.lookup_cons, Value.sorted, SessionRef.integer]
  have drift : driftOf data = .ok coverage.driftState := by simp [driftOf, reads, List.lookup_cons]
  rw [toDict, same]
  simp only [fromDict, asMapping, ok_bind, history, drift]
  rw [construct_of_ok (by rw [method, observed]; exact coverage.checked)]
  simp only [method, observed]

end Coverage

namespace Forecast
variable {F : Type} {builtins : Builtins F}

theorem coded (forecast : Forecast builtins) : forecast.toDict.Coded := by
  apply coded_fields (by simp)
  simp [coded_encodeEnum, IntervalEstimate.coded, NumericValue.coded, Coverage.coded]

theorem reads_back (forecast : Forecast builtins) :
    fromDict builtins forecast.toDict.sorted = .ok forecast := by
  obtain ⟨data, same, reads⟩ := sorted_fields (F := F) [("status", encodeEnum forecast.status),
    ("remaining_tokens_likely_50", forecast.remainingTokensLikely50.toDict),
    ("remaining_tokens_ceiling_90", forecast.remainingTokensCeiling90.toDict),
    ("remaining_cost_usd_likely_50", forecast.remainingCostUsdLikely50.toDict),
    ("remaining_cost_usd_ceiling_90", forecast.remainingCostUsdCeiling90.toDict),
      ("expected_turns", forecast.expectedTurns.toDict),
    ("coverage", forecast.coverage.toDict), ("predicted_block_probability", forecast.predictedBlockProbability.toDict)]
    [("reason", forecast.reason)] (by simp)
  have reason (path : String) : inputString data "reason" path "" = .ok forecast.reason :=
    inputString_shown (by simp [reads, List.lookup_cons])
  rw [toDict, same]
  simp [fromDict, asMapping, reason, get, reads, List.lookup_cons, IntervalEstimate.reads_back,
    NumericValue.reads_back,
    Coverage.reads_back, construct_of_ok forecast.checked]

end Forecast

namespace TimeForecastGate
variable {F : Type}

theorem coded (gate : TimeForecastGate) : (gate.toDict : Value F).Coded := by
  apply Value.coded_dict (by simp)
  simp [Value.coded_bool]

theorem reads_back (gate : TimeForecastGate) : fromDict (gate.toDict : Value F).sorted = .ok gate := by
  obtain ⟨data, same, reads⟩ := Value.sorted_dict (F := F) [("sedr_014_landed", .bool gate.sedr014Landed),
    ("calibration_evidence_published", .bool gate.calibrationEvidencePublished),
    ("inputs_verified_timing_facts_only", .bool gate.inputsVerifiedTimingFactsOnly)] (by simp)
  rw [toDict, same]
  simp [fromDict, asMapping, get, reads, List.lookup_cons, Value.sorted, boolean, pure, Except.pure]

end TimeForecastGate

namespace TimeForecastCell
variable {F : Type} {builtins : Builtins F}

theorem coded (cell : TimeForecastCell builtins) : cell.toDict.Coded := by
  apply Value.coded_dict (by simp)
  simp [Value.coded_str, coded_encodeEnum]

theorem reads_back (cell : TimeForecastCell builtins) : fromDict builtins cell.toDict.sorted = .ok cell := by
  obtain ⟨data, same, reads⟩ :=
    Value.sorted_dict (F := F) [("model", .str cell.model), ("effort", .str cell.effort),
    ("stream_mode", encodeEnum cell.streamMode)] (by simp)
  have mode : streamModeOf data = .ok cell.streamMode := by simp [streamModeOf, reads, List.lookup_cons]
  rw [toDict, same]
  simp [fromDict, asMapping, inputString, reads, List.lookup_cons, Value.sorted, string, mode,
    construct_of_ok cell.checked]

end TimeForecastCell

namespace TimeForecast
variable {F : Type} {builtins : Builtins F}

theorem coded_optional {Part : Type} {toDict : Part → Value F} (coded : ∀ part, (toDict part).Coded)
    (part : Option Part) :
    ((part.map toDict).getD .null).Coded := by
  cases part with
  | none => exact Value.coded_null
  | some part => exact coded part

theorem optionally_sorted {Part : Type} {toDict : Part → Value F} {decode : Value F → Except Raised Part}
    (carries : ∀ part, (toDict part).sorted.isNull = false)
    (reads_back : ∀ part, decode (toDict part).sorted = .ok part)
    (part : Option Part) : optionally decode ((part.map toDict).getD .null).sorted = .ok part := by
  cases part with
  | none => simp [optionally, Value.sorted, Value.isNull]
  | some part => simp [optionally, carries, reads_back, Functor.map, Except.map]

theorem coded (forecast : TimeForecast builtins) : forecast.toDict.Coded := by
  apply Value.coded_dict (by simp)
  simp [coded_encodeEnum, Value.coded_str, coded_optional, IntervalEstimate.coded,
    NumericValue.coded, Coverage.coded,
    TimeForecastGate.coded, TimeForecastCell.coded]

theorem reads_back (forecast : TimeForecast builtins) :
    fromDict builtins forecast.toDict.sorted = .ok forecast := by
  obtain ⟨data, same, reads⟩ := Value.sorted_dict (F := F) [("status", encodeEnum forecast.status),
    ("basis", .str forecast.basis),
    ("remaining_time_likely_50_ms",
      (forecast.remainingTimeLikely50Ms.map IntervalEstimate.toDict).getD .null),
    ("remaining_time_ceiling_90_ms", (forecast.remainingTimeCeiling90Ms.map NumericValue.toDict).getD .null),
    ("coverage", forecast.coverage.toDict), ("gate", forecast.gate.toDict), ("cell", forecast.cell.toDict)] (by simp)
  have basis (path : String) : inputString data "basis" path "timing-facts-v1" = .ok forecast.basis := by
    simp [inputString, reads, List.lookup_cons, Value.sorted, string]
  have range : optionally (IntervalEstimate.fromDict builtins) (get data "remaining_time_likely_50_ms") =
      .ok forecast.remainingTimeLikely50Ms := by
    simp only [get, reads]
    apply optionally_sorted
    · intro interval
      simp [IntervalEstimate.toDict, Value.sorted, Value.isNull]
    · exact IntervalEstimate.reads_back
  have ceiling : optionally (NumericValue.fromDict builtins) (get data "remaining_time_ceiling_90_ms") =
      .ok forecast.remainingTimeCeiling90Ms := by
    simp only [get, reads]
    apply optionally_sorted
    · intro value
      simp [NumericValue.toDict, Value.sorted, Value.isNull]
    · exact NumericValue.reads_back
  rw [toDict, same]
  simp only [fromDict, asMapping, ok_bind, basis, range, ceiling]
  simp [get, reads, List.lookup_cons, Coverage.reads_back, TimeForecastGate.reads_back,
    TimeForecastCell.reads_back,
    construct_of_ok forecast.checked]

end TimeForecast

namespace SessionEconomics
variable {F : Type} {builtins : Builtins F}

/-- The entries of a payload, with the usage only when there is one. -/
def fields (payload : SessionEconomics builtins) : List (String × Value F) :=
  [("schema_version", .str schemaVersion), ("as_of", .str payload.asOf), ("session", payload.session.toDict),
    ("facts", payload.facts.toDict), ("state", payload.state.toDict), ("runway", payload.runway.toDict),
    ("forecast", payload.forecast.toDict), ("time_forecast", payload.timeForecast.toDict), ("advisory", .null)] ++
    (payload.recordedUsage.map fun usage => ("recorded_usage", usage.toDict)).toList

theorem distinct (payload : SessionEconomics builtins) : (payload.fields.map Prod.fst).Nodup := by
  unfold fields
  cases payload.recordedUsage <;> simp

theorem coded (payload : SessionEconomics builtins) : payload.toDict.Coded := by
  apply Value.coded_dict payload.distinct
  unfold fields
  cases payload.recordedUsage <;>
    simp [Value.coded_str, Value.coded_null, SessionRef.coded, SessionFacts.coded,
      SessionState.coded, Runway.coded, Forecast.coded,
      TimeForecast.coded, RecordedUsage.coded]

theorem reads_back (payload : SessionEconomics builtins) :
    fromDict builtins payload.toDict.sorted = .ok payload := by
  obtain ⟨data, same, reads⟩ := Value.sorted_dict _ payload.distinct
  have version : checkVersion builtins (get data "schema_version") = .ok () := by
    simp [get, reads, fields, Value.sorted, checkVersion]
  have advisory : checkAdvisory data = .ok () := by
    simp [checkAdvisory, reads, fields, List.lookup_cons, Value.sorted, Value.isNull]
  have asOf (path : String) : inputString data "as_of" path "" = .ok payload.asOf := by
    simp [inputString, reads, fields, List.lookup_cons, Value.sorted, string]
  have usage : optionally (RecordedUsage.fromDict builtins) (get data "recorded_usage") =
      .ok payload.recordedUsage := by
    have found : get data "recorded_usage" =
        ((payload.recordedUsage.map RecordedUsage.toDict).getD .null).sorted := by
      cases carried : payload.recordedUsage <;>
        simp [get, reads, fields, carried, List.lookup_cons, Value.sorted]
    rw [found]
    apply TimeForecast.optionally_sorted
    · intro usage
      simp [RecordedUsage.toDict, Value.sorted, Value.isNull]
    · exact RecordedUsage.reads_back
  change fromDict builtins (Value.dict payload.fields).sorted = _
  rw [same]
  simp only [fromDict, asMapping, ok_bind, version, advisory, asOf, usage]
  simp [get, reads, fields, List.lookup_cons, SessionRef.reads_back, SessionFacts.reads_back,
    SessionState.reads_back,
    Runway.reads_back, Forecast.reads_back, TimeForecast.reads_back, construct_of_ok payload.checked]

theorem read_toJson [Numerals (Number F)] {printable : Int → Bool} (payload : SessionEconomics builtins) :
    (payload.toJson printable >>= fromJson builtins printable) = .ok payload ↔
      payload.toDict.fits printable = true := by
  obtain ⟨json, proper, encoded, back⟩ := payload.coded
  rw [toJson, encoded]
  cases short : payload.toDict.fits printable with
  | false => simp [bind, Except.bind]
  | true =>
    have within : (Value.ofJson json).fits printable = true := by rw [back, Value.fits_sorted, short]
    simp only [if_true, ok_bind, fromJson, Json.loads_dumps proper, within, iff_true]
    rw [back]
    exact payload.reads_back

end SessionEconomics

end TokenPak.Core.Contracts
