import TokenPak.Companion.RecallStore
import TokenPak.Library.Keyset

/-! Following the cursors of the recall store lists every row once, in order. -/

namespace TokenPak.Companion.RecallStore
open Library StableSort Keyset
variable {row : PakRow} {paks : List PakRow} {project pakType : Option String} {updatedAt pakId : String}

section Cursors

theorem utf8Decode_utf8 (text : String) : utf8Decode (utf8 text) = some text := by
  have bytes : (⟨(utf8 text).toArray⟩ : ByteArray) = text.toByteArray := by simp [utf8]
  rw [utf8Decode, bytes, String.fromUTF8?, dif_pos text.isValidUTF8]
  rfl

theorem splitOnce_cursor (plain : cursorSep ∉ updatedAt.toList) :
    splitOnce (updatedAt ++ String.singleton cursorSep ++ pakId).toList = some (updatedAt.toList,
      pakId.toList) := by
  have apart : ∀ c ∈ updatedAt.toList, decide (c ≠ cursorSep) = true := by
    intro c member
    apply decide_eq_true
    rintro rfl
    exact plain member
  have parts : (updatedAt ++ String.singleton cursorSep ++ pakId).toList = updatedAt.toList ++
      cursorSep :: pakId.toList := by
    simp
  rw [splitOnce, parts, List.dropWhile_append_of_pos apart, List.takeWhile_append_of_pos apart]
  simp

theorem encodeCursor_ne_empty (updatedAt pakId : String) : encodeCursor updatedAt pakId ≠ "" := by
  have some_byte : utf8 (updatedAt ++ String.singleton cursorSep ++ pakId) ≠ [] := by
    intro nothing
    have bytes : (updatedAt ++ String.singleton cursorSep ++ pakId).toByteArray = "".toByteArray := by
      apply ByteArray.ext
      exact Array.toList_inj.mp nothing
    have text := congrArg String.toList (String.toByteArray_inj.mp bytes)
    simp at text
  intro nothing
  have chars := congrArg String.toList nothing
  rw [encodeCursor, String.toList_ofList] at chars
  exact Base64.stripPads_ne_nil some_byte chars

theorem decodeCursor_encodeCursor (plain : cursorSep ∉ updatedAt.toList) :
    decodeCursor (encodeCursor updatedAt pakId) = .ok (updatedAt, pakId) := by
  have chars : (encodeCursor updatedAt pakId).toList =
      Base64.stripPads (Base64.encode (utf8 (updatedAt ++ String.singleton cursorSep ++ pakId))) :=
        String.toList_ofList
  have ascii : ((encodeCursor updatedAt pakId).toList.any fun c => decide (c.toNat ≥ 128)) = false := by
    rw [List.any_eq_false]
    intro c member
    rw [chars, Base64.stripPads, List.mem_reverse] at member
    have bound := Base64.encode_ascii _ c (List.mem_reverse.mp ((List.dropWhile_sublist _).subset member))
    simpa using bound
  rw [decodeCursor, if_neg (encodeCursor_ne_empty updatedAt pakId), ascii, chars,
    Base64.decode_unpadded, Option.bind_some, utf8Decode_utf8]
  dsimp only
  rw [if_neg Bool.false_ne_true, splitOnce_cursor plain]
  simp

end Cursors

section Pages

def matching (project pakType : Option String) (paks : List PakRow) : List PakRow :=
  paks.filter fun row => matchesFilters project pakType row

def keyTime (key : ListKey) : String := (ofLex (OrderDual.ofDual key)).1

def keyId (key : ListKey) : String := (ofLex (OrderDual.ofDual key)).2

def cursorOf (key : ListKey) : String := encodeCursor (keyTime key) (keyId key)

theorem givenCursor_cursorOf {key : ListKey} (plain : cursorSep ∉ (keyTime key).toList) :
    givenCursor (some (cursorOf key)) = .ok (some (keyTime key, keyId key)) := by
  rw [givenCursor, cursorOf, if_neg (encodeCursor_ne_empty _ _), decodeCursor_encodeCursor plain]
  rfl

/-- The condition of the query is the order of the listing. -/
theorem beyondCursor_iff {bound : Option ListKey} :
    beyondCursor (bound.map fun key => (keyTime key, keyId key)) row =
      decide (Behind PakRow.key bound row) := by
  cases bound with
  | none => simp [beyondCursor, Behind]
  | some key =>
    have order : key < row.key ↔ row.updatedAt < keyTime key ∨ row.updatedAt = keyTime key ∧
        row.pakId < keyId key := by
      rw [← OrderDual.ofDual_lt_ofDual, Prod.Lex.lt_iff]
      rfl
    simp only [Option.map_some, beyondCursor, Behind, Option.mem_def, Option.some.injEq, forall_eq', order]

theorem effectiveLimit_pos (limit : Option Int) : 0 < effectiveLimit limit := by
  unfold effectiveLimit
  cases limit with
  | none => decide
  | some number =>
    dsimp only
    have bounds : 0 < listLimitDefault ∧ 0 < listLimitMax := by decide
    split <;> omega

theorem cutPage_eq {items : List PakRow} {bound : Option ListKey} {limit : Nat} :
    ∃ truncated, cutPage limit ((window PakRow.key items bound).take (limit + 1)) =
      ⟨(page PakRow.key items bound limit).1, (page PakRow.key items bound limit).2.map cursorOf,
          limit, truncated⟩ := by
  refine ⟨decide (((window PakRow.key items bound).take (limit + 1)).length > limit), ?_⟩
  rw [cutPage, page]
  by_cases full : ((window PakRow.key items bound).take (limit + 1)).length > limit
  · simp only [full, decide_true, if_true, Option.map_map]
    rfl
  · simp only [full, decide_false, if_false, Bool.false_eq_true]
    rfl

theorem listPaks_eq (limit : Option Int) {bound : Option ListKey}
    (plain : ∀ key ∈ bound, cursorSep ∉ (keyTime key).toList) :
    ∃ truncated, listPaks paks ⟨project, pakType, limit, bound.map cursorOf⟩ =
      .ok ⟨(page PakRow.key (matching project pakType paks) bound (effectiveLimit limit)).1,
        (page PakRow.key (matching project pakType paks) bound (effectiveLimit limit)).2.map cursorOf, effectiveLimit limit, truncated⟩ := by
  have cursor : givenCursor (bound.map cursorOf) = .ok (bound.map fun key => (keyTime key, keyId key)) := by
    cases bound with
    | none => rfl
    | some key => exact givenCursor_cursorOf (plain key rfl)
  have found : ((paks.filter fun row => matchesFilters project pakType row).filter fun row =>
      beyondCursor (bound.map fun key => (keyTime key, keyId key)) row) =
      (matching project pakType paks).filter fun row => decide (Behind PakRow.key bound row) :=
    List.filter_congr fun row _ => beyondCursor_iff
  obtain ⟨truncated, made⟩ := @cutPage_eq (matching project pakType paks) bound (effectiveLimit limit)
  refine ⟨truncated, ?_⟩
  rw [listPaks, cursor, ← made]
  dsimp only [Except.map]
  rw [found]
  rfl

/-- Following the cursors is paging through the matching rows. -/
theorem followCursors_eq (visits : List (List PakRow × Option Int)) {bound : Option ListKey}
    (plain : ∀ key ∈ bound, cursorSep ∉ (keyTime key).toList)
    (times : ∀ visit ∈ visits, ∀ row ∈ visit.1, cursorSep ∉ row.updatedAt.toList) :
    followCursors project pakType visits (bound.map cursorOf) =
      .ok ((pages PakRow.key (visits.map fun visit => (matching project pakType visit.1, effectiveLimit visit.2)) bound).1,
        (pages PakRow.key (visits.map fun visit => (matching project pakType visit.1, effectiveLimit visit.2)) bound).2.map cursorOf) := by
  induction visits generalizing bound with
  | nil => rfl
  | cons visit visits ih =>
    obtain ⟨here, times⟩ := List.forall_mem_cons.mp times
    obtain ⟨truncated, listed⟩ := @listPaks_eq visit.1 project pakType visit.2 _ plain
    rw [List.map_cons, pages, followCursors, listed]
    rcases Nat.lt_or_ge (effectiveLimit visit.2)
      (window PakRow.key (matching project pakType visit.1) bound).length with long | short
    · obtain ⟨front, last, back, split, _, made⟩ := page_of_lt (effectiveLimit_pos visit.2) long
      have member : last ∈ visit.1 := by
        have inside : last ∈ window PakRow.key (matching project pakType visit.1) bound := by
          rw [split]
          simp
        exact List.mem_of_mem_filter (mem_window.mp inside).1
      have plain_last : ∀ key ∈ some last.key, cursorSep ∉ (keyTime key).toList := by
        rintro _ ⟨⟩
        exact here last member
      have next := ih plain_last times
      rw [made]
      simp only [Option.map_some] at next ⊢
      change (followCursors project pakType visits (some (cursorOf last.key))).bind _ = _
      rw [next]
      rfl
    · rw [page_of_le short]
      rfl

end Pages

def NewestFirst (rows : List PakRow) : Prop :=
  rows.Pairwise fun first second => second.updatedAt < first.updatedAt ∨ (second.updatedAt = first.updatedAt ∧ second.pakId < first.pakId)

/-- A table with the ids as a key; the times have no separator, as none has in the format of the store. -/
structure Table (paks : List PakRow) : Prop where
  unique : (paks.map PakRow.pakId).Nodup
  times : ∀ row ∈ paks, cursorSep ∉ row.updatedAt.toList

theorem Table.keys (table : Table paks) : ((matching project pakType paks).map PakRow.key).Nodup := by
  have ids : ((matching project pakType paks).map PakRow.pakId).Nodup :=
    (List.filter_sublist.map _).nodup table.unique
  have again : (((matching project pakType paks).map PakRow.key).map keyId).Nodup := by
    rw [List.map_map]
    exact ids
  exact again.of_map

/-- Keyset pagination loses and repeats nothing: with one table every matching row is listed, in
order, and the cursors come to an end; with tables that change, a matching row that stays is listed
once. -/
theorem listing_complete (project pakType : Option String) :
    (∀ paks, Table paks → ∀ limits : List (Option Int), (matching project pakType paks).length <
      limits.length →
      ∃ listed, followCursors project pakType (limits.map fun limit => (paks, limit)) none =
        .ok (listed, none) ∧
        listed.flatten.Perm (matching project pakType paks) ∧ NewestFirst listed.flatten) ∧
      ∀ visits : List (List PakRow × Option Int), (∀ visit ∈ visits, Table visit.1) → ∃ listed left,
        followCursors project pakType visits none = .ok (listed, left) ∧
          ∀ row, matchesFilters project pakType row = true → (∀ visit ∈ visits, row ∈ visit.1) →
            listed.flatten.count row ≤ 1 ∧ (left = none → visits ≠ [] → listed.flatten.count row = 1) := by
  constructor
  · intro paks table limits enough
    have shape : ((limits.map fun limit => (paks, limit)).map fun visit =>
      (matching project pakType visit.1, effectiveLimit visit.2)) =
        (limits.map effectiveLimit).map fun limit => (matching project pakType paks, limit) := by
      simp
    have short : (window PakRow.key (matching project pakType paks) none).length <
        (limits.map effectiveLimit).length := by
      rw [window_all, sortBy_perm.length_eq, List.length_map]
      exact enough
    obtain ⟨listed, ended⟩ := @pages_fixed _ _ _ PakRow.key (matching project pakType paks) none table.keys (limits.map effectiveLimit) (by
      intro limit member
      obtain ⟨given, _, rfl⟩ := List.mem_map.mp member
      exact effectiveLimit_pos given) short
    have followed := @followCursors_eq project pakType (limits.map fun limit => (paks, limit)) none
      (by simp) (by
        intro visit member
        obtain ⟨limit, _, rfl⟩ := List.mem_map.mp member
        exact table.times)
    rw [shape, ended] at followed
    refine ⟨_, followed, ?_, ?_⟩
    · rw [listed, window_all]
      exact sortBy_perm
    · rw [listed]
      apply (window_strict table.keys).imp
      intro first second less
      rw [← OrderDual.ofDual_lt_ofDual, Prod.Lex.lt_iff] at less
      exact less
  · intro visits tables
    have followed :=
      @followCursors_eq project pakType visits none (by simp) fun visit member =>
        (tables visit member).times
    refine ⟨_, _, followed, ?_⟩
    intro row fits stays
    have counted := (@count_pages _ _ _ PakRow.key _ none row
      (visits.map fun visit => (matching project pakType visit.1, effectiveLimit visit.2)) (by
        intro paged member
        obtain ⟨visit, given, rfl⟩ := List.mem_map.mp member
        exact (tables visit given).keys) (by
        intro paged member
        obtain ⟨visit, _, rfl⟩ := List.mem_map.mp member
        exact effectiveLimit_pos visit.2) (by
        intro paged member
        obtain ⟨visit, given, rfl⟩ := List.mem_map.mp member
        exact List.mem_filter.mpr ⟨stays visit given, fits⟩)).2 (by simp [Behind])
    refine ⟨counted.1, ?_⟩
    intro ended some_visit
    exact counted.2 (Option.map_eq_none_iff.mp ended) (by simpa using some_visit)

section Examples

def samplePak (pakId : String) : PakRow :=
  ⟨pakId, "memory", none, none, "note", "user", "a title", "", "0", "2026-01-01T00:00:00Z",
    "2026-01-01T00:00:00Z", none⟩

/-- Two rows of one time, one with a separator in its id. -/
def samplePaks : List PakRow := [samplePak "a|b", samplePak "c"]

theorem samplePaks_listed :
    ∃ listed, followCursors none none [(samplePaks, some 1), (samplePaks, some 1),
    (samplePaks, none)] none = .ok (listed, none) ∧
    listed.flatten.Perm samplePaks := by
  have table : Table samplePaks := ⟨by decide, by decide +kernel⟩
  obtain ⟨listed, followed, all, _⟩ :=
    (listing_complete none none).1 samplePaks table [some 1, some 1, none] (by decide +kernel)
  exact ⟨listed, followed, all⟩

end Examples

end TokenPak.Companion.RecallStore
