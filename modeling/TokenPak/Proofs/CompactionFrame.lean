import Mathlib.Algebra.GroupWithZero.Nat
import TokenPak.Compression.Pipeline

/-! What the compaction leaves alone. The request that goes back to the adapter is the normalised
one but for texts in its older messages: of a compressible message only the text content and the
texts of its parts may change. -/

namespace TokenPak.Compression.Pipeline
open Library

section Statement
variable {N : Type}

/-- A part that has no text is the same; of one that has, only the text may change. -/
inductive PartKept : Json N → Json N → Prop where
  | same (part : Json N) : PartKept part part
  | text {entries others : List (String × Json N)} {old new : String} (rest : SameBut "text" entries others)
      (before : entries.lookup "text" = some (.string old))
        (after : others.lookup "text" = some (.string new)) :
      PartKept (.object entries) (.object others)

inductive ContentKept : Json N → Json N → Prop where
  | text (old new : String) : ContentKept (.string old) (.string new)
  | parts {parts others : List (Json N)} (each : List.Forall₂ PartKept parts others) : ContentKept (.array parts) (.array others)

inductive MessageKept : Json N → Json N → Prop where
  | same (message : Json N) : MessageKept message message
  | content {entries others : List (String × Json N)} {old new : Json N} (rest : SameBut "content" entries others)
      (before : entries.lookup "content" = some old) (after : others.lookup "content" = some new)
        (kept : ContentKept old new) :
      MessageKept (.object entries) (.object others)

def role : Json N → Option (Json N)
  | .object entries => entries.lookup "role"
  | _ => none

theorem MessageKept.role {before after : Json N} (kept : MessageKept before after) :
    role after = role before := by
  cases kept with
  | same => rfl
  | content rest => exact (rest.lookup (by decide)).symm

theorem roles_eq {messages others : List (Json N)} (kept : List.Forall₂ MessageKept messages others) :
    others.map role = messages.map role := by
  induction kept with
  | nil => rfl
  | cons first _ ih => rw [List.map_cons, List.map_cons, first.role, ih]

def LastUser (messages : List (Json N)) (i : Nat) : Prop :=
  (∃ message, messages[i]? = some message ∧ isUser message = true) ∧
    ∀ j message, i < j → messages[j]? = some message → isUser message = false

/-- The risk class of a message is one that the mode does not compress. -/
def Refused (mode : String) (message : Json N) : Prop :=
  ∃ entries risk, message = .object entries ∧ classifyMessageRisk entries = some risk ∧
    canCompress risk mode = false

/-- The messages at which the compaction may not touch anything. -/
def Spared (mode : String) (messages : List (Json N)) (i : Nat) (message : Json N) : Prop :=
  messages.length ≤ i + 2 ∨ LastUser messages i ∨ Refused mode message

structure Compacted (mode : String) (messages others : List (Json N)) : Prop where
  length : others.length = messages.length
  roles : others.map role = messages.map role
  kept : ∀ i before after, messages[i]? = some before → others[i]? = some after →
    MessageKept before after ∧ (Spared mode messages i before → after = before)

end Statement

section LastUser
variable {N : Type}

theorem lastUserIndex_concat (messages : List (Json N)) (message : Json N) :
    lastUserIndex (messages ++ [message]) =
    if isUser message then some messages.length else lastUserIndex messages := by
  simp [lastUserIndex, List.zipIdx_append]

theorem lastUserIndex_eq {messages : List (Json N)} {i : Nat} (last : LastUser messages i) :
    lastUserIndex messages = some i := by
  induction messages using List.reverseRecOn with
  | nil =>
    obtain ⟨⟨message, found, _⟩, _⟩ := last
    simp at found
  | append_singleton messages message ih =>
    obtain ⟨⟨own, found, user⟩, none⟩ := last
    rw [lastUserIndex_concat]
    rcases Nat.lt_trichotomy i messages.length with before | at_end | behind
    · have quiet : isUser message = false := none messages.length message before (by simp)
      rw [quiet]
      apply ih
      constructor
      · exact ⟨own, by rwa [List.getElem?_append_left before] at found, user⟩
      · intro j other later there
        have inside : j < messages.length := (List.getElem?_eq_some_iff.mp there).1
        exact none j other later (by rwa [List.getElem?_append_left inside])
    · subst at_end
      obtain rfl : message = own := by simpa using found
      rw [user]
      rfl
    · have short : i < (messages ++ [message]).length := (List.getElem?_eq_some_iff.mp found).1
      rw [List.length_append, List.length_singleton] at short
      omega

end LastUser

section Steps
variable {N Hash Body : Type} [DecidableEq Hash] {config : Config} {builtins : Builtins N Hash}
variable {i : Nat} {result : Json N} {tally after : Tally Hash}

theorem compactPart_kept {part : Json N}
    (made : compactPart config builtins i part tally = some (result, after)) :
    PartKept part result := by
  cases part with
  | object entries =>
    simp only [compactPart] at made
    split at made
    next text found =>
      simp only [Option.some.injEq, Prod.mk.injEq] at made
      obtain ⟨rfl, _⟩ := made
      exact .text (sameBut_replace ..) found (lookup_replace _ found)
    next =>
      simp only [Option.some.injEq, Prod.mk.injEq] at made
      obtain ⟨rfl, _⟩ := made
      exact .same _
  | _ =>
    simp only [compactPart, Option.some.injEq, Prod.mk.injEq] at made
    obtain ⟨rfl, _⟩ := made
    exact .same _

theorem compactContent_kept {entries : List (String × Json N)}
    (made : compactContent config builtins entries tally = some (result, after)) :
    MessageKept (.object entries) result := by
  simp only [compactContent] at made
  split at made
  next text found =>
    simp only [Option.some.injEq, Prod.mk.injEq] at made
    obtain ⟨rfl, _⟩ := made
    exact .content (sameBut_replace ..) found (lookup_replace _ found) (.text ..)
  next parts found =>
    rw [Option.map_eq_some_iff] at made
    obtain ⟨⟨others, last⟩, threaded, same⟩ := made
    simp only [Prod.mk.injEq] at same
    obtain ⟨rfl, _⟩ := same
    have each : List.Forall₂ PartKept parts others :=
      thread_forall₂ (fun _ _ _ _ _ => compactPart_kept) threaded
    exact .content (sameBut_replace ..) found (lookup_replace _ found) (.parts each)
  next =>
    simp only [Option.some.injEq, Prod.mk.injEq] at made
    obtain ⟨rfl, _⟩ := made
    exact .same _

omit [DecidableEq Hash] in
theorem passBy_same {entries : List (String × Json N)}
    (made : passBy builtins entries tally = some (result, after)) : result = .object entries := by
  rw [passBy, Option.map_eq_some_iff] at made
  obtain ⟨tokens, _, same⟩ := made
  exact (congrArg Prod.fst same).symm

/-- One turn of the loop: the message stays as it is, or it is behind neither bound and its class is
compressed. -/
theorem compactMessage_cases {keepFrom : Nat} {lastUser : Option Nat} {message : Json N}
    (made : compactMessage config builtins keepFrom lastUser i message tally = some (result, after)) :
    result = message ∨
      ∃ entries risk, message = .object entries ∧ i < keepFrom ∧
        ¬ (isUser message = true ∧ lastUser = some i) ∧
        classifyMessageRisk entries = some risk ∧ canCompress risk config.compilationMode = true ∧
        compactContent config builtins entries tally = some (result, after) := by
  cases message with
  | object entries =>
    simp only [compactMessage] at made
    split at made
    next recent =>
      left
      split at made
      next => simp at made
      next => exact passBy_same made
      next =>
        simp only [Option.some.injEq, Prod.mk.injEq] at made
        exact made.1.symm
    next older =>
      split at made
      next =>
        simp only [Option.some.injEq, Prod.mk.injEq] at made
        exact .inl made.1.symm
      next apart =>
        split at made
        next => simp at made
        next risk classified =>
          cases allowed : canCompress risk config.compilationMode with
          | true =>
            rw [allowed, if_pos rfl] at made
            exact .inr ⟨entries, risk, rfl, by omega, apart, classified, allowed, made⟩
          | false =>
            rw [allowed, if_neg (by decide)] at made
            exact .inl (passBy_same made)
  | _ =>
    simp only [compactMessage, Option.some.injEq, Prod.mk.injEq] at made
    exact .inl made.1.symm

theorem compactMessage_kept {keepFrom : Nat} {lastUser : Option Nat} {message : Json N}
    (made : compactMessage config builtins keepFrom lastUser i message tally = some (result,
      after)) : MessageKept message result := by
  rcases compactMessage_cases made with rfl | ⟨entries, _, rfl, _, _, _, _, changed⟩
  · exact .same _
  · exact compactContent_kept changed

theorem compactMessage_spared {messages : List (Json N)} {message : Json N}
    (found : messages[i]? = some message)
    (spared : Spared config.compilationMode messages i message)
    (made : compactMessage config builtins (messages.length - 2) (lastUserIndex messages) i message tally = some (result, after)) :
    result = message := by
  rcases compactMessage_cases made with same | ⟨entries, risk, rfl, older, apart, classified, allowed, _⟩
  · exact same
  · exfalso
    rcases spared with recent | last | ⟨own, class', same, known, refused⟩
    · omega
    · obtain ⟨own, there, user⟩ := last.1
      obtain rfl : .object entries = own := Option.some.inj (found.symm.trans there)
      exact apart ⟨user, lastUserIndex_eq last⟩
    · obtain rfl : entries = own := Json.object.inj same
      obtain rfl : risk = class' := Option.some.inj (classified.symm.trans known)
      rw [allowed] at refused
      cases refused

theorem compactMessages_compacted {canonical : CanonicalRequest N} {messages : List (Json N)}
    (made : compactMessages config builtins canonical tally = some (messages, after)) :
    Compacted config.compilationMode canonical.messages messages := by
  have kept : List.Forall₂ MessageKept canonical.messages messages :=
    thread_forall₂ (fun _ _ _ _ _ => compactMessage_kept) made
  obtain ⟨length, each⟩ := thread_each (P := fun i before after => MessageKept before after ∧
      (canonical.messages[i]? = some before → Spared config.compilationMode canonical.messages i before → after = before))
    (fun _ _ _ _ _ turn =>
      ⟨compactMessage_kept turn, fun found spared => compactMessage_spared found spared turn⟩) made
  constructor
  · exact length
  · exact roles_eq kept
  · intro i before after found there
    have known := each i before after found there
    rw [Nat.zero_add] at known
    exact ⟨known.1, known.2 found⟩

/-- The request that goes back to the adapter is the normalised one with compacted messages;
otherwise the body stays as it was. -/
theorem compaction_frame (adapter : FormatAdapter N Body) {body : Body}
    {cache after : CompactCache Hash} {outcome : Outcome Body}
    (done : compactRequestBody config builtins adapter body cache = some (outcome, after)) :
    outcome.body = body ∨
      ∃ canonical messages, adapter.normalize body = some canonical ∧
        adapter.denormalize { canonical with messages := messages } = some outcome.body ∧
        Compacted config.compilationMode canonical.messages messages := by
  simp only [compactRequestBody] at done
  split at done
  next =>
    rw [Option.map_eq_some_iff] at done
    obtain ⟨tokens, _, same⟩ := done
    simp only [Prod.mk.injEq] at same
    exact .inl (by rw [← same.1])
  next =>
    cases normal : adapter.normalize body with
    | none =>
      simp only [normal, Option.some.injEq, Prod.mk.injEq] at done
      exact .inl (by rw [← done.1])
    | some canonical =>
      simp only [normal, Option.bind_eq_bind, Option.bind_eq_some_iff] at done
      obtain ⟨originalTokens, _, done⟩ := done
      split at done
      next => exact .inl (by simp at done; rw [← done.1])
      next =>
      split at done
      next => exact .inl (by simp at done; rw [← done.1])
      next =>
      split at done
      next => exact .inl (by simp at done; rw [← done.1])
      next =>
        simp only [Option.bind_eq_some_iff] at done
        obtain ⟨protectedTokens, _, ⟨messages, tally⟩, looped, done⟩ := done
        cases body' : adapter.denormalize { canonical with messages := messages } with
        | none => exact .inl (by simp [body'] at done; rw [← done.1])
        | some newBody =>
          simp only [body', Option.bind_eq_some_iff] at done
          obtain ⟨sentTokens, _, done⟩ := done
          have same : newBody = outcome.body := by simp at done; rw [← done.1]
          subst same
          exact .inr ⟨canonical, messages, rfl, body', compactMessages_compacted looped⟩

end Steps

section Sample

def said : Json Unit → Option String
  | .object entries => (entries.lookup "content").bind contentText
  | _ => none

/-- Bodies that are the texts of a conversation. -/
def talk : FormatAdapter Unit (List String) where
  sourceFormat := "talk"
  normalize texts :=
    some ⟨"model", .null, texts.map fun text =>
      .object [("role", .string "assistant"), ("content", .string text)],
    none, [], false, [], "talk"⟩
  denormalize canonical := some (canonical.messages.filterMap said)
  extractRequestTokens texts := some (texts.map String.length).sum

def plain : Builtins Unit String := ⟨id, fun _ => some 1, fun _ _ => none⟩

def hybrid : Config := ⟨0, 0, "hybrid", 120, 10, false⟩

def fresh : CompactCache String := ⟨Dict.empty, []⟩

theorem old_text_shortened :
    (compactRequestBody hybrid plain talk ["Done. And more.", "Done. And more.",
    "Done. And more."] fresh).map
    (·.1.body) = some ["Done.", "Done. And more.", "Done. And more."] := by
  decide +kernel

/-- The first of three messages is shortened; the frame holds of that run. -/
theorem compaction_frame_talk : ∃ outcome after,
    compactRequestBody hybrid plain talk ["Done. And more.", "Done. And more.",
      "Done. And more."] fresh = some (outcome, after) ∧
    outcome.body = ["Done.", "Done. And more.", "Done. And more."] ∧
    (outcome.body = ["Done. And more.", "Done. And more.", "Done. And more."] ∨
      ∃ canonical messages,
        talk.normalize ["Done. And more.", "Done. And more.", "Done. And more."] = some canonical ∧
        talk.denormalize { canonical with messages := messages } = some outcome.body ∧
        Compacted "hybrid" canonical.messages messages) := by
  obtain ⟨⟨outcome, after⟩, done, short⟩ := Option.map_eq_some_iff.mp old_text_shortened
  exact ⟨outcome, after, done, short, compaction_frame talk done⟩

end Sample
end TokenPak.Compression.Pipeline
