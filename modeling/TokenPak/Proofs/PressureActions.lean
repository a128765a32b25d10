import TokenPak.Library.Machine
import TokenPak.Proxy.MemoryGuard

/-! The actions of the memory guard over a run of samples. What the guard remembers of its last
action is the end of the list of all its actions; that the cooldown separates them, but for an
escalation, is kept by every check. -/

namespace TokenPak.Proxy.Memory
open Library
variable {N : Type} (guard : MemoryGuard N)

structure Action where
  time : ℚ
  level : Level

/-- The guard's state with the actions so far. -/
structure Moment where
  watch : Watch
  actions : List Action

def MemoryGuard.act (moment : Moment) (sample : Sample) : Moment :=
  let (watch, action) := guard.check moment.watch sample
  ⟨watch, moment.actions ++ (action.map fun level => (⟨sample.time, level⟩ : Action)).toList⟩

def MemoryGuard.after (samples : List Sample) : Moment := Machine.run guard.act ⟨Watch.created, []⟩ samples

/-- An action less than the cooldown behind another one is the red one behind a yellow one. -/
def Apart (cooldown : ℚ) (first second : Action) : Prop :=
  second.time - first.time < cooldown → first.level = .yellow ∧ second.level = .red

/-- There was pressure after the last sample that was fully recovered. -/
def MemoryGuard.Pressed (samples : List Sample) : Prop :=
  ∃ before sample later, samples = before ++ sample :: later ∧ guard.level sample ≠ .green ∧
    ∀ other ∈ later, guard.fullyRecovered other = false

/-- A pressure sample comes when no action is in its cooldown, or it is red and the last action was yellow. -/
def MemoryGuard.Due (actions : List Action) (sample : Sample) : Prop :=
  guard.level sample ≠ .green ∧ ∀ last ∈ actions.getLast?,
    guard.cooldownSecs ≤ sample.time - last.time ∨ last.level = .yellow ∧ guard.level sample = .red

variable {guard} {moment : Moment} {watch : Watch} {sample : Sample} {samples : List Sample}
  {actions : List Action} {cooldown : ℚ}

def Moment.Remembers (moment : Moment) : Prop :=
  moment.watch.lastActionMonotonic = moment.actions.getLast?.map Action.time ∧
    moment.watch.lastActionLevel = moment.actions.getLast?.map Action.level

theorem MemoryGuard.check_spec (sample : Sample) (auto : guard.actionMode = "auto")
    (remembers : moment.Remembers) :
    (guard.level sample = .green ∧ (guard.act moment sample).actions = moment.actions ∧
      (guard.act moment sample).watch.pressureLatched = (moment.watch.pressureLatched &&
        ! guard.fullyRecovered sample) ∨
    guard.level sample ≠ .green ∧ (guard.act moment sample).watch.pressureLatched = true ∧
      (guard.Due moment.actions sample ∧
        (guard.act moment sample).actions = moment.actions ++ [⟨sample.time, guard.level sample⟩] ∨
      ¬ guard.Due moment.actions sample ∧ (guard.act moment sample).actions = moment.actions)) ∧
    (guard.act moment sample).Remembers := by
  obtain ⟨time, level⟩ := remembers
  have watching : guard.actionMode ≠ "observe" := by rw [auto]; decide
  by_cases green : guard.level sample = .green
  · refine ⟨.inl ⟨green, ?_, ?_⟩, ?_⟩ <;>
      simp [MemoryGuard.act, MemoryGuard.check, green, Moment.Remembers, time, level]
  · have due : guard.Due moment.actions sample ↔
        (moment.watch.inCooldown guard.cooldownSecs sample.time &&
            ! moment.watch.escalates (guard.level sample)) = false := by
      rw [Watch.inCooldown, Watch.escalates, time, level]
      cases last : moment.actions.getLast? with
      | none => simp [MemoryGuard.Due, green, last]
      | some action => simp [MemoryGuard.Due, green, last, or_iff_not_imp_left]
    cases waits : moment.watch.inCooldown guard.cooldownSecs sample.time &&
        ! moment.watch.escalates (guard.level sample) with
    | true =>
      refine ⟨.inr ⟨green, ?_, .inr ⟨by simp [due, waits], ?_⟩⟩, ?_⟩ <;>
        simp [MemoryGuard.act, MemoryGuard.check, green, watching, waits, Moment.Remembers, time, level]
    | false =>
      refine ⟨.inr ⟨green, ?_, .inl ⟨due.mpr waits, ?_⟩⟩, ?_⟩ <;>
        simp [MemoryGuard.act, MemoryGuard.check, green, watching, waits, Moment.Remembers]

theorem after_append : guard.after (samples ++ [sample]) = guard.act (guard.after samples) sample := by
  simp [MemoryGuard.after]

theorem remembers_after (auto : guard.actionMode = "auto") (samples : List Sample) :
    (guard.after samples).Remembers :=
  Machine.run_invariant (fun _ _ remembers => (MemoryGuard.check_spec _ auto remembers).2) ⟨rfl, rfl⟩

section Spacing

theorem times_after (auto : guard.actionMode = "auto") :
    ((guard.after samples).actions.map Action.time).Sublist (samples.map Sample.time) := by
  induction samples using List.reverseRecOn with
  | nil => exact List.Sublist.refl _
  | append_singleton samples sample ih =>
    have step := (MemoryGuard.check_spec sample auto (remembers_after auto samples)).1
    rw [after_append, List.map_append]
    rcases step with ⟨-, same, -⟩ | ⟨-, -, ⟨-, more⟩ | ⟨-, same⟩⟩
    · rw [same]
      exact ih.trans (List.sublist_append_left _ _)
    · rw [more, List.map_append]
      exact ih.append (List.Sublist.refl _)
    · rw [same]
      exact ih.trans (List.sublist_append_left _ _)

theorem apart_after (samples : List Sample) (auto : guard.actionMode = "auto") :
    (guard.after samples).actions.IsChain (Apart guard.cooldownSecs) := by
  induction samples using List.reverseRecOn with
  | nil => exact List.IsChain.nil
  | append_singleton samples sample ih =>
    have step := (MemoryGuard.check_spec sample auto (remembers_after auto samples)).1
    rw [after_append]
    rcases step with ⟨-, same, -⟩ | ⟨-, -, ⟨due, more⟩ | ⟨-, same⟩⟩
    · rwa [same]
    · rw [more, List.isChain_append]
      refine ⟨ih, List.IsChain.singleton _, ?_⟩
      intro last final first head early
      cases head
      rcases due.2 last final with late | escalation
      · exact absurd early (not_lt.mpr late)
      · exact escalation
    · rwa [same]

/-- Of three actions the last is a cooldown behind the first: they are not both pairs of a yellow
and a red one. -/
theorem three_apart (chain : actions.IsChain (Apart cooldown))
    (sorted : (actions.map Action.time).Pairwise (· ≤ ·))
    {first second third : Action} (among : [first, second, third].Sublist actions) :
    cooldown ≤ third.time - first.time := by
  induction actions with
  | nil => cases among
  | cons action rest ih =>
    rw [List.map_cons, List.pairwise_cons] at sorted
    cases among with
    | cons _ among => exact ih chain.tail sorted.2 among
    | cons_cons _ among =>
      rcases rest with _ | ⟨next, rest⟩
      · cases among
      rcases rest with _ | ⟨final, rest⟩
      · have short := among.length_le
        simp at short
      -- The third action comes at the earliest as the third of the list.
      have late : final.time ≤ third.time := by
        have inside : third ∈ final :: rest := by
          cases among with
          | cons _ among => exact among.subset (by simp)
          | cons_cons _ among => exact among.subset (by simp)
        rcases List.mem_cons.mp inside with rfl | inside
        · exact le_refl _
        · have behind := sorted.2
          simp only [List.map_cons, List.pairwise_cons] at behind
          exact behind.2.1 _ (List.mem_map_of_mem inside)
      have one : Apart cooldown first next := (List.isChain_cons_cons.mp chain).1
      have two : Apart cooldown next final := (List.isChain_cons_cons.mp chain.tail).1
      have middle : first.time ≤ next.time := sorted.1 _ (by simp)
      have end' : next.time ≤ final.time := by
        have behind := sorted.2
        rw [List.map_cons, List.pairwise_cons] at behind
        exact behind.1 _ (by simp)
      by_contra close
      have red := (one (by linarith)).2
      have yellow := (two (by linarith)).1
      rw [red] at yellow
      cases yellow

theorem few_within (chain : actions.IsChain (Apart cooldown))
    (sorted : (actions.map Action.time).Pairwise (· ≤ ·))
    {start stop : ℚ} (short : stop - start < cooldown) :
    (actions.filter fun action => decide (start ≤ action.time ∧ action.time ≤ stop)).length ≤ 2 := by
  have inside : ∀ action ∈ actions.filter fun action => decide (start ≤ action.time ∧ action.time ≤ stop),
      start ≤ action.time ∧ action.time ≤ stop :=
        fun action member => by simpa using (List.mem_filter.mp member).2
  have part : (actions.filter fun action => decide (start ≤ action.time ∧
      action.time ≤ stop)).Sublist actions :=
    List.filter_sublist
  generalize actions.filter (fun action => decide (start ≤ action.time ∧ action.time ≤ stop)) =
    found at inside part
  rcases found with _ | ⟨first, _ | ⟨second, _ | ⟨third, rest⟩⟩⟩
  · simp
  · simp
  · simp
  · have three : [first, second, third].Sublist actions :=
      (List.sublist_append_left [first, second, third] rest).trans part
    have far := three_apart chain sorted three
    have low := (inside first (by simp)).1
    have high := (inside third (by simp)).2
    linarith

end Spacing

theorem latched_after (auto : guard.actionMode = "auto") :
    (guard.after samples).watch.pressureLatched = true ↔ guard.Pressed samples := by
  induction samples using List.reverseRecOn with
  | nil => simp [MemoryGuard.after, Watch.created, MemoryGuard.Pressed]
  | append_singleton samples sample ih =>
    have step := (MemoryGuard.check_spec sample auto (remembers_after auto samples)).1
    rw [after_append]
    rcases step with ⟨green, -, latch⟩ | ⟨pressure, latch, -⟩
    · rw [latch, Bool.and_eq_true, ih, Bool.not_eq_true']
      constructor
      · rintro ⟨⟨before, pressed, later, rfl, level, calm⟩, held⟩
        refine ⟨before, pressed, later ++ [sample], by simp, level, ?_⟩
        intro other member
        rcases List.mem_append.mp member with member | member
        · exact calm other member
        · rwa [List.mem_singleton.mp member]
      · rintro ⟨before, pressed, later, whole, level, calm⟩
        rcases List.eq_nil_or_concat later with rfl | ⟨rest, last, rfl⟩
        · obtain ⟨-, same⟩ := List.append_inj' whole rfl
          cases same
          exact absurd green level
        · rw [List.concat_eq_append, ← List.cons_append, ← List.append_assoc] at whole
          obtain ⟨rfl, same⟩ := List.append_inj' whole rfl
          cases same
          exact ⟨⟨before, pressed, rest, rfl, level, fun other member =>
            calm other (by simp [member])⟩, calm _ (by simp)⟩
    · refine iff_of_true latch ⟨samples, sample, [], rfl, pressure, ?_⟩
      intro other member
      cases member

structure MemoryGuard.Limited (guard : MemoryGuard N) (samples : List Sample) : Prop where
  apart : (guard.after samples).actions.IsChain (Apart guard.cooldownSecs)
  few : ∀ start stop, stop - start < guard.cooldownSecs →
    ((guard.after samples).actions.filter fun action => decide (start ≤ action.time ∧
      action.time ≤ stop)).length ≤ 2
  answered : ∀ past sample later, samples = past ++ sample :: later →
    guard.Due (guard.after past).actions sample →
    (guard.after (past ++ [sample])).actions = (guard.after past).actions ++
      [⟨sample.time, guard.level sample⟩]
  latched : ∀ past later, samples = past ++ later →
    ((guard.after past).watch.pressureLatched = true ↔ guard.Pressed past)

theorem pressure_limited (guard : MemoryGuard N) (auto : guard.actionMode = "auto") (samples : List Sample)
    (sorted : (samples.map Sample.time).Pairwise (· ≤ ·)) : guard.Limited samples := by
  have chain := apart_after samples auto
  refine ⟨chain, ?_, ?_, ?_⟩
  · intro start stop short
    exact few_within chain (sorted.sublist (times_after auto)) short
  · intro past sample later whole due
    have step := (MemoryGuard.check_spec sample auto (remembers_after auto past)).1
    rw [after_append]
    rcases step with ⟨green, -⟩ | ⟨-, -, ⟨-, more⟩ | ⟨idle, -⟩⟩
    · exact absurd green due.1
    · exact more
    · exact absurd due idle
  · intro past later whole
    exact latched_after auto

section Sample

/-- A guard with a target of 100 MiB, a ceiling of 200 MiB and a cooldown of five minutes. -/
def sampleGuard : MemoryGuard ℚ := ⟨100, 200, 0, 30, 300, "auto", ⟨.null, ""⟩, 25⟩

/-- Yellow, an escalation, a red sample in its cooldown, and recovery. -/
def sampleRun : List Sample := [⟨120, 0, 0⟩, ⟨220, 0, 30⟩, ⟨230, 0, 60⟩, ⟨90, 0, 90⟩, ⟨70, 0, 120⟩]

theorem sampleRun_limited : sampleGuard.Limited sampleRun ∧
    (sampleGuard.after sampleRun).actions.map Action.level = [.yellow, .red] :=
  ⟨pressure_limited sampleGuard rfl sampleRun (by decide +kernel), by decide +kernel⟩

end Sample
end TokenPak.Proxy.Memory
