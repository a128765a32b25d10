import TokenPak.Library.Program

/-! Inspections look at a clock that has a deadline, and note why they are incomplete. A run that
notes nothing is the calm run, for which the deadline never comes; so what a clean run says is read
off the calm one. -/

namespace TokenPak.Library

inductive Watch (Reason : Type) where
  | expired
  | note (reason : Reason)

abbrev Watch.Reply {Reason : Type} : Watch Reason → Type
  | .expired => Bool
  | .note _ => Unit

abbrev Inspection (Reason α : Type) := Program (Watch Reason) Watch.Reply α

/-- How often the clock was read, and what was noted. -/
structure Budget (Reason : Type) where
  ticks : Nat
  reasons : List Reason
  deriving DecidableEq

namespace Budget
variable {Reason : Type} [DecidableEq Reason]

def add (budget : Budget Reason) (reason : Reason) : Budget Reason :=
  if reason ∈ budget.reasons then budget else { budget with reasons := budget.reasons ++ [reason] }

theorem add_noted (budget : Budget Reason) (reason : Reason) : (budget.add reason).reasons ≠ [] := by
  unfold add
  split
  next there => exact List.ne_nil_of_mem there
  next => simp

@[simp] theorem add_ticks (budget : Budget Reason) (reason : Reason) :
    (budget.add reason).ticks = budget.ticks := by
  unfold add
  split <;> rfl

end Budget

namespace Inspection
variable {Reason α β : Type}

def expired : Inspection Reason Bool := .request .expired .done

def note (reason : Reason) : Inspection Reason Unit := .request (.note reason) .done

/-- The run in which the deadline does not come and nothing is to be noted. -/
def calm : Inspection Reason α → Option α
  | .done value => some value
  | .request .expired next => calm (next false)
  | .request (.note _) _ => none

section Rules

@[simp] theorem calm_pure (value : α) : calm (pure value : Inspection Reason α) = some value := rfl

@[simp] theorem calm_expired : calm (expired : Inspection Reason Bool) = some false := rfl

@[simp] theorem calm_note (reason : Reason) : calm (note reason) = none := rfl

@[simp] theorem calm_bind (first : Inspection Reason β) (next : β → Inspection Reason α) :
    calm (first >>= next) = (calm first).bind fun value => calm (next value) := by
  induction first with
  | done value => rfl
  | request op rest ih =>
    cases op with
    | expired => exact ih false
    | note reason => rfl

end Rules

section Runs
variable [DecidableEq Reason] (timeout : Reason) (early : Nat → Bool)

/-- A reading of the clock that is not before the deadline is noted. -/
def react (budget : Budget Reason) : (op : Watch Reason) → op.Reply × Budget Reason
  | .expired =>
    if early budget.ticks then (false, { budget with ticks := budget.ticks + 1 })
    else (true, { budget with ticks := budget.ticks + 1 }.add timeout)
  | .note reason => ((), budget.add reason)

def run (inspection : Inspection Reason α) (budget : Budget Reason) : α × Budget Reason :=
  inspection.execute (react timeout early) budget

theorem run_ticks (inspection : Inspection Reason α) (budget : Budget Reason) :
    budget.ticks ≤ (inspection.run timeout early budget).2.ticks := by
  induction inspection generalizing budget with
  | done value => exact Nat.le_refl _
  | request op next ih =>
    cases op with
    | expired =>
      by_cases before : early budget.ticks
      · have later := ih false { budget with ticks := budget.ticks + 1 }
        have same : (react timeout early budget .expired) = (false,
            { budget with ticks := budget.ticks + 1 }) :=
          if_pos before
        rw [run, Program.execute, same]
        exact Nat.le_of_succ_le later
      · have later := ih true ({ budget with ticks := budget.ticks + 1 }.add timeout)
        have same : (react timeout early budget .expired) = (true,
            { budget with ticks := budget.ticks + 1 }.add timeout) :=
          if_neg before
        rw [Budget.add_ticks] at later
        rw [run, Program.execute, same]
        exact Nat.le_of_succ_le later
    | note reason =>
      have later := ih () (budget.add reason)
      rw [Budget.add_ticks] at later
      exact later

theorem run_noted (inspection : Inspection Reason α) {budget : Budget Reason} (noted : budget.reasons ≠ []) :
    (inspection.run timeout early budget).2.reasons ≠ [] := by
  induction inspection generalizing budget with
  | done value => exact noted
  | request op next ih =>
    cases op with
    | expired =>
      by_cases before : early budget.ticks
      · have same : (react timeout early budget .expired) = (false,
            { budget with ticks := budget.ticks + 1 }) :=
          if_pos before
        rw [run, Program.execute, same]
        exact ih false noted
      · have same : (react timeout early budget .expired) = (true,
            { budget with ticks := budget.ticks + 1 }.add timeout) :=
          if_neg before
        rw [run, Program.execute, same]
        exact ih true (Budget.add_noted _ _)
    | note reason => exact ih () (Budget.add_noted _ _)

variable {timeout early} in
/-- Nothing is noted exactly when the calm run ends and every reading of the clock is early; the
results are the same then. -/
theorem clean_iff (inspection : Inspection Reason α) {start : Nat} {value : α} :
    ((inspection.run timeout early ⟨start, []⟩).2.reasons = [] ∧
      (inspection.run timeout early ⟨start, []⟩).1 = value) ↔
      inspection.calm = some value ∧
        ∀ n, start ≤ n → n < (inspection.run timeout early ⟨start, []⟩).2.ticks → early n = true := by
  induction inspection generalizing start with
  | done result =>
    constructor
    · rintro ⟨_, rfl⟩
      exact ⟨rfl, fun n least most => absurd most (Nat.not_lt.mpr least)⟩
    · rintro ⟨same, _⟩
      exact ⟨rfl, Option.some.inj same⟩
  | request op next ih =>
    cases op with
    | expired =>
      by_cases before : early start
      · have same : (react timeout early ⟨start, []⟩ .expired) = (false, ⟨start + 1, []⟩) := if_pos before
        simp only [run, Program.execute, same, calm] at ih ⊢
        rw [ih false]
        apply and_congr_right
        intro _
        constructor
        · intro all n least most
          rcases Nat.eq_or_lt_of_le least with rfl | more
          · exact before
          · exact all n more most
        · intro all n least most
          exact all n (Nat.le_of_succ_le least) most
      · have same : (react timeout early ⟨start, []⟩ .expired) = (true,
            (⟨start + 1, []⟩ : Budget Reason).add timeout) :=
          if_neg before
        have noted := run_noted timeout early (next true) (Budget.add_noted ⟨start + 1, []⟩ timeout)
        have later := run_ticks timeout early (next true) ((⟨start + 1, []⟩ : Budget Reason).add timeout)
        rw [Budget.add_ticks] at later
        simp only [run, Program.execute, same] at noted later ⊢
        constructor
        · rintro ⟨clean, _⟩
          exact absurd clean noted
        · rintro ⟨_, all⟩
          exact absurd (all start (Nat.le_refl _) later) before
    | note reason =>
      have noted := run_noted timeout early (next ()) (Budget.add_noted ⟨start, []⟩ reason)
      constructor
      · rintro ⟨clean, _⟩
        exact absurd clean noted
      · rintro ⟨ended, _⟩
        cases ended

end Runs
end Inspection
end TokenPak.Library
