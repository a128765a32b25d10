import Mathlib.Data.List.Forall2

/-! What holds of a list of values when a function that may fail goes through it, alone or with a
state that it hands on. -/

namespace TokenPak.Library
variable {Value Result : Type} {f : Value → Option Result} {values : List Value} {results : List Result}

theorem mapM_eq_some :
    values.mapM f = some results ↔
      List.Forall₂ (fun value result => f value = some result) values results := by
  induction values generalizing results with
  | nil => cases results <;> simp
  | cons value values ih =>
    rw [List.mapM_cons]
    cases first : f value with
    | none => cases results <;> simp [first]
    | some result =>
      cases rest : values.mapM f with
      | none => cases results <;> simp [← ih, rest, first]
      | some others => cases results <;> simp [← ih, rest, first]

theorem mapM_each {P : Result → Prop} (each : ∀ value ∈ values, ∃ result, f value = some result ∧ P result) :
    ∃ results, values.mapM f = some results ∧ ∀ result ∈ results, P result := by
  induction values with
  | nil => exact ⟨[], rfl, by simp⟩
  | cons value values ih =>
    obtain ⟨result, first, holds⟩ := each value List.mem_cons_self
    obtain ⟨results, rest, all⟩ := ih fun other member => each other (List.mem_cons_of_mem _ member)
    exact ⟨result :: results, by rw [List.mapM_cons, first, rest]; rfl, List.forall_mem_cons.mpr ⟨holds, all⟩⟩

theorem mapM_at (made : values.mapM f = some results) {place : Nat} {value : Value}
    (found : values[place]? = some value) :
    ∃ result, f value = some result ∧ results[place]? = some result := by
  have pairs := mapM_eq_some.mp made
  obtain ⟨inside, rfl⟩ := List.getElem?_eq_some_iff.mp found
  have short : place < results.length := pairs.length_eq ▸ inside
  exact ⟨results[place], pairs.get inside short, List.getElem?_eq_getElem short⟩

section States
variable {State : Type}

/-- The values in order, each with its place and the state behind the ones before it. -/
def thread (f : Nat → Value → State → Option (Result × State)) :
    Nat → List Value → State → Option (List Result × State)
  | _, [], state => some ([], state)
  | place, value :: values, state =>
    match f place value state with
    | none => none
    | some (result, state) =>
      match thread f (place + 1) values state with
      | none => none
      | some (results, state) => some (result :: results, state)

variable {f : Nat → Value → State → Option (Result × State)} {place : Nat} {before after : State}

theorem thread_cons {value : Value} (made : thread f place (value :: values) before = some (results, after)) :
    ∃ result middle others, f place value before = some (result, middle) ∧
      thread f (place + 1) values middle = some (others, after) ∧ results = result :: others := by
  rw [thread] at made
  cases first : f place value before with
  | none => simp [first] at made
  | some found =>
    obtain ⟨result, middle⟩ := found
    cases rest : thread f (place + 1) values middle with
    | none => simp [first, rest] at made
    | some found =>
      obtain ⟨others, last⟩ := found
      simp only [first, rest, Option.some.injEq, Prod.mk.injEq] at made
      obtain ⟨rfl, rfl⟩ := made
      exact ⟨result, middle, others, rfl, rest, rfl⟩

theorem thread_each {P : Nat → Value → Result → Prop}
    (step : ∀ place value before result after, f place value before = some (result, after) →
      P place value result)
    (made : thread f place values before = some (results, after)) :
    results.length = values.length ∧
      ∀ i value result, values[i]? = some value → results[i]? = some result → P (place + i) value result := by
  induction values generalizing place before results with
  | nil =>
    simp only [thread, Option.some.injEq, Prod.mk.injEq] at made
    obtain ⟨rfl, rfl⟩ := made
    simp
  | cons value values ih =>
    obtain ⟨result, middle, others, first, rest, rfl⟩ := thread_cons made
    obtain ⟨same, each⟩ := ih rest
    constructor
    · simp [same]
    · intro i other made found there
      cases i with
      | zero =>
        obtain rfl : value = other := by simpa using found
        obtain rfl : result = made := by simpa using there
        exact step _ _ _ _ _ first
      | succ i =>
        have behind : place + (i + 1) = place + 1 + i := by omega
        rw [behind]
        exact each i other made (by simpa using found) (by simpa using there)

theorem thread_forall₂ {R : Value → Result → Prop}
    (step : ∀ place value before result after, f place value before = some (result, after) → R value result)
    (made : thread f place values before = some (results, after)) : List.Forall₂ R values results := by
  induction values generalizing place before results with
  | nil =>
    simp only [thread, Option.some.injEq, Prod.mk.injEq] at made
    obtain ⟨rfl, rfl⟩ := made
    exact .nil
  | cons value values ih =>
    obtain ⟨result, middle, others, first, rest, rfl⟩ := thread_cons made
    exact .cons (step _ _ _ _ _ first) (ih rest)

end States
end TokenPak.Library
