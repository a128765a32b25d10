import Mathlib.Init

/-! Database transactions. Statements change a working copy and may abort; the
transaction commits the copy or leaves the state in which it began. -/

namespace TokenPak.Library
variable {σ ε α β : Type}

theorem except_bind_ok {first : Except ε β} {next : β → Except ε α} {value : α} :
    (first >>= next) = .ok value ↔ ∃ result, first = .ok result ∧ next result = .ok value := by
  cases first with
  | error raised => simp [bind, Except.bind]
  | ok result => simp [bind, Except.bind]

@[simp] theorem mapError_of_ok {ε' : Type} (embed : ε → ε') (value : α) :
    (Except.ok value).mapError embed = .ok value :=
  rfl

@[simp] theorem mapError_of_error {ε' : Type} (embed : ε → ε') (raised : ε) :
    (Except.error raised : Except ε α).mapError embed = .error (embed raised) := rfl

theorem mapError_ok {ε' : Type} {embed : ε → ε'} {computation : Except ε α} {value : α} :
    computation.mapError embed = .ok value ↔ computation = .ok value := by
  cases computation <;> simp

theorem toOption_eq_some {computation : Except ε α} {value : α} :
    computation.toOption = some value ↔ computation = .ok value := by
  cases computation <;> simp [Except.toOption]

/-- Raise unless the condition holds. -/
def ensure (condition : Prop) [Decidable condition] (raised : ε) : Except ε Unit :=
  if condition then .ok () else .error raised

@[simp] theorem ensure_ok {condition : Prop} [Decidable condition] {raised : ε} {result : Unit} :
    ensure condition raised = .ok result ↔ condition := by
  by_cases holds : condition <;> simp [ensure, holds]

/-- A computation that never raises the given error. -/
structure Avoids (raised : ε) (computation : Except ε α) : Prop where
  never : computation ≠ .error raised

namespace Avoids
variable {raised : ε}

theorem ok (value : α) : Avoids raised (.ok value : Except ε α) := ⟨fun failed => nomatch failed⟩

theorem error {other : ε} (different : other ≠ raised) : Avoids raised (.error other : Except ε α) :=
  ⟨fun failed => different (Except.error.inj failed)⟩

theorem ensure {condition : Prop} [Decidable condition] {other : ε} (different : other ≠ raised) :
    Avoids raised (Library.ensure condition other) := by
  unfold Library.ensure
  split
  · exact ok _
  · exact error different

theorem bind {first : Except ε β} {next : β → Except ε α} (initial : Avoids raised first)
    (rest : ∀ result, first = .ok result → Avoids raised (next result)) : Avoids raised (first >>= next) := by
  cases first with
  | error other => exact error fun same => initial.never (congrArg _ same)
  | ok result => exact rest result rfl

theorem forM {each : β → Except ε PUnit} (values : List β)
    (spared : ∀ value ∈ values, Avoids raised (each value)) :
    Avoids raised (values.forM each) := by
  induction values with
  | nil => exact ok _
  | cons value values ih =>
    refine bind (spared value List.mem_cons_self) fun _ _ => ih fun other member => ?_
    exact spared other (List.mem_cons_of_mem _ member)

theorem mapError {ε' : Type} {embed : ε → ε'}
    (injective : ∀ other, embed other = embed raised → other = raised)
    {computation : Except ε α} (spared : Avoids raised computation) :
    Avoids (embed raised) (computation.mapError embed) := by
  cases computation with
  | ok value => exact ok value
  | error other => exact error fun same => spared.never (congrArg _ (injective other same))

end Avoids

abbrev Transaction (σ ε α : Type) := StateT σ (Except ε) α

/-- Begin, run the statements, and commit or roll back. -/
def atomically (statements : Transaction σ ε α) (state : σ) : Except ε α × σ :=
  match statements.run state with
  | .ok (value, after) => (.ok value, after)
  | .error abort => (.error abort, state)

namespace Transaction

def read (query : σ → Except ε α) : Transaction σ ε α := fun state => (query state).map (·, state)

def require (condition : Prop) [Decidable condition] (abort : ε) : Transaction σ ε Unit :=
  if condition then pure () else throw abort

/-- The same statements under a wider kind of abort. -/
def widen {ε' : Type} (embed : ε → ε') (statements : Transaction σ ε α) : Transaction σ ε' α :=
  fun state => (statements.run state).mapError embed

variable {state after : σ} {value : α}

theorem bind_ok {first : Transaction σ ε β} {next : β → Transaction σ ε α} :
    (first >>= next).run state = .ok (value, after) ↔
      ∃ result middle, first.run state = .ok (result, middle) ∧
          (next result).run middle = .ok (value, after) := by
  change (first.run state >>= fun p => (next p.1).run p.2) = _ ↔ _
  cases first.run state with
  | error abort => simp [bind, Except.bind]
  | ok pair =>
    obtain ⟨result, middle⟩ := pair
    constructor
    · intro ran
      exact ⟨result, middle, rfl, ran⟩
    · rintro ⟨_, _, same, ran⟩
      cases same
      exact ran

theorem run_bind {first : Transaction σ ε β} {next : β → Transaction σ ε α} {result : β} {middle : σ}
    (ran : first.run state = .ok (result, middle)) :
    (first >>= next).run state = (next result).run middle := by
  change (first.run state >>= fun p => (next p.1).run p.2) = _
  rw [ran]
  rfl

theorem run_bind_error {first : Transaction σ ε β} {next : β → Transaction σ ε α} {abort : ε}
    (ran : first.run state = .error abort) : (first >>= next).run state = .error abort := by
  change (first.run state >>= fun p => (next p.1).run p.2) = _
  rw [ran]
  rfl

theorem run_read_error {query : σ → Except ε α} {abort : ε} (raised : query state = .error abort) :
    (read query).run state = .error abort := by
  change (query state).map (·, state) = _
  rw [raised]
  rfl

@[simp] theorem pure_ok {result : α} :
    (pure result : Transaction σ ε α).run state = .ok (value, after) ↔ result = value ∧ state = after := by
  change Except.ok (result, state) = _ ↔ _
  simp

@[simp] theorem throw_ok {abort : ε} :
    ¬ (throw abort : Transaction σ ε α).run state = .ok (value, after) := by
  change ¬ Except.error abort = _
  simp

@[simp] theorem read_ok {query : σ → Except ε α} :
    (read query).run state = .ok (value, after) ↔ query state = .ok value ∧ state = after := by
  change (query state).map (·, state) = _ ↔ _
  cases query state <;> simp [Except.map]

@[simp] theorem require_ok {condition : Prop} [Decidable condition] {abort : ε} {result : Unit} :
    (require condition abort).run state = .ok (result, after) ↔ condition ∧ state = after := by
  by_cases holds : condition
  · rw [require, if_pos holds, pure_ok, and_iff_right rfl, and_iff_right holds]
  · rw [require, if_neg holds]
    exact iff_of_false throw_ok fun both => holds both.1

@[simp] theorem widen_ok {ε' : Type} {embed : ε → ε'} {statements : Transaction σ ε α} :
    (widen embed statements).run state = .ok (value, after) ↔ statements.run state = .ok (value, after) := by
  change (statements.run state).mapError embed = _ ↔ _
  cases statements.run state <;> simp

@[simp] theorem modify_ok {change : σ → σ} {result : PUnit} :
    (modify change : Transaction σ ε PUnit).run state = .ok (result, after) ↔ change state = after := by
  change Except.ok (PUnit.unit, change state) = _ ↔ _
  simp

@[simp] theorem get_ok {result : σ} :
    (get : Transaction σ ε σ).run state = .ok (result, after) ↔ state = result ∧ state = after := by
  change Except.ok (state, state) = _ ↔ _
  simp

@[simp] theorem set_ok {replacement : σ} {result : PUnit} :
    (set replacement : Transaction σ ε PUnit).run state = .ok (result, after) ↔ replacement = after := by
  change Except.ok (PUnit.unit, replacement) = _ ↔ _
  simp

theorem get_bind_ok {next : σ → Transaction σ ε α} :
    (get >>= next).run state = .ok (value, after) ↔ (next state).run state = .ok (value, after) := by
  simp

theorem modify_bind_ok {change : σ → σ} {next : PUnit → Transaction σ ε α} :
    (modify change >>= next).run state = .ok (value, after) ↔
      (next ⟨⟩).run (change state) = .ok (value, after) := by
  simp

theorem require_bind_ok {condition : Prop} [Decidable condition] {abort : ε}
    {next : Unit → Transaction σ ε α} :
    (require condition abort >>= next).run state = .ok (value, after) ↔
      condition ∧ (next ()).run state = .ok (value, after) := by
  rw [bind_ok]
  constructor
  · rintro ⟨_, _, required, ran⟩
    obtain ⟨holds, rfl⟩ := require_ok.mp required
    exact ⟨holds, ran⟩
  · rintro ⟨holds, ran⟩
    exact ⟨(), state, require_ok.mpr ⟨holds, rfl⟩, ran⟩

theorem read_bind_ok {query : σ → Except ε β} {next : β → Transaction σ ε α} :
    (read query >>= next).run state = .ok (value, after) ↔
      ∃ result, query state = .ok result ∧ (next result).run state = .ok (value, after) := by
  rw [bind_ok]
  simp [and_assoc]

/-- Statements that never abort with the given error. -/
def Spares (abort : ε) (statements : Transaction σ ε α) : Prop := ∀ state, Avoids abort (statements.run state)

namespace Spares
variable {abort : ε}

theorem bind {first : Transaction σ ε β} {next : β → Transaction σ ε α} (initial : Spares abort first)
    (rest : ∀ result, Spares abort (next result)) : Spares abort (first >>= next) := fun state =>
  Avoids.bind (initial state) fun pair _ => rest pair.1 pair.2

theorem bind_run {first : Transaction σ ε β} {next : β → Transaction σ ε α} {state : σ}
    (initial : Spares abort first)
    (rest : ∀ result middle, first.run state = .ok (result, middle) →
      Avoids abort ((next result).run middle)) :
    Avoids abort ((first >>= next).run state) :=
  Avoids.bind (initial state) fun pair ran => rest pair.1 pair.2 ran

theorem throw {other : ε} (different : other ≠ abort) : Spares abort (throw other : Transaction σ ε α) :=
  fun _ => .error different

theorem read_run {query : σ → Except ε α} {state : σ} (spared : Avoids abort (query state)) :
    Avoids abort ((Transaction.read query).run state) := by
  change Avoids abort ((query state).map (·, state))
  cases result : query state with
  | ok value => exact .ok _
  | error other => exact .error fun same => spared.never (result.trans (congrArg _ same))

theorem read {query : σ → Except ε α} (spared : ∀ state, Avoids abort (query state)) :
    Spares abort (Transaction.read query) := fun state => read_run (spared state)

theorem require {condition : Prop} [Decidable condition] {other : ε} (different : other ≠ abort) :
    Spares abort (require condition other : Transaction σ ε Unit) := fun state => by
  unfold Transaction.require
  split
  · exact .ok _
  · exact .error different

theorem modify (change : σ → σ) : Spares abort (modify change : Transaction σ ε PUnit) := fun _ => .ok _

theorem get : Spares abort (get : Transaction σ ε σ) := fun _ => .ok _

theorem set (replacement : σ) : Spares abort (set replacement : Transaction σ ε PUnit) := fun _ => .ok _

theorem widen {ε' : Type} {embed : ε → ε'} (injective : ∀ other, embed other = embed abort → other = abort)
    {statements : Transaction σ ε α} (spared : Spares abort statements) :
    Spares (embed abort) (widen embed statements) := fun state => .mapError injective (spared state)

theorem widen_of_ne {ε' : Type} {embed : ε → ε'} {other : ε'} (different : ∀ raised, embed raised ≠ other)
    (statements : Transaction σ ε α) : Spares other (Transaction.widen embed statements) := fun state => by
  change Avoids other ((statements.run state).mapError embed)
  cases statements.run state with
  | ok pair => exact .ok _
  | error raised => exact .error (different raised)

end Spares
end Transaction

/-- What every committed run of the statements establishes holds after the
transaction, unless it changed nothing. -/
theorem atomically_cases (statements : Transaction σ ε α) (state : σ) :
    (∃ value after, statements.run state = .ok (value, after) ∧
      atomically statements state = (.ok value, after)) ∨
      ∃ abort, statements.run state = .error abort ∧ atomically statements state = (.error abort, state) := by
  cases ran : statements.run state with
  | ok pair => exact .inl ⟨pair.1, pair.2, rfl, by simp [atomically, ran]⟩
  | error abort => exact .inr ⟨abort, rfl, by simp [atomically, ran]⟩

end TokenPak.Library
