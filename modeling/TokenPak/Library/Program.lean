import Mathlib.Logic.Relation
import Mathlib.Logic.Function.Basic

/-! Programs as trees of atomic requests. A pool of programs shares one world:
each step answers one pending request, so a run is an interleaving of the
threads' atomic operations. Nothing here knows what the operations are. -/

namespace TokenPak.Library

/-- A computation that stops at each operation until the world has answered it. -/
inductive Program (Op : Type) (Reply : Op → Type) (α : Type) where
  | done (value : α)
  | request (op : Op) (next : Reply op → Program Op Reply α)

structure Event (Op : Type) (Reply : Op → Type) where
  op : Op
  reply : Reply op

namespace Program
variable {Op : Type} {Reply : Op → Type} {α β : Type}

def bind : Program Op Reply α → (α → Program Op Reply β) → Program Op Reply β
  | .done value, next => next value
  | .request op rest, next => .request op fun reply => (rest reply).bind next

instance : Monad (Program Op Reply) where
  pure := .done
  bind := .bind

/-- Every operation the program can still request is allowed after the events
that precede it, and every result satisfies the postcondition of its history. -/
def Ensures (allowed : List (Event Op Reply) → Op → Prop) (post : List (Event Op Reply) → α → Prop) :
    List (Event Op Reply) → Program Op Reply α → Prop
  | past, .done value => post past value
  | past, .request op next =>
      allowed past op ∧ ∀ reply, (next reply).Ensures allowed post (past ++ [⟨op, reply⟩])

/-- Run to the end against a machine that computes its replies. -/
def execute {World : Type} (react : World → (op : Op) → Reply op × World) :
    Program Op Reply α → World → α × World
  | .done value, world => (value, world)
  | .request op next, world => (next (react world op).1).execute react (react world op).2

variable {allowed : List (Event Op Reply) → Op → Prop} {post : List (Event Op Reply) → α → Prop}
  {past : List (Event Op Reply)}

theorem Ensures.mono {weaker : List (Event Op Reply) → α → Prop} {program : Program Op Reply α}
    (holds : program.Ensures allowed post past)
    (implies : ∀ past value, post past value → weaker past value) :
    program.Ensures allowed weaker past := by
  induction program generalizing past with
  | done value => exact implies _ _ holds
  | request op next ih => exact ⟨holds.1, fun reply => ih reply (holds.2 reply)⟩

theorem Ensures.allow {permitted : List (Event Op Reply) → Op → Prop} {program : Program Op Reply α}
    (holds : program.Ensures allowed post past) (implies : ∀ past op, allowed past op → permitted past op) :
    program.Ensures permitted post past := by
  induction program generalizing past with
  | done value => exact holds
  | request op next ih => exact ⟨implies _ _ holds.1, fun reply => ih reply (holds.2 reply)⟩

theorem Ensures.bind {middle : List (Event Op Reply) → β → Prop} {first : Program Op Reply β}
    {next : β → Program Op Reply α} (holds : first.Ensures allowed middle past)
    (rest : ∀ past value, middle past value → (next value).Ensures allowed post past) :
    (first.bind next).Ensures allowed post past := by
  induction first generalizing past with
  | done value => exact rest _ _ holds
  | request op tail ih => exact ⟨holds.1, fun reply => ih reply (holds.2 reply)⟩

end Program

/-! Operations that may raise. `perform` lets the exception end the computation,
`attempt` hands it to the caller. -/

section raising
variable {Op : Type} {Answer : Op → Type} {ε α : Type}

abbrev Raising (Op : Type) (Answer : Op → Type) (ε α : Type) :=
  ExceptT ε (Program Op fun op => Except ε (Answer op)) α

def perform (op : Op) : Raising Op Answer ε (Answer op) := ExceptT.mk (.request op .done)

def attempt (op : Op) : Raising Op Answer ε (Except ε (Answer op)) :=
  ExceptT.mk (.request op fun reply => .done (.ok reply))

variable {allowed : List (Event Op fun op => Except ε (Answer op)) → Op → Prop}
  {post : List (Event Op fun op => Except ε (Answer op)) → Except ε α → Prop}
  {past : List (Event Op fun op => Except ε (Answer op))}

@[simp] theorem ensures_pure (value : α) :
    Program.Ensures allowed post past (pure value : Raising Op Answer ε α) ↔ post past (.ok value) := Iff.rfl

@[simp] theorem ensures_throw (error : ε) :
    Program.Ensures allowed post past (throw error : Raising Op Answer ε α) ↔
      post past (.error error) :=
      Iff.rfl

theorem ensures_perform (op : Op) (next : Answer op → Raising Op Answer ε α) :
    Program.Ensures allowed post past (perform op >>= next : Raising Op Answer ε α) ↔
      allowed past op ∧ (∀ answer, Program.Ensures allowed post (past ++ [⟨op, .ok answer⟩]) (next answer)) ∧
        ∀ error, post (past ++ [⟨op, .error error⟩]) (.error error) := by
  constructor
  · intro holds
    exact ⟨holds.1, fun answer => holds.2 (.ok answer), fun error => holds.2 (.error error)⟩
  · rintro ⟨now, answered, failed⟩
    refine ⟨now, fun reply => ?_⟩
    cases reply with
    | ok answer => exact answered answer
    | error error => exact failed error

theorem execute_perform {World : Type} {react : World → (op : Op) → Except ε (Answer op) × World}
    {world : World} {op : Op}
    {answer : Answer op} (next : Answer op → Raising Op Answer ε α)
    (answered : (react world op).1 = .ok answer) :
    Program.execute react (perform op >>= next : Raising Op Answer ε α) world =
      Program.execute react (next answer) (react world op).2 := by
  change Program.execute react (ExceptT.bindCont next (react world op).1) (react world op).2 = _
  rw [answered]
  rfl

theorem ensures_attempt (op : Op) (next : Except ε (Answer op) → Raising Op Answer ε α) :
    Program.Ensures allowed post past (attempt op >>= next : Raising Op Answer ε α) ↔
      allowed past op ∧ ∀ reply, Program.Ensures allowed post (past ++ [⟨op, reply⟩]) (next reply) := Iff.rfl

theorem Ensures.map {β : Type}
    {post : List (Event Op fun op => Except ε (Answer op)) → Except ε β → Prop} (f : α → β)
    {program : Raising Op Answer ε α}
    (holds : Program.Ensures allowed (fun past result => post past (result.map f)) past program) :
    Program.Ensures allowed post past (do return f (← program) : Raising Op Answer ε β) := by
  refine Program.Ensures.bind holds fun later result wrapped => ?_
  cases result with
  | ok value => exact wrapped
  | error error => exact wrapped

end raising

/-- The state of a run: the shared world, what each thread has left to do and
everything done so far, oldest first. -/
structure Pool (Thread World Op : Type) (Reply : Op → Type) (α : Type) where
  world : World
  threads : Thread → Program Op Reply α
  log : List (Thread × Event Op Reply)

namespace Pool
variable {Thread World Op : Type} {Reply : Op → Type} {α : Type} [DecidableEq Thread]

def init (world : World) (threads : Thread → Program Op Reply α) : Pool Thread World Op Reply α :=
  ⟨world, threads, []⟩

def history (thread : Thread) (log : List (Thread × Event Op Reply)) : List (Event Op Reply) :=
  (log.filter (·.1 = thread)).map Prod.snd

/-- One thread has its request answered by the world. -/
inductive Step (machine : Thread → World → Event Op Reply → World → Prop) :
    Pool Thread World Op Reply α → Pool Thread World Op Reply α → Prop
  | act {pool : Pool Thread World Op Reply α} {thread : Thread} {op : Op} {next : Reply op → Program Op Reply α}
      {reply : Reply op} {world : World} (waiting : pool.threads thread = .request op next)
      (answered : machine thread pool.world ⟨op, reply⟩ world) :
      Step machine pool
        ⟨world, Function.update pool.threads thread (next reply), pool.log ++ [(thread, ⟨op, reply⟩)]⟩

def Reaches (machine : Thread → World → Event Op Reply → World → Prop) :
    Pool Thread World Op Reply α → Pool Thread World Op Reply α → Prop :=
  Relation.ReflTransGen (Step machine)

@[simp] theorem history_nil (thread : Thread) :
    history thread ([] : List (Thread × Event Op Reply)) = [] :=
  rfl

theorem history_snoc (thread actor : Thread) (log : List (Thread × Event Op Reply)) (event : Event Op Reply) :
    history thread (log ++ [(actor, event)]) =
      if actor = thread then history thread log ++ [event] else history thread log := by
  by_cases same : actor = thread <;> simp [history, same]

variable {thread : Thread}

theorem mem_history {log : List (Thread × Event Op Reply)} {event : Event Op Reply} :
    event ∈ history thread log ↔ (thread, event) ∈ log := by
  simp [history]

theorem history_unit (log : List (Unit × Event Op Reply)) : history () log = log.map Prod.snd := by
  rw [history, List.filter_eq_self.mpr (by simp)]

variable {machine : Thread → World → Event Op Reply → World → Prop}
variable {start pool : Pool Thread World Op Reply α}

theorem Reaches.mono {weaker : Thread → World → Event Op Reply → World → Prop}
    (reached : Reaches machine start pool)
    (implies : ∀ thread world event after, machine thread world event after →
      weaker thread world event after) : Reaches weaker start pool := by
  refine Relation.ReflTransGen.mono (fun before next step => ?_) _ _ reached
  cases step with
  | act waiting answered => exact .act waiting (implies _ _ _ _ answered)

variable {post : Thread → List (Event Op Reply) → α → Prop}

/-- Every thread keeps its contract along a run, whatever the others do. -/
theorem Reaches.ensures {allowed : Thread → List (Event Op Reply) → Op → Prop}
    (reached : Reaches machine start pool) (holds : ∀ thread,
      (start.threads thread).Ensures (allowed thread) (post thread) (history thread start.log)) :
    ∀ thread, (pool.threads thread).Ensures (allowed thread) (post thread) (history thread pool.log) := by
  induction reached with
  | refl => exact holds
  | tail _ step ih =>
    cases step with
    | @act actor op next reply world waiting answered =>
      intro thread
      simp only [history_snoc]
      by_cases same : actor = thread
      · subst same
        have contract := ih actor
        rw [waiting] at contract
        simpa using contract.2 reply
      · simpa only [if_neg same, Function.update_of_ne (Ne.symm same)] using ih thread

/-- What the answered requests keep true of the world and of the log. -/
theorem Reaches.invariant (keeps : World → List (Thread × Event Op Reply) → Prop)
    (reached : Reaches machine start pool) (initial : keeps start.world start.log)
    (step : ∀ world after log thread event, keeps world log → machine thread world event after →
      keeps after (log ++ [(thread, event)])) : keeps pool.world pool.log := by
  induction reached with
  | refl => exact initial
  | tail _ moved ih =>
    cases moved with
    | act waiting answered => exact step _ _ _ _ _ ih answered

theorem Reaches.invariant_of_contract {allowed : Thread → List (Event Op Reply) → Op → Prop}
    (keeps : World → List (Thread × Event Op Reply) → Prop) (reached : Reaches machine start pool)
    (holds : ∀ thread,
      (start.threads thread).Ensures (allowed thread) (post thread) (history thread start.log))
    (initial : keeps start.world start.log)
    (step : ∀ world after log thread event, keeps world log → allowed thread (history thread log) event.op →
      machine thread world event after → keeps after (log ++ [(thread, event)])) :
    keeps pool.world pool.log := by
  induction reached with
  | refl => exact initial
  | tail prior moved ih =>
    cases moved with
    | @act actor op next reply world waiting answered =>
      have contract := Reaches.ensures prior holds actor
      rw [waiting] at contract
      exact step _ _ _ _ _ ih contract.1 answered

def Performs (machine : Thread → World → Event Op Reply → World → Prop)
    (before after : Pool Thread World Op Reply α)
    (thread : Thread) (event : Event Op Reply) : Prop :=
  Step machine before after ∧ after.log = before.log ++ [(thread, event)]

theorem Performs.answered {before after : Pool Thread World Op Reply α} {event : Event Op Reply}
    (performs : Performs machine before after thread event) :
    machine thread before.world event after.world := by
  obtain ⟨step, log⟩ := performs
  cases step with
  | @act actor op next reply world waiting answered =>
    obtain ⟨rfl, rfl⟩ := Prod.mk.inj (List.singleton_inj.mp (List.append_cancel_left log))
    exact answered

theorem Performs.allowed {allowed : Thread → List (Event Op Reply) → Op → Prop}
    {before after : Pool Thread World Op Reply α} {event : Event Op Reply}
    (performs : Performs machine before after thread event) (holds : ∀ thread,
      (before.threads thread).Ensures (allowed thread) (post thread) (history thread before.log)) :
    allowed thread (history thread before.log) event.op := by
  obtain ⟨step, log⟩ := performs
  cases step with
  | @act actor op next reply world waiting answered =>
    obtain ⟨rfl, rfl⟩ := Prod.mk.inj (List.singleton_inj.mp (List.append_cancel_left log))
    have contract := holds actor
    rw [waiting] at contract
    exact contract.1

/-- The operation that a thread has asked for. -/
def pending (pool : Pool Thread World Op Reply α) (thread : Thread) : Option Op :=
  match pool.threads thread with
  | .done _ => none
  | .request op _ => some op

theorem performs_pending {op : Op} {reply : Reply op} {world : World}
    (asked : pool.pending thread = some op)
    (answered : machine thread pool.world ⟨op, reply⟩ world) :
    ∃ next : Pool Thread World Op Reply α, Performs machine pool next thread ⟨op, reply⟩ ∧ next.world = world := by
  unfold pending at asked
  split at asked
  next => cases asked
  next op next waiting =>
    cases asked
    exact ⟨_, ⟨.act waiting answered, rfl⟩, rfl⟩

/-- A finished thread satisfies the postcondition of its own history. -/
theorem Reaches.result {allowed : Thread → List (Event Op Reply) → Op → Prop}
    (reached : Reaches machine start pool) (holds : ∀ thread,
      (start.threads thread).Ensures (allowed thread) (post thread) (history thread start.log))
    {value : α} (finished : pool.threads thread = .done value) :
    post thread (history thread pool.log) value := by
  have contract := reached.ensures holds thread
  rw [finished] at contract
  exact contract

theorem execute_reaches (machine : Thread → World → Event Op Reply → World → Prop)
    {react : World → (op : Op) → Reply op × World}
    (sound : ∀ thread world op, machine thread world ⟨op, (react world op).1⟩ (react world op).2)
    (pool : Pool Thread World Op Reply α) (thread : Thread) :
    ∃ final, Reaches machine pool final ∧
      final.threads thread = .done ((pool.threads thread).execute react pool.world).1 := by
  generalize left : pool.threads thread = program
  induction program generalizing pool with
  | done value => exact ⟨pool, .refl, left⟩
  | request op next ih =>
    obtain ⟨final, reached, finished⟩ := ih (react pool.world op).1
      ⟨(react pool.world op).2, Function.update pool.threads thread (next (react pool.world op).1),
        pool.log ++ [(thread, ⟨op, (react pool.world op).1⟩)]⟩ (by simp)
    exact ⟨final, .head (.act left (sound ..)) reached, finished⟩

section schedule
variable {Input : Type}

/-- Follow a fixed schedule with a machine that computes its replies. A turn of
a finished thread is skipped. -/
def follow (react : Input → World → (op : Op) → Reply op × World) :
    List (Thread × Input) → Pool Thread World Op Reply α → Pool Thread World Op Reply α
  | [], pool => pool
  | (thread, input) :: schedule, pool =>
    match pool.threads thread with
    | .done _ => follow react schedule pool
    | .request op next =>
      let answer := react input pool.world op
      follow react schedule
        ⟨answer.2, Function.update pool.threads thread (next answer.1), pool.log ++
          [(thread, ⟨op, answer.1⟩)]⟩

variable {react : Input → World → (op : Op) → Reply op × World}

theorem follow_reaches (sound : ∀ thread input world op,
      machine thread world ⟨op, (react input world op).1⟩ (react input world op).2)
    (schedule : List (Thread × Input)) (pool : Pool Thread World Op Reply α) :
    Reaches machine pool (follow react schedule pool) := by
  induction schedule generalizing pool with
  | nil => exact .refl
  | cons turn schedule ih =>
    obtain ⟨thread, input⟩ := turn
    unfold follow
    split
    next => exact ih pool
    next op next waiting => exact (Relation.ReflTransGen.single (.act waiting (sound ..))).trans (ih _)

variable {pool : Pool Thread World Op Reply α}

theorem follow_step (sound : ∀ thread input world op,
      machine thread world ⟨op, (react input world op).1⟩ (react input world op).2)
    {thread : Thread} {op : Op} {next : Reply op → Program Op Reply α} (input : Input)
    (waiting : pool.threads thread = .request op next) :
    Step machine pool (follow react [(thread, input)] pool) ∧
      (follow react [(thread, input)] pool).log = pool.log ++
          [(thread, ⟨op, (react input pool.world op).1⟩)] := by
  simp only [follow, waiting]
  exact ⟨.act waiting (sound ..), trivial⟩

/-- Every turn of the schedule that is taken is one that the rule lets the thread
take. -/
def Obeys (rule : Thread → Input → World → Op → Prop) (react : Input → World → (op : Op) → Reply op × World) :
    List (Thread × Input) → Pool Thread World Op Reply α → Prop
  | [], _ => True
  | (thread, input) :: schedule, pool =>
    match pool.threads thread with
    | .done _ => Obeys rule react schedule pool
    | .request op next =>
      let answer := react input pool.world op
      rule thread input pool.world op ∧ Obeys rule react schedule
        ⟨answer.2, Function.update pool.threads thread (next answer.1), pool.log ++
          [(thread, ⟨op, answer.1⟩)]⟩

instance decidableObeys (rule : Thread → Input → World → Op → Prop)
    [∀ thread input world op, Decidable (rule thread input world op)]
    (react : Input → World → (op : Op) → Reply op × World) (schedule : List (Thread × Input))
    (pool : Pool Thread World Op Reply α) : Decidable (Obeys rule react schedule pool) :=
  match schedule with
  | [] => isTrue trivial
  | (thread, input) :: schedule =>
    match waiting : pool.threads thread with
    | .done _ =>
      have := decidableObeys rule react schedule pool
      decidable_of_iff (Obeys rule react schedule pool) (by simp [Obeys, waiting])
    | .request op next =>
      let answer := react input pool.world op
      let later : Pool Thread World Op Reply α :=
        ⟨answer.2, Function.update pool.threads thread (next answer.1), pool.log ++
          [(thread, ⟨op, answer.1⟩)]⟩
      have := decidableObeys rule react schedule later
      decidable_of_iff (rule thread input pool.world op ∧ Obeys rule react schedule later)
        (by simp [Obeys, waiting, answer, later])

theorem follow_reaches_obeying {rule : Thread → Input → World → Op → Prop}
    (sound : ∀ thread input world op, rule thread input world op →
      machine thread world ⟨op, (react input world op).1⟩ (react input world op).2)
    {schedule : List (Thread × Input)} (obeyed : Obeys rule react schedule pool) :
    Reaches machine pool (follow react schedule pool) := by
  induction schedule generalizing pool with
  | nil => exact .refl
  | cons turn schedule ih =>
    obtain ⟨thread, input⟩ := turn
    unfold Obeys at obeyed
    unfold follow
    split
    next value finished =>
      rw [finished] at obeyed
      exact ih obeyed
    next op next waiting =>
      rw [waiting] at obeyed
      exact (Relation.ReflTransGen.single (.act waiting (sound _ _ _ _ obeyed.1))).trans (ih obeyed.2)

/-- Every turn of the schedule that is taken has an outcome that obeys the rule. -/
def Follows (rule : Thread → World → Event Op Reply → World → Prop)
    (react : Input → World → (op : Op) → Reply op × World) (schedule : List (Thread × Input))
    (pool : Pool Thread World Op Reply α) : Prop :=
  Obeys (fun thread input world op =>
    rule thread world ⟨op, (react input world op).1⟩ (react input world op).2) react
    schedule pool

instance decidableFollows (rule : Thread → World → Event Op Reply → World → Prop)
    [∀ thread world event after, Decidable (rule thread world event after)]
    (react : Input → World → (op : Op) → Reply op × World) (schedule : List (Thread × Input))
    (pool : Pool Thread World Op Reply α) : Decidable (Follows rule react schedule pool) :=
  decidableObeys _ react schedule pool

theorem follow_reaches_where {rule : Thread → World → Event Op Reply → World → Prop}
    (sound : ∀ thread input world op,
      machine thread world ⟨op, (react input world op).1⟩ (react input world op).2)
    {schedule : List (Thread × Input)} (obeyed : Follows rule react schedule pool) :
    Reaches (fun thread world event after => machine thread world event after ∧
      rule thread world event after) pool
      (follow react schedule pool) := by
  apply follow_reaches_obeying _ obeyed
  intro thread input world op allowed
  exact ⟨sound thread input world op, allowed⟩

/-- Follow a schedule as long as the world has an answer to every turn. -/
def attend (react : Thread → Input → World → (op : Op) → Option (Reply op × World)) :
    List (Thread × Input) → Pool Thread World Op Reply α → Option (Pool Thread World Op Reply α)
  | [], pool => some pool
  | (thread, input) :: schedule, pool =>
    match pool.threads thread with
    | .done _ => attend react schedule pool
    | .request op next =>
      (react thread input pool.world op).bind fun answer => attend react schedule
        ⟨answer.2, Function.update pool.threads thread (next answer.1), pool.log ++
          [(thread, ⟨op, answer.1⟩)]⟩

theorem attend_reaches {react : Thread → Input → World → (op : Op) → Option (Reply op × World)}
    (sound : ∀ thread input world op reply after, react thread input world op = some (reply, after) →
      machine thread world ⟨op, reply⟩ after) {schedule : List (Thread × Input)}
    {final : Pool Thread World Op Reply α} (attended : attend react schedule pool = some final) :
    Reaches machine pool final := by
  induction schedule generalizing pool with
  | nil =>
    cases attended
    exact .refl
  | cons turn schedule ih =>
    obtain ⟨thread, input⟩ := turn
    unfold attend at attended
    split at attended
    next => exact ih attended
    next op next waiting =>
      obtain ⟨⟨reply, after⟩, answered, rest⟩ := Option.bind_eq_some_iff.mp attended
      exact (Relation.ReflTransGen.single (.act waiting (sound _ _ _ _ _ _ answered))).trans (ih rest)

end schedule
end Pool
end TokenPak.Library
