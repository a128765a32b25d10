import TokenPak.Library.Program

/-! Programs that may stop at any operation. A stopped run leaves the world as the
operations so far have made it, so what holds after a restart must hold in every
world on the way. -/

namespace TokenPak.Library.Program
variable {Op World : Type} {Reply : Op → Type} {α β : Type}

def ask (op : Op) : Program Op Reply (Reply op) := .request op .done

/-- The worlds in which a run can be stopped, the finished ones included. -/
inductive Stops (machine : World → (op : Op) → Reply op → World → Prop) :
    Program Op Reply α → World → World → Prop
  | here {program : Program Op Reply α} {world : World} : Stops machine program world world
  | step {op : Op} {next : Reply op → Program Op Reply α} {world after final : World} {reply : Reply op}
      (answered : machine world op reply after) (rest : Stops machine (next reply) after final) :
      Stops machine (.request op next) world final

/-- The results of finished runs, with the worlds they leave. -/
inductive Returns (machine : World → (op : Op) → Reply op → World → Prop) :
    Program Op Reply α → World → α → World → Prop
  | done {value : α} {world : World} : Returns machine (.done value) world value world
  | step {op : Op} {next : Reply op → Program Op Reply α} {world after final : World} {reply : Reply op} {value : α}
      (answered : machine world op reply after) (rest : Returns machine (next reply) after value final) :
      Returns machine (.request op next) world value final

/-- Every world on the way satisfies the crash condition, and a finished run also
its postcondition. -/
def Sustains (machine : World → (op : Op) → Reply op → World → Prop) (crash : World → Prop)
    (post : World → α → Prop) :
    Program Op Reply α → World → Prop
  | .done value, world => crash world ∧ post world value
  | .request op next, world => crash world ∧ ∀ reply after, machine world op reply after →
      (next reply).Sustains machine crash post after

variable {machine : World → (op : Op) → Reply op → World → Prop} {crash : World → Prop}
  {post : World → α → Prop}
  {world : World}

variable {program : Program Op Reply α}

theorem Sustains.safe (holds : program.Sustains machine crash post world) : crash world := by
  cases program with
  | done value => exact holds.1
  | request op next => exact holds.1

/-- A stopped run leaves the crash condition. -/
theorem Sustains.stopped {final : World} (holds : program.Sustains machine crash post world)
    (stops : Stops machine program world final) : crash final := by
  induction stops with
  | here => exact holds.safe
  | step answered _ ih => exact ih (holds.2 _ _ answered)

theorem Sustains.returned {value : α} {final : World}
    (holds : program.Sustains machine crash post world)
    (returned : Returns machine program world value final) : post final value := by
  induction returned with
  | done => exact holds.2
  | step answered _ ih => exact ih (holds.2 _ _ answered)

theorem Sustains.always
    (keeps : ∀ world op reply after, machine world op reply after → crash world → crash after)
    (holds : crash world) : program.Sustains machine crash (fun _ _ => True) world := by
  induction program generalizing world with
  | done value => exact ⟨holds, trivial⟩
  | request op next ih => exact ⟨holds, fun reply after answered => ih reply (keeps _ _ _ _ answered holds)⟩

theorem Sustains.weaken {weaker : World → Prop}
    (holds : program.Sustains machine crash post world)
    (implies : ∀ world, crash world → weaker world) :
    program.Sustains machine weaker post world := by
  induction program generalizing world with
  | done value => exact ⟨implies _ holds.1, holds.2⟩
  | request op rest ih =>
      exact ⟨implies _ holds.1, fun reply after answered => ih reply (holds.2 reply after answered)⟩

theorem Sustains.bind {first : Program Op Reply β} {next : β → Program Op Reply α}
    (holds : first.Sustains machine crash (fun after value =>
      (next value).Sustains machine crash post after) world) :
    (first >>= next).Sustains machine crash post world := by
  change (Program.bind first next).Sustains machine crash post world
  induction first generalizing world with
  | done value => exact holds.2
  | request op rest ih => exact ⟨holds.1, fun reply after answered => ih reply (holds.2 reply after answered)⟩

theorem Sustains.mono {weaker : World → α → Prop}
    (holds : program.Sustains machine crash post world)
    (implies : ∀ after value, crash after → post after value → weaker after value) :
    program.Sustains machine crash weaker world := by
  induction program generalizing world with
  | done value => exact ⟨holds.1, implies _ _ holds.1 holds.2⟩
  | request op rest ih => exact ⟨holds.1, fun reply after answered => ih reply (holds.2 reply after answered)⟩

theorem Sustains.restrict {stricter : World → (op : Op) → Reply op → World → Prop}
    (holds : program.Sustains machine crash post world)
    (implies : ∀ world op reply after, stricter world op reply after → machine world op reply after) :
    program.Sustains stricter crash post world := by
  induction program generalizing world with
  | done value => exact holds
  | request op rest ih =>
    exact ⟨holds.1, fun reply after answered => ih reply (holds.2 reply after (implies _ _ _ _ answered))⟩

theorem Sustains.pure {value : α} (safe : crash world) (done : post world value) :
    (pure value : Program Op Reply α).Sustains machine crash post world := ⟨safe, done⟩

theorem Sustains.ask {op : Op} {next : Reply op → Program Op Reply α} (safe : crash world)
    (rest : ∀ reply after, machine world op reply after → (next reply).Sustains machine crash post after) :
    (Program.ask op >>= next).Sustains machine crash post world := ⟨safe, rest⟩

/-! Stopped runs of a program that is made of two. -/

section stopped
variable {final between : World}

theorem Stops.first {first : Program Op Reply β} {next : β → Program Op Reply α}
    (stops : Stops machine first world final) :
    Stops machine (first >>= next) world final := by
  change Stops machine (first.bind next) world final
  induction stops with
  | here => exact .here
  | step answered _ ih => exact .step answered ih

theorem Stops.widen {wider : World → (op : Op) → Reply op → World → Prop} {program : Program Op Reply α}
    (stops : Stops machine program world final)
    (implies : ∀ world op reply after, machine world op reply after → wider world op reply after) :
    Stops wider program world final := by
  induction stops with
  | here => exact .here
  | step answered _ ih => exact .step (implies _ _ _ _ answered) ih

theorem Stops.ask {op : Op} {next : Reply op → Program Op Reply α} {reply : Reply op}
    (answered : machine world op reply between) (rest : Stops machine (next reply) between final) :
    Stops machine (Program.ask op >>= next) world final := .step answered rest

end stopped

/-- The machine also notes what each operation does. -/
def Noted {Note : Type} (machine : World → (op : Op) → Reply op → World → Prop) (note : Op → List Note)
    (before : World × List Note) (op : Op) (reply : Reply op) (after : World × List Note) : Prop :=
  machine before.1 op reply after.1 ∧ after.2 = before.2 ++ note op

section drive
variable {Input : Type}

/-- Follow a program with a machine that computes its replies, for as long as
there is input. An input that fits no reply gives no world. -/
def drive (react : Input → World → (op : Op) → Option (Reply op × World)) :
    List Input → Program Op Reply α → World → Option World
  | input :: inputs, .request op next, world =>
    (react input world op).bind fun answer => drive react inputs (next answer.1) answer.2
  | _, _, world => some world

theorem drive_stops {react : Input → World → (op : Op) → Option (Reply op × World)}
    (sound : ∀ input world op reply after, react input world op = some (reply, after) →
      machine world op reply after)
    {inputs : List Input} {program : Program Op Reply α} {final : World}
    (driven : drive react inputs program world = some final) : Stops machine program world final := by
  induction inputs generalizing program world with
  | nil => cases program <;> cases driven <;> exact .here
  | cons input inputs ih =>
    cases program with
    | done value =>
      cases driven
      exact .here
    | request op next =>
      obtain ⟨⟨reply, after⟩, answered, rest⟩ := Option.bind_eq_some_iff.mp driven
      exact .step (sound _ _ _ _ _ answered) (ih rest)

/-- The same to the end of the program, with its result. -/
def finish (react : Input → World → (op : Op) → Option (Reply op × World)) :
    List Input → Program Op Reply α → World → Option (α × World)
  | _, .done value, world => some (value, world)
  | input :: inputs, .request op next, world =>
    (react input world op).bind fun answer => finish react inputs (next answer.1) answer.2
  | [], .request .., _ => none

theorem finish_returns {react : Input → World → (op : Op) → Option (Reply op × World)}
    (sound : ∀ input world op reply after, react input world op = some (reply, after) →
      machine world op reply after)
    {inputs : List Input} {program : Program Op Reply α} {value : α} {final : World}
    (finished : finish react inputs program world = some (value, final)) :
    Returns machine program world value final := by
  induction inputs generalizing program world with
  | nil =>
    cases program with
    | done value =>
      cases finished
      exact .done
    | request op next => cases finished
  | cons input inputs ih =>
    cases program with
    | done value =>
      cases finished
      exact .done
    | request op next =>
      obtain ⟨⟨reply, after⟩, answered, rest⟩ := Option.bind_eq_some_iff.mp finished
      exact .step (sound _ _ _ _ _ answered) (ih rest)

end drive
end TokenPak.Library.Program

/-! Protocols. An automaton reads the operations of a program with their replies
and says which operation may come next. That a program follows its protocol is
shown once; what the protocol keeps true of a world is then a matter of the
automaton's steps. -/

namespace TokenPak.Library

/-- Which operations may come in which state, and the state after each. -/
structure Protocol (Op : Type) (Reply : Op → Type) (State : Type) where
  allows : State → Op → Prop
  next : State → (op : Op) → Reply op → State

def Protocol.after {Op State : Type} {Reply : Op → Type} (protocol : Protocol Op Reply State) (start : State)
    (past : List (Event Op Reply)) : State :=
  past.foldl (fun state event => protocol.next state event.op event.reply) start

namespace Program
variable {Op World State : Type} {Reply : Op → Type} {α β : Type}

/-- Every operation of the program is allowed in the state in which it comes, and
every result is as stated. -/
def Conforms (protocol : Protocol Op Reply State) (post : State → α → Prop) :
    Program Op Reply α → State → Prop
  | .done value, state => post state value
  | .request op next, state => protocol.allows state op ∧
      ∀ reply, (next reply).Conforms protocol post (protocol.next state op reply)

variable {protocol : Protocol Op Reply State} {post : State → α → Prop} {state : State}

theorem Conforms.mono {weaker : State → α → Prop} {program : Program Op Reply α}
    (conforms : program.Conforms protocol post state)
    (implies : ∀ state value, post state value → weaker state value) :
    program.Conforms protocol weaker state := by
  induction program generalizing state with
  | done value => exact implies _ _ conforms
  | request op next ih => exact ⟨conforms.1, fun reply => ih reply (conforms.2 reply)⟩

theorem Conforms.bind {first : Program Op Reply β} {next : β → Program Op Reply α}
    (conforms : first.Conforms protocol (fun state value =>
      (next value).Conforms protocol post state) state) :
    (first >>= next).Conforms protocol post state := by
  change (Program.bind first next).Conforms protocol post state
  induction first generalizing state with
  | done value => exact conforms
  | request op rest ih => exact ⟨conforms.1, fun reply => ih reply (conforms.2 reply)⟩

theorem Conforms.ask {op : Op} {next : Reply op → Program Op Reply α} (allowed : protocol.allows state op)
    (rest : ∀ reply, (next reply).Conforms protocol post (protocol.next state op reply)) :
    (Program.ask op >>= next).Conforms protocol post state := ⟨allowed, rest⟩

/-- What conforms is a contract over the events so far. -/
theorem Conforms.ensures {start : State} {past : List (Event Op Reply)} {program : Program Op Reply α}
    (conforms : program.Conforms protocol post (protocol.after start past)) :
    program.Ensures (fun past op => protocol.allows (protocol.after start past) op)
      (fun past value => post (protocol.after start past) value) past := by
  induction program generalizing past with
  | done value => exact conforms
  | request op next ih =>
    refine ⟨conforms.1, fun reply => ih reply ?_⟩
    rw [Protocol.after, List.foldl_append]
    exact conforms.2 reply

section worlds
variable {machine : World → (op : Op) → Reply op → World → Prop} {world final : World}
  {program : Program Op Reply α}

/-- What every allowed step keeps, in step with the protocol, holds wherever the
program stops. -/
theorem Conforms.stopped (keeps : State → World → Prop) (conforms : program.Conforms protocol post state)
    (stops : Stops machine program world final) (initial : keeps state world)
    (kept : ∀ state world op reply after, keeps state world → protocol.allows state op →
      machine world op reply after →
      keeps (protocol.next state op reply) after) : ∃ state, keeps state final := by
  induction stops generalizing state with
  | here => exact ⟨state, initial⟩
  | step answered _ ih => exact ih (conforms.2 _) (kept _ _ _ _ _ initial conforms.1 answered)

theorem Conforms.sustains (keeps : State → World → Prop) (conforms : program.Conforms protocol post state)
    (initial : keeps state world)
    (kept : ∀ state world op reply after, keeps state world → protocol.allows state op →
      machine world op reply after →
      keeps (protocol.next state op reply) after) :
    program.Sustains machine (fun world => ∃ state, keeps state world)
      (fun world value => ∃ state, keeps state world ∧ post state value) world := by
  induction program generalizing state world with
  | done value => exact ⟨⟨state, initial⟩, state, initial, conforms⟩
  | request op next ih =>
    exact ⟨⟨state, initial⟩, fun reply after answered =>
      ih reply (conforms.2 reply) (kept _ _ _ _ _ initial conforms.1 answered)⟩

end worlds
end Program
end TokenPak.Library
