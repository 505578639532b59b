/-
# The loop of `Runtime::run`, pass by pass

`Runtime.pass` is the body of the loop of `run` as one computation, with the inner loops
in place and without other threads: the messages that the pass takes are in the channel
when its command loop begins.  `runs_in_passes` says that the turns of the reactor
thread, between which the controllers, the clock and the waker move, add up to such
passes, so a pass is not affected by what happens while it runs.
-/
import IoReactor.Batches
import IoReactor.Commands

namespace IoReactor

variable {H P A L T C EL ET : Type}

/-! ## The passes -/

/-- What one pass through the loop of `run` takes from its surroundings: the readings of
the clock before and after the poll, the iteration orders of the two maps, the answer to
the poll, and the messages that its command loop takes. -/
structure Surroundings (A C : Type) where
  before : SystemTime
  listeners : List ResourceId
  transports : List ResourceId
  answer : A
  after : SystemTime
  messages : List (Ctl C)

namespace Runtime

/-- The runtime without what the other threads share with it: the channel is empty and has
a sender, and the wake signal is not raised. -/
def core (self : Runtime H P L T C EL ET) : Runtime H P L T C EL ET :=
  { self with ctlRecv := ⟨[], 1, true⟩, waker := ⟨false, false⟩ }

/-- Put messages into the channel. -/
def load (self : Runtime H P L T C EL ET) (messages : List (Ctl C)) : Runtime H P L T C EL ET :=
  { self with ctlRecv := { self.ctlRecv with queue := messages } }

section

variable [Handler H L T C EL ET]

/-- The command loop of `run`, for at most `fuel` turns; whether it took a `Shutdown`. -/
def commandLoop : ℕ → Runtime H P L T C EL ET →
    OptionT (Except Panic) (Bool × Runtime H P L T C EL ET)
  | 0, _ => failure
  | fuel + 1, self => do
      let (turn, self) ← self.receive
      match turn with
      | .again => commandLoop fuel self
      | .drained => return (false, self)
      | .shutdown => return (true, self)

variable [Resource L EL] [Resource T ET] [Poll P A]

/-- The loop of `Runtime::handle_actions`, for at most `fuel` turns. -/
def handleActions (prof : Profile) (time : ℕ) :
    ℕ → Runtime H P L T C EL ET → OptionT (Except Panic) (Runtime H P L T C EL ET)
  | 0, _ => failure
  | fuel + 1, self => do
      let (more, self) ← self.handleNext prof time
      if more then handleActions prof time fuel self else return self

/-- A pass from the call of `handle_actions` on. -/
def fromActions (prof : Profile) (now fuel : ℕ) (self : Runtime H P L T C EL ET) :
    OptionT (Except Panic) (Bool × Runtime H P L T C EL ET) := do
  let self ← handleActions prof now fuel self
  return (false, self)

/-- A pass from the command loop on. -/
def fromCommands (prof : Profile) (now fuel : ℕ) (self : Runtime H P L T C EL ET) :
    OptionT (Except Panic) (Bool × Runtime H P L T C EL ET) := do
  let (shutdown, self) ← commandLoop fuel self
  if shutdown then return (true, self)
  fromActions prof now fuel self

/-- A pass from the call of `handle_events` on. -/
def fromEvents (prof : Profile) (now fuel : ℕ) (messages : List (Ctl C))
    (self : Runtime H P L T C EL ET) :
    OptionT (Except Panic) (Bool × Runtime H P L T C EL ET) := do
  let ((awoken, _), self) ← OptionT.mk (self.handleEvents now fuel (false, 0))
  if awoken then
    fromCommands prof now fuel (self.load messages)
  else
    fromActions prof now fuel self

/-- The body of the loop of `Runtime::run`, each inner loop of which ends within `fuel`
turns; whether it took a `Shutdown`.  The iteration orders have to be orders of the two
maps. -/
def pass (prof : Profile) (fuel : ℕ) (self : Runtime H P L T C EL ET) (env : Surroundings A C) :
    OptionT (Except Panic) (Bool × Runtime H P L T C EL ET) :=
  if env.listeners.Perm self.listeners.keys ∧ env.transports.Perm self.transports.keys then do
    let (timeout, self) ← self.beforePoll prof env.before env.listeners env.transports
    let (now, self) ← self.afterPoll prof env.after timeout env.answer
    fromEvents prof now fuel env.messages self
  else failure

/-- The loop of `Runtime::run`, until the surroundings end or a `Shutdown` is taken. -/
def run (prof : Profile) (fuel : ℕ) (self : Runtime H P L T C EL ET) :
    List (Surroundings A C) → OptionT (Except Panic) (Bool × Runtime H P L T C EL ET)
  | [] => return (false, self)
  | env :: envs => do
      let (shutdown, self) ← self.pass prof fuel env
      if shutdown then return (true, self)
      self.run prof fuel envs

end

/-! ## The loops do not look at the channel and the waker -/

section

variable [Handler H L T C EL ET] [Resource L EL] [Resource T ET] [Poll P A]

variable {prof : Profile} {clock : SystemTime} {rt rt' : Runtime H P L T C EL ET}

omit [Handler H L T C EL ET] in
/-- The way to the poll does not look at what other threads share. -/
theorem core_beforePoll {ls ts : List ResourceId} {timeout : Duration}
    (h : rt.beforePoll prof clock ls ts = .ok (timeout, rt')) :
    rt.core.beforePoll prof clock ls ts = .ok (timeout, rt'.core) := by
  obtain ⟨time, hclock, hrest⟩ := exists_of_bind_eq_ok h
  obtain ⟨expiring, hexp, hret⟩ := exists_of_bind_eq_ok hrest
  cases hret
  have hexp' : rt.core.timeouts.nextExpiringFrom prof time = .ok expiring := hexp
  rw [beforePoll, hclock]
  show (rt.core.timeouts.nextExpiringFrom prof time >>= _) = _
  rw [hexp']
  rfl

omit [Resource L EL] [Resource T ET] in
/-- The poll does not look at what other threads share. -/
theorem core_afterPoll {timeout : Duration} {answer : A} {now : ℕ}
    (h : rt.afterPoll prof clock timeout answer = .ok (now, rt')) :
    rt.core.afterPoll prof clock timeout answer = .ok (now, rt'.core) := by
  have hpoller : rt.core.poller = rt.poller := rfl
  unfold afterPoll at h ⊢
  rw [hpoller]
  generalize Poll.poll rt.poller (some timeout) answer = out at h ⊢
  obtain ⟨res, poller⟩ := out
  obtain ⟨time, hclock, hrest⟩ := exists_of_bind_eq_ok h
  obtain ⟨⟨count, timeouts⟩, hexp, hret⟩ := exists_of_bind_eq_ok hrest
  have hexp' : Timer.removeExpiredBy prof rt.timeouts time = .ok (count, timeouts) := hexp
  rw [hclock]
  show (Timer.removeExpiredBy prof rt.timeouts time >>= _) = _
  rw [hexp']
  by_cases hfired : 0 < count
  · cases res <;> simp only [bind, Except.bind, hfired, if_true] at hret ⊢ <;> cases hret <;> rfl
  · cases res <;> simp only [bind, Except.bind, hfired, if_false] at hret ⊢ <;> cases hret <;> rfl

omit [Resource T ET] in
/-- The I/O flags of a listener do not reach what other threads share. -/
theorem core_listenerIo (rt : Runtime H P L T C EL ET) (id : ResourceId) (listener : L)
    (io : IoType) (time : ℕ) :
    (rt.listenerIo id listener io time).core = rt.core.listenerIo id listener io time := by
  unfold listenerIo
  simp only [ioLoop_eq, ioLoop_snd]
  rfl

omit [Resource L EL] in
/-- The I/O flags of a transport do not reach what other threads share. -/
theorem core_transportIo (rt : Runtime H P L T C EL ET) (id : ResourceId) (transport : T)
    (io : IoType) (time : ℕ) :
    (rt.transportIo id transport io time).core = rt.core.transportIo id transport io time := by
  unfold transportIo
  simp only [ioLoop_eq, ioLoop_snd]
  rfl

/-- An event does not look at what other threads share, but for the reset of the waker. -/
theorem core_handleEvent {id : ResourceId} {res : Except IoFail IoType} {time : ℕ}
    {woken : Bool} (h : rt.handleEvent id res time = .ok (woken, rt')) :
    rt.core.handleEvent id res time = .ok (woken, rt'.core) := by
  cases handled_of_handleEvent h with
  | waker hid io hres =>
      unfold handleEvent
      rw [if_pos hid, hres]
      rfl
  | listenerIo hid io hres listener hlook =>
      have hmem : id ∈ rt.core.listeners := mem_of_lookup hlook
      have hlook' : rt.core.listeners.lookup id = some listener := hlook
      unfold handleEvent
      rw [if_neg hid, if_pos hmem, hres]
      simp only [hlook', IoType.flags_eq_toList]
      rw [core_listenerIo]
      rfl
  | listenerGone hid err hres listener hlook =>
      have hmem : id ∈ rt.core.listeners := mem_of_lookup hlook
      have hlook' : rt.core.listeners.lookup id = some listener := hlook
      unfold handleEvent
      rw [if_neg hid, if_pos hmem, hres]
      simp only [unregisterListener_of_lookup hlook']
      rfl
  | transportIo hid hno io hres transport hlook =>
      have hno' : id ∉ rt.core.listeners := hno
      have hmem : id ∈ rt.core.transports := mem_of_lookup hlook
      have hlook' : rt.core.transports.lookup id = some transport := hlook
      unfold handleEvent
      rw [if_neg hid, if_neg hno', if_pos hmem, hres]
      simp only [hlook', IoType.flags_eq_toList]
      rw [core_transportIo]
      rfl
  | transportGone hid hno err hres transport hlook =>
      have hno' : id ∉ rt.core.listeners := hno
      have hmem : id ∈ rt.core.transports := mem_of_lookup hlook
      have hlook' : rt.core.transports.lookup id = some transport := hlook
      unfold handleEvent
      rw [if_neg hid, if_neg hno', if_pos hmem, hres]
      simp only [unregisterTransport_of_lookup hlook']
      rfl

/-- An action does not look at what other threads share. -/
theorem core_handleAction {action : Action L T} {time : ℕ} {result : Except (Error L T) Unit}
    (h : rt.handleAction prof action time = .ok (result, rt')) :
    rt.core.handleAction prof action time = .ok (result, rt'.core) := by
  apply handleAction_of_acted
  cases acted_of_handleAction h with
  | registerListener listener id poller hreg => exact .registerListener listener id poller hreg
  | registerTransport transport id poller hreg => exact .registerTransport transport id poller hreg
  | unregisterListener id listener hlook => exact .unregisterListener id listener hlook
  | unregisterTransport id transport hlook => exact .unregisterTransport id transport hlook
  | sent id data transport transport' hlook hwrite =>
      exact .sent id data transport transport' hlook hwrite
  | sendFailed id data transport transport' err hlook hwrite =>
      exact .sendFailed id data transport transport' err hlook hwrite
  | setTimer duration timeouts hset => exact .setTimer duration timeouts hset
  | ignored action hno =>
      refine .ignored action ?_
      cases action with
      | registerListener listener => exact hno.elim
      | registerTransport transport => exact hno.elim
      | setTimer duration => exact hno.elim
      | _ => exact hno

/-- A turn of the loop of `handle_actions` does not look at what other threads share. -/
theorem core_handleNext {time : ℕ} {more : Bool}
    (h : rt.handleNext prof time = .ok (more, rt')) :
    rt.core.handleNext prof time = .ok (more, rt'.core) := by
  have hservice : rt.core.service = rt.service := rfl
  unfold handleNext at h ⊢
  rw [hservice]
  cases hnext : Handler.next rt.service with
  | mk answer service =>
      rw [hnext] at h
      cases answer with
      | none =>
          cases h
          rfl
      | some action =>
          obtain ⟨⟨result, rt''⟩, hact, hret⟩ := exists_of_bind_eq_ok h
          have hact' := core_handleAction hact
          show (handleAction prof (({ rt with service := service }.note
            (.next (some action))).core) action time >>= _) = _
          rw [hact']
          cases result with
          | ok u =>
              cases hret
              rfl
          | error err =>
              cases hret
              rfl

end

end Runtime

/-! ## The turns as computations -/

namespace Thread

variable [Handler H L T C EL ET] [Resource L EL] [Resource T ET] [Poll P A]

/-- The outcomes of a turn, by the computation that it consists of. -/
inductive Ran (prof : Profile) (clock : SystemTime) (th : Thread H P L T C EL ET) :
    Input A → Thread H P L T C EL ET → Prop
  | start (hpc : th.pc = .start) (ls ts : List ResourceId)
      (hperm : ls.Perm th.runtime.listeners.keys ∧ ts.Perm th.runtime.transports.keys)
      (timeout : Duration) (rt : Runtime H P L T C EL ET)
      (hrun : th.runtime.beforePoll prof clock ls ts = .ok (timeout, rt)) :
      Ran prof clock th (.start ls ts) ⟨.poll timeout, rt⟩
  | poll (timeout : Duration) (hpc : th.pc = .poll timeout) (answer : A) (now : ℕ)
      (rt : Runtime H P L T C EL ET)
      (hrun : th.runtime.afterPoll prof clock timeout answer = .ok (now, rt)) :
      Ran prof clock th (.poll answer) ⟨.events now false, rt⟩
  | batchDone (now : ℕ) (awoken : Bool) (hpc : th.pc = .events now awoken)
      (hnext : Poll.next th.runtime.poller = none) :
      Ran prof clock th .event ⟨if awoken then .commands now else .actions now, th.runtime⟩
  | event (now : ℕ) (awoken : Bool) (hpc : th.pc = .events now awoken)
      (id : ResourceId) (res : Except IoFail IoType) (poller : P)
      (hnext : Poll.next th.runtime.poller = some ((id, res), poller)) (woken : Bool)
      (rt : Runtime H P L T C EL ET)
      (hrun : { th.runtime with poller := poller }.handleEvent id res now = .ok (woken, rt)) :
      Ran prof clock th .event ⟨.events now (awoken || woken), rt⟩
  | command (now : ℕ) (hpc : th.pc = .commands now) (turn : Turn)
      (rt : Runtime H P L T C EL ET) (hrun : th.runtime.receive = .ok (turn, rt)) :
      Ran prof clock th .command ⟨afterCommand now turn, rt⟩
  | action (now : ℕ) (hpc : th.pc = .actions now) (more : Bool)
      (rt : Runtime H P L T C EL ET)
      (hrun : th.runtime.handleNext prof now = .ok (more, rt)) :
      Ran prof clock th .action ⟨if more then .actions now else .start, rt⟩
  | exit (hpc : th.pc = .shutdown) :
      Ran prof clock th .exit
        ⟨.exited, { th.runtime with ctlRecv := th.runtime.ctlRecv.close }⟩
  | panicked (input : Input A) (p : Panic) :
      Ran prof clock th input
        ⟨.panicked p, { th.runtime with ctlRecv := th.runtime.ctlRecv.close }⟩

/-- A computation that advances the thread makes a turn if it succeeds, and a panic if it
does not. -/
theorem Ran.of_resume {prof : Profile} {clock : SystemTime} {th : Thread H P L T C EL ET}
    {input : Input A} {α : Type} {step : Except Panic α}
    {rest : α → Except Panic (Pc × Runtime H P L T C EL ET)}
    (h : ∀ a, step = .ok a → ∃ pc rt, rest a = .ok (pc, rt) ∧ Ran prof clock th input ⟨pc, rt⟩) :
    Ran prof clock th input (th.resume (step >>= rest)) := by
  rcases th.resume_cases (step >>= rest) with ⟨p, -, hres⟩ | ⟨pc, rt, hok, hres⟩
  · rw [hres]
    exact .panicked _ p
  · obtain ⟨a, hstep, hrest⟩ := exists_of_bind_eq_ok hok
    obtain ⟨pc', rt', hrest', hran⟩ := h a hstep
    rw [hrest'] at hrest
    cases hrest
    rw [hres]
    exact hran

/-- The list of computations is complete. -/
theorem ran_of_turn {prof : Profile} {clock : SystemTime} {th th' : Thread H P L T C EL ET}
    {input : Input A} (h : th.turn prof clock input = some th') : Ran prof clock th input th' := by
  cases input with
  | start ls ts =>
      simp only [turn] at h
      split at h
      · rename_i hpc
        split at h
        · rename_i hperm
          cases h
          refine Ran.of_resume ?_
          rintro ⟨timeout, rt⟩ hrun
          exact ⟨_, _, rfl, .start hpc ls ts hperm timeout rt hrun⟩
        · cases h
      · cases h
  | poll answer =>
      simp only [turn] at h
      split at h
      · rename_i timeout hpc
        cases h
        refine Ran.of_resume ?_
        rintro ⟨now, rt⟩ hrun
        exact ⟨_, _, rfl, .poll timeout hpc answer now rt hrun⟩
      · cases h
  | event =>
      simp only [turn] at h
      split at h
      · rename_i now awoken hpc
        split at h
        · rename_i hnext
          cases h
          exact .batchDone now awoken hpc hnext
        · rename_i id res poller hnext
          cases h
          refine Ran.of_resume ?_
          rintro ⟨woken, rt⟩ hrun
          exact ⟨_, _, rfl, .event now awoken hpc id res poller hnext woken rt hrun⟩
      · cases h
  | command =>
      simp only [turn] at h
      split at h
      · rename_i now hpc
        cases h
        refine Ran.of_resume ?_
        rintro ⟨turn, rt⟩ hrun
        exact ⟨_, _, rfl, .command now hpc turn rt hrun⟩
      · cases h
  | action =>
      simp only [turn] at h
      split at h
      · rename_i now hpc
        cases h
        refine Ran.of_resume ?_
        rintro ⟨more, rt⟩ hrun
        exact ⟨_, _, rfl, .action now hpc more rt hrun⟩
      · cases h
  | exit =>
      simp only [turn] at h
      split at h
      · rename_i hpc
        cases h
        exact .exit hpc
      · cases h

end Thread

/-! ## Sequences of passes -/

namespace Runtime

/-- A computation goes on after a step that succeeds. -/
theorem bind_of_ok {α β : Type} (a : α) (f : α → OptionT (Except Panic) β) :
    (liftM (Except.ok a : Except Panic α) >>= f) = f a := rfl

/-- The commands handled so far, as messages. -/
def taken (rt : Runtime H P L T C EL ET) : List (Ctl C) :=
  (rt.trace.filterMap Observation.command).map .cmd

variable [Handler H L T C EL ET] [Resource L EL] [Resource T ET] [Poll P A]

/-- Passes in a row. -/
theorem run_append (prof : Profile) (fuel : ℕ) (rt : Runtime H P L T C EL ET)
    (envs envs' : List (Surroundings A C)) :
    rt.run prof fuel (envs ++ envs') = (do
      let (shutdown, rt) ← rt.run prof fuel envs
      if shutdown then return (true, rt)
      rt.run prof fuel envs') := by
  induction envs generalizing rt with
  | nil =>
      rw [List.nil_append, run, pure_bind]
      rfl
  | cons env envs ih =>
      rw [List.cons_append, run, run, bind_assoc]
      refine bind_congr fun r => ?_
      obtain ⟨shutdown, rt'⟩ := r
      cases shutdown with
      | true => simp
      | false => simpa using ih rt'

/-- Some passes that start in `rt₀` take the messages `msgs` and lead to `rt`, for every
bound on the turns of the inner loops that is large enough. -/
def Passed (prof : Profile) (rt₀ : Runtime H P L T C EL ET) (msgs : List (Ctl C))
    (shutdown : Bool) (rt : Runtime H P L T C EL ET) : Prop :=
  ∃ (envs : List (Surroundings A C)) (bound : ℕ),
    envs.flatMap Surroundings.messages = msgs ∧
      ∀ fuel, bound ≤ fuel → rt₀.run prof fuel envs = pure (shutdown, rt)

/-- One more pass. -/
theorem Passed.concat {prof : Profile} {rt₀ rt rt' : Runtime H P L T C EL ET}
    {msgs : List (Ctl C)} (h : Passed prof rt₀ msgs false rt) {env : Surroundings A C}
    {bound : ℕ} {shutdown : Bool}
    (hpass : ∀ fuel, bound ≤ fuel → rt.pass prof fuel env = pure (shutdown, rt')) :
    Passed prof rt₀ (msgs ++ env.messages) shutdown rt' := by
  obtain ⟨envs, bound', hmsgs, hrun⟩ := h
  refine ⟨envs ++ [env], max bound bound', ?_, fun fuel hfuel => ?_⟩
  · rw [List.flatMap_append, hmsgs, List.flatMap_singleton]
  · rw [run_append, hrun fuel ((le_max_right _ _).trans hfuel), pure_bind]
    show rt.run prof fuel [env] = _
    rw [run, hpass fuel ((le_max_left _ _).trans hfuel), pure_bind]
    cases shutdown <;> rfl

/-! ## Inside a pass -/

/-- Where a thread that has begun in `rt₀` is, by its point in the loop: some passes are
complete, and what is done of the current one leaves the rest of it to do. -/
inductive Serial (prof : Profile) (rt₀ : Runtime H P L T C EL ET) :
    Pc → Runtime H P L T C EL ET → Prop
  | start (rt : Runtime H P L T C EL ET) (hpassed : Passed prof rt₀ rt.taken false rt) :
      Serial prof rt₀ .start rt
  | poll (timeout : Duration) (rt rt₁ : Runtime H P L T C EL ET)
      (hpassed : Passed prof rt₀ rt.taken false rt₁) (before : SystemTime)
      (ls ts : List ResourceId)
      (hperm : ls.Perm rt₁.listeners.keys ∧ ts.Perm rt₁.transports.keys)
      (hbefore : rt₁.beforePoll prof before ls ts = .ok (timeout, rt)) :
      Serial prof rt₀ (.poll timeout) rt
  | events (now : ℕ) (awoken : Bool) (rt rt₁ rt₂ : Runtime H P L T C EL ET)
      (hpassed : Passed prof rt₀ rt.taken false rt₁) (env : Surroundings A C)
      (hpass : ∀ fuel msgs, rt₁.pass prof fuel { env with messages := msgs } =
        fromEvents prof now fuel msgs rt₂) (turns resets : ℕ)
      (hloop : ∀ fuel, rt₂.handleEvents now (fuel + turns) (false, 0) =
        rt.handleEvents now fuel (awoken, resets)) :
      Serial prof rt₀ (.events now awoken) rt
  | commands (now : ℕ) (rt rt₁ rt₂ : Runtime H P L T C EL ET) (msgs received : List (Ctl C))
      (htaken : rt.taken = msgs ++ received) (hpassed : Passed prof rt₀ msgs false rt₁)
      (env : Surroundings A C) (bound : ℕ)
      (hpass : ∀ fuel msgs, bound ≤ fuel → rt₁.pass prof fuel { env with messages := msgs } =
        fromCommands prof now fuel (rt₂.load msgs)) (turns : ℕ)
      (hloop : ∀ fuel msgs, commandLoop (fuel + turns) (rt₂.load (received ++ msgs)) =
        commandLoop fuel (rt.load msgs)) :
      Serial prof rt₀ (.commands now) rt
  | actions (now : ℕ) (rt rt₁ rt₂ : Runtime H P L T C EL ET) (msgs : List (Ctl C))
      (env : Surroundings A C) (htaken : rt.taken = msgs ++ env.messages)
      (hpassed : Passed prof rt₀ msgs false rt₁) (bound : ℕ)
      (hpass : ∀ fuel, bound ≤ fuel → rt₁.pass prof fuel env = fromActions prof now fuel rt₂)
      (turns : ℕ)
      (hloop : ∀ fuel, handleActions prof now (fuel + turns) rt₂ =
        handleActions prof now fuel rt) :
      Serial prof rt₀ (.actions now) rt
  | leaving (pc : Pc) (hpc : pc.Leaving) (rt : Runtime H P L T C EL ET)
      (hpassed : Passed prof rt₀ (rt.taken ++ [.shutdown]) true rt) :
      Serial prof rt₀ pc rt
  | panicked (p : Panic) (rt : Runtime H P L T C EL ET) : Serial prof rt₀ (.panicked p) rt

/-! ## Every turn is a piece of a pass -/

variable {prof : Profile} {rt₀ rt rt' : Runtime H P L T C EL ET}

omit [Handler H L T C EL ET] [Resource L EL] [Resource T ET] [Poll P A] in
/-- What adds no command to the trace takes no message. -/
theorem taken_append {tr : List (Observation L T C EL ET)}
    (htrace : rt'.trace = rt.trace ++ tr) (htr : ∀ obs ∈ tr, obs.command = none) :
    rt'.taken = rt.taken := by
  rw [taken, htrace, filterMap_append_none htr]
  rfl

omit [Handler H L T C EL ET] [Resource L EL] [Resource T ET] [Poll P A] in
/-- A message is taken when its command is handled. -/
theorem taken_concat {c : C} (htrace : rt'.trace = rt.trace ++ [.call (.handleCommand c)]) :
    rt'.taken = rt.taken ++ [.cmd c] := by
  rw [taken, htrace, List.filterMap_append, List.map_append]
  rfl

omit [Handler H L T C EL ET] [Resource L EL] [Resource T ET] [Poll P A] in
/-- Only the call of `handle_command` is about a command. -/
theorem command_of_deed {obs : Observation L T C EL ET} (h : obs.deed = none) :
    obs.command = none := by
  cases obs with
  | call c =>
      cases c with
      | handleCommand c => cases h
      | _ => rfl
  | _ => rfl

/-- The way to the poll is the beginning of a pass. -/
theorem Serial.started {clock : SystemTime} {ls ts : List ResourceId} {timeout : Duration}
    (h : Serial (A := A) prof rt₀ .start rt.core)
    (hperm : ls.Perm rt.listeners.keys ∧ ts.Perm rt.transports.keys)
    (hrun : rt.beforePoll prof clock ls ts = .ok (timeout, rt')) :
    Serial prof rt₀ (.poll timeout) rt'.core := by
  have htrace : rt'.core.taken = rt.core.taken := by
    obtain ⟨time, -, hrest⟩ := exists_of_bind_eq_ok hrun
    obtain ⟨expiring, -, hret⟩ := exists_of_bind_eq_ok hrest
    cases hret
    rfl
  cases h with
  | start _ hpassed =>
      exact .poll timeout _ rt.core (htrace ▸ hpassed) clock ls ts hperm (core_beforePoll hrun)
  | leaving _ hpc => rcases hpc with hpc | hpc <;> cases hpc

/-- The answer to the poll brings the pass to `handle_events`. -/
theorem Serial.polled {clock : SystemTime} {timeout : Duration} {answer : A} {now : ℕ}
    (h : Serial (A := A) prof rt₀ (.poll timeout) rt.core)
    (hrun : rt.afterPoll prof clock timeout answer = .ok (now, rt')) :
    Serial (A := A) prof rt₀ (.events now false) rt'.core := by
  have htaken : rt'.core.taken = rt.core.taken := by
    obtain ⟨-, fired, service, -, hrt⟩ := Thread.afterPoll_ok hrun
    rw [hrt]
    refine taken_append rfl fun obs hobs => ?_
    obtain ⟨c, hc, rfl⟩ := List.mem_map.mp hobs
    exact command_of_deed (System.deed_of_pollCalls hc)
  cases h with
  | poll _ _ rt₁ hpassed before ls ts hperm hbefore =>
      refine .events now false _ rt₁ rt'.core (htaken ▸ hpassed)
        ⟨before, ls, ts, answer, clock, []⟩ (fun fuel msgs => ?_) 0 0 (fun fuel => rfl)
      rw [pass, if_pos hperm]
      simp only [hbefore]
      rw [bind_of_ok, core_afterPoll hrun, bind_of_ok]
  | leaving _ hpc => rcases hpc with hpc | hpc <;> cases hpc

/-- The end of the batch ends `handle_events`. -/
theorem Serial.batchDone {now : ℕ} {awoken : Bool}
    (h : Serial (A := A) prof rt₀ (.events now awoken) rt.core)
    (hnext : Poll.next rt.poller = none) :
    Serial (A := A) prof rt₀ (if awoken then .commands now else .actions now) rt.core := by
  have hnext' : Poll.next rt.core.poller = none := hnext
  cases h with
  | events _ _ _ rt₁ rt₂ hpassed env hpass turns resets hloop =>
      -- with one more turn the loop has returned
      have hdone : ∀ fuel, turns + 1 ≤ fuel → rt₂.handleEvents now fuel (false, 0) =
          .ok (some ((awoken, resets), rt.core)) := by
        intro fuel hfuel
        obtain ⟨d, rfl⟩ := Nat.exists_eq_add_of_le' hfuel
        have hstep := hloop (d + 1)
        rw [handleEvents, hnext'] at hstep
        rw [show d + (turns + 1) = d + 1 + turns by omega]
        exact hstep
      have hrest : ∀ fuel msgs, turns + 1 ≤ fuel →
          rt₁.pass prof fuel { env with messages := msgs } =
            if awoken then fromCommands prof now fuel (rt.core.load msgs)
            else fromActions prof now fuel rt.core := by
        intro fuel msgs hfuel
        rw [hpass, fromEvents, hdone fuel hfuel]
        rfl
      cases awoken with
      | true =>
          exact .commands now _ rt₁ rt.core rt.core.taken [] (List.append_nil _).symm hpassed env
            (turns + 1) hrest 0 fun fuel msgs => rfl
      | false =>
          exact .actions now _ rt₁ rt.core rt.core.taken { env with messages := [] }
            (List.append_nil _).symm hpassed (turns + 1) (fun fuel hfuel => hrest fuel [] hfuel) 0
            fun fuel => rfl
  | leaving _ hpc => rcases hpc with hpc | hpc <;> cases hpc

/-- An event is one turn of the loop of `handle_events`. -/
theorem Serial.event {now : ℕ} {awoken woken : Bool} {id : ResourceId}
    {res : Except IoFail IoType} {poller : P}
    (h : Serial (A := A) prof rt₀ (.events now awoken) rt.core)
    (hnext : Poll.next rt.poller = some ((id, res), poller))
    (hrun : { rt with poller := poller }.handleEvent id res now = .ok (woken, rt')) :
    Serial (A := A) prof rt₀ (.events now (awoken || woken)) rt'.core := by
  have hnext' : Poll.next rt.core.poller = some ((id, res), poller) := hnext
  have htaken : rt'.core.taken = rt.core.taken := by
    obtain ⟨-, -, -, tr, htrace, htr⟩ := (handled_of_handleEvent hrun).frame
    exact taken_append htrace fun obs hobs =>
      command_of_deed (System.deed_of_ofEvent (htr obs hobs))
  cases h with
  | events _ _ _ rt₁ rt₂ hpassed env hpass turns resets hloop =>
      refine .events now _ _ rt₁ rt₂ (htaken ▸ hpassed) env hpass (turns + 1)
        (if woken then resets + 1 else resets) fun fuel => ?_
      have hstep := hloop (fuel + 1)
      rw [handleEvents, hnext'] at hstep
      have hcore := core_handleEvent hrun
      rw [show fuel + (turns + 1) = fuel + 1 + turns by omega, hstep]
      show (handleEvent { rt with poller := poller }.core id res now >>= _) = _
      rw [hcore]
      rfl
  | leaving _ hpc => rcases hpc with hpc | hpc <;> cases hpc

omit [Resource L EL] [Resource T ET] [Poll P A] in
/-- A turn of the command loop takes a message, a `Shutdown`, or nothing. -/
theorem receive_ok {turn : Turn} (hrun : rt.receive = .ok (turn, rt')) :
    (turn = .drained ∧ rt' = rt) ∨
    (turn = .shutdown ∧ ∃ queue, rt' = { rt with ctlRecv := { rt.ctlRecv with queue := queue } }) ∨
    (turn = .again ∧ ∃ cmd queue, rt' =
      { rt with ctlRecv := { rt.ctlRecv with queue := queue } }.call (.handleCommand cmd)) := by
  unfold receive Channel.tryRecv at hrun
  cases hqueue : rt.ctlRecv.queue with
  | nil =>
      rw [hqueue] at hrun
      by_cases hsenders : rt.ctlRecv.senders = 0
      · simp only [hsenders, if_true] at hrun
        cases hrun
      · simp only [hsenders, if_false] at hrun
        cases hrun
        exact Or.inl ⟨rfl, rfl⟩
  | cons msg queue =>
      rw [hqueue] at hrun
      cases msg with
      | cmd c =>
          cases hrun
          exact Or.inr (Or.inr ⟨rfl, c, queue, rfl⟩)
      | shutdown =>
          cases hrun
          exact Or.inr (Or.inl ⟨rfl, queue, rfl⟩)

/-- A turn of the command loop between other threads is one over a channel that holds all
messages of the pass. -/
theorem Serial.command {now : ℕ} {turn : Turn}
    (h : Serial (A := A) prof rt₀ (.commands now) rt.core)
    (hrun : rt.receive = .ok (turn, rt')) :
    Serial (A := A) prof rt₀ (Thread.afterCommand now turn) rt'.core := by
  cases h with
  | commands _ _ rt₁ rt₂ msgs received htaken hpassed env bound hpass turns hloop =>
      rcases receive_ok hrun with ⟨rfl, rfl⟩ | ⟨rfl, queue, rfl⟩ | ⟨rfl, cmd, queue, rfl⟩
      · -- the channel is empty, and so is what is left of the messages of the pass
        refine .actions now _ rt₁ rt'.core msgs { env with messages := received } htaken hpassed
          (max bound (turns + 1)) (fun fuel hfuel => ?_) 0 fun fuel => rfl
        obtain ⟨d, rfl⟩ := Nat.exists_eq_add_of_le' ((le_max_right _ _).trans hfuel)
        have hstep := hloop (d + 1) []
        rw [List.append_nil] at hstep
        rw [hpass _ _ ((le_max_left _ _).trans hfuel), fromCommands,
          show d + (turns + 1) = d + 1 + turns by omega, hstep]
        rfl
      · -- a `Shutdown` ends the pass, and with it the passes
        have hpass' : ∀ fuel, max bound (turns + 1) ≤ fuel →
            rt₁.pass prof fuel { env with messages := received ++ [.shutdown] } =
              pure (true, rt.core) := by
          intro fuel hfuel
          obtain ⟨d, rfl⟩ := Nat.exists_eq_add_of_le' ((le_max_right _ _).trans hfuel)
          rw [hpass _ _ ((le_max_left _ _).trans hfuel), fromCommands,
            show d + (turns + 1) = d + 1 + turns by omega, hloop (d + 1) [.shutdown]]
          rfl
        have hpassed' := hpassed.concat hpass'
        refine .leaving _ (Or.inl rfl) _ ?_
        rw [← List.append_assoc, ← htaken] at hpassed'
        exact hpassed'
      · refine .commands now _ rt₁ rt₂ msgs (received ++ [.cmd cmd]) ?_ hpassed env bound hpass
          (turns + 1) fun fuel rest => ?_
        · rw [← List.append_assoc, ← htaken]
          exact taken_concat rfl
        · rw [List.append_assoc, show fuel + (turns + 1) = fuel + 1 + turns by omega, hloop]
          rfl
  | leaving _ hpc => rcases hpc with hpc | hpc <;> cases hpc

/-- A turn of the loop of `handle_actions` takes no message. -/
theorem taken_of_handleNext {now : ℕ} {more : Bool}
    (hrun : rt.handleNext prof now = .ok (more, rt')) : rt'.taken = rt.taken := by
  unfold handleNext at hrun
  cases hnext : Handler.next rt.service with
  | mk answer service =>
      rw [hnext] at hrun
      cases answer with
      | none =>
          cases hrun
          exact taken_append rfl (List.forall_mem_singleton.mpr rfl)
      | some action =>
          obtain ⟨⟨result, rt''⟩, hact, hret⟩ := exists_of_bind_eq_ok hrun
          obtain ⟨-, -, tr, htrace, htr⟩ := (acted_of_handleAction hact).frame
          have hrt' : rt' = rt''.report result := by
            cases result <;> cases hret <;> rfl
          rw [hrt']
          refine taken_append (htrace.trans (List.append_assoc _ _ _)) fun obs hobs => ?_
          rcases List.mem_append.mp hobs with hobs | hobs
          · rw [List.mem_singleton.mp hobs]
            rfl
          · exact command_of_deed (System.deed_of_ofAction (htr obs hobs))

/-- An action is one turn of the loop of `handle_actions`, the last turn of which ends the
pass. -/
theorem Serial.action {now : ℕ} {more : Bool}
    (h : Serial (A := A) prof rt₀ (.actions now) rt.core)
    (hrun : rt.handleNext prof now = .ok (more, rt')) :
    Serial (A := A) prof rt₀ (if more then .actions now else .start) rt'.core := by
  have hcore := core_handleNext hrun
  have htaken' : rt'.core.taken = rt.core.taken := taken_of_handleNext hcore
  cases h with
  | actions _ _ rt₁ rt₂ msgs env htaken hpassed bound hpass turns hloop =>
      have hturn : ∀ fuel, handleActions prof now (fuel + 1) rt.core =
          if more then handleActions prof now fuel rt'.core else pure rt'.core := by
        intro fuel
        rw [handleActions, hcore, bind_of_ok]
      cases more with
      | true =>
          refine .actions now _ rt₁ rt₂ msgs env (htaken'.trans htaken) hpassed bound hpass
            (turns + 1) fun fuel => ?_
          rw [show fuel + (turns + 1) = fuel + 1 + turns by omega, hloop, hturn]
          rfl
      | false =>
          have hpass' : ∀ fuel, max bound (turns + 1) ≤ fuel →
              rt₁.pass prof fuel env = pure (false, rt'.core) := by
            intro fuel hfuel
            obtain ⟨d, rfl⟩ := Nat.exists_eq_add_of_le' ((le_max_right _ _).trans hfuel)
            rw [hpass _ ((le_max_left _ _).trans hfuel), fromActions,
              show d + (turns + 1) = d + 1 + turns by omega, hloop, hturn]
            rfl
          refine .start _ ?_
          rw [htaken', htaken]
          exact hpassed.concat hpass'
  | leaving _ hpc => rcases hpc with hpc | hpc <;> cases hpc

/-- Every turn of the reactor thread is a piece of a pass. -/
theorem Serial.ran {clock : SystemTime} {th th' : Thread H P L T C EL ET} {input : Input A}
    (h : Serial (A := A) prof rt₀ th.pc th.runtime.core)
    (hran : Thread.Ran prof clock th input th') :
    Serial (A := A) prof rt₀ th'.pc th'.runtime.core := by
  cases hran with
  | start hpc ls ts hperm timeout rt hrun => exact (hpc ▸ h).started hperm hrun
  | poll timeout hpc answer now rt hrun => exact (hpc ▸ h).polled hrun
  | batchDone now awoken hpc hnext => exact (hpc ▸ h).batchDone hnext
  | event now awoken hpc id res poller hnext woken rt hrun => exact (hpc ▸ h).event hnext hrun
  | command now hpc turn rt hrun => exact (hpc ▸ h).command hrun
  | action now hpc more rt hrun => exact (hpc ▸ h).action hrun
  | exit hpc =>
      rw [hpc] at h
      cases h with
      | leaving _ _ _ hpassed => exact .leaving _ (Or.inr rfl) _ hpassed
  | panicked input p => exact .panicked p _

end Runtime

section

variable [Handler H L T C EL ET] [Resource L EL] [Resource T ET] [Poll P A]
variable {prof : Profile} {engine : P} {G : System H P L T C EL ET → Label A C → Prop}

/-- In every reachable state the thread is some way through a pass. -/
theorem serial_of_reachable {s : System H P L T C EL ET}
    (hs : (reactor prof engine).Reachable G s) :
    ∃ (service : H) (fd : RawFd) (poller : P), Poll.registerWaker engine fd = .ok poller ∧
      Runtime.Serial (A := A) prof
        (System.boot service poller none : System H P L T C EL ET).runtime.core s.pc
        s.runtime.core := by
  refine hs.invariant (I := fun s => ∃ (service : H) (fd : RawFd) (poller : P),
    Poll.registerWaker engine fd = .ok poller ∧ Runtime.Serial (A := A) prof
      (System.boot service poller none : System H P L T C EL ET).runtime.core s.pc
      s.runtime.core) ?_ ?_
  · rintro s ⟨service, fd, clock, poller, hreg, rfl⟩
    refine ⟨service, fd, poller, hreg, .start _ ⟨[], 0, rfl, fun fuel _ => rfl⟩⟩
  · rintro s label s' ⟨service, fd, poller, hreg, hserial⟩ hG hstep
    refine ⟨service, fd, poller, hreg, ?_⟩
    cases label with
    | clock reading =>
        cases hstep
        exact hserial
    | breakWaker broken =>
        cases hstep
        exact hserial
    | controller i move =>
        -- the channel and the waker are no part of the core
        obtain ⟨chan, waker, hcore⟩ := System.core_of_controllerStep hstep
        rw [hcore]
        exact hserial
    | turn input =>
        obtain ⟨th, hturn, rfl⟩ := Option.map_eq_some_iff.mp hstep
        exact hserial.ran (Thread.ran_of_turn hturn)

/-- **The turns of the thread add up to passes of `run`.**  Whatever the other threads do in
between, the runtime at the start of the loop body is what the loop of `run` computes on
its own, pass by pass, from the readings of the clock, the iteration orders, the answers
to the polls and the messages of each pass, which together are the commands handled; and
once a `Shutdown` is taken it is what the loop returns with, the `Shutdown` being the
last message. -/
theorem runs_in_passes {s : System H P L T C EL ET}
    (hs : (reactor prof engine).Reachable G s) :
    ∃ (service : H) (fd : RawFd) (poller : P), Poll.registerWaker engine fd = .ok poller ∧
      (s.pc = .start → ∃ (envs : List (Surroundings A C)) (fuel : ℕ),
        (System.boot service poller none).runtime.core.run prof fuel envs =
          pure (false, s.runtime.core) ∧
        envs.flatMap Surroundings.messages = s.handled.map .cmd) ∧
      (s.pc.Leaving → ∃ (envs : List (Surroundings A C)) (fuel : ℕ),
        (System.boot service poller none).runtime.core.run prof fuel envs =
          pure (true, s.runtime.core) ∧
        envs.flatMap Surroundings.messages = s.handled.map .cmd ++ [.shutdown]) := by
  obtain ⟨service, fd, poller, hreg, hserial⟩ := serial_of_reachable hs
  refine ⟨service, fd, poller, hreg, fun hpc => ?_, fun hpc => ?_⟩
  · rw [hpc] at hserial
    cases hserial with
    | start _ hpassed =>
        obtain ⟨envs, bound, hmsgs, hrun⟩ := hpassed
        exact ⟨envs, bound, hrun bound le_rfl, hmsgs⟩
    | leaving _ hpc => rcases hpc with hpc | hpc <;> cases hpc
  · generalize s.pc = pc at hserial hpc
    cases hserial with
    | leaving _ _ _ hpassed =>
        obtain ⟨envs, bound, hmsgs, hrun⟩ := hpassed
        exact ⟨envs, bound, hrun bound le_rfl, hmsgs⟩
    | _ => rcases hpc with hpc | hpc <;> cases hpc

end

/-- The passes of a run with a command, a timer and a `Shutdown`. -/
theorem runs_in_passes_exited : ∃ s : Errands.Sys,
    (reactor .release Poller.new).Reachable Lts.anyLabel s ∧ s.pc = .exited ∧
    ∃ (service : Errands) (fd : RawFd) (poller : Poller),
      Poll.registerWaker Poller.new fd = .ok poller ∧
      (s.pc = .start → ∃ (envs : List (Surroundings _ (Action Pipe Pipe))) (fuel : ℕ),
        (System.boot service poller none).runtime.core.run .release fuel envs =
          pure (false, s.runtime.core) ∧
        envs.flatMap Surroundings.messages = s.handled.map .cmd) ∧
      (s.pc.Leaving → ∃ (envs : List (Surroundings _ (Action Pipe Pipe))) (fuel : ℕ),
        (System.boot service poller none).runtime.core.run .release fuel envs =
          pure (true, s.runtime.core) ∧
        envs.flatMap Surroundings.messages = s.handled.map .cmd ++ [.shutdown]) := by
  have hrun : Lts.exec (System.step .release) Lts.anyLabel Errands.boot
      [.controller 0 (.wake true),
        .controller 0 (.send (.cmd (.setTimer (Duration.fromMillis 5))) true),
        .controller 0 (.wake true), .turn (.start [] []),
        .turn (.poll (.ready [Errands.wakerEvent])), .turn .event, .turn .event, .turn .command,
        .turn .command, .turn .action, .turn .action, .controller 0 (.send .shutdown true),
        .controller 0 (.wake true), .turn (.start [] []),
        .turn (.poll (.ready [Errands.wakerEvent])), .turn .event, .turn .event, .turn .command,
        .turn .exit] = some _ := rfl
  have hs := Errands.reachable_of_exec hrun
  exact ⟨_, hs, rfl, runs_in_passes hs⟩

end IoReactor
