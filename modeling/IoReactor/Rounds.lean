/-
# The order of the callbacks

What the service and the resources see of the reactor thread is a sequence of rounds, one
for each iteration of `run`: `tick`, then `handle_timer` if a deadline has expired, then
the error of the poll if there was one, then the events, which come after an error as well,
then the commands, then the actions, each with its own effect, up to the answer that there
is no further action.  `Stage.next` is the automaton that reads such a sequence entry by
entry; `trace_in_rounds` says that it reads the trace of every run and is at the stage that
fits the point of the thread.
-/
import IoReactor.Batches

namespace IoReactor

variable {H P A L T C EL ET : Type}

/-! ## The automaton -/

/-- How far a round has come; `now` is its time. -/
inductive Stage (L T : Type)
  /-- between two rounds -/
  | resting
  /-- `tick` was called -/
  | ticked (now : ℕ)
  /-- `handle_timer` was called -/
  | timed (now : ℕ)
  /-- the error of the poll was reported -/
  | failed (now : ℕ)
  /-- events are dispatched; `id` is the resource that was just handed a flag -/
  | dispatching (now : ℕ) (id : Option ResourceId)
  /-- commands are handled -/
  | hearing (now : ℕ)
  /-- an action is complete -/
  | acting (now : ℕ)
  /-- the service has yielded an action -/
  | yielded (now : ℕ) (action : Action L T)
  /-- a write to the transport `id` has failed -/
  | broken (now : ℕ) (id : ResourceId)

namespace Stage

/-- Reading an entry where only actions can come: the service yields one, or has none. -/
def nextAction (now : ℕ) : Observation L T C EL ET → Option (Stage L T)
  | .next none => some .resting
  | .next (some action) => some (.yielded now action)
  | _ => none

/-- Reading an entry where commands can still come. -/
def nextCommand (now : ℕ) : Observation L T C EL ET → Option (Stage L T)
  | .call (.handleCommand _) => some (.hearing now)
  | obs => nextAction now obs

/-- Reading an entry where events can still come: the event that a resource returns comes
right after the flag it was handed, with the time of the round. -/
def nextEvent (now : ℕ) (last : Option ResourceId) :
    Observation L T C EL ET → Option (Stage L T)
  | .handleIo id _ => some (.dispatching now (some id))
  | .call (.handleListenerEvent id _ time) =>
      if last = some id ∧ time = now then some (.dispatching now none) else none
  | .call (.handleTransportEvent id _ time) =>
      if last = some id ∧ time = now then some (.dispatching now none) else none
  | .call (.handleError (.listenerDisconnect _ _)) => some (.dispatching now none)
  | .call (.handleError (.transportDisconnect _ _)) => some (.dispatching now none)
  | obs => nextCommand now obs

/-- Reading an entry where the error of the poll can come. -/
def nextError (now : ℕ) : Observation L T C EL ET → Option (Stage L T)
  | .call (.handleError (.poll _)) => some (.failed now)
  | obs => nextEvent now none obs

/-- Reading an entry after the service has yielded an action: its effect.  An action that
names no resource has none, and neither has a timer. -/
def nextEffect [Resource L EL] [Resource T ET] (now : ℕ) :
    Action L T → Observation L T C EL ET → Option (Stage L T)
  | .registerListener listener, .call (.handleRegistered fd _ .listener) =>
      if fd = Resource.asRawFd listener then some (.acting now) else none
  | .registerTransport transport, .call (.handleRegistered fd _ .transport) =>
      if fd = Resource.asRawFd transport then some (.acting now) else none
  | .unregisterListener id, .call (.handoverListener id' _) =>
      if id' = id then some (.acting now) else none
  | .unregisterTransport id, .call (.handoverTransport id' _) =>
      if id' = id then some (.acting now) else none
  | .send id data, .writeAtomic id' data' result =>
      if id' = id ∧ data' = data then
        match result with
        | .ok () => some (.acting now)
        | .error (.io _) => some (.broken now id)
        | .error .notReady => none
      else none
  | action, obs => if action.registers then none else nextAction now obs

/-- Reading one entry of the trace. -/
def next [Resource L EL] [Resource T ET] : Stage L T → Observation L T C EL ET →
    Option (Stage L T)
  | resting, .call (.tick now) => some (ticked now)
  | resting, _ => none
  | ticked now, .call .handleTimer => some (timed now)
  | ticked now, obs => nextError now obs
  | timed now, obs => nextError now obs
  | failed now, obs => nextEvent now none obs
  | dispatching now last, obs => nextEvent now last obs
  | hearing now, obs => nextCommand now obs
  | acting now, obs => nextAction now obs
  | yielded now action, obs => nextEffect now action obs
  | broken now id, .call (.handleError (.transportDisconnect id' _)) =>
      if id' = id then some (acting now) else none
  | broken _ _, _ => none

/-- Reading a trace. -/
def read [Resource L EL] [Resource T ET] (stage : Stage L T)
    (tr : List (Observation L T C EL ET)) : Option (Stage L T) :=
  tr.foldlM next stage

/-- Events can still come at the stage. -/
def Listens (now : ℕ) : Stage L T → Prop
  | ticked now' => now' = now
  | timed now' => now' = now
  | failed now' => now' = now
  | dispatching now' _ => now' = now
  | _ => False

/-- Commands can still come at the stage. -/
def Hears (now : ℕ) : Stage L T → Prop
  | hearing now' => now' = now
  | stage => stage.Listens now

/-- Actions can come at the stage. -/
def Acts (now : ℕ) : Stage L T → Prop
  | acting now' => now' = now
  | yielded now' action => now' = now ∧ action.registers = false
  | stage => stage.Hears now

/-- The stage fits the point that the thread has reached. -/
def Fits (stage : Stage L T) : Pc → Prop
  | .start => stage = resting
  | .poll _ => stage = resting
  | .events now _ => stage.Listens now
  | .commands now => stage.Hears now
  | .actions now => stage.Acts now
  | .shutdown => ∃ now, stage.Hears now
  | .exited => ∃ now, stage.Hears now
  | .panicked _ => True

/-- Where events can come, commands can. -/
theorem Listens.hears {stage : Stage L T} {now : ℕ} (h : stage.Listens now) :
    stage.Hears now := by
  cases stage with
  | hearing now' => exact h.elim
  | _ => exact h

/-- Where commands can come, actions can. -/
theorem Hears.acts {stage : Stage L T} {now : ℕ} (h : stage.Hears now) : stage.Acts now := by
  cases stage with
  | acting now' => exact h.elim
  | yielded now' action => exact h.elim
  | _ => exact h

end Stage

/-- The trace of the thread is read up to a stage that fits its point. -/
def Thread.InRounds [Resource L EL] [Resource T ET] (th : Thread H P L T C EL ET) : Prop :=
  ∃ stage, Stage.read .resting th.runtime.trace = some stage ∧ stage.Fits th.pc

/-! ## Reading the pieces of the trace -/

namespace Stage

section

variable [Resource L EL] [Resource T ET]

/-- A trace is read piece by piece. -/
theorem read_append {stage stage' : Stage L T} {tr tr' : List (Observation L T C EL ET)}
    (h : stage.read tr = some stage') : stage.read (tr ++ tr') = stage'.read tr' := by
  have happend : stage.read (tr ++ tr') = stage.read tr >>= fun stage => stage.read tr' :=
    List.foldlM_append
  rw [happend, h]
  rfl

/-- Reading one entry first. -/
theorem read_cons {stage stage' : Stage L T} {obs : Observation L T C EL ET}
    {tr : List (Observation L T C EL ET)} (h : stage.next obs = some stage') :
    stage.read (obs :: tr) = stage'.read tr := by
  have hcons : stage.read (obs :: tr) = stage.next obs >>= fun stage => stage.read tr :=
    List.foldlM_cons
  rw [hcons, h]
  rfl

/-- Reading one entry only. -/
theorem read_singleton {stage stage' : Stage L T} {obs : Observation L T C EL ET}
    (h : stage.next obs = some stage') : stage.read [obs] = some stage' := by
  rw [read_cons h]
  rfl

/-- The answer of the service is read where actions can come. -/
theorem next_of_acts {stage : Stage L T} {now : ℕ} (h : stage.Acts now)
    (answer : Option (Action L T)) :
    stage.next (.next answer : Observation L T C EL ET) =
      nextAction now (.next answer : Observation L T C EL ET) := by
  cases stage with
  | resting => exact h.elim
  | broken now' id => exact h.elim
  | yielded now' action =>
      obtain ⟨rfl, hno⟩ := h
      cases action <;> first | rfl | cases hno
  | _ =>
      cases h
      rfl

/-- A command is read where commands can come. -/
theorem next_of_hears {stage : Stage L T} {now : ℕ} (h : stage.Hears now) (c : C) :
    stage.next (.call (.handleCommand c) : Observation L T C EL ET) = some (.hearing now) := by
  cases stage with
  | resting => exact h.elim
  | broken now' id => exact h.elim
  | acting now' => exact h.elim
  | yielded now' action => exact h.elim
  | _ =>
      cases h
      rfl

/-- A flag is read where events can come. -/
theorem next_handleIo {stage : Stage L T} {now : ℕ} (h : stage.Listens now) (id : ResourceId)
    (io : Io) :
    stage.next (.handleIo id io : Observation L T C EL ET) = some (.dispatching now (some id)) := by
  cases stage with
  | ticked now' =>
      cases h
      rfl
  | timed now' =>
      cases h
      rfl
  | failed now' =>
      cases h
      rfl
  | dispatching now' last =>
      cases h
      rfl
  | _ => exact h.elim

/-- The disconnect of a listener is read where events can come. -/
theorem next_listenerDisconnect {stage : Stage L T} {now : ℕ} (h : stage.Listens now)
    (id : ResourceId) (listener : L) :
    stage.next (.call (.handleError (.listenerDisconnect id listener)) :
      Observation L T C EL ET) = some (.dispatching now none) := by
  cases stage with
  | ticked now' =>
      cases h
      rfl
  | timed now' =>
      cases h
      rfl
  | failed now' =>
      cases h
      rfl
  | dispatching now' last =>
      cases h
      rfl
  | _ => exact h.elim

/-- The disconnect of a transport is read where events can come. -/
theorem next_transportDisconnect {stage : Stage L T} {now : ℕ} (h : stage.Listens now)
    (id : ResourceId) (transport : T) :
    stage.next (.call (.handleError (.transportDisconnect id transport)) :
      Observation L T C EL ET) = some (.dispatching now none) := by
  cases stage with
  | ticked now' =>
      cases h
      rfl
  | timed now' =>
      cases h
      rfl
  | failed now' =>
      cases h
      rfl
  | dispatching now' last =>
      cases h
      rfl
  | _ => exact h.elim

/-- The flags of a resource and the events it returns are read where events can come. -/
theorem read_ioTrace {R E : Type} [Resource R E] {id : ResourceId}
    {onEvent : E → Call L T C EL ET} {now : ℕ}
    (hevent : ∀ event, Stage.next (.dispatching now (some id)) (.call (onEvent event)) =
      some (.dispatching now none)) (res : R) (ios : List Io) {stage : Stage L T}
    (h : stage.Listens now) :
    ∃ stage', stage.read (Runtime.ioTrace id onEvent res ios) = some stage' ∧
      stage'.Listens now := by
  induction ios generalizing res stage with
  | nil => exact ⟨stage, rfl, h⟩
  | cons io ios ih =>
      rw [Runtime.ioTrace, List.cons_append, read_cons (next_handleIo h id io)]
      cases (Resource.handleIo res io).1 with
      | none => exact ih _ rfl
      | some event =>
          rw [Option.toList_some, List.map_singleton, List.singleton_append,
            read_cons (hevent event)]
          exact ih _ rfl

/-- The callbacks between the poll and the events, from a start of the round. -/
theorem read_pollCalls (now : ℕ) (fired : Bool) (res : Except IoError ℕ) :
    ∃ stage : Stage L T, Stage.read .resting
        ((Runtime.pollCalls now fired res).map .call : List (Observation L T C EL ET)) =
          some stage ∧ stage.Listens now := by
  cases fired with
  | true =>
      cases res with
      | ok n => exact ⟨.timed now, rfl, rfl⟩
      | error err => exact ⟨.failed now, rfl, rfl⟩
  | false =>
      cases res with
      | ok n => exact ⟨.ticked now, rfl, rfl⟩
      | error err => exact ⟨.failed now, rfl, rfl⟩

end

end Stage

/-! ## Reading what an event and an action add -/

namespace Runtime

section

variable [Handler H L T C EL ET] [Resource L EL] [Resource T ET] [Poll P A]
variable {rt rt' : Runtime H P L T C EL ET}

/-- What an event adds to the trace is read where events can come. -/
theorem Handled.read {id : ResourceId} {res : Except IoFail IoType} {time : ℕ} {woken : Bool}
    (h : Handled rt id res time woken rt') {stage : Stage L T} (hstage : stage.Listens time) :
    ∃ tr stage', rt'.trace = rt.trace ++ tr ∧ stage.read tr = some stage' ∧
      stage'.Listens time := by
  cases h with
  | waker hid io hres => exact ⟨[], stage, (List.append_nil _).symm, rfl, hstage⟩
  | listenerIo hid io hres listener hlook =>
      have hevent : ∀ event, Stage.next (.dispatching time (some id))
          (.call (.handleListenerEvent id event time) : Observation L T C EL ET) =
            some (.dispatching time none) := fun event => if_pos ⟨rfl, rfl⟩
      obtain ⟨stage', hread, hlistens⟩ :=
        Stage.read_ioTrace hevent listener io.toList hstage
      refine ⟨_, stage', ?_, hread, hlistens⟩
      rw [Runtime.listenerIo, ioLoop_eq]
  | listenerGone hid err hres listener hlook =>
      exact ⟨_, .dispatching time none, rfl,
        Stage.read_singleton (Stage.next_listenerDisconnect hstage id listener), rfl⟩
  | transportIo hid hno io hres transport hlook =>
      have hevent : ∀ event, Stage.next (.dispatching time (some id))
          (.call (.handleTransportEvent id event time) : Observation L T C EL ET) =
            some (.dispatching time none) := fun event => if_pos ⟨rfl, rfl⟩
      obtain ⟨stage', hread, hlistens⟩ :=
        Stage.read_ioTrace hevent transport io.toList hstage
      refine ⟨_, stage', ?_, hread, hlistens⟩
      rw [Runtime.transportIo, ioLoop_eq]
  | transportGone hid hno err hres transport hlook =>
      exact ⟨_, .dispatching time none, rfl,
        Stage.read_singleton (Stage.next_transportDisconnect hstage id transport), rfl⟩

/-- What an action and its report add to the trace is read as the effect of the action. -/
theorem Acted.read {prof : Profile} {now : ℕ} {action : Action L T}
    {result : Except (Error L T) Unit} (h : Acted prof rt now action result rt') :
    ∃ tr stage', (rt'.report result).trace = rt.trace ++ tr ∧
      Stage.read (.yielded now action) tr = some stage' ∧ stage'.Acts now := by
  cases h with
  | registerListener listener id poller hreg =>
      exact ⟨_, .acting now, rfl, Stage.read_singleton (if_pos rfl), rfl⟩
  | registerTransport transport id poller hreg =>
      exact ⟨_, .acting now, rfl, Stage.read_singleton (if_pos rfl), rfl⟩
  | unregisterListener id listener hlook =>
      exact ⟨_, .acting now, rfl, Stage.read_singleton (if_pos rfl), rfl⟩
  | unregisterTransport id transport hlook =>
      exact ⟨_, .acting now, rfl, Stage.read_singleton (if_pos rfl), rfl⟩
  | sent id data transport transport' hlook hwrite =>
      exact ⟨_, .acting now, rfl, Stage.read_singleton (if_pos ⟨rfl, rfl⟩), rfl⟩
  | sendFailed id data transport transport' err hlook hwrite =>
      have hbroken : Stage.next (.yielded now (.send id data))
          (.writeAtomic id data (.error (.io err)) : Observation L T C EL ET) =
            some (.broken now id) := if_pos ⟨rfl, rfl⟩
      refine ⟨[.writeAtomic id data (.error (.io err)),
        .call (.handleError (.transportDisconnect id transport'))], .acting now, ?_, ?_, rfl⟩
      · exact List.append_assoc _ [_] [_]
      · rw [Stage.read_cons hbroken]
        exact Stage.read_singleton (if_pos rfl)
  | setTimer duration timeouts hset =>
      exact ⟨[], .yielded now (.setTimer duration), (List.append_nil _).symm, rfl, rfl, rfl⟩
  | ignored _ hno =>
      refine ⟨[], .yielded now action, (List.append_nil _).symm, rfl, rfl, ?_⟩
      cases action with
      | registerListener listener => exact hno.elim
      | registerTransport transport => exact hno.elim
      | _ => rfl

end

end Runtime

/-! ## Whole runs -/

namespace Thread

variable [Handler H L T C EL ET] [Resource L EL] [Resource T ET] [Poll P A]
variable {th th' : Thread H P L T C EL ET}

omit [Handler H L T C EL ET] [Poll P A] in
/-- A trace that is longer by a piece that is read. -/
theorem InRounds.extend {stage stage' : Stage L T} {tr : List (Observation L T C EL ET)}
    (hread : Stage.read .resting th.runtime.trace = some stage)
    (htrace : th'.runtime.trace = th.runtime.trace ++ tr) (hpiece : stage.read tr = some stage')
    (hfits : stage'.Fits th'.pc) : th'.InRounds :=
  ⟨stage', by rw [htrace, Stage.read_append hread, hpiece], hfits⟩

/-- Every turn goes on with the round. -/
theorem InRounds.turned {prof : Profile} {clock : SystemTime} {input : Input A}
    (h : th.InRounds) (hturned : Turned prof clock th input th') : th'.InRounds := by
  obtain ⟨stage, hread, hfits⟩ := h
  cases hturned with
  | started hpc ls ts hls hts time hclock expiring hexp =>
      rw [hpc] at hfits
      exact ⟨stage, hread, hfits⟩
  | polled timeout hpc answer now hclock fired hfired service rt hrt =>
      rw [hpc] at hfits
      cases hfits
      obtain ⟨stage', hpiece, hlistens⟩ : ∃ stage' : Stage L T, Stage.read .resting
          ((Runtime.pollCalls now fired (Poll.poll th.runtime.poller (some timeout) answer).1).map
            .call : List (Observation L T C EL ET)) = some stage' ∧ stage'.Listens now :=
        Stage.read_pollCalls now fired _
      exact InRounds.extend hread (by rw [hrt]) hpiece hlistens
  | batchDone now awoken hpc hnext =>
      rw [hpc] at hfits
      refine ⟨stage, hread, ?_⟩
      have hhears := Stage.Listens.hears hfits
      cases awoken with
      | true => exact hhears
      | false => exact hhears.acts
  | event now awoken hpc id res poller hnext woken rt hev =>
      rw [hpc] at hfits
      obtain ⟨tr, stage', htrace, hpiece, hlistens⟩ := hev.read hfits
      exact InRounds.extend hread htrace hpiece hlistens
  | drained now hpc hqueue =>
      rw [hpc] at hfits
      exact ⟨stage, hread, Stage.Hears.acts hfits⟩
  | command now hpc c queue hqueue =>
      rw [hpc] at hfits
      exact InRounds.extend hread rfl (Stage.read_singleton (Stage.next_of_hears hfits c)) rfl
  | shutdown now hpc queue hqueue =>
      rw [hpc] at hfits
      exact ⟨stage, hread, now, hfits⟩
  | actionsDone now hpc service hnext =>
      rw [hpc] at hfits
      have hrests : stage.read [(.next none : Observation L T C EL ET)] = some .resting :=
        Stage.read_singleton (Stage.next_of_acts hfits none)
      exact InRounds.extend hread rfl hrests rfl
  | action now hpc action service hnext result rt hact =>
      rw [hpc] at hfits
      obtain ⟨tr, stage', htrace, hpiece, hacts⟩ := hact.read
      have hnext' : stage.read (.next (some action) :: tr) = some stage' := by
        rw [Stage.read_cons (Stage.next_of_acts hfits (some action))]
        exact hpiece
      exact InRounds.extend hread (htrace.trans (List.append_assoc _ _ _)) hnext' hacts
  | exited hpc =>
      rw [hpc] at hfits
      exact ⟨stage, hread, hfits⟩
  | panicked input p hp => exact ⟨stage, hread, trivial⟩

end Thread

section

variable [Handler H L T C EL ET] [Resource L EL] [Resource T ET] [Poll P A]

end

end IoReactor
