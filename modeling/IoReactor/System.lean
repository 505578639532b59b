/-
# The reactor thread and its controllers (reactor.rs)

`Thread` is the reactor thread inside `Runtime::run`: the runtime and the point
the loop has reached.  `Thread.turn` advances it by one turn of a loop, the unit
between which the other threads may act.

`System` adds the clones of the controller, each of which runs `cmd` or `shutdown`
in two steps, sending the message and raising the wake signal, and either step may
fail.  A run of the system is any interleaving of these steps with the turns of
the reactor thread, with an arbitrary clock and arbitrary answers of the operating
system; what a result assumes about these is a guard on the labels of the run.
-/
import IoReactor.Transition
import IoReactor.Runtime

namespace IoReactor

/-! ## The reactor thread -/

/-- The point `Runtime::run` has reached. -/
inductive Pc
  /-- at the start of the loop body -/
  | start
  /-- at the call of `Poll::poll` -/
  | poll (timeout : Duration)
  /-- in the loop of `handle_events` -/
  | events (now : ℕ) (awoken : Bool)
  /-- in the command loop -/
  | commands (now : ℕ)
  /-- in the loop of `handle_actions` -/
  | actions (now : ℕ)
  /-- in `handle_shutdown`, with the runtime about to be dropped -/
  | shutdown
  /-- `run` has returned and the runtime is dropped -/
  | exited
  /-- a panic has unwound the thread and dropped the runtime -/
  | panicked (panic : Panic)
  deriving DecidableEq

/-- The reactor thread. -/
structure Thread (H P L T C EL ET : Type) where
  pc : Pc
  runtime : Runtime H P L T C EL ET

/-- What the surroundings feed into one turn of the reactor thread. -/
inductive Input (A : Type)
  /-- the iteration orders of the two maps -/
  | start (listeners transports : List ResourceId)
  /-- the answer of the operating system to the poll syscall -/
  | poll (answer : A)
  | event
  | command
  | action
  | exit

namespace Thread

variable {H P A L T C EL ET : Type}

/-- The thread after a computation that advances it or panics.  Nothing is kept of what a turn
has done before it panics: the runtime is dropped as the turn found it. -/
def resume (th : Thread H P L T C EL ET) :
    Except Panic (Pc × Runtime H P L T C EL ET) → Thread H P L T C EL ET
  | .ok (pc, runtime) => ⟨pc, runtime⟩
  | .error panic =>
      ⟨.panicked panic, { th.runtime with ctlRecv := th.runtime.ctlRecv.close }⟩

/-- Where the command loop goes after a turn. -/
def afterCommand (now : ℕ) : Turn → Pc
  | .again => .commands now
  | .drained => .actions now
  | .shutdown => .shutdown

variable [Handler H L T C EL ET] [Resource L EL] [Resource T ET] [Poll P A]

/-- `Runtime::run`, one turn at a time.  `none`: the input does not fit the point
the thread has reached. -/
def turn (prof : Profile) (clock : SystemTime) (th : Thread H P L T C EL ET) :
    Input A → Option (Thread H P L T C EL ET)
  | .start ls ts =>
      match th.pc with
      | .start =>
          if ls.Perm th.runtime.listeners.keys ∧ ts.Perm th.runtime.transports.keys then
            some (th.resume do
              let (timeout, runtime) ← th.runtime.beforePoll prof clock ls ts
              return (.poll timeout, runtime))
          else none
      | _ => none
  | .poll answer =>
      match th.pc with
      | .poll timeout =>
          some (th.resume do
            let (now, runtime) ← th.runtime.afterPoll prof clock timeout answer
            return (.events now false, runtime))
      | _ => none
  | .event =>
      match th.pc with
      | .events now awoken =>
          match Poll.next th.runtime.poller with
          | none => some ⟨if awoken then .commands now else .actions now, th.runtime⟩
          | some ((id, res), poller) =>
              some (th.resume do
                let runtime := { th.runtime with poller := poller }
                let (woken, runtime) ← runtime.handleEvent id res now
                return (.events now (awoken || woken), runtime))
      | _ => none
  | .command =>
      match th.pc with
      | .commands now =>
          some (th.resume do
            let (turn, runtime) ← th.runtime.receive
            return (afterCommand now turn, runtime))
      | _ => none
  | .action =>
      match th.pc with
      | .actions now =>
          some (th.resume do
            let (more, runtime) ← th.runtime.handleNext prof now
            return (if more then .actions now else .start, runtime))
      | _ => none
  -- `handle_shutdown` only drops the runtime
  | .exit =>
      match th.pc with
      | .shutdown =>
          some ⟨.exited, { th.runtime with ctlRecv := th.runtime.ctlRecv.close }⟩
      | _ => none

end Thread

/-! ## Controllers -/

/-- The calls that raise the wake signal: `Controller::cmd`, `Controller::shutdown`
and the wake-up at the end of `Reactor::with`. -/
inductive Op (C : Type)
  | launch
  | cmd (command : C)
  | shutdown
  deriving DecidableEq

namespace Op

variable {C : Type}

/-- The message the call sends. -/
def message : Op C → Option (Ctl C)
  | .launch => none
  | .cmd c => some (.cmd c)
  | .shutdown => some .shutdown

/-- Whether the call returns `Ok`, given whether its send and its wake succeeded.
`cmd` propagates either error with `?`, `shutdown` returns `res1.or(res2)`. -/
def result (op : Op C) (sent woken : Bool) : Bool :=
  match op with
  | .launch => woken
  | .cmd _ => sent && woken
  | .shutdown => sent || woken

end Op

/-- A clone of the controller, by what it is doing. -/
inductive Controller (C : Type)
  | idle
  /-- between the send and the wake of a call; `slot` is the position of its message
  in the control channel, if the send succeeded -/
  | waking (op : Op C) (slot : Option ℕ)
  | dropped
  deriving DecidableEq

/-- What becomes of a clone whose call has returned: `shutdown` consumes it unless
it fails, and `Reactor::with` drops it if it cannot wake the thread. -/
def Op.leaves {C : Type} (op : Op C) (ok : Bool) : Controller C :=
  match op with
  | .launch => if ok then .idle else .dropped
  | .cmd _ => .idle
  | .shutdown => if ok then .dropped else .idle

/-- A call that has returned: where its message went, whether it raised the wake
signal, and whether it returned `Ok`. -/
structure Return (C : Type) where
  op : Op C
  slot : Option ℕ
  woken : Bool
  ok : Bool
  deriving DecidableEq

/-- What a clone of the controller can do next. -/
inductive Move (C : Type)
  | clone
  | drop
  /-- the first step of a call, with the outcome of the send -/
  | send (op : Op C) (ok : Bool)
  /-- the second step of a call, with the outcome of the wake -/
  | wake (ok : Bool)

/-! ## The system -/

/-- The reactor thread, the clock, the clones of the controller, and two history
variables: all messages ever sent, in channel order, and the calls that have
returned. -/
structure System (H P L T C EL ET : Type) extends Thread H P L T C EL ET where
  clock : SystemTime
  controllers : List (Controller C)
  sent : List (Ctl C)
  returned : List (Return C)

/-- The labels of the steps of the system. -/
inductive Label (A C : Type)
  /-- the system clock changes -/
  | clock (reading : SystemTime)
  /-- the operating system starts or stops refusing to reset the waker -/
  | breakWaker (broken : Bool)
  | controller (i : ℕ) (move : Move C)
  | turn (input : Input A)

/-! What guards speak about: each function finds its kind of step in a label. -/

namespace Label

variable {A C : Type}

/-- The start of an iteration. -/
abbrev atStart : Label A C → Option Unit
  | .turn (.start _ _) => some ()
  | _ => none

/-- A poll, and its answer. -/
abbrev atPoll : Label A C → Option A
  | .turn (.poll answer) => some answer
  | _ => none

/-- A turn of the loop of `handle_events`. -/
abbrev atEvent : Label A C → Option Unit
  | .turn .event => some ()
  | _ => none

/-- A turn of the command loop. -/
abbrev atCommand : Label A C → Option Unit
  | .turn .command => some ()
  | _ => none

/-- A turn of the loop of `handle_actions`. -/
abbrev atAction : Label A C → Option Unit
  | .turn .action => some ()
  | _ => none

/-- The second step of a call, by its clone, and whether the wake succeeds. -/
abbrev atWake : Label A C → Option (ℕ × Bool)
  | .controller i (.wake ok) => some (i, ok)
  | _ => none

/-- A change of the clock, and what it reads then. -/
abbrev atClock : Label A C → Option SystemTime
  | .clock reading => some reading
  | _ => none

/-- A turn of the reactor thread. -/
abbrev atTurn : Label A C → Option (Input A)
  | .turn input => some input
  | _ => none

end Label

namespace System

variable {H P A L T C EL ET : Type}

/-- The control channel. -/
abbrev channel (s : System H P L T C EL ET) : Channel C := s.runtime.ctlRecv

/-- Replace the control channel. -/
def setChannel (s : System H P L T C EL ET) (chan : Channel C) : System H P L T C EL ET :=
  { s with runtime := { s.runtime with ctlRecv := chan } }

/-- Replace the waker. -/
def setWaker (s : System H P L T C EL ET) (waker : Waker) : System H P L T C EL ET :=
  { s with runtime := { s.runtime with waker := waker } }

/-- Replace the `i`-th clone of the controller. -/
def setController (s : System H P L T C EL ET) (i : ℕ) (ctl : Controller C) :
    System H P L T C EL ET :=
  { s with controllers := s.controllers.set i ctl }

/-- Note down a call that returns. -/
def record (s : System H P L T C EL ET) (ret : Return C) : System H P L T C EL ET :=
  { s with returned := s.returned ++ [ret] }

/-- One sender of the channel is dropped when the clone is. -/
def release (s : System H P L T C EL ET) (ctl : Controller C) : System H P L T C EL ET :=
  match ctl with
  | .dropped => s.setChannel { s.channel with senders := s.channel.senders - 1 }
  | _ => s

/-- The first step of `Controller::cmd` and `Controller::shutdown`.  A send can fail
at any time, and always fails once the receiver is gone. -/
def sendStep (s : System H P L T C EL ET) (i : ℕ) (op : Op C) (ok : Bool) :
    Option (System H P L T C EL ET) :=
  match op.message with
  | none => none
  | some msg =>
      if ok then
        if s.channel.receiver then
          some { (s.setChannel (s.channel.push msg)).setController i
              (.waking op (some s.sent.length)) with sent := s.sent ++ [msg] }
        else none
      -- `cmd` returns at once when its send fails, `shutdown` goes on to its wake
      else match op with
        | .shutdown => some (s.setController i (.waking op none))
        | _ => some (s.record ⟨op, none, false, false⟩)

/-- The second step of a call, after which it returns. -/
def wakeStep (s : System H P L T C EL ET) (i : ℕ) (op : Op C) (slot : Option ℕ) (ok : Bool) :
    System H P L T C EL ET :=
  let s := if ok then s.setWaker s.runtime.waker.wake else s
  let result := op.result slot.isSome ok
  let s := s.record ⟨op, slot, ok, result⟩
  (s.setController i (op.leaves result)).release (op.leaves result)

/-- A step of the `i`-th clone of the controller. -/
def controllerStep (s : System H P L T C EL ET) (i : ℕ) :
    Move C → Option (System H P L T C EL ET)
  | .clone =>
      match s.controllers[i]? with
      | some .idle =>
          some { s.setChannel { s.channel with senders := s.channel.senders + 1 } with
            controllers := s.controllers ++ [.idle] }
      | _ => none
  | .drop =>
      match s.controllers[i]? with
      | some .idle => some ((s.setController i .dropped).release .dropped)
      | _ => none
  | .send op ok =>
      match s.controllers[i]? with
      | some .idle => s.sendStep i op ok
      | _ => none
  | .wake ok =>
      match s.controllers[i]? with
      | some (.waking op slot) => some (s.wakeStep i op slot ok)
      | _ => none

/-- The system as `Reactor::with` leaves it: the thread enters `run` with its own
clone of the controller, and the other clone is about to wake it up. -/
def boot (service : H) (poller : P) (clock : SystemTime) : System H P L T C EL ET where
  pc := .start
  runtime := {
    service := service
    poller := poller
    ctlRecv := { queue := [], senders := 2, receiver := true }
    listeners := ∅
    transports := ∅
    waker := { signal := false, broken := false }
    timeouts := Timer.new
    trace := [] }
  clock := clock
  controllers := [.waking .launch none]
  sent := []
  returned := []

variable [Handler H L T C EL ET] [Resource L EL] [Resource T ET] [Poll P A]

/-- One step of the system. -/
def step (prof : Profile) (s : System H P L T C EL ET) :
    Label A C → Option (System H P L T C EL ET)
  | .clock reading => some { s with clock := reading }
  | .breakWaker broken => some (s.setWaker { s.runtime.waker with broken := broken })
  | .controller i move => s.controllerStep i move
  | .turn input =>
      (s.toThread.turn prof s.clock input).map fun th => { s with toThread := th }

end System

/-- A reactor that is started with the poll engine `engine`, built in the given
profile. -/
def reactor {H P A L T C EL ET : Type} [Handler H L T C EL ET] [Resource L EL]
    [Resource T ET] [Poll P A] (prof : Profile) (engine : P) :
    Lts (System H P L T C EL ET) (Label A C) :=
  Lts.ofFun
    (fun s => ∃ service fd clock poller,
      Poll.registerWaker engine fd = .ok poller ∧ s = System.boot service poller clock)
    (System.step prof)

/-! ## A small service

A service that queues each command it receives as an action, over resources that
report every I/O flag and append what they are sent to their output; concrete runs
are evaluated on it. -/

/-- A resource with a fixed descriptor, a switch for readiness and an error its writes
may run into. -/
structure Pipe where
  fd : RawFd
  interests : IoType
  ready : Bool
  failure : Option IoError
  output : List UInt8
  deriving DecidableEq

instance : Resource Pipe Io where
  asRawFd := Pipe.fd
  interests := Pipe.interests
  handleIo res io := (some io, res)
  isReadyToWrite := Pipe.ready
  writeOrBuf res buf :=
    match res.failure with
    | none => (.ok (), { res with output := res.output ++ buf })
    | some err => (.error err, res)

/-- The service: the actions it has not yielded yet. -/
structure Errands where
  queue : List (Action Pipe Pipe)

instance : Handler Errands Pipe Pipe (Action Pipe Pipe) Io Io where
  react self call :=
    match call with
    | .handleCommand action => ⟨self.queue ++ [action]⟩
    | _ => self
  next self :=
    match self.queue with
    | [] => (none, self)
    | action :: queue => (some action, ⟨queue⟩)

namespace Errands

/-- The system that runs the service on the popol engine. -/
abbrev Sys := System Errands Poller Pipe Pipe (Action Pipe Pipe) Io Io

/-- The labels of its steps. -/
abbrev Lab := Label Popol.Answer (Action Pipe Pipe)

/-- The service is started one second after the epoch. -/
def boot : Sys :=
  System.boot ⟨[]⟩ { Poller.new with
    poll := Popol.Sources.register ∅ ResourceId.WAKER 5 .READ } (some (Duration.fromMillis 1000))

/-- The poll event of the waker. -/
def wakerEvent : Popol.Event := ⟨.WAKER, 1, true, false, false, false, false⟩

/-- A pipe that is ready to be written to. -/
def pipe : Pipe := ⟨7, ⟨true, false⟩, true, none, []⟩

/-- The service starts on a new engine. -/
theorem init_boot (prof : Profile) : (reactor prof Poller.new).init boot :=
  ⟨⟨[]⟩, 5, some (Duration.fromMillis 1000), _, rfl, rfl⟩

/-- A list of labels that executes reaches its result. -/
theorem reachable_of_exec {prof : Profile} {G : Sys → Lab → Prop} [∀ s a, Decidable (G s a)]
    {labels : List Lab} {s : Sys} (h : Lts.exec (System.step prof) G boot labels = some s) :
    (reactor prof Poller.new).Reachable G s :=
  Lts.reachable_of_exec (init_boot prof) h

end Errands

end IoReactor
