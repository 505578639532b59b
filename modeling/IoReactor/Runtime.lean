/-
# The reactor runtime (reactor.rs)

`Runtime` is the state of the reactor thread and the functions below are the
bodies of its loops.  `Runtime::run` is the loop that strings them together; it
is modelled in `System.lean`, where the turns of its inner loops interleave with
the controllers.

The handler is one value with one method `react` for all callbacks, the callback
being a constructor of `Call`, and the iterator method `next`.  Beyond the source
the runtime carries a `trace` of what it has done so far: the callbacks, the
answers of the service iterator and the I/O calls on the resources.
-/
import IoReactor.Poller

namespace IoReactor

/-! ## The handler interface -/

/-- `Error`. -/
inductive Error (L T : Type)
  | listenerDisconnect (id : ResourceId) (listener : L)
  | transportDisconnect (id : ResourceId) (transport : T)
  | poll (err : IoError)
  deriving DecidableEq

/-- `Action`. -/
inductive Action (L T : Type)
  | registerListener (listener : L)
  | registerTransport (transport : T)
  | unregisterListener (id : ResourceId)
  | unregisterTransport (id : ResourceId)
  | send (id : ResourceId) (data : List UInt8)
  | setTimer (duration : Duration)
  deriving DecidableEq

/-- The callbacks of the `Handler` trait, each with its arguments. -/
inductive Call (L T C EL ET : Type)
  | tick (time : ℕ)
  | handleTimer
  | handleListenerEvent (id : ResourceId) (event : EL) (time : ℕ)
  | handleTransportEvent (id : ResourceId) (event : ET) (time : ℕ)
  | handleRegistered (fd : RawFd) (id : ResourceId) (ty : ResourceType)
  | handleCommand (cmd : C)
  | handleError (err : Error L T)
  | handoverListener (id : ResourceId) (listener : L)
  | handoverTransport (id : ResourceId) (transport : T)
  deriving DecidableEq

/-- The `Handler` trait: how the service reacts to a callback, and the actions it
yields as an iterator. -/
class Handler (H : Type) (L T C EL ET : outParam Type) where
  react : H → Call L T C EL ET → H
  next : H → Option (Action L T) × H

/-- One entry of the trace of the reactor thread. -/
inductive Observation (L T C EL ET : Type)
  | call (call : Call L T C EL ET)
  | next (answer : Option (Action L T))
  | handleIo (id : ResourceId) (io : Io)
  | writeAtomic (id : ResourceId) (data : List UInt8) (result : Except WriteError Unit)

/-! ## The control channel and the waker -/

/-- `Ctl`: a message of the control channel. -/
inductive Ctl (C : Type)
  | cmd (cmd : C)
  | shutdown
  deriving DecidableEq

/-- `chan::TryRecvError`. -/
inductive TryRecvError
  | empty
  | disconnected

/-- The unbounded channel of `chan::unbounded`: the queued messages, the number of
live senders and whether the receiver is alive. -/
structure Channel (C : Type) where
  queue : List (Ctl C)
  senders : ℕ
  receiver : Bool

namespace Channel

variable {C : Type}

/-- `Receiver::try_recv`. -/
def tryRecv (chan : Channel C) : Except TryRecvError (Ctl C × Channel C) :=
  match chan.queue with
  | [] => if chan.senders = 0 then .error .disconnected else .error .empty
  | msg :: queue => .ok (msg, { chan with queue := queue })

/-- A successful `Sender::send`. -/
def push (chan : Channel C) (msg : Ctl C) : Channel C :=
  { chan with queue := chan.queue ++ [msg] }

/-- The receiver is dropped together with the sender of the runtime; the queued
messages are discarded. -/
def close (chan : Channel C) : Channel C :=
  { queue := [], senders := chan.senders - 1, receiver := false }

end Channel

/-- `PopolWaker`: the wake signal, which stays raised until it is reset, and
whether the system refuses to reset it. -/
structure Waker where
  signal : Bool
  broken : Bool
  deriving DecidableEq

/-- `WakerRecv::reset`. -/
def Waker.reset (waker : Waker) : Except Panic Waker :=
  if waker.broken then .error .unableToResetWaker else .ok { waker with signal := false }

/-- `WakerSend::wake`, when it succeeds. -/
def Waker.wake (waker : Waker) : Waker := { waker with signal := true }

/-! ## The runtime -/

/-- `WAIT_TIMEOUT`: the maximum amount of time to wait for I/O. -/
def WAIT_TIMEOUT : Duration := Duration.fromSecs (60 * 60)

/-- `Runtime`.  Its own clone of the controller is one of the senders of `ctlRecv`. -/
structure Runtime (H P L T C EL ET : Type) where
  service : H
  poller : P
  ctlRecv : Channel C
  listeners : HashMap ResourceId L
  transports : HashMap ResourceId T
  waker : Waker
  timeouts : Timer
  trace : List (Observation L T C EL ET)

/-- How a turn of the command loop of `Runtime::run` ends. -/
inductive Turn
  | again
  | drained
  | shutdown
  deriving DecidableEq

namespace Runtime

variable {H P A L T C EL ET : Type}

/-- Append an entry to the trace. -/
def note (self : Runtime H P L T C EL ET) (obs : Observation L T C EL ET) :
    Runtime H P L T C EL ET :=
  { self with trace := self.trace ++ [obs] }

section

variable [Handler H L T C EL ET]

/-- A callback of the service. -/
def call (self : Runtime H P L T C EL ET) (c : Call L T C EL ET) : Runtime H P L T C EL ET :=
  { self with service := Handler.react self.service c }.note (.call c)

/-- The inner loop of `Runtime::handle_events`: `handle_io` for each flag, and the
callback `onEvent` for each event it returns. -/
def ioLoop {R E : Type} [Resource R E] (id : ResourceId) (onEvent : E → Call L T C EL ET) :
    Runtime H P L T C EL ET → R → List Io → Runtime H P L T C EL ET × R
  | self, res, [] => (self, res)
  | self, res, io :: ios =>
      let (event, res) := Resource.handleIo res io
      let self := self.note (.handleIo id io)
      match event with
      | some event => ioLoop id onEvent (self.call (onEvent event)) res ios
      | none => ioLoop id onEvent self res ios

end

section

variable [Poll P A]

/-- Take a resource out of its map and out of the poll engine. -/
def takeResource {R : Type} (map : HashMap ResourceId R) (poller : P) (id : ResourceId) :
    Option (R × HashMap ResourceId R × P) :=
  (map.lookup id).map fun res => (res, map.erase id, Poll.unregister poller id)

/-- `Runtime::unregister_listener`. -/
def unregisterListener (self : Runtime H P L T C EL ET) (id : ResourceId) :
    Option L × Runtime H P L T C EL ET :=
  match takeResource self.listeners self.poller id with
  | none => (none, self)
  | some (listener, listeners, poller) =>
      (some listener, { self with listeners := listeners, poller := poller })

/-- `Runtime::unregister_transport`. -/
def unregisterTransport (self : Runtime H P L T C EL ET) (id : ResourceId) :
    Option T × Runtime H P L T C EL ET :=
  match takeResource self.transports self.poller id with
  | none => (none, self)
  | some (transport, transports, poller) =>
      (some transport, { self with transports := transports, poller := poller })

end

/-! ### Around the poll -/

section

variable [Resource L EL] [Resource T ET] [Poll P A]

/-- `for (id, res) in map { poller.set_interest(*id, res.interests()) }`, the keys
coming in the order of `ids`. -/
def setInterests {R E : Type} [Resource R E] (map : HashMap ResourceId R) (poller : P)
    (ids : List ResourceId) : P :=
  ids.foldl (fun poller id => match map.lookup id with
    | some res => (Poll.setInterest poller id (Resource.interests res)).2
    | none => poller) poller

/-- `Runtime::run`, from the start of the loop body to the poll: the timeout of the
poll, and the interests of all resources pushed to the poll engine, the maps being
iterated in the orders `ls` and `ts`. -/
def beforePoll (prof : Profile) (clock : SystemTime) (self : Runtime H P L T C EL ET)
    (ls ts : List ResourceId) : Except Panic (Duration × Runtime H P L T C EL ET) := do
  let before_poll ← Timestamp.now clock
  let expiring ← self.timeouts.nextExpiringFrom prof before_poll
  let timeout := expiring.getD WAIT_TIMEOUT
  let poller := setInterests self.listeners self.poller ls
  let poller := setInterests self.transports poller ts
  return (timeout, { self with poller := poller })

end

section

variable [Handler H L T C EL ET] [Poll P A]

/-- `Runtime::run`, from the poll to the call of `handle_events`. -/
def afterPoll (prof : Profile) (clock : SystemTime) (self : Runtime H P L T C EL ET)
    (timeout : Duration) (answer : A) :
    Except Panic (ℕ × Runtime H P L T C EL ET) := do
  let (res, poller) := Poll.poll self.poller (some timeout) answer
  let now ← Timestamp.now clock
  let self := { self with poller := poller }.call (.tick now)
  let (fired, timeouts) ← self.timeouts.removeExpiredBy prof now
  let self := { self with timeouts := timeouts }
  let self := if 0 < fired then self.call .handleTimer else self
  match res with
  | .ok _ => return (now, self)
  | .error err => return (now, self.call (.handleError (.poll err)))

end

/-! ### The turns of the loops -/

section

variable [Handler H L T C EL ET] [Resource L EL] [Resource T ET] [Poll P A]

/-- The body of the loop of `Runtime::handle_events`.  The flag says whether the
event was the waker's. -/
def handleEvent (self : Runtime H P L T C EL ET) (id : ResourceId)
    (res : Except IoFail IoType) (time : ℕ) :
    Except Panic (Bool × Runtime H P L T C EL ET) :=
  if id = ResourceId.WAKER then
    match res with
    | .error err => .error (.wakerFailure err)
    | .ok _ => do
        let waker ← self.waker.reset
        return (true, { self with waker := waker })
  else if id ∈ self.listeners then
    match res with
    | .ok io =>
        match self.listeners.lookup id with
        | none => .error .resourceDisappeared
        | some listener =>
            let (self, listener) :=
              ioLoop id (fun event => .handleListenerEvent id event time) self listener io.flags
            .ok (false, { self with listeners := self.listeners.insert id listener })
    | .error _ =>
        match self.unregisterListener id with
        | (none, _) => .error .listenerDisappeared
        | (some listener, self) =>
            .ok (false, self.call (.handleError (.listenerDisconnect id listener)))
  else if id ∈ self.transports then
    match res with
    | .ok io =>
        match self.transports.lookup id with
        | none => .error .resourceDisappeared
        | some transport =>
            let (self, transport) :=
              ioLoop id (fun event => .handleTransportEvent id event time) self transport io.flags
            .ok (false, { self with transports := self.transports.insert id transport })
    | .error _ =>
        match self.unregisterTransport id with
        | (none, _) => .error .transportDisappeared
        | (some transport, self) =>
            .ok (false, self.call (.handleError (.transportDisconnect id transport)))
  else .error .unknownDescriptor

/-- `Runtime::handle_action`. -/
def handleAction (prof : Profile) (self : Runtime H P L T C EL ET) (action : Action L T)
    (time : ℕ) : Except Panic (Except (Error L T) Unit × Runtime H P L T C EL ET) :=
  match action with
  | .registerListener listener => do
      let fd := Resource.asRawFd listener
      let (id, poller) ← Poll.register prof self.poller fd IoType.readOnly
      let self := { self with
        poller := poller
        listeners := self.listeners.insert id listener }
      return (.ok (), self.call (.handleRegistered fd id .listener))
  | .registerTransport transport => do
      let fd := Resource.asRawFd transport
      let (id, poller) ← Poll.register prof self.poller fd IoType.readOnly
      let self := { self with
        poller := poller
        transports := self.transports.insert id transport }
      return (.ok (), self.call (.handleRegistered fd id .transport))
  | .unregisterListener id =>
      match self.unregisterListener id with
      | (none, self) => .ok (.ok (), self)
      | (some listener, self) => .ok (.ok (), self.call (.handoverListener id listener))
  | .unregisterTransport id =>
      match self.unregisterTransport id with
      | (none, self) => .ok (.ok (), self)
      | (some transport, self) => .ok (.ok (), self.call (.handoverTransport id transport))
  | .send id data =>
      match self.transports.lookup id with
      | none => .ok (.ok (), self)
      | some transport => do
          let (result, transport) ← writeAtomic prof transport data
          let self := { self with transports := self.transports.insert id transport }
          let self := self.note (.writeAtomic id data result)
          match result with
          | .error .notReady => .error (.writeNotReady id)
          | .error (.io _) =>
              match self.unregisterTransport id with
              | (some transport, self) => .ok (.error (.transportDisconnect id transport), self)
              -- out of reach: the transport has just been written to
              | (none, self) => .ok (.ok (), self)
          | .ok () => .ok (.ok (), self)
  | .setTimer duration => do
      let timeouts ← self.timeouts.setTimeout prof duration time
      return (.ok (), { self with timeouts := timeouts })

/-- The body of the loop of `Runtime::handle_actions`; `false` when the service has
no further action. -/
def handleNext (prof : Profile) (self : Runtime H P L T C EL ET) (time : ℕ) :
    Except Panic (Bool × Runtime H P L T C EL ET) :=
  match Handler.next self.service with
  | (none, service) => .ok (false, { self with service := service }.note (.next none))
  | (some action, service) => do
      let self := { self with service := service }.note (.next (some action))
      let (result, self) ← self.handleAction prof action time
      match result with
      | .ok () => return (true, self)
      | .error err => return (true, self.call (.handleError err))

end

/-- The body of the command loop of `Runtime::run`. -/
def receive [Handler H L T C EL ET] (self : Runtime H P L T C EL ET) :
    Except Panic (Turn × Runtime H P L T C EL ET) :=
  match self.ctlRecv.tryRecv with
  | .error .empty => .ok (.drained, self)
  | .error .disconnected => .error .controlChannelBroken
  | .ok (.shutdown, chan) => .ok (.shutdown, { self with ctlRecv := chan })
  | .ok (.cmd cmd, chan) =>
      .ok (.again, { self with ctlRecv := chan }.call (.handleCommand cmd))

end Runtime

end IoReactor
