/-
# Poll engines (poller/mod.rs, poller/popol.rs)

`Poll` is the trait a reactor polls through.  What the operating system answers
to one poll syscall is an argument of `poll`, of a type that belongs to the engine.

`Poller` is the engine on top of the `popol` crate.  Of that crate the model takes
the source table, a finite map keyed by `ResourceId`, and the event record with
its readiness predicates.  A registration under a key that is there already, of which
`popol` promises nothing, replaces the entry here; the engine runs into it only after its
ids have wrapped around.  An answer of the system is what `popol` appends to the queue and
what it returns, an error or not; nothing ties the two together.
-/
import Mathlib.Data.List.AList
import IoReactor.Timeouts
import IoReactor.Resource

namespace IoReactor

/-- `HashMap`: a finite map, kept as a list of entries with distinct keys. -/
abbrev HashMap (κ ν : Type) := AList (fun _ : κ => ν)

/-! ## The trait -/

/-- The `Poll` trait, `A` being the answers the operating system may give to one
poll syscall. -/
class Poll (P : Type) (A : outParam Type) where
  /-- `Poll::register_waker` -/
  registerWaker : P → RawFd → Except Panic P
  /-- `Poll::register` -/
  register : Profile → P → RawFd → IoType → Except Panic (ResourceId × P)
  /-- `Poll::unregister` -/
  unregister : P → ResourceId → P
  /-- `Poll::set_interest` -/
  setInterest : P → ResourceId → IoType → Bool × P
  /-- `Poll::poll` -/
  poll : P → Option Duration → A → Except IoError ℕ × P
  /-- `Iterator::next` -/
  next : P → Option ((ResourceId × Except IoFail IoType) × P)

/-! ## The popol crate -/

namespace Popol

/-- `popol::Interest`: a mask made of the two disjoint parts `READ` and `WRITE`. -/
structure Interest where
  read : Bool
  write : Bool
  deriving DecidableEq, Repr

/-- `popol::interest::NONE`. -/
def Interest.NONE : Interest := ⟨false, false⟩

/-- `popol::interest::READ`. -/
def Interest.READ : Interest := ⟨true, false⟩

/-- `popol::interest::WRITE`. -/
def Interest.WRITE : Interest := ⟨false, true⟩

/-- The bits of either mask. -/
def Interest.union (a b : Interest) : Interest := ⟨a.read || b.read, a.write || b.write⟩

/-- The bits of the first mask that are not in the second. -/
def Interest.diff (a b : Interest) : Interest := ⟨a.read && !b.read, a.write && !b.write⟩

/-- `popol::Source`: a registered descriptor and what it is polled for. -/
structure Source where
  fd : RawFd
  interest : Interest

/-- `popol::Sources`. -/
abbrev Sources := HashMap ResourceId Source

/-- `popol::Sources::register`. -/
def Sources.register (sources : Sources) (key : ResourceId) (fd : RawFd) (interest : Interest) :
    Sources :=
  sources.insert key ⟨fd, interest⟩

/-- `popol::Sources::unregister`. -/
def Sources.unregister (sources : Sources) (key : ResourceId) : Sources := sources.erase key

/-- Replace the interest of a key by a function of it; `false` for an unknown key. -/
def Sources.modify (sources : Sources) (key : ResourceId) (f : Interest → Interest) :
    Bool × Sources :=
  match sources.lookup key with
  | none => (false, sources)
  | some src => (true, sources.insert key { src with interest := f src.interest })

/-- `popol::Sources::set`. -/
def Sources.set (sources : Sources) (key : ResourceId) (mask : Interest) : Bool × Sources :=
  sources.modify key fun interest => interest.union mask

/-- `popol::Sources::unset`. -/
def Sources.unset (sources : Sources) (key : ResourceId) (mask : Interest) : Bool × Sources :=
  sources.modify key fun interest => interest.diff mask

/-- `popol::Event`: the key of the source, the raw events and what the readiness
predicates of the crate say about them. -/
structure Event where
  key : ResourceId
  rawEvents : ℤ
  isReadable : Bool
  isWritable : Bool
  isHangup : Bool
  isError : Bool
  isInvalid : Bool
  deriving DecidableEq, Repr

/-- What `popol::Sources::poll` does: the events that it appends to the queue it is given, and
what it returns. -/
structure Answer where
  events : List Event
  result : Except IoError ℕ

/-- The poll returns the number of its events. -/
def Answer.ready (events : List Event) : Answer := ⟨events, .ok events.length⟩

/-- Changing the interest of a source registers and unregisters nothing. -/
@[simp] theorem Sources.mem_modify {sources : Sources} {key key' : ResourceId}
    {f : Interest → Interest} : key' ∈ (sources.modify key f).2 ↔ key' ∈ sources := by
  unfold Sources.modify
  cases hlook : sources.lookup key with
  | none => rfl
  | some src =>
      have hkey : key ∈ sources := AList.lookup_isSome.mp (by rw [hlook]; rfl)
      simp only [AList.mem_insert]
      constructor
      · rintro (rfl | h)
        · exact hkey
        · exact h
      · exact Or.inr

end Popol

/-! ## The popol engine -/

/-- `From<IoType> for popol::Interest`. -/
def IoType.toInterest (ev : IoType) : Popol.Interest :=
  let e := Popol.Interest.NONE
  let e := if ev.read then e.union .READ else e
  if ev.write then e.union .WRITE else e

/-- `Poller`: the source table, the queue of pending events and the id generator. -/
structure Poller where
  poll : Popol.Sources
  events : List Popol.Event
  idGen : ResourceIdGenerator

namespace Poller

/-- `Poller::new`, and `Poller::with_capacity`. -/
def new : Poller := ⟨∅, [], .default⟩

/-- `Poller::register_waker`. -/
def registerWaker (self : Poller) (fd : RawFd) : Except Panic Poller :=
  if (self.poll.lookup ResourceId.WAKER).isSome then .error .wakerAlreadyRegistered
  else .ok { self with poll := Popol.Sources.register self.poll ResourceId.WAKER fd .READ }

/-- `Poller::register`. -/
def register (prof : Profile) (self : Poller) (fd : RawFd) (interest : IoType) :
    Except Panic (ResourceId × Poller) := do
  let (id, idGen) ← self.idGen.next prof
  return (id, { self with
    idGen := idGen
    poll := Popol.Sources.register self.poll id fd interest.toInterest })

/-- `Poller::unregister`. -/
def unregister (self : Poller) (id : ResourceId) : Poller :=
  { self with poll := Popol.Sources.unregister self.poll id }

/-- `Poller::set_interest`. -/
def setInterest (self : Poller) (id : ResourceId) (interest : IoType) : Bool × Poller :=
  let (_, sources) := Popol.Sources.unset self.poll id interest.not.toInterest
  let (found, sources) := Popol.Sources.set sources id interest.toInterest
  (found, { self with poll := sources })

/-- `Poller::poll`: `popol` is handed the queue, so its events are there whatever it returns; a
timeout counts as no event. -/
def pollSources (self : Poller) (_timeout : Option Duration) (answer : Popol.Answer) :
    Except IoError ℕ × Poller :=
  let self := { self with events := self.events ++ answer.events }
  match answer.result with
  | .ok count => (.ok count, self)
  | .error err => if err.kind = .timedOut then (.ok 0, self) else (.error err, self)

/-- The result `Poller::next` makes of an event: a hangup or an error hides the
readiness flags. -/
def resultOf (event : Popol.Event) : Except IoFail IoType :=
  let fired := event.rawEvents
  if event.isHangup then .error (.connectivity fired)
  else if event.isError || event.isInvalid then .error (.os fired)
  else .ok ⟨event.isReadable, event.isWritable⟩

/-- `Iterator::next for Poller`. -/
def next (self : Poller) : Option ((ResourceId × Except IoFail IoType) × Poller) :=
  match self.events with
  | [] => none
  | event :: events => some ((event.key, resultOf event), { self with events := events })

instance : Poll Poller Popol.Answer where
  registerWaker := registerWaker
  register := register
  unregister := unregister
  setInterest := setInterest
  poll := pollSources
  next := next

end Poller

end IoReactor
