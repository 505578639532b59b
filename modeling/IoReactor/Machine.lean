/-
# The machine under the reactor: panics, build profiles and machine integers

What the Rust sources take from the language and its standard library: the
identifiers and error values that cross module boundaries, the panics the crate
can raise, and the arithmetic of `u64` and `u128`, whose overflow panics in a
debug build and wraps in a release build.
-/
import Mathlib.Algebra.Group.Nat.Defs
import Mathlib.Tactic.Common

namespace IoReactor

/-! ## Identifiers and error values -/

/-- A POSIX file descriptor. -/
abbrev RawFd := ℤ

/-- `ResourceId` (resource.rs): the `u64` that names a resource in the reactor. -/
structure ResourceId where
  raw : ℕ
  deriving DecidableEq, Repr

/-- `ResourceId::WAKER`: the id of the waker, always zero. -/
def ResourceId.WAKER : ResourceId := ⟨0⟩

/-- The kinds of `io::Error` the crate tells apart, and all the others. -/
inductive ErrorKind
  | wouldBlock
  | interrupted
  | writeZero
  | timedOut
  | other (code : ℕ)
  deriving DecidableEq, Repr

/-- `io::Error`, of which the crate reads the kind only. -/
structure IoError where
  kind : ErrorKind
  deriving DecidableEq, Repr

/-- `IoFail` (poller/mod.rs): why polling failed for one resource, with the raw
POSIX events. -/
inductive IoFail
  | connectivity (fired : ℤ)
  | os (fired : ℤ)
  deriving DecidableEq, Repr

/-! ## Panics -/

/-- The panics the crate itself can raise, one constructor for each message. -/
inductive Panic
  /-- `waker failure: {err}` -/
  | wakerFailure (err : IoFail)
  /-- `unable to reset waker queue` -/
  | unableToResetWaker
  /-- `resource disappeared` -/
  | resourceDisappeared
  /-- `listener has disappeared` -/
  | listenerDisappeared
  /-- `transport has disappeared` -/
  | transportDisappeared
  /-- `file descriptor in reactor which is not a known waker, listener or transport` -/
  | unknownDescriptor
  /-- `control channel is broken` -/
  | controlChannelBroken
  /-- `application business logic error: write to transport {id} which is read-only
  or not ready for a write operation` -/
  | writeNotReady (id : ResourceId)
  /-- `WriteAtomic::write_or_buf must handle EGAGAIN, EINTR, EWOULDBLOCK errors by
  buffering the data` -/
  | writeOrBufMustBuffer
  /-- `Reactor waker is already registered` -/
  | wakerAlreadyRegistered
  /-- `system time` -/
  | systemTime
  /-- `attempt to add with overflow` -/
  | addWithOverflow
  /-- `attempt to subtract with overflow` -/
  | subtractWithOverflow
  deriving DecidableEq, Repr

/-- The build profile: a debug build checks arithmetic and `debug_assert!`s, a
release build does neither. -/
inductive Profile
  | debug
  | release
  deriving DecidableEq, Repr

/-! ## Machine arithmetic -/

/-- The sum of two `w`-bit words. -/
def wordAdd (prof : Profile) (w a b : ℕ) : Except Panic ℕ :=
  if a + b < 2 ^ w then .ok (a + b)
  else match prof with
    | .debug => .error .addWithOverflow
    | .release => .ok ((a + b) % 2 ^ w)

/-- The difference of two `w`-bit words. -/
def wordSub (prof : Profile) (w a b : ℕ) : Except Panic ℕ :=
  if b ≤ a then .ok (a - b)
  else match prof with
    | .debug => .error .subtractWithOverflow
    | .release => .ok (2 ^ w + a - b)

/-- A sum that fits is exact in both profiles. -/
theorem wordAdd_of_lt {prof : Profile} {w a b : ℕ} (h : a + b < 2 ^ w) :
    wordAdd prof w a b = .ok (a + b) := by
  unfold wordAdd
  rw [if_pos h]

/-- A difference that does not underflow is exact in both profiles. -/
theorem wordSub_of_le {prof : Profile} {w a b : ℕ} (h : b ≤ a) :
    wordSub prof w a b = .ok (a - b) := by
  unfold wordSub
  rw [if_pos h]

/-- A subtraction panics exactly when it underflows in a debug build. -/
theorem wordSub_eq_error_iff {prof : Profile} {w a b : ℕ} {p : Panic} :
    wordSub prof w a b = .error p ↔
      prof = .debug ∧ a < b ∧ p = .subtractWithOverflow := by
  unfold wordSub
  by_cases h : b ≤ a
  · rw [if_pos h]
    constructor
    · intro hc
      cases hc
    · rintro ⟨-, hlt, -⟩
      omega
  · rw [if_neg h]
    have hlt : a < b := by omega
    cases prof <;> simp [hlt, eq_comm]

end IoReactor
