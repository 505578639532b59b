/-
# Resources, their ids and atomic writes (resource.rs, poller/mod.rs)

The `Resource` and `WriteAtomic` traits become one class whose fields are the
trait methods the reactor calls.  A method with `&mut self` returns the new value
of the resource; whatever the operating system contributes to a call is part of
the resource value.
-/
import Mathlib.Data.List.Basic
import IoReactor.Machine

namespace IoReactor

/-! ## Readiness -/

/-- `Io`: one kind of I/O readiness. -/
inductive Io
  | read
  | write
  deriving DecidableEq, Repr

/-- `IoType`: a set of I/O readiness flags. -/
structure IoType where
  read : Bool
  write : Bool
  deriving DecidableEq, Repr

namespace IoType

/-- `IoType::read_only`. -/
def readOnly : IoType := ⟨true, false⟩

/-- `Not for IoType`. -/
def not (io : IoType) : IoType := ⟨!io.read, !io.write⟩

/-- `Iterator::next for IoType`: the next flag, and the flags that remain. -/
def next (io : IoType) : Option (Io × IoType) :=
  if io.write then some (.write, { io with write := false })
  else if io.read then some (.read, { io with read := false })
  else none

/-- The flags that up to `n` calls of `next` hand out, in order. -/
def collect : ℕ → IoType → List Io
  | 0, _ => []
  | n + 1, io =>
      match io.next with
      | none => []
      | some (flag, rest) => flag :: rest.collect n

/-- The flags that a `for` loop meets.  There are two of them at most, so the third call of
`next` ends the loop at the latest. -/
def flags (io : IoType) : List Io := io.collect 3

/-- The flags that are set, write before read. -/
def toList (io : IoType) : List Io :=
  (if io.write then [.write] else []) ++ (if io.read then [.read] else [])

/-- Whether a flag is set. -/
def has (io : IoType) : Io → Bool
  | .read => io.read
  | .write => io.write

/-- The iteration hands out the flags that are set, and has then come to its end. -/
theorem collect_eq_toList {n : ℕ} (h : 2 ≤ n) (io : IoType) : io.collect n = io.toList := by
  obtain ⟨n, rfl⟩ := Nat.exists_eq_add_of_le h
  rw [Nat.add_comm]
  obtain ⟨read, write⟩ := io
  cases read <;> cases write <;> cases n <;> rfl

/-- A `for` loop meets the flags that are set, write before read. -/
theorem flags_eq_toList (io : IoType) : io.flags = io.toList :=
  collect_eq_toList (by decide) io

/-- The flags that are set are those in the list. -/
theorem mem_toList {io : IoType} {flag : Io} : flag ∈ io.toList ↔ io.has flag = true := by
  obtain ⟨read, write⟩ := io
  cases flag <;> cases read <;> cases write <;> simp [toList, has]

end IoType

/-! ## Resource ids -/

/-- `ResourceType`. -/
inductive ResourceType
  | listener
  | transport
  deriving DecidableEq, Repr

/-- `ResourceIdGenerator`: the next id to hand out, a `u64`. -/
structure ResourceIdGenerator where
  counter : ℕ
  deriving DecidableEq, Repr

namespace ResourceIdGenerator

/-- `ResourceIdGenerator::default`. -/
def default : ResourceIdGenerator := ⟨1⟩

/-- `ResourceIdGenerator::next`. -/
def next (prof : Profile) (gen : ResourceIdGenerator) :
    Except Panic (ResourceId × ResourceIdGenerator) := do
  let counter ← wordAdd prof 64 gen.counter 1
  return (⟨gen.counter⟩, ⟨counter⟩)

/-- Below the end of the `u64` range the generator hands out its counter and
advances it by one. -/
theorem next_eq {prof : Profile} {gen : ResourceIdGenerator} (h : gen.counter + 1 < 2 ^ 64) :
    gen.next prof = .ok (⟨gen.counter⟩, ⟨gen.counter + 1⟩) := by
  rw [next, wordAdd_of_lt h]
  rfl

end ResourceIdGenerator

/-! ## Resources -/

/-- The `Resource` trait with its supertraits, `E` being `Resource::Event`. -/
class Resource (R : Type) (E : outParam Type) where
  /-- `AsRawFd::as_raw_fd` -/
  asRawFd : R → RawFd
  /-- `Resource::interests` -/
  interests : R → IoType
  /-- `Resource::handle_io` -/
  handleIo : R → Io → Option E × R
  /-- `WriteAtomic::is_ready_to_write` -/
  isReadyToWrite : R → Bool
  /-- `WriteAtomic::write_or_buf` -/
  writeOrBuf : R → List UInt8 → Except IoError Unit × R

/-- `WriteError`. -/
inductive WriteError
  | notReady
  | io (err : IoError)
  deriving DecidableEq, Repr

/-- The error kinds that `write_or_buf` must buffer away and never return. -/
def ErrorKind.mustBuffer : ErrorKind → Bool
  | .wouldBlock | .interrupted | .writeZero => true
  | .timedOut | .other _ => false

section WriteAtomic

variable {R E : Type} [Resource R E]

/-- `WriteAtomic::write_atomic`.  The `debug_assert!` panics in a debug build when
`write_or_buf` returns an error it had to buffer away. -/
def writeAtomic (prof : Profile) (res : R) (buf : List UInt8) :
    Except Panic (Except WriteError Unit × R) :=
  if Resource.isReadyToWrite res then
    match Resource.writeOrBuf res buf with
    | (.ok (), res') => .ok (.ok (), res')
    | (.error err, res') =>
        if prof = .debug ∧ err.kind.mustBuffer then .error .writeOrBufMustBuffer
        else .ok (.error (.io err), res')
  else .ok (.error .notReady, res)

/-- An atomic write panics only on a `write_or_buf` outside its contract. -/
theorem writeAtomic_error {prof : Profile} {res : R} {buf : List UInt8} {p : Panic}
    (h : writeAtomic prof res buf = .error p) : p = .writeOrBufMustBuffer := by
  unfold writeAtomic at h
  split at h
  · split at h
    · cases h
    · split at h
      · cases h
        rfl
      · cases h
  · cases h

/-- What an atomic write may leave behind: the resource untouched when it is not
ready, the outcome of `write_or_buf` otherwise. -/
theorem writeAtomic_ok {prof : Profile} {res res' : R} {buf : List UInt8}
    {r : Except WriteError Unit} (h : writeAtomic prof res buf = .ok (r, res')) :
    (r = .error .notReady ∧ res' = res ∧ Resource.isReadyToWrite res = false) ∨
    (r = .ok () ∧ Resource.writeOrBuf res buf = (.ok (), res')) ∨
    (∃ err, r = .error (.io err) ∧ Resource.writeOrBuf res buf = (.error err, res')) := by
  unfold writeAtomic at h
  split at h
  · split at h
    · rename_i hw
      cases h
      exact Or.inr (Or.inl ⟨rfl, hw⟩)
    · rename_i err _ hw
      split at h
      · cases h
      · cases h
        exact Or.inr (Or.inr ⟨err, rfl, hw⟩)
  · rename_i hready
    cases h
    exact Or.inl ⟨rfl, rfl, by simpa using hready⟩

end WriteAtomic

end IoReactor
