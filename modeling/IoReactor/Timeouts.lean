/-
# Timestamps and the timer (timeouts.rs)

`Timestamp` counts milliseconds since the UNIX epoch in a `u128`, `Timer` keeps a
`BTreeSet` of deadlines.  The set is a `Finset`, on which `first` and `splitOff`
are the operations of the standard library.

The clock hands out `Duration`s since the epoch, so every timestamp the program
reads is below `2 ^ 74` milliseconds and no `u128` sum of the timer overflows
(`asMillis_lt`); only the narrowing to `u64` in `nextExpiringFrom` is lossy.
-/
import Mathlib.Data.Finset.Max
import Mathlib.Tactic.Linarith
import IoReactor.Machine

namespace IoReactor

/-! ## Durations -/

/-- `std::time::Duration`: whole seconds in a `u64` and the nanoseconds left over. -/
structure Duration where
  secs : ℕ
  nanos : ℕ
  secs_lt : secs < 2 ^ 64
  nanos_lt : nanos < 10 ^ 9
  deriving DecidableEq

namespace Duration

/-- `Duration::as_millis`. -/
def asMillis (d : Duration) : ℕ := d.secs * 1000 + d.nanos / 1000000

/-- `Duration::from_millis` of a `u64`. -/
def fromMillis (millis : ℕ) : Duration where
  secs := millis % 2 ^ 64 / 1000
  nanos := millis % 2 ^ 64 % 1000 * 1000000
  secs_lt := by
    have : millis % 2 ^ 64 < 2 ^ 64 := Nat.mod_lt _ (by norm_num)
    omega
  nanos_lt := by
    have : millis % 2 ^ 64 % 1000 < 1000 := Nat.mod_lt _ (by norm_num)
    omega

/-- `Duration::from_secs` of a `u64`. -/
def fromSecs (secs : ℕ) : Duration where
  secs := secs % 2 ^ 64
  nanos := 0
  secs_lt := Nat.mod_lt _ (by norm_num)
  nanos_lt := by norm_num

/-- `Duration::MAX`. -/
def MAX : Duration where
  secs := 2 ^ 64 - 1
  nanos := 999999999
  secs_lt := by norm_num
  nanos_lt := by norm_num

/-- A duration has fewer than `2 ^ 74` milliseconds. -/
theorem asMillis_lt (d : Duration) : d.asMillis < 2 ^ 74 := by
  have h1 := d.secs_lt
  have h2 := d.nanos_lt
  unfold asMillis
  omega

/-- A `u64` number of milliseconds survives the conversion to a duration. -/
theorem asMillis_fromMillis {millis : ℕ} (h : millis < 2 ^ 64) :
    (fromMillis millis).asMillis = millis := by
  simp only [asMillis, fromMillis, Nat.mod_eq_of_lt h]
  omega

end Duration

/-! ## Timestamps

A `Timestamp` is a `u128`, here a natural number. -/

/-- What `SystemTime::now().duration_since(UNIX_EPOCH)` answers; `none` while the
system clock stands before the epoch. -/
abbrev SystemTime := Option Duration

namespace Timestamp

/-- `Timestamp::now`. -/
def now : SystemTime → Except Panic ℕ
  | some d => .ok d.asMillis
  | none => .error .systemTime

/-- `Timestamp::as_millis`: the low 64 bits. -/
def asMillis (t : ℕ) : ℕ := t % 2 ^ 64

/-- A timestamp comes from a clock that stands past the epoch. -/
theorem now_eq_ok_iff {clock : SystemTime} {t : ℕ} :
    now clock = .ok t ↔ ∃ d, clock = some d ∧ t = d.asMillis := by
  cases clock with
  | none => simp [now]
  | some d => simp [now, eq_comm]

/-- Timestamps read from a clock are far below the `u128` range. -/
theorem lt_of_now {clock : SystemTime} {t : ℕ} (h : now clock = .ok t) :
    t < 2 ^ 74 := by
  obtain ⟨d, -, rfl⟩ := now_eq_ok_iff.mp h
  exact d.asMillis_lt

end Timestamp

/-! ## The ordered set -/

namespace BTreeSet

/-- `BTreeSet::first`. -/
def first (s : Finset ℕ) : Option ℕ := if h : s.Nonempty then some (s.min' h) else none

/-- `BTreeSet::split_off`: what stays, and the part at or after the key. -/
def splitOff (s : Finset ℕ) (key : ℕ) : Finset ℕ × Finset ℕ :=
  (s.filter (· < key), s.filter (key ≤ ·))

/-- The first element of a set is its minimum. -/
theorem first_eq_some_iff {s : Finset ℕ} {m : ℕ} :
    first s = some m ↔ m ∈ s ∧ ∀ x ∈ s, m ≤ x := by
  unfold first
  split
  · rename_i h
    rw [Option.some.injEq]
    constructor
    · rintro rfl
      exact ⟨s.min'_mem h, fun x hx => s.min'_le x hx⟩
    · rintro ⟨hm, hle⟩
      exact le_antisymm (s.min'_le m hm) (hle _ (s.min'_mem h))
  · rename_i h
    constructor
    · intro hc
      cases hc
    · rintro ⟨hm, -⟩
      exact absurd ⟨m, hm⟩ h

/-- Only the empty set has no first element. -/
theorem first_eq_none_iff {s : Finset ℕ} : first s = none ↔ s = ∅ := by
  unfold first
  split
  · rename_i h
    simp [h.ne_empty]
  · rename_i h
    simp [Finset.not_nonempty_iff_eq_empty.mp h]

end BTreeSet

/-! ## The timer -/

/-- `Timer`: the deadlines that are set, in milliseconds since the UNIX epoch. -/
structure Timer where
  timeouts : Finset ℕ

namespace Timer

/-- `Timer::new`. -/
def new : Timer := ⟨∅⟩

/-- `Timer::count`. -/
def count (tm : Timer) : ℕ := tm.timeouts.card

/-- `Timer::set_timeout`. -/
def setTimeout (prof : Profile) (tm : Timer) (timeout : Duration) (after : ℕ) :
    Except Panic Timer := do
  let time ← wordAdd prof 128 after timeout.asMillis
  return ⟨insert time tm.timeouts⟩

/-- `Timer::next_expiring_from`.  The comparison is made on the full timestamps,
the subtraction on their low 64 bits. -/
def nextExpiringFrom (prof : Profile) (tm : Timer) (time : ℕ) :
    Except Panic (Option Duration) :=
  match BTreeSet.first tm.timeouts with
  | none => .ok none
  | some last =>
      if time ≤ last then do
        let wait ← wordSub prof 64 (Timestamp.asMillis last) (Timestamp.asMillis time)
        return some (Duration.fromMillis wait)
      else return some (Duration.fromSecs 0)

/-- `Timer::remove_expired_by`: how many deadlines expired, and the timer left.
The key is one past the time because `split_off` keeps the key in the later part. -/
def removeExpiredBy (prof : Profile) (tm : Timer) (time : ℕ) :
    Except Panic (ℕ × Timer) := do
  let key ← wordAdd prof 128 time 1
  let (expired, unexpired) := BTreeSet.splitOff tm.timeouts key
  return (expired.card, ⟨unexpired⟩)

/-- Setting a timeout adds its deadline. -/
theorem setTimeout_eq {prof : Profile} {tm : Timer} {timeout : Duration} {after : ℕ}
    (h : after + timeout.asMillis < 2 ^ 128) :
    tm.setTimeout prof timeout after = .ok ⟨insert (after + timeout.asMillis) tm.timeouts⟩ := by
  rw [setTimeout, wordAdd_of_lt h]
  rfl

/-- A check at time `t` removes exactly the deadlines at or before `t`. -/
theorem removeExpiredBy_eq {prof : Profile} {tm : Timer} {time : ℕ}
    (h : time + 1 < 2 ^ 128) :
    tm.removeExpiredBy prof time =
      .ok ((tm.timeouts.filter (· ≤ time)).card, ⟨tm.timeouts.filter (time < ·)⟩) := by
  rw [removeExpiredBy, wordAdd_of_lt h]
  simp only [bind, Except.bind, pure, Except.pure, BTreeSet.splitOff, Nat.lt_add_one_iff,
    Nat.add_one_le_iff]

/-- The subtraction of `nextExpiringFrom` underflows: the first deadline is not
past, yet its low 64 bits are smaller than those of the time. -/
def Truncates (tm : Timer) (time : ℕ) : Prop :=
  ∃ last, BTreeSet.first tm.timeouts = some last ∧ time ≤ last ∧
    Timestamp.asMillis last < Timestamp.asMillis time

instance (tm : Timer) (time : ℕ) : Decidable (tm.Truncates time) :=
  match h : BTreeSet.first tm.timeouts with
  | none => .isFalse (by rintro ⟨last, hlast, -⟩; rw [h] at hlast; cases hlast)
  | some last =>
      decidable_of_iff (time ≤ last ∧ Timestamp.asMillis last < Timestamp.asMillis time)
        ⟨fun hl => ⟨last, h, hl⟩, fun ⟨m, hm, hl⟩ => by
          rw [h, Option.some.injEq] at hm; rwa [hm]⟩

/-- `nextExpiringFrom` panics exactly when it truncates in a debug build. -/
theorem nextExpiringFrom_eq_error_iff {prof : Profile} {tm : Timer} {time : ℕ}
    {p : Panic} :
    tm.nextExpiringFrom prof time = .error p ↔
      prof = .debug ∧ tm.Truncates time ∧ p = .subtractWithOverflow := by
  unfold nextExpiringFrom Truncates
  cases hfirst : BTreeSet.first tm.timeouts with
  | none => simp
  | some last =>
      simp only [Option.some.injEq, exists_eq_left']
      by_cases hle : time ≤ last
      · rw [if_pos hle]
        cases hsub : wordSub prof 64 (Timestamp.asMillis last) (Timestamp.asMillis time) with
        | ok wait =>
            constructor
            · intro hc
              cases hc
            · rintro ⟨hprof, ⟨-, hlt⟩, hp⟩
              rw [wordSub_eq_error_iff.mpr ⟨hprof, hlt, hp⟩] at hsub
              cases hsub
        | error q =>
            obtain ⟨hprof, hlt, rfl⟩ := wordSub_eq_error_iff.mp hsub
            constructor
            · intro hc
              cases hc
              exact ⟨hprof, ⟨hle, hlt⟩, rfl⟩
            · rintro ⟨-, -, rfl⟩
              rfl
      · rw [if_neg hle]
        constructor
        · intro hc
          cases hc
        · rintro ⟨-, ⟨hle', -⟩, -⟩
          exact absurd hle' hle

end Timer

end IoReactor
