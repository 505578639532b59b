/-
# The timer as a set of pending deadlines (timeouts.rs)

`Timer.run` executes any sequence of calls of `set_timeout` and `remove_expired_by`.
Without overflow a timer is a backlog of deadlines (`run_eq`), which settles what is
pending, what the checks return and in which order calls may come.

The wait that `next_expiring_from` proposes is compared with what `remove_expired_by`
does at a later time; the two part only where the arithmetic of the machine gives out.
-/
import IoReactor.Backlog
import IoReactor.Timeouts

namespace IoReactor

namespace Timer

/-! ## Sequences of calls -/

/-- A call that changes a timer. -/
inductive Op
  | setTimeout (timeout : Duration) (after : ℕ)
  | removeExpiredBy (time : ℕ)
  deriving DecidableEq

/-- What a call tells: whether it added a deadline, or how many it returned as expired. -/
inductive Effect
  | inserted (new : Bool)
  | expired (count : ℕ)
  deriving DecidableEq

/-- The number an effect returns. -/
def Effect.returned : Effect → ℕ
  | .inserted _ => 0
  | .expired count => count

/-- One call, an insertion being new when it changes the `count`. -/
def perform (prof : Profile) (tm : Timer) : Op → Except Panic (Effect × Timer)
  | .setTimeout timeout after => do
      let tm' ← tm.setTimeout prof timeout after
      return (.inserted (tm'.count != tm.count), tm')
  | .removeExpiredBy time => do
      let (count, tm') ← tm.removeExpiredBy prof time
      return (.expired count, tm')

/-- A sequence of calls. -/
def run (prof : Profile) : Timer → List Op → Except Panic (List Effect × Timer)
  | tm, [] => .ok ([], tm)
  | tm, op :: ops => do
      let (effect, tm) ← tm.perform prof op
      let (effects, tm) ← run prof tm ops
      return (effect :: effects, tm)

/-- The sum a call forms fits a `u128`. -/
def Op.Fits : Op → Prop
  | .setTimeout timeout after => after + timeout.asMillis < 2 ^ 128
  | .removeExpiredBy time => time + 1 < 2 ^ 128

instance (op : Op) : Decidable op.Fits :=
  match op with
  | .setTimeout timeout after => inferInstanceAs (Decidable (after + timeout.asMillis < 2 ^ 128))
  | .removeExpiredBy time => inferInstanceAs (Decidable (time + 1 < 2 ^ 128))

/-- A call as an operation on a backlog of deadlines. -/
def Op.toBacklog : Op → Backlog.Op ℕ
  | .setTimeout timeout after => .add (after + timeout.asMillis)
  | .removeExpiredBy time => .clear time

/-- What a call that fits does. -/
theorem perform_eq (prof : Profile) (tm : Timer) {op : Op} (h : op.Fits) :
    ∃ effect, tm.perform prof op = .ok (effect, ⟨op.toBacklog.apply tm.timeouts⟩) ∧
      [effect].count (.inserted true) = op.toBacklog.added tm.timeouts ∧
      effect.returned = op.toBacklog.cleared tm.timeouts := by
  cases op with
  | setTimeout timeout after =>
      refine ⟨_, by rw [perform, setTimeout_eq h]; rfl, ?_, rfl⟩
      -- the count tells whether the deadline was pending before
      by_cases hmem : after + timeout.asMillis ∈ tm.timeouts
      · simp [Op.toBacklog, Backlog.Op.added, count, hmem]
      · simp [Op.toBacklog, Backlog.Op.added, count, hmem]
  | removeExpiredBy time =>
      exact ⟨_, by rw [perform, removeExpiredBy_eq h]; rfl, rfl, rfl⟩

/-- **Without overflow a timer is a backlog of deadlines.** -/
theorem run_eq (prof : Profile) (tm : Timer) {ops : List Op} (h : ∀ op ∈ ops, op.Fits) :
    ∃ effects, tm.run prof ops =
        .ok (effects, ⟨Backlog.run tm.timeouts (ops.map Op.toBacklog)⟩) ∧
      effects.count (.inserted true) = Backlog.added tm.timeouts (ops.map Op.toBacklog) ∧
      (effects.map Effect.returned).sum =
        Backlog.cleared tm.timeouts (ops.map Op.toBacklog) := by
  induction ops generalizing tm with
  | nil => exact ⟨[], rfl, rfl, rfl⟩
  | cons op ops ih =>
      obtain ⟨hop, hops⟩ := List.forall_mem_cons.mp h
      obtain ⟨effect, hperform, hnew, hreturned⟩ := perform_eq prof tm hop
      obtain ⟨effects, hrun, hnews, hreturneds⟩ := ih ⟨op.toBacklog.apply tm.timeouts⟩ hops
      refine ⟨effect :: effects, ?_, ?_, ?_⟩
      · rw [run, hperform]
        show (do
          let (effects, tm) ← run prof ⟨op.toBacklog.apply tm.timeouts⟩ ops
          return (effect :: effects, tm)) = _
        rw [hrun]
        rfl
      · rw [← List.singleton_append, List.count_append, hnew, hnews]
        rfl
      · rw [List.map_cons, List.sum_cons, hreturned, hreturneds]
        rfl

/-! ## The exact set of pending deadlines -/

/-- Consecutive calls of `set_timeout`. -/
def sets (calls : List (Duration × ℕ)) : List Op :=
  calls.map fun c => .setTimeout c.1 c.2

/-- Calls of `set_timeout` add their deadlines. -/
theorem toBacklog_sets (calls : List (Duration × ℕ)) :
    (sets calls).map Op.toBacklog = (calls.map fun c => c.2 + c.1.asMillis).map .add := by
  rw [sets, List.map_map, List.map_map]
  rfl

/-- Consecutive checks. -/
theorem toBacklog_checks (ts : List ℕ) :
    (ts.map Op.removeExpiredBy).map Op.toBacklog = ts.map .clear := by
  rw [List.map_map]
  rfl

/-- A check among calls is a clearing of the backlog. -/
theorem clear_mem_toBacklog {ops : List Op} {t : ℕ} :
    .clear t ∈ ops.map Op.toBacklog ↔ .removeExpiredBy t ∈ ops := by
  rw [List.mem_map]
  constructor
  · rintro ⟨op, hmem, heq⟩
    cases op with
    | setTimeout timeout after => cases heq
    | removeExpiredBy time =>
        cases heq
        exact hmem
  · exact fun hmem => ⟨_, hmem, rfl⟩

/-- The deadlines pending after a sequence of calls. -/
theorem mem_backlog {ops : List Op} {x : ℕ} :
    x ∈ Backlog.run ∅ (ops.map Op.toBacklog) ↔ ∃ before timeout after later,
      ops = before ++ .setTimeout timeout after :: later ∧ x = after + timeout.asMillis ∧
      ∀ t, .removeExpiredBy t ∈ later → t < x := by
  rw [Backlog.mem_run]
  constructor
  · rintro (⟨hmem, -⟩ | ⟨before, later, heq, hlater⟩)
    · exact absurd hmem (Finset.notMem_empty x)
    · -- the addition comes from a call of `set_timeout`
      obtain ⟨before', rest, rfl, rfl, hrest⟩ := List.map_eq_append_iff.mp heq
      obtain ⟨op, later', rfl, hop, rfl⟩ := List.map_eq_cons_iff.mp hrest
      cases op with
      | setTimeout timeout after =>
          cases hop
          exact ⟨before', timeout, after, later', rfl, rfl, fun t ht =>
            hlater t (clear_mem_toBacklog.mpr ht)⟩
      | removeExpiredBy time => cases hop
  · rintro ⟨before, timeout, after, later, rfl, rfl, hlater⟩
    refine Or.inr ⟨before.map Op.toBacklog, later.map Op.toBacklog, ?_, ?_⟩
    · rw [List.map_append, List.map_cons]
      rfl
    · intro t ht
      exact hlater t (clear_mem_toBacklog.mp ht)

/-- **A timer is an exact set of pending deadlines.**  After any calls that do not overflow,
pending are the deadlines set that no later check has reached; the new deadlines set are
those pending and those returned together; a check returns and removes exactly the
deadlines it has reached; consecutive calls of `set_timeout` may come in any order; and
a check may be split into any checks at times up to its own. -/
theorem timer_is_deadline_set {prof : Profile} {ops : List Op} (hops : ∀ op ∈ ops, op.Fits) :
    ∃ effects tm, run prof new ops = .ok (effects, tm) ∧
      (∀ x, x ∈ tm.timeouts ↔ ∃ before timeout after later,
        ops = before ++ .setTimeout timeout after :: later ∧ x = after + timeout.asMillis ∧
        ∀ t, .removeExpiredBy t ∈ later → t < x) ∧
      effects.count (.inserted true) = tm.count + (effects.map Effect.returned).sum ∧
      (∀ t, t + 1 < 2 ^ 128 → tm.removeExpiredBy prof t =
        .ok ((tm.timeouts.filter (· ≤ t)).card, ⟨tm.timeouts.filter (t < ·)⟩)) ∧
      (∀ calls calls' later, calls.Perm calls' → (∀ op ∈ sets calls ++ later, op.Fits) →
        ∃ effects effects' tm', tm.run prof (sets calls ++ later) = .ok (effects, tm') ∧
          tm.run prof (sets calls' ++ later) = .ok (effects', tm')) ∧
      (∀ ts t, (ts ++ [t]).Pairwise (· ≤ ·) → t + 1 < 2 ^ 128 →
        ∃ effects tm', tm.run prof ((ts ++ [t]).map .removeExpiredBy) = .ok (effects, tm') ∧
          tm.removeExpiredBy prof t = .ok ((effects.map Effect.returned).sum, tm')) := by
  obtain ⟨effects, hrun, hnew, hreturned⟩ := run_eq prof new hops
  refine ⟨effects, _, hrun, fun x => mem_backlog, ?_, fun t ht => removeExpiredBy_eq ht, ?_, ?_⟩
  · have hbalance := Backlog.card_run ∅ (ops.map Op.toBacklog)
    rw [Finset.card_empty, Nat.zero_add] at hbalance
    rw [hnew, hreturned]
    exact hbalance.symm
  · intro calls calls' later hperm hfit
    have hfit' : ∀ op ∈ sets calls' ++ later, op.Fits := by
      intro op hmem
      apply hfit op
      exact (((hperm.map _).append_right later).mem_iff).mpr hmem
    obtain ⟨effects, hrun, -⟩ := run_eq prof
      ⟨Backlog.run ∅ (ops.map Op.toBacklog)⟩ hfit
    obtain ⟨effects', hrun', -⟩ := run_eq prof
      ⟨Backlog.run ∅ (ops.map Op.toBacklog)⟩ hfit'
    refine ⟨effects, effects', _, hrun, ?_⟩
    refine hrun'.trans ?_
    rw [List.map_append, List.map_append, Backlog.run_append, Backlog.run_append, toBacklog_sets,
      toBacklog_sets, Backlog.run_adds_perm _ (hperm.map _)]
  · intro ts t hsorted ht
    have hle : ∀ t' ∈ ts, t' ≤ t := fun t' ht' =>
      (List.pairwise_append.mp hsorted).2.2 t' ht' t (List.mem_singleton.mpr rfl)
    have hfit : ∀ op ∈ (ts ++ [t]).map Op.removeExpiredBy, op.Fits := by
      intro op hmem
      obtain ⟨t', ht', rfl⟩ := List.mem_map.mp hmem
      show t' + 1 < 2 ^ 128
      rcases List.mem_append.mp ht' with ht' | ht'
      · have := hle t' ht'
        omega
      · rwa [List.mem_singleton.mp ht']
    obtain ⟨effects, hrun, -, hreturned⟩ := run_eq prof
      ⟨Backlog.run ∅ (ops.map Op.toBacklog)⟩ hfit
    refine ⟨effects, _, hrun, ?_⟩
    rw [removeExpiredBy_eq ht, hreturned, toBacklog_checks, Backlog.run_clears_last _ hle,
      Backlog.cleared_clears_last _ hle]
    rfl

/-- Of two deadlines set one after the other the earlier has expired. -/
theorem timer_is_deadline_set_two : ∃ effects tm, run .debug new
    [.setTimeout (.fromMillis 5) 10, .setTimeout (.fromMillis 9) 10, .removeExpiredBy 15] =
      .ok (effects, tm) ∧ 19 ∈ tm.timeouts ∧
      effects.count (.inserted true) = tm.count + (effects.map Effect.returned).sum := by
  obtain ⟨effects, tm, hrun, hmem, hbalance, -⟩ := timer_is_deadline_set
    (by decide : ∀ op ∈ [Op.setTimeout (.fromMillis 5) 10, .setTimeout (.fromMillis 9) 10,
      .removeExpiredBy 15], op.Fits)
  refine ⟨effects, tm, hrun, (hmem 19).mpr ?_, hbalance⟩
  refine ⟨[.setTimeout (.fromMillis 5) 10], .fromMillis 9, 10, [.removeExpiredBy 15], rfl, rfl, ?_⟩
  intro t ht
  cases List.mem_singleton.mp ht
  decide

/-! ## The proposed wait -/

/-- Below `2 ^ 64` milliseconds the proposed wait ends at the first deadline, or is over
at once. -/
theorem nextExpiringFrom_of_lt (prof : Profile) (tm : Timer) {time last : ℕ}
    (hlast : BTreeSet.first tm.timeouts = some last) (hlt : last < 2 ^ 64) (ht : time < 2 ^ 64) :
    ∃ wait, tm.nextExpiringFrom prof time = .ok (some wait) ∧ wait.asMillis = last - time := by
  unfold nextExpiringFrom
  rw [hlast]
  by_cases hle : time ≤ last
  · refine ⟨Duration.fromMillis (last - time), ?_, Duration.asMillis_fromMillis (by omega)⟩
    simp only [hle, if_true, Timestamp.asMillis, Nat.mod_eq_of_lt hlt, Nat.mod_eq_of_lt ht]
    rw [wordSub_of_le hle]
    rfl
  · refine ⟨Duration.fromSecs 0, ?_, ?_⟩
    · simp only [hle, if_false]
      rfl
    · have : last - time = 0 := by omega
      rw [this]
      rfl

/-- A check at `time'` does what a wait of length `wait`, proposed at `time`, promises of
it: nothing before the wait is over, and from then on it removes the first deadline. -/
def Agrees (prof : Profile) (tm : Timer) (time : ℕ) (wait : Duration) (time' : ℕ) : Prop :=
  ∃ count tm', tm.removeExpiredBy prof time' = .ok (count, tm') ∧
    ((count = 0 ∧ tm' = tm) ↔ time' < time + wait.asMillis) ∧
    (time + wait.asMillis ≤ time' → 1 ≤ count ∧
      ∃ last, BTreeSet.first tm.timeouts = some last ∧ last ∉ tm'.timeouts)

/-- At the largest `u128` a check expires nothing: it panics, or the key wraps around. -/
theorem removeExpiredBy_max {prof : Profile} {tm tm' : Timer} {time count : ℕ}
    (htime : time + 1 = 2 ^ 128) (h : tm.removeExpiredBy prof time = .ok (count, tm')) :
    count = 0 := by
  unfold removeExpiredBy wordAdd at h
  rw [if_neg (by omega), htime, Nat.mod_self] at h
  cases prof with
  | debug => cases h
  | release =>
      cases h
      simp

/-- Below the largest `u128` a check agrees with the wait that ends at the first deadline. -/
theorem agrees_of_fits (prof : Profile) {tm : Timer} {time time' last : ℕ} {wait : Duration}
    (hfirst : BTreeSet.first tm.timeouts = some last) (hwait : wait.asMillis = last - time)
    (hle : time ≤ time') (hfits : time' + 1 < 2 ^ 128) : tm.Agrees prof time wait time' := by
  obtain ⟨hmem, hmin⟩ := BTreeSet.first_eq_some_iff.mp hfirst
  refine ⟨_, _, removeExpiredBy_eq hfits, ?_, ?_⟩
  · constructor
    · rintro ⟨hzero, -⟩
      by_contra hge
      -- the first deadline has been reached
      have hreached : last ∈ tm.timeouts.filter (· ≤ time') :=
        Finset.mem_filter.mpr ⟨hmem, by omega⟩
      rw [Finset.card_eq_zero.mp hzero] at hreached
      exact absurd hreached (Finset.notMem_empty last)
    · intro hearly
      have hlater : ∀ x ∈ tm.timeouts, time' < x := by
        intro x hx
        have := hmin x hx
        omega
      refine ⟨?_, ?_⟩
      · rw [Finset.card_eq_zero, Finset.filter_eq_empty_iff]
        intro x hx
        have := hlater x hx
        omega
      · rw [Finset.filter_eq_self.mpr hlater]
  · intro hover
    have hreached : last ≤ time' := by omega
    refine ⟨?_, last, hfirst, ?_⟩
    · exact Finset.card_pos.mpr ⟨last, Finset.mem_filter.mpr ⟨hmem, hreached⟩⟩
    · intro hleft
      have := (Finset.mem_filter.mp hleft).2
      omega

/-- **Wait time and expiry agree**, exactly below the largest `u128`.  With all deadlines
and the time below `2 ^ 64` milliseconds no wait is proposed only if nothing is pending,
and a check at any later time does what the proposed wait promises of it, except at the
largest `u128`. -/
theorem wait_agrees_iff {prof : Profile} {tm : Timer} (hsmall : ∀ x ∈ tm.timeouts, x < 2 ^ 64)
    {time : ℕ} (ht : time < 2 ^ 64) :
    ∃ answer, tm.nextExpiringFrom prof time = .ok answer ∧ (answer = none ↔ tm.count = 0) ∧
      ∀ wait, answer = some wait → ∀ time', time ≤ time' → time' < 2 ^ 128 →
        (tm.Agrees prof time wait time' ↔ time' + 1 < 2 ^ 128) := by
  cases hfirst : BTreeSet.first tm.timeouts with
  | none =>
      have hempty := BTreeSet.first_eq_none_iff.mp hfirst
      refine ⟨none, by rw [nextExpiringFrom, hfirst], ?_, nofun⟩
      simp [count, hempty]
  | some last =>
      obtain ⟨hmem, hmin⟩ := BTreeSet.first_eq_some_iff.mp hfirst
      obtain ⟨wait, hnext, hwait⟩ := nextExpiringFrom_of_lt prof tm hfirst (hsmall last hmem) ht
      refine ⟨some wait, hnext, ?_, ?_⟩
      · constructor
        · exact nofun
        · intro hzero
          rw [Finset.card_eq_zero.mp hzero] at hmem
          exact absurd hmem (Finset.notMem_empty last)
      · rintro wait' heq time' hle hlt
        cases heq
        constructor
        · -- at the largest `u128` nothing expires, although the wait is long over
          rintro ⟨count, tm', hremove, -, hfires⟩
          by_contra hmax
          have hzero := removeExpiredBy_max (by omega) hremove
          have hlast := hsmall last hmem
          have hcount := (hfires (by omega)).1
          omega
        · exact agrees_of_fits prof hfirst hwait hle

/-- Two deadlines are pending at time 3; a check at time 8 agrees with the wait proposed. -/
theorem wait_agrees_two : (∀ x ∈ ({8, 12} : Finset ℕ), x < 2 ^ 64) ∧ ∃ answer,
    nextExpiringFrom .debug ⟨{8, 12}⟩ 3 = .ok answer ∧
      ∀ wait, answer = some wait → Agrees .debug ⟨{8, 12}⟩ 3 wait 8 := by
  have hsmall : ∀ x ∈ ({8, 12} : Finset ℕ), x < 2 ^ 64 := by decide
  obtain ⟨answer, hnext, -, hagrees⟩ :=
    @wait_agrees_iff .debug ⟨{8, 12}⟩ hsmall 3 (by decide)
  refine ⟨hsmall, answer, hnext, fun wait heq => ?_⟩
  exact (hagrees wait heq 8 (by decide) (by decide)).mpr (by decide)

/-- A deadline is pending, the proposed wait is over at the largest `u128`, and the check at
that time panics or returns zero. -/
theorem wait_disagrees : ∃ effects tm wait,
    run .release new [.setTimeout (.fromMillis 5) 10] = .ok (effects, tm) ∧
    (∀ x ∈ tm.timeouts, x < 2 ^ 64) ∧ tm.nextExpiringFrom .release 10 = .ok (some wait) ∧
    10 + wait.asMillis ≤ 2 ^ 128 - 1 ∧
    ∀ prof, ¬ tm.Agrees prof 10 wait (2 ^ 128 - 1) := by
  obtain ⟨effects, hrun, -⟩ := run_eq .release new
    (by decide : ∀ op ∈ [Op.setTimeout (.fromMillis 5) 10], op.Fits)
  have hpending : Backlog.run new.timeouts ([Op.setTimeout (.fromMillis 5) 10].map Op.toBacklog) =
      {15} := rfl
  rw [hpending] at hrun
  have hfirst : BTreeSet.first {15} = some 15 := BTreeSet.first_eq_some_iff.mpr (by decide)
  obtain ⟨wait, hnext, hwait⟩ := nextExpiringFrom_of_lt .release ⟨{15}⟩ hfirst
    (by decide) (by decide : 10 < 2 ^ 64)
  have hover : 10 + wait.asMillis ≤ 2 ^ 128 - 1 := by
    rw [hwait]
    decide
  refine ⟨effects, _, wait, hrun, by decide, hnext, hover, ?_⟩
  rintro prof ⟨count, tm', hremove, -, hfires⟩
  have hzero := removeExpiredBy_max (by decide) hremove
  have hcount := (hfires hover).1
  omega

/-! ## Exact arithmetic -/

/-- At `time` the wait is computed exactly: if the first deadline is not past, neither
timestamp is changed by its narrowing to 64 bits and the difference does not underflow;
and the wait is what is left until the first deadline, or the longest duration there is. -/
def Exact (prof : Profile) (tm : Timer) (time : ℕ) : Prop :=
  ∃ last wait, BTreeSet.first tm.timeouts = some last ∧
    tm.nextExpiringFrom prof time = .ok (some wait) ∧
    (time ≤ last → Timestamp.asMillis last = last ∧ Timestamp.asMillis time = time ∧
      Timestamp.asMillis time ≤ Timestamp.asMillis last) ∧
    wait.asMillis = min (last - time) Duration.MAX.asMillis

/-- **The wait is exact exactly if some deadline fits 64 bits**, whatever timeouts were set. -/
theorem wait_exact_iff {prof : Profile} {calls : List (Duration × ℕ)}
    (hnow : ∀ c ∈ calls, c.2 < 2 ^ 64) {time : ℕ} (ht : time < 2 ^ 64) :
    ∃ effects tm, run prof new (sets calls) = .ok (effects, tm) ∧
      (tm.Exact prof time ↔ ∃ c ∈ calls, c.2 + c.1.asMillis < 2 ^ 64) := by
  -- a clock reading and a duration never overflow a `u128`
  have hfit : ∀ op ∈ sets calls, op.Fits := by
    intro op hmem
    obtain ⟨c, hc, rfl⟩ := List.mem_map.mp hmem
    have h1 := hnow c hc
    have h2 := c.1.asMillis_lt
    show c.2 + c.1.asMillis < 2 ^ 128
    omega
  obtain ⟨effects, hrun, -⟩ := run_eq prof new hfit
  rw [toBacklog_sets] at hrun
  refine ⟨effects, _, hrun, ?_⟩
  have hmem : ∀ x, x ∈ Backlog.run new.timeouts
      ((calls.map fun c => c.2 + c.1.asMillis).map .add) ↔ ∃ c ∈ calls, c.2 + c.1.asMillis = x := by
    intro x
    rw [Backlog.mem_run_adds, List.mem_map]
    constructor
    · rintro (hnew | hset)
      · exact absurd hnew (Finset.notMem_empty x)
      · exact hset
    · exact Or.inr
  generalize Backlog.run new.timeouts _ = pending at hmem ⊢
  constructor
  · rintro ⟨last, wait, hfirst, -, hnarrow, -⟩
    obtain ⟨hlast, -⟩ := BTreeSet.first_eq_some_iff.mp hfirst
    obtain ⟨c, hc, rfl⟩ := (hmem last).mp hlast
    refine ⟨c, hc, ?_⟩
    by_contra hge
    -- a first deadline past the 64 bits is not past, and its narrowing changes it
    have hlossless := (hnarrow (by omega)).1
    have := Nat.mod_lt (c.2 + c.1.asMillis) (by decide : 0 < 2 ^ 64)
    unfold Timestamp.asMillis at hlossless
    omega
  · rintro ⟨c, hc, hlt⟩
    cases hfirst : BTreeSet.first pending with
    | none =>
        have hpending := (hmem _).mpr ⟨c, hc, rfl⟩
        rw [BTreeSet.first_eq_none_iff.mp hfirst] at hpending
        exact absurd hpending (Finset.notMem_empty _)
    | some last =>
        obtain ⟨-, hmin⟩ := BTreeSet.first_eq_some_iff.mp hfirst
        have hlast : last < 2 ^ 64 := by
          have := hmin _ ((hmem _).mpr ⟨c, hc, rfl⟩)
          omega
        obtain ⟨wait, hnext, hwait⟩ :=
          nextExpiringFrom_of_lt prof ⟨pending⟩ hfirst hlast ht
        refine ⟨last, wait, hfirst, hnext, ?_, ?_⟩
        · intro hle
          unfold Timestamp.asMillis
          rw [Nat.mod_eq_of_lt hlast, Nat.mod_eq_of_lt ht]
          exact ⟨rfl, rfl, hle⟩
        · rw [hwait, min_eq_left]
          have : Duration.MAX.asMillis = (2 ^ 64 - 1) * 1000 + 999 := by decide
          omega

/-- A timeout of nine milliseconds, set twice, on top of one that never ends. -/
theorem wait_exact_nine : ∃ effects tm, run .debug new
    (sets [(.MAX, 4), (.fromMillis 9, 4), (.fromMillis 9, 5)]) = .ok (effects, tm) ∧
    tm.Exact .debug 6 := by
  obtain ⟨effects, tm, hrun, hexact⟩ := wait_exact_iff
    (by decide : ∀ c ∈ [(Duration.MAX, 4), (.fromMillis 9, 4), (.fromMillis 9, 5)], c.2 < 2 ^ 64)
    (by decide : 6 < 2 ^ 64)
  exact ⟨effects, tm, hrun, hexact.mpr ⟨(.fromMillis 9, 4), by simp, by decide⟩⟩

/-- A timeout of the longest duration alone: in a debug build the subtraction panics, and no
build computes the wait exactly. -/
theorem wait_inexact : (∃ effects tm, run .debug new (sets [(.MAX, 1)]) = .ok (effects, tm) ∧
      tm.nextExpiringFrom .debug 1 = .error .subtractWithOverflow) ∧
    ∀ prof, ∃ effects tm, run prof new (sets [(.MAX, 1)]) = .ok (effects, tm) ∧
      ¬ tm.Exact prof 1 := by
  have hfit : ∀ op ∈ sets [(.MAX, 1)], op.Fits := by decide
  have hpending : Backlog.run new.timeouts ((sets [(.MAX, 1)]).map Op.toBacklog) =
      {1 + Duration.MAX.asMillis} := rfl
  have hfirst : BTreeSet.first {1 + Duration.MAX.asMillis} = some (1 + Duration.MAX.asMillis) :=
    BTreeSet.first_eq_some_iff.mpr (by decide)
  constructor
  · obtain ⟨effects, hrun, -⟩ := run_eq .debug new hfit
    rw [hpending] at hrun
    refine ⟨effects, _, hrun, nextExpiringFrom_eq_error_iff.mpr ⟨rfl, ?_, rfl⟩⟩
    exact ⟨_, hfirst, by decide, by decide⟩
  · intro prof
    obtain ⟨effects, hrun, -⟩ := run_eq prof new hfit
    rw [hpending] at hrun
    refine ⟨effects, _, hrun, ?_⟩
    rintro ⟨last, wait, hlast, -, hnarrow, -⟩
    rw [hfirst, Option.some.injEq] at hlast
    subst hlast
    exact absurd (hnarrow (by decide)).1 (by decide)

end Timer

end IoReactor
