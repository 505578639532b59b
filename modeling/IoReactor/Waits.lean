/-
# How long the reactor waits for I/O

`WAIT_TIMEOUT` is the timeout of a poll while no deadline is pending; otherwise the wait
that the timer proposes is passed on as it is.  A run keeps all its polls within
`WAIT_TIMEOUT` exactly if no iteration starts with its first deadline more than that away.
-/
import IoReactor.ThreadTurns

namespace IoReactor

namespace Duration

/-- `PartialOrd for Duration`. -/
instance : LE Duration := ⟨fun a b => a.secs < b.secs ∨ (a.secs = b.secs ∧ a.nanos ≤ b.nanos)⟩

instance (a b : Duration) : Decidable (a ≤ b) :=
  inferInstanceAs (Decidable (a.secs < b.secs ∨ (a.secs = b.secs ∧ a.nanos ≤ b.nanos)))

/-- A duration within `WAIT_TIMEOUT` has at most that many milliseconds. -/
theorem asMillis_le_of_le {d : Duration} (h : d ≤ WAIT_TIMEOUT) : d.asMillis ≤ 3600000 := by
  have h' : d.secs < 3600 ∨ (d.secs = 3600 ∧ d.nanos ≤ 0) := h
  have hnanos := d.nanos_lt
  unfold asMillis
  omega

/-- Whole milliseconds are within `WAIT_TIMEOUT` up to its number of milliseconds. -/
theorem fromMillis_le_iff {millis : ℕ} (h : millis < 2 ^ 64) :
    fromMillis millis ≤ WAIT_TIMEOUT ↔ millis ≤ 3600000 := by
  show ((millis % 2 ^ 64 / 1000 < 3600) ∨ (millis % 2 ^ 64 / 1000 = 3600 ∧
    millis % 2 ^ 64 % 1000 * 1000000 ≤ 0)) ↔ millis ≤ 3600000
  rw [Nat.mod_eq_of_lt h]
  omega

end Duration

/-- The first deadline that is not past at `time` is at most `WAIT_TIMEOUT` away, in the
arithmetic of `next_expiring_from`. -/
def Timer.Near (tm : Timer) (time : ℕ) : Prop :=
  ∀ last, BTreeSet.first tm.timeouts = some last → time ≤ last →
    (last - time) % 2 ^ 64 ≤ 3600000

/-- The difference of the low 64 bits is that of the timestamps, modulo `2 ^ 64`. -/
theorem wordSub_asMillis {prof : Profile} {last time wait : ℕ} (hle : time ≤ last)
    (h : wordSub prof 64 (Timestamp.asMillis last) (Timestamp.asMillis time) = .ok wait) :
    wait = (last - time) % 2 ^ 64 := by
  unfold wordSub Timestamp.asMillis at h
  split at h
  · cases h
    omega
  · cases prof with
    | debug => cases h
    | release =>
        cases h
        omega

/-- The timeout of the poll is within `WAIT_TIMEOUT` exactly if the first deadline is. -/
theorem Timer.wait_le_iff {prof : Profile} {tm : Timer} {time : ℕ} {expiring : Option Duration}
    (h : tm.nextExpiringFrom prof time = .ok expiring) :
    expiring.getD WAIT_TIMEOUT ≤ WAIT_TIMEOUT ↔ tm.Near time := by
  unfold nextExpiringFrom at h
  unfold Near
  cases hfirst : BTreeSet.first tm.timeouts with
  | none =>
      rw [hfirst] at h
      cases h
      exact iff_of_true (by decide) nofun
  | some last =>
      rw [hfirst] at h
      simp only at h
      by_cases hle : time ≤ last
      · rw [if_pos hle] at h
        obtain ⟨wait, hsub, hret⟩ : ∃ wait,
            wordSub prof 64 (Timestamp.asMillis last) (Timestamp.asMillis time) = .ok wait ∧
            expiring = some (Duration.fromMillis wait) := by
          cases hsub : wordSub prof 64 (Timestamp.asMillis last) (Timestamp.asMillis time) with
          | error p =>
              rw [hsub] at h
              cases h
          | ok wait =>
              rw [hsub] at h
              cases h
              exact ⟨wait, rfl, rfl⟩
        have hwait := wordSub_asMillis hle hsub
        rw [hret, Option.getD_some, Duration.fromMillis_le_iff (by omega), hwait]
        constructor
        · intro hshort last' hlast' _
          cases hlast'
          exact hshort
        · exact fun hnear => hnear last rfl hle
      · -- a deadline in the past is not waited for
        rw [if_neg hle] at h
        cases h
        refine iff_of_true (by decide) ?_
        intro last' hlast' hle'
        cases hlast'
        exact absurd hle' hle

/-! ## Runs -/

section

variable {H P A L T C EL ET : Type}

/-- No iteration starts with its first deadline more than `WAIT_TIMEOUT` away. -/
abbrev NearDeadlines : System H P L T C EL ET → Label A C → Prop :=
  Lts.demand Label.atStart fun s _ =>
    ∀ time, Timestamp.now s.clock = .ok time → s.runtime.timeouts.Near time

variable [Handler H L T C EL ET] [Resource L EL] [Resource T ET] [Poll P A]

/-- **The wait for I/O is bounded** in every run whose iterations start with the first
deadline at most `WAIT_TIMEOUT` away; and the timeout with which an iteration calls the
poll engine is within `WAIT_TIMEOUT` exactly then. -/
theorem poll_wait_bounded_iff (prof : Profile) (engine : P) :
    (∀ s : System H P L T C EL ET, (reactor prof engine).Reachable NearDeadlines s →
      ∀ timeout, s.pc = .poll timeout → timeout ≤ WAIT_TIMEOUT ∧ timeout.asMillis < 2 ^ 31) ∧
    (∀ (s s' : System H P L T C EL ET) (ls ts : List ResourceId) (timeout : Duration),
      System.step prof s (.turn (.start ls ts)) = some s' → s'.pc = .poll timeout →
      (timeout ≤ WAIT_TIMEOUT ↔ NearDeadlines s (.turn (.start ls ts) : Label A C))) := by
  constructor
  · intro s hs timeout hpc
    have hle : timeout ≤ WAIT_TIMEOUT := by
      refine core_invariant (I := fun th => ∀ timeout, th.pc = .poll timeout →
        timeout ≤ WAIT_TIMEOUT) (fun th chan waker h => h) ?_ ?_ hs timeout hpc
      · exact fun service poller fd hreg => nofun
      · intro s input th' _ hI hG hturned
        cases hturned with
        | started hpc ls ts hls hts time hclock expiring hexp =>
            intro timeout htimeout
            cases htimeout
            exact (Timer.wait_le_iff hexp).mpr (hG time hclock)
        | batchDone now awoken hpc hnext =>
            intro timeout htimeout
            cases awoken <;> cases htimeout
        | _ => exact nofun
    have := Duration.asMillis_le_of_le hle
    exact ⟨hle, by omega⟩
  · intro s s' ls ts timeout hstep hpc
    obtain ⟨th, hturn, rfl⟩ := Option.map_eq_some_iff.mp hstep
    cases Thread.turned_of_turn hturn with
    | started hpc₀ ls ts hls hts time hclock expiring hexp =>
        cases hpc
        rw [Timer.wait_le_iff hexp]
        constructor
        · intro hnear time' hclock'
          rw [hclock] at hclock'
          cases hclock'
          exact hnear
        · exact fun hnear => hnear time hclock
    | panicked input p hp => cases hpc

end

/-- With a timer of half a second pending, the next poll waits at most that long. -/
theorem poll_wait_bounded_half : ∃ s s' : Errands.Sys,
    (reactor .release Poller.new).Reachable Lts.anyLabel s ∧
    System.step .release s (.turn (.start [] [])) = some s' ∧
    s'.pc = .poll (.fromMillis 500) ∧ Duration.fromMillis 500 ≤ WAIT_TIMEOUT := by
  have hrun : Lts.exec (System.step .release) Lts.anyLabel Errands.boot
      [.controller 0 (.wake true),
        .controller 0 (.send (.cmd (.setTimer (Duration.fromMillis 500))) true),
        .controller 0 (.wake true), .turn (.start [] []),
        .turn (.poll (.ready [Errands.wakerEvent])), .turn .event, .turn .event, .turn .command,
        .turn .command, .turn .action, .turn .action] = some _ := rfl
  obtain ⟨s, s', hs, hstep, hpc, hclock, htimers⟩ : ∃ s s' : Errands.Sys,
      (reactor .release Poller.new).Reachable Lts.anyLabel s ∧
      System.step .release s (.turn (.start [] [])) = some s' ∧
      s'.pc = .poll (.fromMillis 500) ∧ s.clock = some (.fromMillis 1000) ∧
      s.runtime.timeouts = ⟨{1500}⟩ := ⟨_, _, Errands.reachable_of_exec hrun, rfl, rfl, rfl, rfl⟩
  refine ⟨s, s', hs, hstep, hpc, ?_⟩
  apply ((poll_wait_bounded_iff .release Poller.new).2 s s' [] [] _ hstep hpc).mpr
  intro time htime last hlast hle
  rw [hclock] at htime
  cases htime
  rw [htimers] at hlast
  obtain ⟨hmem, -⟩ := BTreeSet.first_eq_some_iff.mp hlast
  rw [Finset.mem_singleton.mp hmem]
  decide

/-- With a timer of two hours pending, the next poll waits for two hours. -/
theorem poll_wait_unbounded : ∃ s : Errands.Sys,
    (reactor .release Poller.new).Reachable Lts.anyLabel s ∧
    s.pc = .poll (.fromMillis 7200000) ∧ ¬ Duration.fromMillis 7200000 ≤ WAIT_TIMEOUT := by
  have hrun : Lts.exec (System.step .release) Lts.anyLabel Errands.boot
      [.controller 0 (.wake true),
        .controller 0 (.send (.cmd (.setTimer (Duration.fromMillis 7200000))) true),
        .controller 0 (.wake true), .turn (.start [] []),
        .turn (.poll (.ready [Errands.wakerEvent])), .turn .event, .turn .event, .turn .command,
        .turn .command, .turn .action, .turn .action, .turn (.start [] [])] = some _ := rfl
  exact ⟨_, Errands.reachable_of_exec hrun, rfl, by decide⟩

end IoReactor
