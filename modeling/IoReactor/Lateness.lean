/-
# How late a timer can be

A poll returns at the first deadline or earlier, but for what the operating system
oversleeps, and the next iteration starts when the work of the last one is done.  If polls
oversleep by at most `oversleep` and the work takes at most `work`, then no deadline is
overdue by more than both together when a poll checks the timer (`timers_not_late`); and a
check leaves no deadline that is past.  A `Stopwatch` beside the system records the readings
of the clock that these bounds are about.
-/
import IoReactor.Recording
import IoReactor.Timers
import IoReactor.Waits

namespace IoReactor

variable {H P A L T C EL ET : Type}

/-! ## The bounds -/

/-- The reading at the start of the iteration, and the time of the last round. -/
structure Stopwatch where
  started : ℕ
  polled : Option ℕ
  deriving DecidableEq

/-- What the stopwatch records of a step. -/
def Stopwatch.note (s : System H P L T C EL ET) (label : Label A C) (watch : Stopwatch) :
    Stopwatch :=
  match label, s.clock with
  | .turn (.start _ _), some reading => { watch with started := reading.asMillis }
  | .turn (.poll _), some reading => { watch with polled := some reading.asMillis }
  | _, _ => watch

/-- The timeout with which `run` calls the poll engine. -/
def Pc.timeout : Pc → Option Duration
  | .poll timeout => some timeout
  | _ => none

/-- A poll may go on past its timeout by `oversleep` milliseconds, and the work of a round
may take `work` milliseconds, from the reading after the poll to the start of the next
iteration. -/
abbrev Prompt (work oversleep : ℕ) (x : System H P L T C EL ET × Stopwatch)
    (label : Label A C) : Prop :=
  Lts.demand Label.atStart (fun x _ => ∀ reading ∈ x.1.clock, ∀ time ∈ x.2.polled,
    reading.asMillis ≤ time + work) x label ∧
  Lts.demand Label.atPoll (fun x _ => ∀ reading ∈ x.1.clock, ∀ timeout ∈ x.1.pc.timeout,
    reading.asMillis ≤ x.2.started + timeout.asMillis + oversleep) x label

/-- A reactor with a stopwatch beside it. -/
def watched [Handler H L T C EL ET] [Resource L EL] [Resource T ET] [Poll P A]
    (prof : Profile) (engine : P) : Lts (System H P L T C EL ET × Stopwatch) (Label A C) :=
  Lts.recording (reactor prof engine).init (System.step prof) ⟨0, none⟩ Stopwatch.note

/-- No deadline is pending before the first round, nor one before the time of the last
round, and the poll waits for none longer than until it is overdue by the work of a round. -/
structure OnWatch (work : ℕ) (th : Thread H P L T C EL ET) (watch : Stopwatch) : Prop where
  pending : ∀ t ∈ th.runtime.timeouts.timeouts, ∃ time, watch.polled = some time ∧ time ≤ t
  round : ∀ now, th.pc.time = some now → watch.polled = some now
  waits : ∀ timeout, th.pc = .poll timeout → ∀ t ∈ th.runtime.timeouts.timeouts,
    watch.started + timeout.asMillis ≤ t + work

/-! ## One step -/

/-- The poll waits for no deadline longer than until it is due. -/
theorem Timer.wait_le {prof : Profile} {tm : Timer} {time : ℕ} {expiring : Option Duration}
    (h : tm.nextExpiringFrom prof time = .ok expiring) {t : ℕ} (ht : t ∈ tm.timeouts) :
    time + (expiring.getD WAIT_TIMEOUT).asMillis ≤ max time t := by
  unfold nextExpiringFrom at h
  cases hfirst : BTreeSet.first tm.timeouts with
  | none =>
      rw [BTreeSet.first_eq_none_iff.mp hfirst] at ht
      cases ht
  | some last =>
      have hlast : last ≤ t := (BTreeSet.first_eq_some_iff.mp hfirst).2 t ht
      rw [hfirst] at h
      simp only at h
      by_cases hle : time ≤ last
      · rw [if_pos hle] at h
        cases hsub : wordSub prof 64 (Timestamp.asMillis last) (Timestamp.asMillis time) with
        | error p =>
            rw [hsub] at h
            cases h
        | ok wait =>
            rw [hsub] at h
            cases h
            have hwait := wordSub_asMillis hle hsub
            have hlt : wait < 2 ^ 64 := by omega
            rw [Option.getD_some, Duration.asMillis_fromMillis hlt]
            omega
      · rw [if_neg hle] at h
        cases h
        exact le_max_left _ _

section

variable [Handler H L T C EL ET] [Resource L EL] [Resource T ET] [Poll P A]
variable {prof : Profile} {th th' : Thread H P L T C EL ET} {watch : Stopwatch} {work : ℕ}

omit [Handler H L T C EL ET] [Resource L EL] [Resource T ET] in
/-- A turn that leaves the deadlines and the stopwatch alone and does not go to the poll. -/
theorem OnWatch.same (h : OnWatch work th watch)
    (htimeouts : th'.runtime.timeouts = th.runtime.timeouts)
    (htime : ∀ now, th'.pc.time = some now → th.pc.time = some now)
    (hpoll : ∀ timeout, th'.pc ≠ .poll timeout) : OnWatch work th' watch where
  pending := htimeouts ▸ h.pending
  round now hnow := h.round now (htime now hnow)
  waits timeout hpc := absurd hpc (hpoll timeout)

omit [Handler H L T C EL ET] [Resource L EL] [Resource T ET] in
/-- At the start of an iteration the wait is chosen. -/
theorem OnWatch.started (h : OnWatch work th watch) {time : ℕ}
    (hwork : ∀ polled ∈ watch.polled, time ≤ polled + work) {expiring : Option Duration}
    (hexp : th.runtime.timeouts.nextExpiringFrom prof time = .ok expiring) (poller : P) :
    OnWatch work ⟨.poll (expiring.getD WAIT_TIMEOUT), { th.runtime with poller := poller }⟩
      { watch with started := time } where
  pending := h.pending
  round := nofun
  waits timeout hpc t ht := by
    cases hpc
    have hwait := Timer.wait_le hexp ht
    obtain ⟨polled, hpolled, hle⟩ := h.pending t ht
    have hlate := hwork polled hpolled
    show time + (expiring.getD WAIT_TIMEOUT).asMillis ≤ t + work
    omega

/-- An action of a round enters deadlines at or after its time. -/
theorem OnWatch.acted (h : OnWatch work th watch) {now : ℕ} (hpc : th.pc = .actions now)
    (hlt : now < 2 ^ 74) {action : Action L T} {service : H} {result : Except (Error L T) Unit}
    {rt : Runtime H P L T C EL ET}
    (hact : Runtime.Acted prof ({ th.runtime with service := service }.note
      (.next (some action))) now action result rt) :
    OnWatch work ⟨.actions now, rt.report result⟩ watch where
  pending t ht := by
    rw [hact.timeouts_eq hlt] at ht
    have hround := h.round now (by rw [hpc]; rfl)
    cases htimer : action.timer with
    | none =>
        rw [htimer] at ht
        exact h.pending t ht
    | some d =>
        rw [htimer] at ht
        rcases Finset.mem_insert.mp ht with rfl | ht
        · exact ⟨now, hround, Nat.le_add_right _ _⟩
        · exact h.pending t ht
  round time htime := by
    cases htime
    exact h.round now (by rw [hpc]; rfl)
  waits := nofun

/-- A turn keeps the deadlines and the wait in step with the stopwatch. -/
theorem OnWatch.turned {engine : P} {oversleep : ℕ} {s : System H P L T C EL ET}
    (hs : (reactor prof engine).Reachable Lts.anyLabel s) (h : OnWatch work s.toThread watch)
    {input : Input A} (hG : Prompt work oversleep (s, watch) (.turn input : Label A C))
    (hturned : Thread.Turned prof s.clock s.toThread input th') :
    OnWatch work th' (Stopwatch.note s (.turn input : Label A C) watch) := by
  cases hturned with
  | started hpc ls ts hls hts time hclock expiring hexp =>
      obtain ⟨reading, hreading, rfl⟩ := Timestamp.now_eq_ok_iff.mp hclock
      have hnote : Stopwatch.note s (.turn (.start ls ts) : Label A C) watch =
          { watch with started := reading.asMillis } := by
        unfold Stopwatch.note
        rw [hreading]
      rw [hnote]
      exact h.started (hG.1 reading hreading) hexp _
  | polled timeout hpc answer now hclock fired hfired service rt hrt =>
      obtain ⟨reading, hreading, rfl⟩ := Timestamp.now_eq_ok_iff.mp hclock
      have hnote : Stopwatch.note s (.turn (.poll answer) : Label A C) watch =
          { watch with polled := some reading.asMillis } := by
        unfold Stopwatch.note
        rw [hreading]
      rw [hnote, hrt]
      refine ⟨fun t ht => ⟨_, rfl, (Finset.mem_filter.mp ht).2.le⟩, ?_, nofun⟩
      rintro now hnow
      cases hnow
      rfl
  | batchDone now awoken hpc hnext =>
      refine h.same rfl (fun time htime => ?_) ?_
      · rw [hpc]
        cases awoken <;> exact htime
      · cases awoken <;> exact nofun
  | event now awoken hpc id res poller hnext woken rt hev =>
      exact h.same hev.frame.2.1 (fun time htime => by rw [hpc]; exact htime) nofun
  | drained now hpc hqueue => exact h.same rfl (fun time htime => by rw [hpc]; exact htime) nofun
  | command now hpc cmd queue hqueue =>
      exact h.same rfl (fun time htime => by rw [hpc]; exact htime) nofun
  | shutdown now hpc queue hqueue => exact h.same rfl nofun nofun
  | actionsDone now hpc service hnext => exact h.same rfl nofun nofun
  | action now hpc action service hnext result rt hact =>
      have hlt : now < 2 ^ 74 := time_lt_of_reachable hs (by rw [hpc]; rfl)
      exact h.acted hpc hlt hact
  | exited hpc => exact h.same rfl nofun nofun
  | panicked input p hp =>
      -- a poll that panics does so because it cannot read the clock
      have hpolled : (Stopwatch.note s (.turn input : Label A C) watch).polled = watch.polled := by
        unfold Stopwatch.note
        cases input with
        | start ls ts => cases s.clock <;> rfl
        | poll answer =>
            cases hp with
            | clockAtPoll timeout hpc answer hclock => rw [hclock]
        | _ => rfl
      exact ⟨fun t ht => hpolled ▸ h.pending t ht, nofun, nofun⟩

/-- The thread stays in step with the stopwatch in a prompt run. -/
theorem onWatch_of_reachable {engine : P} {oversleep : ℕ}
    {x : System H P L T C EL ET × Stopwatch}
    (hx : (watched prof engine).Reachable (Prompt work oversleep) x) :
    OnWatch work x.1.toThread x.2 := by
  refine Lts.Reachable.invariant_of (J := fun y => (reactor prof engine).Reachable Lts.anyLabel y.1)
    (I := fun y => OnWatch work y.1.toThread y.2) ?_ ?_ ?_ hx
  · exact fun y hy => hy.of_recording
  · rintro ⟨s, watch⟩ ⟨⟨service, fd, clock, poller, hreg, rfl⟩, rfl⟩
    exact ⟨nofun, nofun, nofun⟩
  · rintro ⟨s, watch⟩ label ⟨s', watch'⟩ hs h hG hstep
    obtain ⟨hstep, hnote⟩ := Lts.step_of_recording hstep
    cases label with
    | clock reading =>
        cases hstep
        cases hnote
        exact h
    | breakWaker broken =>
        cases hstep
        cases hnote
        exact ⟨h.pending, h.round, h.waits⟩
    | controller i move =>
        cases hnote
        obtain ⟨chan, waker, hcore⟩ := System.core_of_controllerStep hstep
        show OnWatch work s'.toThread watch
        rw [hcore]
        exact ⟨h.pending, h.round, h.waits⟩
    | turn input =>
        obtain ⟨th, hturn, rfl⟩ := Option.map_eq_some_iff.mp hstep
        cases hnote
        exact h.turned hs hG (Thread.turned_of_turn hturn)

/-- **Timers are not late.**  In every run on any engine whose polls oversleep their timeout
by at most `oversleep` milliseconds and whose rounds work for at most `work` milliseconds,
when a poll checks the timer at the time `now` no pending deadline is overdue by more than
both together, those at or before `now` are removed, and all others stay.  The bound needs
no assumption on the size of the deadlines: the subtraction of their low 64 bits only ever
shortens the wait. -/
theorem timers_not_late {engine : P} {oversleep : ℕ} {x : System H P L T C EL ET × Stopwatch}
    (hx : (watched prof engine).Reachable (Prompt work oversleep) x) {answer : A}
    (hG : Prompt work oversleep x (.turn (.poll answer) : Label A C))
    {s' : System H P L T C EL ET} (hstep : System.step prof x.1 (.turn (.poll answer)) = some s')
    {now : ℕ} (hpc : s'.pc = .events now false) :
    (∀ t ∈ x.1.runtime.timeouts.timeouts, now ≤ t + work + oversleep) ∧
    ∀ t, t ∈ s'.runtime.timeouts.timeouts ↔ t ∈ x.1.runtime.timeouts.timeouts ∧ now < t := by
  have hwatch := onWatch_of_reachable hx
  obtain ⟨th, hturn, rfl⟩ := Option.map_eq_some_iff.mp hstep
  cases Thread.turned_of_turn hturn with
  | polled timeout hpoll answer now hclock fired hfired service rt hrt =>
      cases hpc
      obtain ⟨reading, hreading, rfl⟩ := Timestamp.now_eq_ok_iff.mp hclock
      refine ⟨fun t ht => ?_, fun t => ?_⟩
      · have hwait := hwatch.waits timeout hpoll t ht
        have hlate : reading.asMillis ≤ x.2.started + timeout.asMillis + oversleep :=
          hG.2 reading hreading timeout (by rw [hpoll]; rfl)
        omega
      · rw [hrt]
        exact Finset.mem_filter
  | panicked input p hp => cases hpc

end

/-- A timer of five milliseconds is found expired two milliseconds late, by a poll that
oversleeps by one after a round that took six. -/
theorem timers_not_late_two : ∃ (x : Errands.Sys × Stopwatch) (s' : Errands.Sys),
    (watched .release Poller.new).Reachable (Prompt 6 1) x ∧
    System.step .release x.1 (.turn (.poll (.ready []))) = some s' ∧ s'.pc = .events 1007 false ∧
    ((∀ t ∈ x.1.runtime.timeouts.timeouts, 1007 ≤ t + 6 + 1) ∧
    ∀ t, t ∈ s'.runtime.timeouts.timeouts ↔ t ∈ x.1.runtime.timeouts.timeouts ∧ 1007 < t) := by
  have hrun : Lts.exec (fun (x : Errands.Sys × Stopwatch) (label : Errands.Lab) =>
        (System.step .release x.1 label).map fun s => (s, Stopwatch.note x.1 label x.2))
      (Prompt 6 1) (Errands.boot, ⟨0, none⟩)
      [.controller 0 (.wake true),
        .controller 0 (.send (.cmd (.setTimer (Duration.fromMillis 5))) true),
        .controller 0 (.wake true), .turn (.start [] []),
        .turn (.poll (.ready [Errands.wakerEvent])), .turn .event, .turn .event, .turn .command,
        .turn .command, .turn .action, .turn .action, .clock (some (Duration.fromMillis 1006)),
        .turn (.start [] []), .clock (some (Duration.fromMillis 1007))] = some _ := rfl
  have hx : (watched .release Poller.new).Reachable (Prompt 6 1) _ :=
    Lts.reachable_of_exec ⟨Errands.init_boot .release, rfl⟩ hrun
  exact ⟨_, _, hx, rfl, rfl, timers_not_late hx (by decide) rfl rfl⟩

end IoReactor
