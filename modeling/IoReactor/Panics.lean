/-
# Which panics a run can reach

On the popol engine the panics that guard the internal consistency of the runtime are
out of reach: the registry excludes unknown and vanished resources, and the runtime's
own clone of the controller keeps the control channel connected.  Of the others only
the subtraction in `Timer::next_expiring_from` is not the fault of the surroundings;
it panics in a debug build when the first deadline does not fit 64 bits.
-/
import IoReactor.Commands
import IoReactor.Registry

namespace IoReactor

/-! ## Kinds of panics -/

/-- The panics that guard the consistency of the runtime's own tables and channel. -/
def Panic.Internal : Panic → Prop
  | .unknownDescriptor => True
  | .resourceDisappeared => True
  | .listenerDisappeared => True
  | .transportDisappeared => True
  | .controlChannelBroken => True
  | _ => False

/-- The panics that blame the surroundings: a failing waker, a send to a transport that
is not ready to write, or a `write_or_buf` or a clock outside its contract. -/
def Panic.Permitted : Panic → Prop
  | .wakerFailure _ => True
  | .unableToResetWaker => True
  | .writeNotReady _ => True
  | .writeOrBufMustBuffer => True
  | .systemTime => True
  | _ => False

/-- No permitted panic is an internal one. -/
theorem Panic.Permitted.not_internal {p : Panic} (h : p.Permitted) : ¬ p.Internal := by
  cases p <;> first | exact id | exact h.elim

variable {H P A L T C EL ET : Type}

/-! ## The control channel stays connected -/

/-- The senders of the channel: one is the runtime's own, the others are the clones'. -/
def System.Connected (s : System H P L T C EL ET) : Prop :=
  s.pc.Alive → s.channel.senders = 1 + (s.controllers.map Controller.senders).sum

/-- Replacing a clone replaces its sender. -/
theorem sum_senders_set {cs : List (Controller C)} {i : ℕ} {ctl : Controller C}
    (hi : cs[i]? = some ctl) (ctl' : Controller C) :
    ((cs.set i ctl').map Controller.senders).sum + ctl.senders =
      (cs.map Controller.senders).sum + ctl'.senders := by
  obtain ⟨before, after, hsplit, hset⟩ := exists_split_at hi ctl'
  rw [hset, hsplit]
  simp only [List.map_append, List.map_cons, List.sum_append, List.sum_cons]
  omega

/-- A step of a controller keeps the channel connected. -/
theorem System.connected_of_moved {s s' : System H P L T C EL ET} {i : ℕ} {move : Move C}
    (hconn : s.Connected) (h : System.Moved s i move s') : s'.Connected := by
  cases h with
  | clone hi =>
      intro halive
      have hsenders := hconn halive
      show s.channel.senders + 1 =
        1 + ((s.controllers ++ [Controller.idle]).map Controller.senders).sum
      rw [List.map_append, List.sum_append]
      show s.channel.senders + 1 = 1 + ((s.controllers.map Controller.senders).sum + 1)
      omega
  | drop hi =>
      intro halive
      have hsenders := hconn halive
      have hsum := sum_senders_set hi .dropped
      show s.channel.senders - 1 = 1 + ((s.controllers.set i .dropped).map _).sum
      simp only [Controller.senders] at hsum
      omega
  | sent hi op msg hmsg hrecv =>
      intro halive
      have hsenders := hconn halive
      have hsum := sum_senders_set hi (.waking op (some s.sent.length))
      show s.channel.senders = 1 + ((s.controllers.set i _).map Controller.senders).sum
      simp only [Controller.senders] at hsum
      omega
  | lost hi =>
      intro halive
      have hsenders := hconn halive
      have hsum := sum_senders_set hi (.waking .shutdown none)
      show s.channel.senders = 1 + ((s.controllers.set i _).map Controller.senders).sum
      simp only [Controller.senders] at hsum
      omega
  | refused hi c => exact hconn
  | woke op slot hi ok =>
      rw [System.wakeStep_eq]
      intro halive
      have hsenders := hconn halive
      have hsum := sum_senders_set hi (op.leaves (op.result slot.isSome ok))
      show s.channel.senders - (1 - (op.leaves (op.result slot.isSome ok)).senders) =
        1 + ((s.controllers.set i (op.leaves (op.result slot.isSome ok))).map _).sum
      -- the call held a sender, and its end keeps it or drops it
      have hwaking : (Controller.waking op slot).senders = 1 := rfl
      have hle : (op.leaves (op.result slot.isSome ok)).senders ≤ 1 := by
        cases op.leaves (op.result slot.isSome ok) <;> simp [Controller.senders]
      omega

section

variable [Handler H L T C EL ET] [Resource L EL] [Resource T ET] [Poll P A]

/-- While the thread is alive a turn neither adds nor drops a sender. -/
theorem senders_of_turned {prof : Profile} {clock : SystemTime}
    {th th' : Thread H P L T C EL ET} {input : Input A}
    (h : Thread.Turned prof clock th input th') (halive : th'.pc.Alive) :
    th.pc.Alive ∧ th'.runtime.ctlRecv.senders = th.runtime.ctlRecv.senders := by
  cases h with
  | started hpc ls ts hls hts time hclock expiring hexp =>
      exact ⟨by rw [hpc]; exact ⟨nofun, nofun⟩, rfl⟩
  | polled timeout hpc answer now hclock fired hfired service rt hrt =>
      subst hrt
      exact ⟨by rw [hpc]; exact ⟨nofun, nofun⟩, rfl⟩
  | batchDone now awoken hpc hnext =>
      refine ⟨?_, rfl⟩
      rw [hpc]
      cases awoken <;> exact ⟨nofun, nofun⟩
  | event now awoken hpc id res poller hnext woken rt hev =>
      refine ⟨?_, congrArg Channel.senders hev.frame.1⟩
      rw [hpc]
      cases awoken <;> exact ⟨nofun, nofun⟩
  | drained now hpc hqueue => exact ⟨by rw [hpc]; exact ⟨nofun, nofun⟩, rfl⟩
  | command now hpc cmd queue hqueue => exact ⟨by rw [hpc]; exact ⟨nofun, nofun⟩, rfl⟩
  | shutdown now hpc queue hqueue => exact ⟨by rw [hpc]; exact ⟨nofun, nofun⟩, rfl⟩
  | actionsDone now hpc service hnext => exact ⟨by rw [hpc]; exact ⟨nofun, nofun⟩, rfl⟩
  | action now hpc action service hnext result rt hact =>
      exact ⟨by rw [hpc]; exact ⟨nofun, nofun⟩, congrArg Channel.senders hact.frame.1⟩
  | exited hpc => exact absurd rfl halive.1
  | panicked input p hp => exact absurd rfl halive.2

/-- The channel is connected in every reachable state. -/
theorem connected_of_reachable {prof : Profile} {engine : P}
    {G : System H P L T C EL ET → Label A C → Prop} {s : System H P L T C EL ET}
    (hs : (reactor prof engine).Reachable G s) : s.Connected := by
  refine hs.invariant (I := System.Connected) ?_ ?_
  · rintro s ⟨service, fd, clock, poller, hreg, rfl⟩ -
    rfl
  · intro s label s' hconn hG hstep
    cases label with
    | clock reading =>
        cases hstep
        exact hconn
    | breakWaker broken =>
        cases hstep
        exact hconn
    | controller i move =>
        exact System.connected_of_moved hconn (System.moved_of_controllerStep hstep)
    | turn input =>
        obtain ⟨th, hturn, rfl⟩ := Option.map_eq_some_iff.mp hstep
        intro halive
        obtain ⟨halive', hsenders⟩ := senders_of_turned (Thread.turned_of_turn hturn) halive
        exact hsenders.trans (hconn halive')

end

/-! ## The panics of a run -/

section

variable [Handler H L T C EL ET] [Resource L EL] [Resource T ET]

/-- In a debug build, with the clock at a time below the first deadline, the low 64 bits
of the deadline are smaller than those of the time. -/
def System.Truncating {P : Type} (prof : Profile) (s : System H P L T C EL ET) : Prop :=
  prof = .debug ∧ ∃ time, Timestamp.now s.clock = .ok time ∧
    s.runtime.timeouts.Truncates time

instance {P : Type} (prof : Profile) (s : System H P L T C EL ET) :
    Decidable (s.Truncating prof) :=
  match hnow : Timestamp.now s.clock with
  | .error _ => isFalse (by rintro ⟨-, time, htime, -⟩; rw [hnow] at htime; cases htime)
  | .ok time =>
      decidable_of_iff (prof = .debug ∧ s.runtime.timeouts.Truncates time)
        ⟨fun h => ⟨h.1, time, hnow, h.2⟩, fun ⟨hprof, t, ht, htrunc⟩ => by
          rw [hnow] at ht; cases ht; exact ⟨hprof, htrunc⟩⟩

/-- A panic in a state in step is permitted, or the subtraction has overflowed. -/
theorem permitted_of_raises {prof : Profile} {s : System H Poller L T C EL ET}
    (hs : (reactor prof Poller.new).Reachable PopolContract s)
    {input : Input Popol.Answer} (hG : PopolContract s (.turn input))
    {p : Panic} (h : Thread.Raises prof s.clock s.toThread input p) :
    p.Permitted ∨
      ((∃ ls ts, input = .start ls ts) ∧ s.Truncating prof ∧ p = .subtractWithOverflow) := by
  obtain ⟨hreg, hbatch, -⟩ := inStep_of_reachable hs
  cases h with
  | clockAtStart hpc ls ts hclock => exact Or.inl trivial
  | clockAtPoll timeout hpc answer hclock => exact Or.inl trivial
  | truncation hpc ls ts time hclock hprof htrunc =>
      exact Or.inr ⟨⟨ls, ts, rfl⟩, ⟨hprof, time, hclock, htrunc⟩, rfl⟩
  | wakerFailure now awoken hpc err => exact Or.inl trivial
  | waker now awoken hpc => exact Or.inl trivial
  | unknown now awoken hpc id res poller hnext hid hl ht =>
      -- the id of a pending event is registered
      exfalso
      rcases (hreg.sources id).mp (hbatch.next hnext).1 with h | h | h
      · exact hid h
      · exact hl h
      · exact ht h
  | broken now hpc hsenders =>
      -- the runtime's own clone keeps a sender
      have halive : s.pc.Alive := by
        rw [hpc]
        exact ⟨nofun, nofun⟩
      have hconn := connected_of_reachable hs halive
      exact absurd hconn (by rw [System.channel, hsenders]; omega)
  | engine now hpc action service hnext hregisters fd p hregister =>
      -- the counter is far from its end
      exfalso
      have hfew : (issued s.runtime.trace).length + 1 < 2 ^ 64 - 1 := by
        apply hG.2
        rw [hnext]
        exact hregisters
      have hcounter := hreg.counter
      change Poller.register prof s.runtime.poller fd .readOnly = _ at hregister
      unfold Poller.register at hregister
      rw [ResourceIdGenerator.next_eq (by omega)] at hregister
      cases hregister
  | timer now hpc duration p hset =>
      -- the time of the iteration and the duration are far below the `u128` range
      exfalso
      have hnow : now < 2 ^ 74 := time_lt_of_reachable hs (by rw [hpc]; rfl)
      have hduration := duration.asMillis_lt
      rw [Timer.setTimeout_eq (by omega)] at hset
      cases hset
  | writeOrBuf now hpc => exact Or.inl trivial
  | writeNotReady now hpc id => exact Or.inl trivial

/-- The panics of a run have every property that the permitted ones have, and that the
overflow of the subtraction has if a start may truncate. -/
theorem panicked_invariant {prof : Profile}
    {G : System H Poller L T C EL ET → Label Popol.Answer C → Prop}
    (hG : ∀ s label, G s label → PopolContract s label) {Q : Panic → Prop}
    (hpermitted : ∀ p : Panic, p.Permitted → Q p)
    (htrunc : ∀ s ls ts, G s (.turn (.start ls ts)) → s.Truncating prof →
      Q .subtractWithOverflow)
    {s : System H Poller L T C EL ET} (hs : (reactor prof Poller.new).Reachable G s)
    {p : Panic} (hp : s.pc = .panicked p) : Q p := by
  refine core_invariant (I := fun th => ∀ p, th.pc = .panicked p → Q p)
    (fun th chan waker h => h) ?_ ?_ hs p hp
  · exact fun service poller fd hreg p hp => by cases hp
  · intro s input th' hreach _ hlabel hturned
    cases hturned with
    | panicked input p hraises =>
        intro p' hp'
        cases hp'
        rcases permitted_of_raises (hreach.mono hG) (hG _ _ hlabel) hraises with
          hp | ⟨⟨ls, ts, rfl⟩, hs, rfl⟩
        · exact hpermitted p hp
        · exact htrunc s ls ts hlabel hs
    | batchDone now awoken hpc hnext => cases awoken <;> exact nofun
    | started hpc ls ts hls hts time hclock expiring hexp => exact nofun
    | polled timeout hpc answer now hclock fired hfired service rt hrt => exact nofun
    | event now awoken hpc id res poller hnext woken rt hev => exact nofun
    | drained now hpc hqueue => exact nofun
    | command now hpc cmd queue hqueue => exact nofun
    | shutdown now hpc queue hqueue => exact nofun
    | actionsDone now hpc service hnext => exact nofun
    | action now hpc action service hnext result rt hact => exact nofun
    | exited hpc => exact nofun

/-- The condition that no iteration of a debug build starts while the first deadline
truncates to less than the time. -/
abbrev NeverTruncates (prof : Profile) (s : System H Poller L T C EL ET)
    (label : Label Popol.Answer C) : Prop :=
  Lts.demand Label.atStart (fun s _ => ¬ s.Truncating prof) s label ∧ PopolContract s label

/-- **When no panic of the loop is reachable but the permitted ones.**  In every run on the
popol engine the panics that guard the runtime's own tables and channel are out of
reach.  If no iteration starts truncating, every panic reached is a permitted one; the
condition is exact, since the start of an iteration panics in a way that is not
permitted if and only if it truncates. -/
theorem only_permitted_panics_iff {prof : Profile} :
    (∀ (s : System H Poller L T C EL ET) (p : Panic),
      (reactor prof Poller.new).Reachable PopolContract s → s.pc = .panicked p →
      ¬ p.Internal) ∧
    (∀ (s : System H Poller L T C EL ET) (p : Panic),
      (reactor prof Poller.new).Reachable (NeverTruncates prof) s → s.pc = .panicked p →
      p.Permitted) ∧
    (∀ (s s' : System H Poller L T C EL ET) (ls ts : List ResourceId),
      (reactor prof Poller.new).Reachable PopolContract s →
      s.step prof (.turn (.start ls ts)) = some s' →
      ((∃ p, s'.pc = .panicked p ∧ ¬ p.Permitted) ↔ s.Truncating prof)) := by
  refine ⟨fun s p hs hp => ?_, fun s p hs hp => ?_, fun s s' ls ts hs hstep => ?_⟩
  · exact panicked_invariant (fun _ _ h => h) (Q := fun p => ¬ p.Internal)
      (fun p hp => hp.not_internal) (fun _ _ _ _ _ => id) hs hp
  · exact panicked_invariant (fun s label h => h.2) (fun p hp => hp)
      (fun s ls ts hG htrunc => absurd htrunc hG.1) hs hp
  · obtain ⟨th, hturn, rfl⟩ := Option.map_eq_some_iff.mp hstep
    have hG : PopolContract s (.turn (.start ls ts)) := ⟨trivial, trivial⟩
    constructor
    · -- of the panics at the start only the one of the subtraction is not permitted
      rintro ⟨p, hp, hnot⟩
      cases Thread.turned_of_turn hturn with
      | started hpc ls ts hls hts time hclock expiring hexp => cases hp
      | panicked input p' hraises =>
          cases hp
          rcases permitted_of_raises hs hG hraises with hp | ⟨-, htrunc, -⟩
          · exact absurd hp hnot
          · exact htrunc
    · rintro ⟨hprof, time, hclock, htrunc⟩
      refine ⟨.subtractWithOverflow, ?_, id⟩
      cases Thread.turned_of_turn hturn with
      | started hpc ls ts hls hts time' hclock' expiring hexp =>
          rw [hclock] at hclock'
          cases hclock'
          rw [Timer.nextExpiringFrom_eq_error_iff.mpr ⟨hprof, htrunc, rfl⟩] at hexp
          cases hexp
      | panicked input p' hraises =>
          cases hraises with
          | clockAtStart hpc ls ts hnone =>
              rw [hnone] at hclock
              cases hclock
          | truncation hpc ls ts time' hclock' hprof' htrunc' => rfl

end

/-- A send to a transport that is not ready to write. -/
theorem only_permitted_panics_write : ∃ s : Errands.Sys,
    (reactor .debug Poller.new).Reachable (NeverTruncates .debug) s ∧
    s.pc = .panicked (.writeNotReady ⟨1⟩) ∧ (Panic.writeNotReady ⟨1⟩).Permitted := by
  have hrun : Lts.exec (System.step .debug) (NeverTruncates .debug) Errands.boot
      [.controller 0 (.wake true),
        .controller 0 (.send (.cmd (.registerTransport { Errands.pipe with ready := false })) true),
        .controller 0 (.wake true), .controller 0 (.send (.cmd (.send ⟨1⟩ [42])) true),
        .controller 0 (.wake true), .turn (.start [] []),
        .turn (.poll (.ready [Errands.wakerEvent])), .turn .event, .turn .event, .turn .command,
        .turn .command, .turn .command, .turn .action, .turn .action] = some _ := rfl
  have hs := Errands.reachable_of_exec hrun
  exact ⟨_, hs, rfl, only_permitted_panics_iff.2.1 _ _ hs rfl⟩

/-- In a debug build a timer set for the largest duration makes the thread panic at the
next iteration. -/
theorem timer_panics : ∃ s : Errands.Sys,
    (reactor .debug Poller.new).Reachable PopolContract s ∧
    s.handled = [.setTimer Duration.MAX] ∧
    ∃ p, s.pc = .panicked p ∧ ¬ p.Permitted := by
  have hrun : Lts.exec (System.step .debug) PopolContract Errands.boot
      [.controller 0 (.wake true),
        .controller 0 (.send (.cmd (.setTimer Duration.MAX)) true), .controller 0 (.wake true),
        .turn (.start [] []), .turn (.poll (.ready [Errands.wakerEvent])), .turn .event,
        .turn .event, .turn .command, .turn .command, .turn .action, .turn .action,
        .turn (.start [] [])] = some _ := rfl
  exact ⟨_, Errands.reachable_of_exec hrun, rfl, .subtractWithOverflow, rfl, id⟩

end IoReactor
