/-
# What fairness does not give

The command loop of `Runtime::run` takes messages until it finds the channel empty.  A
controller that sends faster than the service handles keeps it from ever doing so, however
fair the run is to the thread (`commands_can_starve`): no poll happens any more and no timer
fires.  So the assumption of `timer_eventually_fires` that no command loop goes on for ever
cannot be left out, from wherever the loop starts.
-/
import IoReactor.Lifetime
import IoReactor.Panics

namespace IoReactor

variable {H P A L T C EL ET : Type}

/-! ## The channel of a thread that lives -/

section

variable [Handler H L T C EL ET] [Resource L EL] [Resource T ET] [Poll P A]
variable {prof : Profile} {engine : P} {G : System H P L T C EL ET → Label A C → Prop}

/-- A turn after which the thread lives takes messages from the channel at most. -/
theorem Thread.Turned.channel {clock : SystemTime} {th th' : Thread H P L T C EL ET}
    {input : Input A} (h : Turned prof clock th input th') (halive : th'.pc.Alive) :
    ∃ queue, th'.runtime.ctlRecv = { th.runtime.ctlRecv with queue := queue } := by
  cases h with
  | polled timeout hpc answer now hclock fired hfired service rt hrt =>
      rw [hrt]
      exact ⟨_, rfl⟩
  | event now awoken hpc id res poller hnext woken rt hev => exact ⟨_, hev.frame.1⟩
  | command now hpc cmd queue hqueue => exact ⟨queue, rfl⟩
  | shutdown now hpc queue hqueue => exact ⟨queue, rfl⟩
  | action now hpc action service hnext result rt hact => exact ⟨_, hact.frame.1⟩
  | exited hpc => exact absurd rfl halive.1
  | panicked input p hp => exact absurd rfl halive.2
  | _ => exact ⟨_, rfl⟩

/-- While the thread lives, the channel has its receiver. -/
theorem System.receiver_of_alive {s : System H P L T C EL ET}
    (hs : (reactor prof engine).Reachable G s) (halive : s.pc.Alive) :
    s.channel.receiver = true := by
  refine hs.invariant (I := fun s => s.pc.Alive → s.channel.receiver = true) ?_ ?_ halive
  · rintro s ⟨service, fd, clock, poller, hreg, rfl⟩ -
    rfl
  · intro s label s' hI _ hstep halive
    cases label with
    | clock reading =>
        cases hstep
        exact hI halive
    | breakWaker broken =>
        cases hstep
        exact hI halive
    | controller i move =>
        cases System.moved_of_controllerStep hstep with
        | woke op slot hi ok =>
            rw [System.wakeStep_eq] at halive ⊢
            exact hI halive
        | _ => exact hI halive
    | turn input =>
        obtain ⟨th, hth, rfl⟩ := Option.map_eq_some_iff.mp hstep
        have hturned := Thread.turned_of_turn hth
        obtain ⟨queue, hqueue⟩ := hturned.channel halive
        rw [System.channel, hqueue]
        exact hI (senders_of_turned hturned halive).1

/-- In the command loop, what is queued was sent. -/
theorem System.shutdown_of_queued {s : System H P L T C EL ET}
    (hs : (reactor prof engine).Reachable G s) (hpc : s.pc.InCommands)
    (hmem : .shutdown ∈ s.channel.queue) : .shutdown ∈ s.sent := by
  have hph : s.mailbox.phase = .draining := Pc.phase_eq_draining.mpr hpc
  have hdelivered := Mailbox.delivery (mailbox_reachable hs)
  unfold Mailbox.Delivered at hdelivered
  simp only [hph] at hdelivered
  have hstop : .stop ∈ s.sent.map Ctl.letter := by
    rw [show s.sent.map Ctl.letter = _ from hdelivered]
    exact List.mem_append_right _ (List.mem_map.mpr ⟨.shutdown, hmem, rfl⟩)
  obtain ⟨msg, hsent, hmsg⟩ := List.mem_map.mp hstop
  cases msg with
  | cmd c => cases hmsg
  | shutdown => exact hsent

end

/-! ## A flood of commands -/

namespace System

/-- The thread is in the command loop with no `Shutdown` ahead, and its deadlines are
those of `tm`. -/
structure Flooded (tm : Timer) (s : System H P L T C EL ET) : Prop where
  pc : s.pc.InCommands
  receiver : s.channel.receiver = true
  unasked : .shutdown ∉ s.channel.queue
  timeouts : s.runtime.timeouts = tm

/-- The labels of a flood: the clone `i` sends `c` and wakes the thread, which takes one
message. -/
def flood (i : ℕ) (c : C) : ℕ → Label A C
  | 0 => .controller i (.send (.cmd c) true)
  | 1 => .controller i (.wake true)
  | 2 => .turn .command
  | n + 3 => flood i c n

/-- The states of a flood. -/
def InFlood (tm : Timer) (i : ℕ) (c : C) : ℕ → System H P L T C EL ET → Prop
  | 0, s => s.Flooded tm ∧ s.controllers[i]? = some .idle
  | 1, s => s.Flooded tm ∧ s.channel.queue ≠ [] ∧
      ∃ slot, s.controllers[i]? = some (.waking (.cmd c) slot)
  | 2, s => s.Flooded tm ∧ s.channel.queue ≠ [] ∧ s.controllers[i]? = some .idle
  | n + 3, s => InFlood tm i c n s

/-- The thread is in the command loop all the time, with the same deadlines. -/
theorem flooded_of_inFlood {tm : Timer} {i : ℕ} {c : C} {s : System H P L T C EL ET} :
    ∀ n, InFlood tm i c n s → s.Flooded tm
  | 0, h => h.1
  | 1, h => h.1
  | 2, h => h.1
  | n + 3, h => flooded_of_inFlood n h

/-- No label of a flood is a poll. -/
theorem not_isPoll_flood (i : ℕ) (c : C) : ∀ n, ¬ (flood i c n : Label A C).IsPoll
  | 0 => nofun
  | 1 => nofun
  | 2 => nofun
  | n + 3 => not_isPoll_flood i c n

/-- The thread has its turns. -/
theorem flood_turn (i : ℕ) (c : C) (n : ℕ) :
    (flood i c (3 * n + 2) : Label A C) = .turn .command := by
  induction n with
  | zero => rfl
  | succ n ih => exact ih

variable [Handler H L T C EL ET] [Resource L EL] [Resource T ET] [Poll P A]

/-- A flood goes on. -/
theorem flood_goes_on (prof : Profile) {tm : Timer} {i : ℕ} {c : C} :
    ∀ (n : ℕ) (s : System H P L T C EL ET), InFlood tm i c n s →
      ∃ s', s.step prof (flood i c n : Label A C) = some s' ∧ InFlood tm i c (n + 1) s'
  | 0, s, ⟨h, hi⟩ => by
      obtain ⟨hlt, -⟩ := List.getElem?_eq_some_iff.mp hi
      refine ⟨{ (s.setChannel (s.channel.push (.cmd c))).setController i
        (.waking (.cmd c) (some s.sent.length)) with sent := s.sent ++ [.cmd c] }, ?_, ?_⟩
      · show s.controllerStep i (.send (.cmd c) true) = _
        simp only [controllerStep, hi, sendStep, Op.message, if_pos h.receiver, if_true]
      · refine ⟨⟨h.pc, h.receiver, ?_, h.timeouts⟩, List.concat_ne_nil _ _,
          some s.sent.length, List.getElem?_set_self hlt⟩
        show .shutdown ∉ s.channel.queue ++ [.cmd c]
        rw [List.mem_append, List.mem_singleton]
        rintro (hmem | hmem)
        · exact h.unasked hmem
        · cases hmem
  | 1, s, ⟨h, hqueue, slot, hi⟩ => by
      obtain ⟨hlt, -⟩ := List.getElem?_eq_some_iff.mp hi
      refine ⟨s.wakeStep i (.cmd c) slot true, ?_, ?_⟩
      · show s.controllerStep i (.wake true) = _
        simp only [controllerStep, hi]
      · rw [wakeStep_eq]
        exact ⟨⟨h.pc, h.receiver, h.unasked, h.timeouts⟩, hqueue, List.getElem?_set_self hlt⟩
  | 2, s, ⟨h, hqueue, hi⟩ => by
      obtain ⟨now, hpc⟩ := h.pc
      cases hq : s.runtime.ctlRecv.queue with
      | nil => exact absurd hq hqueue
      | cons msg queue =>
          have hunasked := h.unasked
          rw [channel, hq, List.mem_cons, not_or] at hunasked
          cases msg with
          | shutdown => exact absurd rfl hunasked.1
          | cmd cmd =>
              refine ⟨{ s with toThread := ⟨.commands now, { s.runtime with
                ctlRecv := { s.runtime.ctlRecv with queue := queue } }.call
                  (.handleCommand cmd)⟩ }, ?_, ?_⟩
              · show (s.toThread.turn prof s.clock .command).map _ = _
                simp only [Thread.turn, hpc, Runtime.receive, Channel.tryRecv, hq]
                rfl
              · exact ⟨⟨⟨now, rfl⟩, h.receiver, hunasked.2, h.timeouts⟩, hi⟩
  | n + 3, s, h => flood_goes_on prof n s h

end System

section

variable [Handler H L T C EL ET] [Resource L EL] [Resource T ET]
variable {prof : Profile} {engine : Poller}

/-- **Commands can starve the reactor.**  From every reachable state in the command loop in
which some controller is idle and no `Shutdown` was sent there is a fair run that stays in
the command loop for ever: the thread has all its turns, but polls no more, and no pending
deadline is ever removed. -/
theorem commands_can_starve {s : System H Poller L T C EL ET}
    (hs : (reactor prof engine).Reachable Lts.anyLabel s) (hpc : s.pc.InCommands)
    (hsent : .shutdown ∉ s.sent) {i : ℕ} (hi : s.controllers[i]? = some .idle) (c : C) :
    ∃ r : (reactor prof engine).Run Lts.anyLabel, Fair r ∧ r.state 0 = s ∧
      ∀ n, (r.state n).pc.InCommands ∧ ¬ (r.label n).IsPoll ∧
        (r.state n).runtime.timeouts = s.runtime.timeouts := by
  have halive : s.pc.Alive := by
    obtain ⟨now, hnow⟩ := hpc
    rw [hnow]
    exact ⟨nofun, nofun⟩
  have hflooded : s.Flooded s.runtime.timeouts :=
    ⟨hpc, System.receiver_of_alive hs halive,
      fun hmem => hsent (System.shutdown_of_queued hs hpc hmem), rfl⟩
  obtain ⟨r, hzero, hlabel, hstate⟩ := Lts.Run.exists_through
    (System.InFlood s.runtime.timeouts i c) (System.flood i c) hs ⟨hflooded, hi⟩ (by
      intro n u hu
      obtain ⟨u', hstep, hu'⟩ := System.flood_goes_on prof n u hu
      exact ⟨trivial, u', hstep, hu'⟩)
  have hloop := fun n => System.flooded_of_inFlood n (hstate n)
  have hpoll : ∀ n, ¬ (r.label n).IsPoll := fun n => hlabel ▸ System.not_isPoll_flood i c n
  refine ⟨r, ⟨fun n _ => ?_, fun n hactions => ?_, fun n _ hpolls => ?_⟩, hzero, fun n => ?_⟩
  · refine ⟨3 * n + 2, by omega, .command, ?_⟩
    rw [hlabel]
    exact System.flood_turn i c n
  · -- the thread is in another loop
    obtain ⟨now, hnow⟩ := hactions
    obtain ⟨now', hnow'⟩ := (hloop n).pc
    cases hnow.symm.trans hnow'
  · obtain ⟨m, -, hm⟩ := hpolls n le_rfl
    exact absurd hm (hpoll m)
  · exact ⟨(hloop n).pc, hpoll n, (hloop n).timeouts⟩

end

/-- A controller floods the thread while a timer is pending. -/
theorem commands_can_starve_timer : ∃ s : Errands.Sys,
    s.runtime.timeouts.timeouts = {1005} ∧
    ∃ r : (reactor (H := Errands) .release Poller.new).Run Lts.anyLabel, Fair r ∧
      r.state 0 = s ∧ ∀ n, (r.state n).pc.InCommands ∧ ¬ (r.label n).IsPoll ∧
        (r.state n).runtime.timeouts = s.runtime.timeouts := by
  obtain ⟨s, hexec, htimer, hpc, hsent, hi⟩ : ∃ s : Errands.Sys,
      Lts.exec (System.step .release) Lts.anyLabel Errands.boot
        ([.controller 0 (.wake true),
          .controller 0 (.send (.cmd (.setTimer (Duration.fromMillis 5))) true),
          .controller 0 (.wake true), .turn (.start [] []),
          .turn (.poll (.ready [Errands.wakerEvent])), .turn .event, .turn .event, .turn .command,
          .turn .command, .turn .action, .turn .action,
          .controller 0 (.send (.cmd (.send ⟨1⟩ [])) true), .controller 0 (.wake true),
          .turn (.start [] []), .turn (.poll (.ready [Errands.wakerEvent])), .turn .event,
          .turn .event] : List Errands.Lab) = some s ∧
      s.runtime.timeouts.timeouts = {1005} ∧ s.pc.InCommands ∧ .shutdown ∉ s.sent ∧
      s.controllers[0]? = some .idle :=
    ⟨_, rfl, by decide, ⟨1000, rfl⟩, by decide, rfl⟩
  exact ⟨s, htimer, commands_can_starve (Errands.reachable_of_exec hexec) hpc hsent hi
    (.send ⟨1⟩ [])⟩

end IoReactor
