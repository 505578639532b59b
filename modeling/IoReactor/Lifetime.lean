/-
# The life of the reactor thread

`Reactor::with` spawns the thread and wakes it up, and hands the only controller to its
caller.  Here is what follows for the life of the thread.

* A successful wake, the one of the launch included, makes the thread ask the service for
  its actions (`wake_not_lost`).
* The thread does not go to sleep before it has been told that there are no actions, but
  for its first poll, which the launch interrupts (`never_sleeps_on_actions`).
* Once the thread has returned or panicked nothing of it changes any more, and a call that
  is begun after that sends no message (`end_is_final`).
* If the last controller is dropped before anyone has sent a `Shutdown`, then nobody can
  stop the thread: it polls for ever, or panics (`orphan_polls_for_ever`).  This is how a
  launch ends whose wake fails, since `Reactor::with` then returns an error and drops the
  controller.
-/
import IoReactor.Eventually
import IoReactor.Callbacks

namespace IoReactor

variable {H P A L T C EL ET : Type}

/-! ## A wake is not lost -/

/-- The thread has been called to ask the service for its actions, and has not done so
yet. -/
def Thread.Called (th : Thread H P L T C EL ET) : Prop :=
  th.runtime.waker.signal = true ∨ (∃ now, th.pc = .events now true) ∨
    th.pc.InCommands ∨ th.pc.InActions

section

variable [Handler H L T C EL ET] [Resource L EL] [Resource T ET] [Poll P A]
variable {prof : Profile} {engine : P} {G : System H P L T C EL ET → Label A C → Prop}

/-- A turn of a thread that is called leaves it called, asks the service, or ends the
loop. -/
theorem Thread.Called.turned {clock : SystemTime} {th th' : Thread H P L T C EL ET}
    {input : Input A} (h : th.Called) (hturned : Turned prof clock th input th') :
    th'.Called ∨
      (∃ answer tr, th'.runtime.trace = th.runtime.trace ++ .next answer :: tr) ∨
      ¬ th'.pc.Running := by
  cases hturned with
  | started hpc ls ts hls hts time hclock expiring hexp =>
      rcases h with hsignal | ⟨now, hpc'⟩ | ⟨now, hpc'⟩ | ⟨now, hpc'⟩
      · exact Or.inl (Or.inl hsignal)
      all_goals cases hpc.symm.trans hpc'
  | polled timeout hpc answer now hclock fired hfired service rt hrt =>
      subst hrt
      rcases h with hsignal | ⟨now, hpc'⟩ | ⟨now, hpc'⟩ | ⟨now, hpc'⟩
      · exact Or.inl (Or.inl hsignal)
      all_goals cases hpc.symm.trans hpc'
  | batchDone now awoken hpc hnext =>
      left
      cases awoken with
      | true => exact Or.inr (Or.inr (Or.inl ⟨now, rfl⟩))
      | false => exact Or.inr (Or.inr (Or.inr ⟨now, rfl⟩))
  | event now awoken hpc id res poller hnext woken rt hev =>
      left
      cases woken with
      | true => exact Or.inr (Or.inl ⟨now, by rw [Bool.or_true]⟩)
      | false =>
          -- only the event of the waker lowers the signal
          obtain ⟨-, -, hwaker, -⟩ := hev.frame
          rcases h with hsignal | ⟨now', hpc'⟩ | ⟨now', hpc'⟩ | ⟨now', hpc'⟩
          · left
            show rt.waker.signal = true
            rw [hwaker]
            exact hsignal
          · cases hpc.symm.trans hpc'
            exact Or.inr (Or.inl ⟨now, rfl⟩)
          · cases hpc.symm.trans hpc'
          · cases hpc.symm.trans hpc'
  | drained now hpc hqueue => exact Or.inl (Or.inr (Or.inr (Or.inr ⟨now, rfl⟩)))
  | command now hpc cmd queue hqueue => exact Or.inl (Or.inr (Or.inr (Or.inl ⟨now, rfl⟩)))
  | shutdown now hpc queue hqueue => exact Or.inr (Or.inr fun hrun => hrun.1 rfl)
  | actionsDone now hpc service hnext => exact Or.inr (Or.inl ⟨none, [], rfl⟩)
  | action now hpc action service hnext result rt hact =>
      obtain ⟨-, -, tr, htrace, -⟩ := hact.frame
      exact Or.inr (Or.inl ⟨some action, tr, htrace.trans (List.append_assoc _ _ _)⟩)
  | exited hpc => exact Or.inr (Or.inr fun hrun => hrun.2.1 rfl)
  | panicked input p hp => exact Or.inr (Or.inr fun hrun => hrun.2.2 rfl)

/-- Only the thread lowers the wake signal. -/
theorem System.signal_of_other {s s' : System H P L T C EL ET} {label : Label A C}
    (h : s.step prof label = some s') (hno : ¬ label.IsTurn)
    (hsignal : s.runtime.waker.signal = true) : s'.runtime.waker.signal = true := by
  cases label with
  | clock reading =>
      cases h
      exact hsignal
  | breakWaker broken =>
      cases h
      exact hsignal
  | turn input => exact absurd ⟨input, rfl⟩ hno
  | controller i move =>
      cases System.moved_of_controllerStep h with
      | woke op slot hi ok =>
          rw [System.wakeStep_eq]
          cases ok with
          | true => rfl
          | false => exact hsignal
      | _ => exact hsignal

/-- A step of the system leaves a thread that is called called, asks the service, or ends
the loop. -/
theorem System.called_of_step {s s' : System H P L T C EL ET} {label : Label A C}
    (h : s.Called) (hstep : s.step prof label = some s') :
    s'.Called ∨ (∃ answer tr, s'.runtime.trace = s.runtime.trace ++ .next answer :: tr) ∨
      ¬ s'.pc.Running := by
  by_cases hturn : label.IsTurn
  · obtain ⟨input, rfl⟩ := hturn
    obtain ⟨th, hth, rfl⟩ := Option.map_eq_some_iff.mp hstep
    exact Thread.Called.turned h (Thread.turned_of_turn hth)
  · obtain ⟨chan, waker, hcore⟩ := System.core_of_other hstep hturn
    have hpc : s'.pc = s.pc := by rw [hcore]
    left
    rcases h with hsignal | hrest
    · exact Or.inl (System.signal_of_other hstep hturn hsignal)
    · right
      rw [hpc]
      exact hrest

/-- A thread whose loop has ended does not get back into it. -/
theorem System.stopped_of_step {s s' : System H P L T C EL ET} {label : Label A C}
    (hstop : ¬ s.pc.Running) (hstep : s.step prof label = some s') : ¬ s'.pc.Running := by
  by_cases hturn : label.IsTurn
  · obtain ⟨input, rfl⟩ := hturn
    obtain ⟨th, hth, rfl⟩ := Option.map_eq_some_iff.mp hstep
    rcases Pc.panicked_or_leaving hstop with ⟨p, hp⟩ | hpc | hpc
    · cases input <;> simp only [Thread.turn, hp, reduceCtorEq] at hth
    · cases input <;> simp only [Thread.turn, hpc, reduceCtorEq] at hth
      cases hth
      exact fun hrun => hrun.2.1 rfl
    · cases input <;> simp only [Thread.turn, hpc, reduceCtorEq] at hth
  · obtain ⟨chan, waker, hcore⟩ := System.core_of_other hstep hturn
    rw [hcore]
    exact hstop

/-- **A wake is not lost.**  After every successful wake, the one at the end of a launch
included, in whatever way the run goes on: the service is asked for its actions after the
wake, or the wake signal is raised or the thread is on its way from it to the service, or
the loop has ended. -/
theorem wake_not_lost {s s₁ s₂ : System H P L T C EL ET} {i : ℕ}
    (hwake : s.step prof (.controller i (.wake true) : Label A C) = some s₁)
    (hrun : (reactor prof engine).Steps G s₁ s₂) :
    ∃ tr, s₂.runtime.trace = s₁.runtime.trace ++ tr ∧
      ((∃ answer, .next answer ∈ tr) ∨ s₂.Called ∨ ¬ s₂.pc.Running) := by
  have hstart : s₁.Called := by
    have hmove : s.controllerStep i (.wake true) = some s₁ := hwake
    cases System.moved_of_controllerStep hmove with
    | woke op slot hi =>
        rw [System.wakeStep_eq]
        exact Or.inl rfl
  refine hrun.preserves (I := fun u => ∃ tr, u.runtime.trace = s₁.runtime.trace ++ tr ∧
    ((∃ answer, .next answer ∈ tr) ∨ u.Called ∨ ¬ u.pc.Running)) ?_
    ⟨[], (List.append_nil _).symm, Or.inr (Or.inl hstart)⟩
  rintro u label u' ⟨tr, htrace, hu⟩ - hstep
  obtain ⟨tr', htrace'⟩ := exists_trace_of_step hstep
  refine ⟨tr ++ tr', by rw [htrace', htrace, List.append_assoc], ?_⟩
  rcases hu with ⟨answer, hmem⟩ | hcalled | hstop
  · exact Or.inl ⟨answer, List.mem_append_left _ hmem⟩
  · rcases System.called_of_step hcalled hstep with hcalled' | ⟨answer, rest, hrest⟩ | hstop'
    · exact Or.inr (Or.inl hcalled')
    · refine Or.inl ⟨answer, List.mem_append_right _ ?_⟩
      rw [List.append_cancel_left (htrace'.symm.trans hrest)]
      exact List.mem_cons_self
    · exact Or.inr (Or.inr hstop')
  · exact Or.inr (Or.inr (System.stopped_of_step hstop hstep))

end

/-- The wake of the launch makes the thread ask for the actions of the service. -/
theorem wake_not_lost_launch : ∃ s : Errands.Sys,
    (reactor .release Poller.new).Steps Lts.anyLabel
      (Errands.boot.wakeStep 0 .launch none true) s ∧ s.runtime.waker.signal = false ∧
    ∃ tr, s.runtime.trace = (Errands.boot.wakeStep 0 .launch none true).runtime.trace ++ tr ∧
      ((∃ answer, .next answer ∈ tr) ∨ s.Called ∨ ¬ s.pc.Running) := by
  have hwake : System.step .release Errands.boot (.controller 0 (.wake true) : Errands.Lab) =
      some (Errands.boot.wakeStep 0 .launch none true) := rfl
  have hexec : Lts.exec (System.step .release) Lts.anyLabel
      (Errands.boot.wakeStep 0 .launch none true)
      ([.turn (.start [] []), .turn (.poll (.ready [Errands.wakerEvent])), .turn .event,
        .turn .event, .turn .command, .turn .action] : List Errands.Lab) = some _ := rfl
  have hrun : (reactor .release Poller.new).Steps Lts.anyLabel _ _ := Lts.steps_of_exec hexec
  exact ⟨_, hrun, rfl, wake_not_lost hwake hrun⟩

/-! ## Actions and sleep -/

namespace System

/-- The launch has not raised the wake signal yet, or has failed to. -/
def LaunchPending (s : System H P L T C EL ET) : Prop :=
  s.controllers[0]? = some (.waking .launch none) ∨
    ∃ ret ∈ s.returned, ret.op = .launch ∧ ret.ok = false

/-- The thread goes to sleep after the service has told that it has no action, or has not
asked it yet and is about to be woken up by the launch. -/
def Rested (s : System H P L T C EL ET) : Prop :=
  s.pc = .start ∨ (∃ timeout, s.pc = .poll timeout) →
    (∃ tr, s.runtime.trace = tr ++ [.next none]) ∨
      (s.runtime.trace = [] ∧ (s.runtime.waker.signal = true ∨ s.LaunchPending))

/-- Only the wake of the launch ends the wait for it. -/
theorem LaunchPending.moved {s s' : System H P L T C EL ET} {i : ℕ} {move : Move C}
    (h : s.LaunchPending) (hmoved : Moved s i move s') :
    s'.runtime.waker.signal = true ∨ s'.LaunchPending := by
  rcases h with h | ⟨ret, hret, hfailed⟩
  · have hlt : 0 < s.controllers.length := (List.getElem?_eq_some_iff.mp h).1
    -- the first clone moves only to wake up the thread
    have hother : ∀ {ctl}, s.controllers[i]? = some ctl → ctl ≠ .waking .launch none →
        ∀ ctl', (s.controllers.set i ctl')[0]? = some (.waking .launch none) := by
      intro ctl hi hne ctl'
      have hi0 : i ≠ 0 := by
        rintro rfl
        exact hne (Option.some.inj (hi.symm.trans h))
      rw [List.getElem?_set_ne hi0]
      exact h
    cases hmoved with
    | clone hi => exact Or.inr (Or.inl ((List.getElem?_append_left hlt).trans h))
    | drop hi => exact Or.inr (Or.inl (hother hi nofun _))
    | sent hi op msg hmsg hrecv => exact Or.inr (Or.inl (hother hi nofun _))
    | lost hi => exact Or.inr (Or.inl (hother hi nofun _))
    | refused hi c => exact Or.inr (Or.inl h)
    | woke op slot hi ok =>
        rw [wakeStep_eq]
        by_cases hop : (Controller.waking op slot : Controller C) = .waking .launch none
        · cases hop
          cases ok with
          | true => exact Or.inl rfl
          | false =>
              exact Or.inr (Or.inr ⟨_, List.mem_append_right _ List.mem_cons_self, rfl, rfl⟩)
        · exact Or.inr (Or.inl (hother hi hop _))
  · exact Or.inr (Or.inr ⟨ret, (history_of_moved hmoved).2.subset hret, hfailed⟩)

end System

section

variable [Handler H L T C EL ET] [Resource L EL] [Resource T ET] [Poll P A]
variable {prof : Profile} {engine : P} {G : System H P L T C EL ET → Label A C → Prop}

/-- Every step of the system keeps the thread rested. -/
theorem System.rested_of_step {s s' : System H P L T C EL ET} {label : Label A C}
    (h : s.Rested) (hstep : s.step prof label = some s') : s'.Rested := by
  cases label with
  | clock reading =>
      cases hstep
      exact h
  | breakWaker broken =>
      cases hstep
      exact h
  | controller i move =>
      intro hpc
      have hmoved := System.moved_of_controllerStep hstep
      obtain ⟨chan, waker, hcore⟩ := System.core_of_controllerStep hstep
      have htrace : s'.runtime.trace = s.runtime.trace := by rw [hcore]
      have hpc' : s'.pc = s.pc := by rw [hcore]
      rw [hpc'] at hpc
      rw [htrace]
      rcases h hpc with hlast | ⟨hempty, hsignal | hlaunch⟩
      · exact Or.inl hlast
      · exact Or.inr ⟨hempty, Or.inl (System.signal_of_other hstep nofun hsignal)⟩
      · exact Or.inr ⟨hempty, hlaunch.moved hmoved⟩
  | turn input =>
      obtain ⟨th, hth, rfl⟩ := Option.map_eq_some_iff.mp hstep
      intro hpc
      cases Thread.turned_of_turn hth with
      | started hpc' ls ts hls hts time hclock expiring hexp => exact h (Or.inl hpc')
      | actionsDone now hpc' service hnext => exact Or.inl ⟨s.runtime.trace, rfl⟩
      | batchDone now awoken hpc' hnext =>
          cases awoken <;> rcases hpc with hpc | ⟨_, hpc⟩ <;> cases hpc
      | _ => rcases hpc with hpc | ⟨_, hpc⟩ <;> cases hpc

/-- **The thread does not sleep on actions.**  Whenever the thread is at its poll, the last
thing it did was to ask the service for an action and to be told that there is none; or it
polls for the first time, and then the wake signal is raised, or the launch is about to
raise it, or has failed to. -/
theorem never_sleeps_on_actions {s : System H P L T C EL ET}
    (hs : (reactor prof engine).Reachable G s) {timeout : Duration}
    (hpc : s.pc = .poll timeout) :
    (∃ tr, s.runtime.trace = tr ++ [.next none]) ∨
      (s.runtime.trace = [] ∧ (s.runtime.waker.signal = true ∨ s.LaunchPending)) := by
  refine hs.invariant (I := System.Rested) ?_
    (fun _ _ _ hI _ hstep => System.rested_of_step hI hstep) (Or.inr ⟨timeout, hpc⟩)
  rintro s ⟨service, fd, clock, poller, hreg, rfl⟩ -
  exact Or.inr ⟨rfl, Or.inr (Or.inl rfl)⟩

end

/-- The thread is at its first poll before the launch has raised the wake signal. -/
theorem never_sleeps_on_actions_launch : ∃ s : Errands.Sys,
    s.pc = .poll WAIT_TIMEOUT ∧ s.runtime.waker.signal = false ∧
    ((∃ tr, s.runtime.trace = tr ++ [.next none]) ∨
      (s.runtime.trace = [] ∧ (s.runtime.waker.signal = true ∨ s.LaunchPending))) := by
  have hexec : Lts.exec (System.step .release) Lts.anyLabel Errands.boot
      ([.turn (.start [] [])] : List Errands.Lab) = some _ := rfl
  exact ⟨_, rfl, rfl, never_sleeps_on_actions (Errands.reachable_of_exec hexec) rfl⟩

/-! ## The end is final -/

/-- A thread that is gone takes no turn. -/
theorem Thread.turn_of_gone [Handler H L T C EL ET] [Resource L EL] [Resource T ET] [Poll P A]
    {prof : Profile} {clock : SystemTime} {th : Thread H P L T C EL ET}
    (h : ¬ th.pc.Alive) (input : Input A) : th.turn prof clock input = none := by
  cases hturn : th.turn prof clock input with
  | none => rfl
  | some th' =>
      exfalso
      rcases Pc.panicked_or_leaving fun hrun => h hrun.2 with ⟨p, hpc⟩ | hpc | hpc
      · cases input <;> simp only [turn, hpc, reduceCtorEq] at hturn
      · -- a thread about to return is not gone
        apply h
        rw [hpc]
        constructor <;> intro hph <;> cases hph
      · cases input <;> simp only [turn, hpc, reduceCtorEq] at hturn

namespace System

/-- The state `u` comes after the end of the thread in `s`: nothing of the thread has
changed, no message was sent, and a call that holds a message is one that was under way. -/
structure AfterEnd (s u : System H P L T C EL ET) : Prop where
  core : ∃ chan waker, u.toThread = ⟨s.pc, { s.runtime with ctlRecv := chan, waker := waker }⟩
  receiver : u.channel.receiver = false
  sent : u.sent = s.sent
  pending : ∀ (i : ℕ) (op : Op C) (k : ℕ), u.controllers[i]? = some (.waking op (some k)) →
    s.controllers[i]? = some (.waking op (some k))
  returned : ∃ rets, u.returned = s.returned ++ rets ∧ ∀ ret ∈ rets, ∀ k, ret.slot = some k →
    ∃ i : ℕ, s.controllers[i]? = some (.waking ret.op (some k))

/-- A clone that is replaced by one without a message. -/
theorem AfterEnd.pending_set {s u : System H P L T C EL ET} {i : ℕ} {ctl : Controller C}
    (h : AfterEnd s u) (hfree : ctl.owes = none) {j : ℕ} {op : Op C} {k : ℕ}
    (hj : (u.controllers.set i ctl)[j]? = some (.waking op (some k))) :
    s.controllers[j]? = some (.waking op (some k)) := by
  rcases getElem?_set_cases hj with rfl | hj
  · cases hfree
  · exact h.pending j op k hj

/-- A call that returns with no message, or with one that was sent before the end. -/
theorem AfterEnd.returned_concat {s u : System H P L T C EL ET} (h : AfterEnd s u)
    {ret : Return C} (hslot : ∀ k, ret.slot = some k →
      ∃ i : ℕ, s.controllers[i]? = some (.waking ret.op (some k))) :
    ∃ rets, u.returned ++ [ret] = s.returned ++ rets ∧ ∀ ret ∈ rets, ∀ k, ret.slot = some k →
      ∃ i : ℕ, s.controllers[i]? = some (.waking ret.op (some k)) := by
  obtain ⟨rets, hrets, hslots⟩ := h.returned
  refine ⟨rets ++ [ret], by rw [hrets, List.append_assoc], fun ret' hret' => ?_⟩
  rcases List.mem_append.mp hret' with hret' | hret'
  · exact hslots ret' hret'
  · rw [List.mem_singleton.mp hret']
    exact hslot

/-- A step of a controller, which has sent its message before the end or sends none. -/
theorem AfterEnd.moved {s u u' : System H P L T C EL ET} {i : ℕ} {move : Move C}
    (h : AfterEnd s u) (hmoved : Moved u i move u') : AfterEnd s u' := by
  have hcore : ∀ chan waker, ∃ chan' waker',
      (⟨u.pc, { u.runtime with ctlRecv := chan, waker := waker }⟩ : Thread H P L T C EL ET) =
        ⟨s.pc, { s.runtime with ctlRecv := chan', waker := waker' }⟩ := by
    intro chan waker
    obtain ⟨chan₀, waker₀, hcore₀⟩ := h.core
    rw [hcore₀]
    exact ⟨chan, waker, rfl⟩
  cases hmoved with
  | clone hi =>
      refine ⟨hcore _ _, h.receiver, h.sent, ?_, h.returned⟩
      intro j op k hj
      apply h.pending j op k
      by_cases hlt : j < u.controllers.length
      · rwa [List.getElem?_append_left hlt] at hj
      · rw [List.getElem?_append_right (Nat.le_of_not_lt hlt), List.getElem?_singleton] at hj
        split at hj <;> cases hj
  | drop hi =>
      exact ⟨hcore _ _, h.receiver, h.sent, fun j op k hj => h.pending_set rfl hj, h.returned⟩
  | sent hi op msg hmsg hrecv =>
      rw [h.receiver] at hrecv
      cases hrecv
  | lost hi =>
      exact ⟨hcore _ _, h.receiver, h.sent, fun j op k hj => h.pending_set rfl hj, h.returned⟩
  | refused hi c =>
      exact ⟨hcore _ _, h.receiver, h.sent, h.pending, h.returned_concat nofun⟩
  | woke op slot hi ok =>
      rw [wakeStep_eq]
      refine ⟨hcore _ _, h.receiver, h.sent,
        fun j op' k hj => h.pending_set (owes_leaves op _) hj, h.returned_concat ?_⟩
      intro k hk
      have hslot : slot = some k := hk
      exact ⟨i, h.pending i op k (hslot ▸ hi)⟩

section

variable [Handler H L T C EL ET] [Resource L EL] [Resource T ET] [Poll P A]
variable {prof : Profile} {engine : P} {G : System H P L T C EL ET → Label A C → Prop}

/-- A thread that is gone has discarded its messages, and the channel refuses others. -/
theorem closed_of_gone {s : System H P L T C EL ET} (hs : (reactor prof engine).Reachable G s)
    (hend : ¬ s.pc.Alive) : s.channel.queue = [] ∧ s.channel.receiver = false := by
  constructor
  · have hph : s.mailbox.phase = .stopped ∨ s.mailbox.phase = .crashed := by
      by_contra hno
      exact hend (not_or.mp hno)
    have hqueue := Mailbox.queue_of_gone (mailbox_reachable hs) hph
    exact List.map_eq_nil_iff.mp hqueue
  · cases hrecv : s.channel.receiver with
    | true => exact absurd (open_of_reachable hs hrecv) hend
    | false => rfl

/-- What comes after the end stays after the end. -/
theorem AfterEnd.step {s u u' : System H P L T C EL ET} {label : Label A C} (h : AfterEnd s u)
    (hend : ¬ s.pc.Alive) (hstep : u.step prof label = some u') : AfterEnd s u' := by
  obtain ⟨chan, waker, hcore⟩ := h.core
  cases label with
  | clock reading =>
      cases hstep
      exact ⟨h.core, h.receiver, h.sent, h.pending, h.returned⟩
  | breakWaker broken =>
      cases hstep
      refine ⟨⟨chan, { waker with broken := broken }, ?_⟩, h.receiver, h.sent, h.pending,
        h.returned⟩
      show (⟨u.pc, { u.runtime with waker := { u.runtime.waker with broken := broken } }⟩ :
        Thread H P L T C EL ET) = _
      rw [hcore]
  | controller i move => exact h.moved (moved_of_controllerStep hstep)
  | turn input =>
      obtain ⟨th, hth, rfl⟩ := Option.map_eq_some_iff.mp hstep
      have hgone : ¬ u.pc.Alive := by
        rw [hcore]
        exact hend
      rw [Thread.turn_of_gone hgone] at hth
      cases hth

end

end System

section

variable [Handler H L T C EL ET] [Resource L EL] [Resource T ET] [Poll P A]
variable {prof : Profile} {engine : P} {G : System H P L T C EL ET → Label A C → Prop}

/-- **The end is final.**  Once `run` has returned or a panic has unwound the thread, in
every continuation of the run the thread calls nothing back, no message is sent and none
is queued.  A call that returns later with a message had sent it before the end and was
about to wake the thread up; every other `cmd` fails, and every other `shutdown` reports
no more than whether its wake succeeded. -/
theorem end_is_final {s s' : System H P L T C EL ET} (hs : (reactor prof engine).Reachable G s)
    (hend : ¬ s.pc.Alive) (hrun : (reactor prof engine).Steps G s s') :
    s'.pc = s.pc ∧ s'.runtime.trace = s.runtime.trace ∧ s'.sent = s.sent ∧
    s'.channel.queue = [] ∧
    ∃ rets, s'.returned = s.returned ++ rets ∧ ∀ ret ∈ rets,
      (∀ k, ret.slot = some k → ∃ i : ℕ, s.controllers[i]? = some (.waking ret.op (some k))) ∧
      (ret.slot = none → (∀ c, ret.op = .cmd c → ret.ok = false) ∧
        (ret.op = .shutdown → ret.ok = ret.woken)) := by
  have hafter : System.AfterEnd s s' := by
    refine hrun.preserves (fun u label u' hu _ hstep => hu.step hend hstep) ?_
    exact ⟨⟨_, _, rfl⟩, (System.closed_of_gone hs hend).2, rfl, fun _ _ _ hi => hi,
      [], (List.append_nil _).symm, nofun⟩
  obtain ⟨chan, waker, hcore⟩ := hafter.core
  have hs' := hs.steps hrun
  have hend' : ¬ s'.pc.Alive := by
    rw [hcore]
    exact hend
  obtain ⟨rets, hrets, hslots⟩ := hafter.returned
  refine ⟨by rw [hcore], by rw [hcore], hafter.sent, (System.closed_of_gone hs' hend').1, rets,
    hrets, fun ret hret => ⟨hslots ret hret, fun hslot => ?_⟩⟩
  -- what a call returned is what its two steps gave
  have hmem : ret ∈ s'.returned := hrets ▸ List.mem_append_right _ hret
  have hresult := (System.inOrder_of_reachable hs').result ret hmem
  rw [hslot] at hresult
  refine ⟨fun c hop => ?_, fun hop => ?_⟩
  · rw [hresult, hop]
    rfl
  · rw [hresult, hop]
    rfl

end

/-- A `cmd` that was sent before a panic returns after it, and another one fails. -/
theorem end_is_final_panicked : ∃ s s' : Errands.Sys,
    s.pc = .panicked .systemTime ∧ s'.returned.length = s.returned.length + 2 ∧
    s'.pc = s.pc ∧ s'.runtime.trace = s.runtime.trace ∧ s'.sent = s.sent ∧
    s'.channel.queue = [] ∧
    ∃ rets, s'.returned = s.returned ++ rets ∧ ∀ ret ∈ rets,
      (∀ k, ret.slot = some k →
        ∃ i : ℕ, s.controllers[i]? = some (.waking ret.op (some k))) ∧
      (ret.slot = none → (∀ c, ret.op = .cmd c → ret.ok = false) ∧
        (ret.op = .shutdown → ret.ok = ret.woken)) := by
  obtain ⟨s, hexec, hpc, s', hexec', hlen⟩ : ∃ s : Errands.Sys,
      Lts.exec (System.step .release) Lts.anyLabel Errands.boot
        ([.controller 0 (.wake true), .controller 0 .clone,
          .controller 0 (.send (.cmd (.send ⟨1⟩ [])) true), .clock none,
          .turn (.start [] [])] : List Errands.Lab) = some s ∧
      s.pc = .panicked .systemTime ∧ ∃ s' : Errands.Sys,
      Lts.exec (System.step .release) Lts.anyLabel s
        ([.controller 0 (.wake true),
          .controller 1 (.send (.cmd (.send ⟨1⟩ [])) false)] : List Errands.Lab) = some s' ∧
      s'.returned.length = s.returned.length + 2 :=
    ⟨_, rfl, rfl, _, rfl, rfl⟩
  have hs := Errands.reachable_of_exec hexec
  have hrun : (reactor .release Poller.new).Steps Lts.anyLabel s s' := Lts.steps_of_exec hexec'
  exact ⟨s, s', hpc, hlen,
    end_is_final hs (fun h => h.2 (congrArg Pc.phase hpc)) hrun⟩

/-! ## A thread that nobody can stop -/

namespace System

/-- All controllers outside the thread are dropped, and none of them has sent a
`Shutdown`. -/
structure Orphaned (s : System H P L T C EL ET) : Prop where
  dropped : ∀ ctl ∈ s.controllers, ctl = .dropped
  unasked : .shutdown ∉ s.sent

/-- `Reactor::with` drops the only controller when it cannot wake up the thread. -/
theorem orphaned_of_launch {s : System H P L T C EL ET}
    (hctl : s.controllers = [.waking .launch none]) (hsent : s.sent = []) :
    (s.wakeStep 0 .launch none false).Orphaned := by
  rw [wakeStep_eq]
  constructor
  · show ∀ ctl ∈ s.controllers.set 0 .dropped, ctl = .dropped
    rw [hctl]
    exact fun ctl hmem => List.mem_singleton.mp hmem
  · show .shutdown ∉ s.sent
    rw [hsent]
    exact List.not_mem_nil

section

variable [Handler H L T C EL ET] [Resource L EL] [Resource T ET] [Poll P A]
variable {prof : Profile} {engine : P} {G : System H P L T C EL ET → Label A C → Prop}

omit [Handler H L T C EL ET] [Resource L EL] [Resource T ET] in
/-- Without a controller, nobody sends and nobody wakes. -/
theorem Orphaned.no_move {s s' : System H P L T C EL ET} {i : ℕ} {move : Move C}
    (h : s.Orphaned) (hmove : s.controllerStep i move = some s') : False := by
  have hdropped : ∀ ctl, s.controllers[i]? = some ctl → ctl = .dropped :=
    fun ctl hi => h.dropped ctl (List.mem_of_getElem? hi)
  cases moved_of_controllerStep hmove with
  | clone hi => cases hdropped _ hi
  | drop hi => cases hdropped _ hi
  | sent hi op msg hmsg hrecv => cases hdropped _ hi
  | lost hi => cases hdropped _ hi
  | refused hi c => cases hdropped _ hi
  | woke op slot hi ok => cases hdropped _ hi

/-- An orphaned thread stays so. -/
theorem Orphaned.step {s s' : System H P L T C EL ET} {label : Label A C} (h : s.Orphaned)
    (hstep : s.step prof label = some s') : s'.Orphaned := by
  cases label with
  | clock reading =>
      cases hstep
      exact ⟨h.dropped, h.unasked⟩
  | breakWaker broken =>
      cases hstep
      exact ⟨h.dropped, h.unasked⟩
  | controller i move => exact (h.no_move hstep).elim
  | turn input =>
      obtain ⟨th, -, rfl⟩ := Option.map_eq_some_iff.mp hstep
      exact ⟨h.dropped, h.unasked⟩

/-- Only a send adds to the queue. -/
theorem queue_of_silent {s s' : System H P L T C EL ET} {label : Label A C}
    (hstep : s.step prof label = some s') (hturn : ¬ label.IsTurn)
    (hsilent : ∀ i op ok, label ≠ .controller i (.send op ok)) :
    s'.channel.queue = s.channel.queue := by
  cases label with
  | clock reading =>
      cases hstep
      rfl
  | breakWaker broken =>
      cases hstep
      rfl
  | turn input => exact absurd ⟨input, rfl⟩ hturn
  | controller i move =>
      cases moved_of_controllerStep hstep with
      | clone hi => rfl
      | drop hi => rfl
      | woke op slot hi ok => rw [wakeStep_eq]
      | _ => exact absurd rfl (hsilent _ _ _)

/-- The thread leaves its loop only if a `Shutdown` was sent. -/
theorem shutdown_of_leaving {s : System H P L T C EL ET}
    (hs : (reactor prof engine).Reachable G s) (hleave : s.pc.Leaving) : .shutdown ∈ s.sent := by
  have hph : s.mailbox.phase = .stopping ∨ s.mailbox.phase = .stopped := by
    rcases hleave with hpc | hpc
    · exact Or.inl (congrArg Pc.phase hpc)
    · exact Or.inr (congrArg Pc.phase hpc)
  have hstop : .stop ∈ s.sent.map Ctl.letter :=
    Mailbox.stop_mem_posted (mailbox_reachable hs) hph
  obtain ⟨msg, hmem, hmsg⟩ := List.mem_map.mp hstop
  cases msg with
  | cmd c => cases hmsg
  | shutdown => exact hmem

end

end System

/-- A turn that stays in the command loop takes a message. -/
theorem Thread.Turned.takes [Handler H L T C EL ET] [Resource L EL] [Resource T ET] [Poll P A]
    {prof : Profile} {clock : SystemTime} {th th' : Thread H P L T C EL ET} {input : Input A}
    (h : Turned prof clock th input th') {now : ℕ} (hpc : th.pc = .commands now)
    (hpc' : th'.pc.InCommands) :
    th'.runtime.ctlRecv.queue.length < th.runtime.ctlRecv.queue.length := by
  obtain ⟨now', hpc'⟩ := hpc'
  cases h with
  | command _ _ cmd queue hqueue =>
      show queue.length < th.runtime.ctlRecv.queue.length
      rw [hqueue]
      exact Nat.lt_succ_self _
  | batchDone _ awoken hpc'' hnext => cases hpc.symm.trans hpc''
  | _ => cases hpc'

section

variable [Handler H L T C EL ET] [Resource L EL] [Resource T ET]
variable {prof : Profile} {engine : Poller}
variable {G : System H Poller L T C EL ET → Label Popol.Answer C → Prop}
variable {r : (reactor prof engine).Run G} {n : ℕ}

/-- An orphaned thread stays so for the rest of the run. -/
theorem System.Orphaned.later (h : (r.state n).Orphaned) {m : ℕ} (hnm : n ≤ m) :
    (r.state m).Orphaned :=
  (r.steps hnm).preserves (fun _ _ _ hu _ hstep => hu.step hstep) h

/-- A command loop comes to its end when nobody sends any more. -/
theorem Fair.commands_end (hr : Fair r)
    (hsilent : ∀ m, n ≤ m → ∀ i op ok, r.label m ≠ .controller i (.send op ok)) :
    ∀ m, n ≤ m → (r.state m).pc.InCommands → ∃ l, m ≤ l ∧ ¬ (r.state l).pc.InCommands := by
  intro m
  -- every turn takes one of the messages that are left
  generalize hk : (r.state m).channel.queue.length = k
  induction k using Nat.strong_induction_on generalizing m with
  | _ k ih =>
    intro hnm hpc
    by_contra hno
    have hloop : ∀ l, m ≤ l → (r.state l).pc.InCommands := fun l hml =>
      Classical.not_not.mp fun hout => hno ⟨l, hml, hout⟩
    have halive : (r.state m).pc.Alive := by
      obtain ⟨now, hnow⟩ := hpc
      rw [hnow]
      exact ⟨nofun, nofun⟩
    obtain ⟨l, hml, ⟨input, hinput⟩, hle⟩ := r.exists_helpful
      (P := fun s => s.channel.queue.length ≤ k) (n := m)
      (fun l hml hle hturn => by
        have hqueue := System.queue_of_silent (r.step l) hturn (hsilent l (hnm.trans hml))
        exact hqueue ▸ hle)
      (hr.turns m halive) hk.le
    have hstep := r.step l
    rw [hinput] at hstep
    obtain ⟨th, hth, hstate⟩ := Option.map_eq_some_iff.mp hstep
    have hcore : (r.state (l + 1)).toThread = th := by rw [← hstate]
    obtain ⟨now, hin⟩ := hloop l hml
    have hin' : th.pc.InCommands := hcore ▸ hloop (l + 1) (Nat.le_succ_of_le hml)
    have hlt : th.runtime.ctlRecv.queue.length < k :=
      ((Thread.turned_of_turn hth).takes hin hin').trans_le hle
    obtain ⟨j, hlj, hout⟩ := ih th.runtime.ctlRecv.queue.length hlt (l + 1)
      (by rw [System.channel, hcore]) (hnm.trans (Nat.le_succ_of_le hml)) (hcore ▸ hin')
    exact hno ⟨j, hml.trans (Nat.le_of_succ_le hlj), hout⟩

/-- **A thread that nobody can stop.**  If all controllers are dropped and no `Shutdown`
was sent, then in every fair run the thread polls for ever, and never returns, unless it
panics. -/
theorem orphan_polls_for_ever (hr : Fair r) (h : (r.state n).Orphaned) :
    (∀ m, n ≤ m → ¬ (r.state m).pc.Leaving) ∧
    ((∃ m, n ≤ m ∧ (r.state m).pc.Panicked) ∨
      ∀ m, n ≤ m → ∃ l, m ≤ l ∧ (r.label l).IsPoll) := by
  have hstays : ∀ m, n ≤ m → ¬ (r.state m).pc.Leaving := fun m hnm hleave =>
    (h.later hnm).unasked (System.shutdown_of_leaving (r.reachable m) hleave)
  refine ⟨hstays, ?_⟩
  by_cases hpanic : ∃ m, n ≤ m ∧ (r.state m).pc.Panicked
  · exact Or.inl hpanic
  · right
    refine hr.polls_recur (fun m hnm => ?_) fun m hnm hpc => ?_
    · by_contra hstop
      rcases Pc.panicked_or_leaving hstop with hp | hleave
      · exact hpanic ⟨m, hnm, hp⟩
      · exact hstays m hnm hleave
    · refine hr.commands_end (n := n) (fun l hnl i op ok hlabel => ?_) m hnm hpc
      have hstep := r.step l
      rw [hlabel] at hstep
      have hmove : (r.state l).controllerStep i (.send op ok) = some (r.state (l + 1)) := hstep
      exact (h.later hnl).no_move hmove

end

/-! ## A launch that fails -/

namespace Errands

/-- The thread of a launch that failed, at a point of its loop. -/
def alone (pc : Pc) (trace : List (Observation Pipe Pipe (Action Pipe Pipe) Io Io)) : Sys :=
  { boot.wakeStep 0 .launch none false with
    pc := pc
    runtime := { (boot.wakeStep 0 .launch none false).runtime with trace := trace } }

/-- The turns of iterations in which nothing happens, with the point of each. -/
def idle : ℕ → Lab × Pc
  | 0 => (.turn (.start [] []), .start)
  | 1 => (.turn (.poll (.ready [])), .poll WAIT_TIMEOUT)
  | 2 => (.turn .event, .events 1000 false)
  | 3 => (.turn .action, .actions 1000)
  | n + 4 => idle n

/-- Each turn leads to the point of the next. -/
theorem step_idle : ∀ n trace, ∃ trace',
    System.step .release (alone (idle n).2 trace) (idle n).1 =
      some (alone (idle (n + 1)).2 trace')
  | 0, _ => ⟨_, rfl⟩
  | 1, _ => ⟨_, rfl⟩
  | 2, _ => ⟨_, rfl⟩
  | 3, _ => ⟨_, rfl⟩
  | n + 4, trace => step_idle n trace

/-- Every label is a turn of the thread. -/
theorem isTurn_idle : ∀ n, (idle n).1.IsTurn
  | 0 => ⟨_, rfl⟩
  | 1 => ⟨_, rfl⟩
  | 2 => ⟨_, rfl⟩
  | 3 => ⟨_, rfl⟩
  | n + 4 => isTurn_idle n

/-- The loop of `handle_actions` ends with its first turn. -/
theorem actionsEnd_idle : ∀ n, (idle n).2.InActions → ¬ (idle (n + 1)).2.InActions
  | 0, _ => nofun
  | 1, _ => nofun
  | 2, ⟨_, h⟩ => by cases h
  | 3, _ => nofun
  | n + 4, h => actionsEnd_idle n h

/-- The thread of a launch that failed, in a run in which nothing ever happens. -/
theorem exists_run_idle : ∃ r : (reactor (H := Errands) .release Poller.new).Run Lts.anyLabel,
    Fair r ∧ (r.state 0).Orphaned := by
  have hexec : Lts.exec (System.step .release) Lts.anyLabel boot
      ([.controller 0 (.wake false)] : List Lab) = some (alone .start []) := rfl
  obtain ⟨r, hzero, hlabel, hstate⟩ := Lts.Run.exists_through
    (fun n s => ∃ trace, s = alone (idle n).2 trace) (fun n => (idle n).1)
    (reachable_of_exec hexec) ⟨[], rfl⟩ (by
      rintro n s ⟨trace, rfl⟩
      obtain ⟨trace', hstep⟩ := step_idle n trace
      exact ⟨trivial, _, hstep, trace', rfl⟩)
  refine ⟨r, ⟨fun n _ => ⟨n, le_rfl, ?_⟩, fun n hpc => ⟨n + 1, n.le_succ, ?_⟩,
    fun n hsignal _ => ?_⟩, ?_⟩
  · rw [hlabel]
    exact isTurn_idle n
  · obtain ⟨trace, htrace⟩ := hstate n
    obtain ⟨trace', htrace'⟩ := hstate (n + 1)
    rw [htrace] at hpc
    rw [htrace']
    exact actionsEnd_idle n hpc
  · -- nobody ever raises the signal
    obtain ⟨trace, htrace⟩ := hstate n
    have h := hsignal n le_rfl
    rw [htrace] at h
    cases h
  · rw [hzero]
    exact System.orphaned_of_launch (s := boot) rfl rfl

end Errands

/-- The thread of a launch that failed polls for ever. -/
theorem orphan_polls_for_ever_launch :
    ∃ r : (reactor (H := Errands) .release Poller.new).Run Lts.anyLabel, Fair r ∧
      (∀ m, 0 ≤ m → ¬ (r.state m).pc.Leaving) ∧
      ((∃ m, 0 ≤ m ∧ (r.state m).pc.Panicked) ∨
        ∀ m, 0 ≤ m → ∃ l, m ≤ l ∧ (r.label l).IsPoll) := by
  obtain ⟨r, hfair, horphan⟩ := Errands.exists_run_idle
  exact ⟨r, hfair, orphan_polls_for_ever hfair horphan⟩

end IoReactor
