/-
# Commands and shutdown

What the mailbox protocol says about the reactor: no command waits for a wakeup that
never comes, commands are handled in the order they were sent up to the first
`Shutdown`, and whether a command also has its actions carried out before the thread
leaves depends on where in the command loop the `Shutdown` is found.
-/
import IoReactor.Control

namespace IoReactor

variable {H P A L T C EL ET : Type}

/-! ## No lost wakeup -/

/-- The assumption that no call of `wake` fails. -/
abbrev WakesSucceed : System H P L T C EL ET → Label A C → Prop :=
  Lts.demand Label.atWake fun _ wake => wake.2 = true

/-- Some clone has sent its message and not yet raised the wake signal. -/
def System.WakePending (s : System H P L T C EL ET) : Prop :=
  ∃ (i : ℕ) (op : Op C) (slot : ℕ), s.controllers[i]? = some (.waking op (some slot))

section

variable [Handler H L T C EL ET] [Resource L EL] [Resource T ET] [Poll P A]
variable {prof : Profile} {engine : P}

/-- **No lost wakeup.**  While the loop runs and the control channel is not empty, the
wake signal is raised, or the loop has reset it and not yet found the channel empty,
or some controller has sent its message and not yet raised the signal.  The signal
stays raised until the event of the waker is dispatched, so the batch need not be
looked at. -/
theorem no_lost_wakeup {s : System H P L T C EL ET}
    (hs : (reactor prof engine).Reachable WakesSucceed s) (hrun : s.pc.Running)
    (hqueue : s.channel.queue ≠ []) :
    s.runtime.waker.signal = true ∨ (∃ now, s.pc = .events now true) ∨
      (∃ now, s.pc = .commands now) ∨ s.WakePending := by
  have hmb : (Mailbox.lts ℕ C).Reachable Mailbox.EveryoneRings s.mailbox := by
    refine System.mailbox_of_reachable ?_ ?_ hs
    · intro mb e he
      cases e with
      | renege i => exact absurd rfl (he i)
      | _ => trivial
    · intro s j hfail
      exact absurd hfail Bool.false_ne_true
  have hletters : s.mailbox.queue ≠ [] := fun h => hqueue (List.map_eq_nil_iff.mp h)
  rcases Mailbox.heeded_or_owing hmb hrun hletters with (hbell | hph | hph) | ⟨i, k, hi⟩
  · exact Or.inl hbell
  · exact Or.inr (Or.inl (Pc.phase_eq_summoned.mp hph))
  · exact Or.inr (Or.inr (Or.inl (Pc.phase_eq_draining.mp hph)))
  · obtain ⟨op, hop⟩ := debts_eq_some.mp hi
    exact Or.inr (Or.inr (Or.inr ⟨i, op, k, hop⟩))

end

/-- A command that is sent and rung for while the loop is at the start of its body. -/
theorem no_lost_wakeup_sent : ∃ s : Errands.Sys,
    (reactor .release Poller.new).Reachable WakesSucceed s ∧ s.channel.queue.length = 1 ∧
    (s.runtime.waker.signal = true ∨ (∃ now, s.pc = .events now true) ∨
      (∃ now, s.pc = .commands now) ∨ s.WakePending) := by
  have hrun : Lts.exec (System.step .release) WakesSucceed Errands.boot
      [.controller 0 (.wake true), .controller 0 (.send (.cmd (.send ⟨1⟩ [])) true),
        .controller 0 (.wake true)] = some _ := rfl
  have hs := Errands.reachable_of_exec hrun
  exact ⟨_, hs, rfl, no_lost_wakeup hs (by decide) (by decide)⟩

/-! ## Delivery -/

/-- The commands in front of the first `Shutdown`. -/
def commandsBeforeShutdown {C : Type} : List (Ctl C) → List C
  | [] => []
  | .cmd c :: msgs => c :: commandsBeforeShutdown msgs
  | .shutdown :: _ => []

/-- The command a `handle_command` entry of the trace is about. -/
def Observation.command {L T C EL ET : Type} : Observation L T C EL ET → Option C
  | .call (.handleCommand c) => some c
  | _ => none

/-- The commands passed to `handle_command` so far. -/
def System.handled (s : System H P L T C EL ET) : List C :=
  s.runtime.trace.filterMap Observation.command

/-- `Shutdown` has been taken from the channel. -/
def Pc.Leaving (pc : Pc) : Prop := pc = .shutdown ∨ pc = .exited

/-- The letters in front of the first stop are the commands in front of the first
`Shutdown`. -/
theorem worksBeforeStop_map (msgs : List (Ctl C)) :
    Mailbox.worksBeforeStop (msgs.map Ctl.letter) = commandsBeforeShutdown msgs := by
  induction msgs with
  | nil => rfl
  | cons msg msgs ih =>
      cases msg with
      | cmd c => exact congrArg (c :: ·) ih
      | shutdown => rfl

/-- What the collector has taken are the commands handled. -/
theorem taken_filterMap (tr : List (Observation L T C EL ET)) :
    Mailbox.taken (tr.filterMap Observation.deed) = tr.filterMap Observation.command := by
  induction tr with
  | nil => rfl
  | cons obs tr ih =>
      rw [← List.singleton_append, List.filterMap_append, List.filterMap_append,
        Mailbox.taken_append, ih]
      -- what is left is about one entry
      congr 1
      cases obs with
      | call c => cases c <;> rfl
      | next answer => cases answer <;> rfl
      | handleIo id io => rfl
      | writeAtomic id data result => rfl

section

variable [Handler H L T C EL ET] [Resource L EL] [Resource T ET] [Poll P A]
variable {prof : Profile} {engine : P}

/-- A run of the reactor is a run of the mailbox protocol, whatever its labels. -/
theorem System.mailbox_reachable {G : System H P L T C EL ET → Label A C → Prop}
    {s : System H P L T C EL ET} (hs : (reactor prof engine).Reachable G s) :
    (Mailbox.lts ℕ C).Reachable Lts.anyLabel s.mailbox :=
  System.mailbox_of_reachable (fun _ _ _ => trivial) (fun _ _ _ => trivial) hs

/-- A thread that has taken `Shutdown` can only exit, and calls nothing back. -/
theorem leaving_of_step {s s' : System H P L T C EL ET} {label : Label A C}
    (hpc : s.pc.Leaving) (h : s.step prof label = some s') :
    s'.pc.Leaving ∧ s'.runtime.trace = s.runtime.trace := by
  cases label with
  | clock reading =>
      cases h
      exact ⟨hpc, rfl⟩
  | breakWaker broken =>
      cases h
      exact ⟨hpc, rfl⟩
  | controller i move =>
      obtain ⟨chan, waker, hcore⟩ := System.core_of_controllerStep h
      rw [hcore]
      exact ⟨hpc, rfl⟩
  | turn input =>
      obtain ⟨th, hturn, rfl⟩ := Option.map_eq_some_iff.mp h
      -- the only input that fits is the exit
      rcases hpc with hpc | hpc
      · cases input <;> simp only [Thread.turn, hpc, reduceCtorEq] at hturn
        cases hturn
        exact ⟨Or.inr rfl, rfl⟩
      · cases input <;> simp only [Thread.turn, hpc, reduceCtorEq] at hturn

/-- Once `Shutdown` is taken, no callback of any kind happens any more. -/
theorem trace_of_leaving {G : System H P L T C EL ET → Label A C → Prop}
    {s s' : System H P L T C EL ET} (hpc : s.pc.Leaving)
    (hrun : (reactor prof engine).Steps G s s') :
    s'.pc.Leaving ∧ s'.runtime.trace = s.runtime.trace := by
  refine hrun.preserves (I := fun u => u.pc.Leaving ∧ u.runtime.trace = s.runtime.trace) ?_
    ⟨hpc, rfl⟩
  rintro u label u' ⟨hu, htrace⟩ - hstep
  obtain ⟨hu', htrace'⟩ := leaving_of_step hu hstep
  exact ⟨hu', htrace'.trans htrace⟩

/-- While the loop runs, every command sent before the first `Shutdown` is handled or
queued, in order. -/
theorem handled_append_of_running {G : System H P L T C EL ET → Label A C → Prop}
    {s : System H P L T C EL ET} (hs : (reactor prof engine).Reachable G s)
    (hrun : s.pc.Running) :
    s.handled ++ commandsBeforeShutdown s.channel.queue = commandsBeforeShutdown s.sent := by
  have h := Mailbox.taken_append_of_active (System.mailbox_reachable hs) hrun
  rw [show Mailbox.taken s.mailbox.deeds = s.handled from taken_filterMap _] at h
  rw [← worksBeforeStop_map, ← worksBeforeStop_map]
  exact h

/-- Once `Shutdown` is taken, the commands sent before it are those handled. -/
theorem handled_of_leaving {G : System H P L T C EL ET → Label A C → Prop}
    {s : System H P L T C EL ET} (hs : (reactor prof engine).Reachable G s)
    (hleave : s.pc.Leaving) : s.handled = commandsBeforeShutdown s.sent := by
  have hph : s.mailbox.phase = .stopping ∨ s.mailbox.phase = .stopped := by
    rcases hleave with hpc | hpc
    · exact Or.inl (congrArg Pc.phase hpc)
    · exact Or.inr (congrArg Pc.phase hpc)
  have h := Mailbox.taken_of_stopping (System.mailbox_reachable hs) hph
  rw [show Mailbox.taken s.mailbox.deeds = s.handled from taken_filterMap _] at h
  rw [← worksBeforeStop_map]
  exact h

/-- Whatever happens, only commands sent before the first `Shutdown` are handled, in
order. -/
theorem handled_isPrefix {G : System H P L T C EL ET → Label A C → Prop}
    {s : System H P L T C EL ET} (hs : (reactor prof engine).Reachable G s) :
    s.handled <+: commandsBeforeShutdown s.sent := by
  obtain ⟨rest, hrest⟩ :=
    Mailbox.exists_rest_of_delivered (Mailbox.delivery (System.mailbox_reachable hs))
  rw [show Mailbox.taken s.mailbox.deeds = s.handled from taken_filterMap _] at hrest
  have h := congrArg Mailbox.worksBeforeStop hrest
  rw [Mailbox.worksBeforeStop_map_append] at h
  refine ⟨Mailbox.worksBeforeStop rest, ?_⟩
  rw [← h]
  exact worksBeforeStop_map s.sent

/-- **Commands are delivered in order, exactly once, up to shutdown.**  While the loop
runs, the commands handled so far and those queued in front of the first queued
`Shutdown` are the commands sent before the first `Shutdown`, in channel order.  Once
`Shutdown` is taken, the commands handled are those, and no callback happens any
more.  A panic leaves an initial part of them handled. -/
theorem delivered_in_order {s : System H P L T C EL ET}
    (hs : (reactor prof engine).Reachable Lts.anyLabel s) :
    (s.pc.Running →
      s.handled ++ commandsBeforeShutdown s.channel.queue = commandsBeforeShutdown s.sent) ∧
    (s.pc.Leaving → s.handled = commandsBeforeShutdown s.sent ∧
      ∀ s', (reactor prof engine).Steps Lts.anyLabel s s' →
        s'.runtime.trace = s.runtime.trace) ∧
    s.handled <+: commandsBeforeShutdown s.sent := by
  refine ⟨handled_append_of_running hs, fun hleave => ?_, handled_isPrefix hs⟩
  exact ⟨handled_of_leaving hs hleave, fun s' hrun => (trace_of_leaving hleave hrun).2⟩

end

/-- Two commands are handled while a third waits. -/
theorem delivered_in_order_sent : ∃ s : Errands.Sys,
    (reactor .release Poller.new).Reachable Lts.anyLabel s ∧ s.handled.length = 2 ∧
    ((s.pc.Running →
      s.handled ++ commandsBeforeShutdown s.channel.queue = commandsBeforeShutdown s.sent) ∧
    (s.pc.Leaving → s.handled = commandsBeforeShutdown s.sent ∧
      ∀ s', (reactor .release Poller.new).Steps Lts.anyLabel s s' →
        s'.runtime.trace = s.runtime.trace) ∧
    s.handled <+: commandsBeforeShutdown s.sent) := by
  have hrun : Lts.exec (System.step .release) Lts.anyLabel Errands.boot
      [.controller 0 (.wake true), .controller 0 (.send (.cmd (.send ⟨1⟩ [])) true),
        .controller 0 (.wake true), .controller 0 (.send (.cmd (.send ⟨2⟩ [])) true),
        .controller 0 (.wake true), .controller 0 (.send (.cmd (.send ⟨3⟩ [])) true),
        .turn (.start [] []), .turn (.poll (.ready [Errands.wakerEvent])), .turn .event,
        .turn .event, .turn .command, .turn .command] = some _ := rfl
  have hs := Errands.reachable_of_exec hrun
  exact ⟨_, hs, rfl, delivered_in_order hs⟩

/-- A command that is sent behind a `Shutdown` is still queued when the `Shutdown` is
taken, and a panic discards what is queued. -/
theorem not_delivered_in_order :
    (∃ s : Errands.Sys, (reactor .release Poller.new).Reachable Lts.anyLabel s ∧
      s.pc = .shutdown ∧
      s.handled ++ commandsBeforeShutdown s.channel.queue ≠ commandsBeforeShutdown s.sent) ∧
    (∃ s : Errands.Sys, (reactor .release Poller.new).Reachable Lts.anyLabel s ∧
      s.pc = .panicked .systemTime ∧
      s.handled ++ commandsBeforeShutdown s.channel.queue ≠ commandsBeforeShutdown s.sent) := by
  constructor
  · have hrun : Lts.exec (System.step .release) Lts.anyLabel Errands.boot
        [.controller 0 (.wake true), .controller 0 .clone, .controller 0 (.send .shutdown true),
          .controller 0 (.wake true), .controller 1 (.send (.cmd (.send ⟨1⟩ [])) true),
          .controller 1 (.wake true), .turn (.start [] []),
          .turn (.poll (.ready [Errands.wakerEvent])), .turn .event, .turn .event,
          .turn .command] = some _ := rfl
    exact ⟨_, Errands.reachable_of_exec hrun, rfl, by decide⟩
  · have hrun : Lts.exec (System.step .release) Lts.anyLabel Errands.boot
        [.controller 0 (.wake true), .controller 0 (.send (.cmd (.send ⟨1⟩ [])) true),
          .clock none, .turn (.start [] [])] = some _ := rfl
    exact ⟨_, Errands.reachable_of_exec hrun, rfl, by decide⟩

/-! ## Commands and their actions -/

/-- The last thing the thread did was to call `handle_command`. -/
def Thread.JustHandled (th : Thread H P L T C EL ET) : Prop :=
  ∃ c, th.runtime.trace.getLast?.bind Observation.command = some c

instance (th : Thread H P L T C EL ET) : Decidable th.JustHandled :=
  decidable_of_iff ((th.runtime.trace.getLast?.bind Observation.command).isSome = true)
    Option.isSome_iff_exists

/-- Every `handle_command` is followed by a look at the service that finds no further
action. -/
def Drained (tr : List (Observation L T C EL ET)) : Prop :=
  ∀ pre c post, tr = pre ++ .call (.handleCommand c) :: post → .next none ∈ post

section

variable [Handler H L T C EL ET] [Resource L EL] [Resource T ET] [Poll P A]

/-- The action that the service yielded when the trace was `before` went through
`handle_action` on the way to the state `s`, and had its own effect. -/
inductive System.CarriedOut (prof : Profile) (engine : P) (s : System H P L T C EL ET)
    (before : List (Observation L T C EL ET)) (action : Action L T) : Prop
  | run (u u' : System H P L T C EL ET) (now : ℕ) (service : H)
      (result : Except (Error L T) Unit) (rt : Runtime H P L T C EL ET)
      (reached : (reactor prof engine).Reachable Lts.anyLabel u) (point : u.pc = .actions now)
      (trace : u.runtime.trace = before)
      (yielded : Handler.next u.runtime.service = (some action, service))
      (handled : ({ u.runtime with service := service }.note (.next (some action))).handleAction
        prof action now = .ok (result, rt))
      (effect : Runtime.Acted prof
        ({ u.runtime with service := service }.note (.next (some action))) now action result rt)
      (turn : u.step prof (.turn .action) = some u') (after : u'.runtime = rt.report result)
      (rest : (reactor prof engine).Steps Lts.anyLabel u' s)

/-- Every command sent before the first `Shutdown` has been handled, the service was asked
for its actions afterwards until it had none, and each action it yielded went through
`handle_action`. -/
structure System.FullEffect (prof : Profile) (engine : P) (s : System H P L T C EL ET) :
    Prop where
  handled : s.handled = commandsBeforeShutdown s.sent
  drained : Drained s.runtime.trace
  carriedOut : ∀ pre c mid action post,
    s.runtime.trace = pre ++ .call (.handleCommand c) :: (mid ++ .next (some action) :: post) →
      s.CarriedOut prof engine (pre ++ .call (.handleCommand c) :: mid) action

end

/-- Only the call of `handle_command` is a deed of taking. -/
theorem deed_eq_took {obs : Observation L T C EL ET} {c : C} :
    obs.deed = some (.took c) ↔ obs = .call (.handleCommand c) := by
  constructor
  · intro h
    cases obs with
    | call call => cases call <;> cases h; rfl
    | next answer => cases answer <;> cases h
    | handleIo id io => cases h
    | writeAtomic id data result => cases h
  · rintro rfl
    rfl

/-- Only the answer that there is no further action is a deed of settling. -/
theorem deed_eq_settled {obs : Observation L T C EL ET} :
    obs.deed = some .settled ↔ obs = .next none := by
  constructor
  · intro h
    cases obs with
    | call call => cases call <;> cases h
    | next answer => cases answer <;> cases h; rfl
    | handleIo id io => cases h
    | writeAtomic id data result => cases h
  · rintro rfl
    rfl

/-- Draining after every command is settling everything taken. -/
theorem drained_iff {tr : List (Observation L T C EL ET)} :
    Drained tr ↔ Mailbox.AllSettled (tr.filterMap Observation.deed) := by
  constructor
  · -- the deed comes from an entry, and the entries behind it from those behind
    intro h pre c post heq
    obtain ⟨l₁, l₂, rfl, rfl, htail⟩ := List.filterMap_eq_append_iff.mp heq
    obtain ⟨skipped, obs, rest, rfl, -, hobs, rfl⟩ := List.filterMap_eq_cons_iff.mp htail
    rw [deed_eq_took] at hobs
    subst hobs
    have hmem := h (l₁ ++ skipped) c rest (by rw [List.append_assoc])
    exact List.mem_filterMap.mpr ⟨_, hmem, deed_eq_settled.mpr rfl⟩
  · rintro h pre c post rfl
    have hmem := h (pre.filterMap Observation.deed) c (post.filterMap Observation.deed)
      (by rw [List.filterMap_append]; rfl)
    obtain ⟨obs, hobs, hdeed⟩ := List.mem_filterMap.mp hmem
    rw [deed_eq_settled.mp hdeed] at hobs
    exact hobs

/-- A call of `handle_command` at the end of the trace is the last deed. -/
theorem Thread.JustHandled.lastTook {th : Thread H P L T C EL ET} (h : th.JustHandled) :
    Mailbox.LastTook (th.runtime.trace.filterMap Observation.deed) := by
  obtain ⟨c, hc⟩ := h
  obtain ⟨obs, hlast, hobs⟩ := Option.bind_eq_some_iff.mp hc
  obtain ⟨init, hinit⟩ := List.getLast?_eq_some_iff.mp hlast
  have hcall : obs = .call (.handleCommand c) := by
    cases obs with
    | call call => cases call <;> cases hobs; rfl
    | next answer => cases hobs
    | handleIo id io => cases hobs
    | writeAtomic id data result => cases hobs
  refine ⟨c, ?_⟩
  rw [hinit, hcall, List.filterMap_append]
  exact List.getLast?_concat

/-- An entry of a trace that was extended is in its old part or in the new one. -/
theorem entry_cases {tr new pre post : List (Observation L T C EL ET)}
    {obs : Observation L T C EL ET} (h : tr ++ new = pre ++ obs :: post) :
    (∃ post', tr = pre ++ obs :: post') ∨ ∃ mid, pre = tr ++ mid ∧ new = mid ++ obs :: post := by
  rcases List.append_eq_append_iff.mp h with ⟨mid, hpre, hnew⟩ | ⟨rest, htr, hcons⟩
  · exact Or.inr ⟨mid, hpre, hnew⟩
  · rcases List.cons_eq_append_iff.mp hcons with ⟨rfl, hnew⟩ | ⟨rest', rfl, -⟩
    · exact Or.inr ⟨[], by rw [htr, List.append_nil, List.append_nil], hnew⟩
    · exact Or.inl ⟨rest', htr⟩

section

variable [Handler H L T C EL ET] [Resource L EL] [Resource T ET] [Poll P A]
variable {prof : Profile} {engine : P}

/-- What a turn adds to the trace: nothing that the service yields, or an action and then
its effect. -/
theorem Thread.Turned.yields {clock : SystemTime} {th th' : Thread H P L T C EL ET}
    {input : Input A} (h : Thread.Turned prof clock th input th') :
    (∃ tr, th'.runtime.trace = th.runtime.trace ++ tr ∧ ∀ action, .next (some action) ∉ tr) ∨
    ∃ now action service result rt tr, input = .action ∧ th.pc = .actions now ∧
      Handler.next th.runtime.service = (some action, service) ∧
      Runtime.Acted prof ({ th.runtime with service := service }.note (.next (some action))) now
        action result rt ∧ th'.runtime = rt.report result ∧
      th'.runtime.trace = th.runtime.trace ++ .next (some action) :: tr ∧
      ∀ action', .next (some action') ∉ tr := by
  have hsame : ∀ rt' : Runtime H P L T C EL ET, rt'.trace = th.runtime.trace →
      ∃ tr, rt'.trace = th.runtime.trace ++ tr ∧ ∀ action, .next (some action) ∉ tr :=
    fun rt' htrace => ⟨[], by rw [htrace, List.append_nil], fun _ => List.not_mem_nil⟩
  cases h with
  | started hpc ls ts hls hts time hclock expiring hexp => exact Or.inl (hsame _ rfl)
  | polled timeout hpc answer now hclock fired hfired service rt hrt =>
      refine Or.inl ⟨_, by rw [hrt], fun action hmem => ?_⟩
      obtain ⟨c, -, heq⟩ := List.mem_map.mp hmem
      cases heq
  | batchDone now awoken hpc hnext => exact Or.inl (hsame _ rfl)
  | event now awoken hpc id res poller hnext woken rt hev =>
      obtain ⟨-, -, -, tr, htrace, htr⟩ := hev.frame
      exact Or.inl ⟨tr, htrace, fun action hmem => htr _ hmem⟩
  | drained now hpc hqueue => exact Or.inl (hsame _ rfl)
  | command now hpc c queue hqueue =>
      refine Or.inl ⟨_, rfl, fun action hmem => ?_⟩
      cases List.mem_singleton.mp hmem
  | shutdown now hpc queue hqueue => exact Or.inl (hsame _ rfl)
  | actionsDone now hpc service hnext =>
      refine Or.inl ⟨_, rfl, fun action hmem => ?_⟩
      cases List.mem_singleton.mp hmem
  | action now hpc action service hnext result rt hact =>
      obtain ⟨-, -, tr, htrace, htr⟩ := hact.frame
      exact Or.inr ⟨now, action, service, result, rt, tr, rfl, hpc, hnext, hact, rfl,
        htrace.trans (List.append_assoc _ _ _), fun action' hmem => htr _ hmem⟩
  | exited hpc => exact Or.inl (hsame _ rfl)
  | panicked input p hp => exact Or.inl (hsame _ rfl)

/-- What was carried out stays carried out. -/
theorem System.CarriedOut.step {s s' : System H P L T C EL ET}
    {before : List (Observation L T C EL ET)} {action : Action L T}
    (h : s.CarriedOut prof engine before action) {label : Label A C}
    (hstep : s.step prof label = some s') : s'.CarriedOut prof engine before action := by
  cases h with
  | run u u' now service result rt reached point trace yielded handled effect turn after rest =>
      exact .run u u' now service result rt reached point trace yielded handled effect turn after
        (rest.tail ⟨label, trivial, hstep⟩)

/-- **No action is yielded in vain.**  In every reachable state each action in the trace has
gone through `handle_action` where it stands. -/
theorem carriedOut_of_reachable {G : System H P L T C EL ET → Label A C → Prop}
    {s : System H P L T C EL ET} (hs : (reactor prof engine).Reachable G s)
    {pre post : List (Observation L T C EL ET)} {action : Action L T}
    (htrace : s.runtime.trace = pre ++ .next (some action) :: post) :
    s.CarriedOut prof engine pre action := by
  refine Lts.Reachable.invariant_of (J := (reactor prof engine).Reachable Lts.anyLabel)
    (I := fun s => ∀ pre action post, s.runtime.trace = pre ++ .next (some action) :: post →
      s.CarriedOut prof engine pre action) (fun _ h => h) ?_ ?_
    (hs.mono fun _ _ _ => trivial) pre action post htrace
  · rintro s ⟨service, fd, clock, poller, hreg, rfl⟩ pre action post htrace
    exact absurd htrace.symm (List.append_ne_nil_of_right_ne_nil _ (List.cons_ne_nil _ _))
  · intro s label s' hreach hI _ hstep pre action post htrace
    rcases System.core_of_step hstep with ⟨input, rfl, hturned⟩ | ⟨chan, waker, hcore⟩
    · rcases hturned.yields with ⟨tr, hadd, hno⟩ |
        ⟨now, action', service, result, rt, tr, rfl, hpc, hnext, hact, hrt, hadd, hno⟩
      · rcases entry_cases (hadd.symm.trans htrace) with ⟨post', hold⟩ | ⟨mid, -, hnew⟩
        · exact (hI pre action post' hold).step hstep
        · refine absurd ?_ (hno action)
          rw [hnew]
          exact List.mem_append_right _ List.mem_cons_self
      · rcases entry_cases (hadd.symm.trans htrace) with ⟨post', hold⟩ | ⟨mid, hpre, hnew⟩
        · exact (hI pre action post' hold).step hstep
        · -- the new entry is the first of the piece
          rcases List.cons_eq_append_iff.mp hnew with ⟨rfl, heq⟩ | ⟨mid', rfl, heq⟩
          · cases heq
            rw [List.append_nil] at hpre
            exact .run s s' now service result rt hreach hpc hpre.symm hnext
              (Runtime.handleAction_of_acted hact) hact hstep hrt .refl
          · refine absurd ?_ (hno action)
            rw [heq]
            exact List.mem_append_right _ List.mem_cons_self
    · refine (hI pre action post ?_).step hstep
      rw [← htrace, show s'.runtime = _ from congrArg Thread.runtime hcore]

/-- In the command loop and behind it, the last deed is to take a command only if that
was the last thing the thread did. -/
theorem justHandled_of_lastTook {G : System H P L T C EL ET → Label A C → Prop}
    {s : System H P L T C EL ET} (hs : (reactor prof engine).Reachable G s)
    (hpc : (∃ now, s.pc = .commands now) ∨ s.pc.Leaving)
    (hlast : Mailbox.LastTook (s.runtime.trace.filterMap Observation.deed)) :
    s.JustHandled := by
  refine core_invariant (I := fun th => ((∃ now, th.pc = .commands now) ∨ th.pc.Leaving) →
    Mailbox.LastTook (th.runtime.trace.filterMap Observation.deed) → th.JustHandled)
    (fun th chan waker h => h) ?_ ?_ hs hpc hlast
  · rintro service poller fd hreg (⟨now, hpc⟩ | hpc | hpc) <;> cases hpc
  · intro s input th' hreach hI hG hturned
    cases hturned with
    | batchDone now awoken hpc hnext =>
        -- the thread comes from the events with everything settled
        rintro - hlast
        have hph : s.mailbox.phase = .away ∨ s.mailbox.phase = .summoned := by
          show s.pc.phase = .away ∨ s.pc.phase = .summoned
          rw [hpc]
          cases awoken
          · exact Or.inl rfl
          · exact Or.inr rfl
        have hsettled := Mailbox.allSettled_of_away (System.mailbox_reachable hreach) hph
        exact absurd hlast (Mailbox.allSettled_iff.mp hsettled)
    | command now hpc cmd queue hqueue =>
        rintro - -
        refine ⟨cmd, ?_⟩
        show Option.bind (List.getLast? (_ ++ [_])) _ = _
        rw [List.getLast?_concat]
        rfl
    | shutdown now hpc queue hqueue => exact fun _ hlast => hI (Or.inl ⟨now, hpc⟩) hlast
    | exited hpc => exact fun _ hlast => hI (Or.inr (Or.inl hpc)) hlast
    | started hpc ls ts hls hts time hclock expiring hexp =>
        rintro (⟨now, hpc⟩ | hpc | hpc) <;> cases hpc
    | polled timeout hpc answer now hclock fired hfired service rt hrt =>
        rintro (⟨now, hpc⟩ | hpc | hpc) <;> cases hpc
    | event now awoken hpc id res poller hnext woken rt hev =>
        rintro (⟨now, hpc⟩ | hpc | hpc) <;> cases hpc
    | drained now hpc hqueue => rintro (⟨now, hpc⟩ | hpc | hpc) <;> cases hpc
    | actionsDone now hpc service hnext => rintro (⟨now, hpc⟩ | hpc | hpc) <;> cases hpc
    | action now hpc action service hnext result rt hact =>
        rintro (⟨now, hpc⟩ | hpc | hpc) <;> cases hpc
    | panicked input p hp => rintro (⟨now, hpc⟩ | hpc | hpc) <;> cases hpc

/-- A thread that leaves has given every command its full effect if and only if it did
not handle a command right before it took the `Shutdown`. -/
theorem fullEffect_iff {G : System H P L T C EL ET → Label A C → Prop}
    {s : System H P L T C EL ET} (hs : (reactor prof engine).Reachable G s)
    (hleave : s.pc.Leaving) : s.FullEffect prof engine ↔ ¬ s.JustHandled := by
  have hdrained : s.FullEffect prof engine ↔ Drained s.runtime.trace := by
    refine ⟨fun h => h.drained, fun h => ⟨handled_of_leaving hs hleave, h, ?_⟩⟩
    intro pre c mid action post htrace
    exact carriedOut_of_reachable hs (htrace.trans (List.append_assoc _ (_ :: mid) _).symm)
  rw [hdrained, drained_iff, Mailbox.allSettled_iff, not_iff_not]
  exact ⟨justHandled_of_lastTook hs (Or.inr hleave), Thread.JustHandled.lastTook⟩

/-- The next turn of the command loop takes a `Shutdown`. -/
def System.AtShutdown (s : System H P L T C EL ET) : Prop :=
  s.channel.queue.head? = some .shutdown

instance [DecidableEq C] (s : System H P L T C EL ET) : Decidable s.AtShutdown :=
  inferInstanceAs (Decidable (_ = _))

/-- The condition that a `Shutdown` is taken only as the first message of its pass
through the command loop: no command was handled right before. -/
abbrev ShutdownComesFirst : System H P L T C EL ET → Label A C → Prop :=
  Lts.demand Label.atCommand fun s _ => s.AtShutdown → ¬ s.JustHandled

/-- In runs in which `Shutdown` comes first in its pass, the thread never leaves right
after a command. -/
theorem not_justHandled_of_leaving {s : System H P L T C EL ET}
    (hs : (reactor prof engine).Reachable ShutdownComesFirst s) (hleave : s.pc.Leaving) :
    ¬ s.JustHandled := by
  refine core_invariant (I := fun th => th.pc.Leaving → ¬ th.JustHandled)
    (fun th chan waker h => h) ?_ ?_ hs hleave
  · rintro service poller fd hreg (hpc | hpc) <;> cases hpc
  · intro s input th' hreach hI hG hturned
    cases hturned with
    | shutdown now hpc queue hqueue =>
        -- the guard speaks about the turn that takes the `Shutdown`
        intro _
        apply hG
        rw [System.AtShutdown, System.channel, hqueue]
        rfl
    | exited hpc => exact fun _ => hI (Or.inl hpc)
    | batchDone now awoken hpc hnext =>
        cases awoken <;> rintro (hpc | hpc) <;> cases hpc
    | started hpc ls ts hls hts time hclock expiring hexp =>
        rintro (hpc | hpc) <;> cases hpc
    | polled timeout hpc answer now hclock fired hfired service rt hrt =>
        rintro (hpc | hpc) <;> cases hpc
    | event now awoken hpc id res poller hnext woken rt hev =>
        rintro (hpc | hpc) <;> cases hpc
    | drained now hpc hqueue => rintro (hpc | hpc) <;> cases hpc
    | command now hpc cmd queue hqueue => rintro (hpc | hpc) <;> cases hpc
    | actionsDone now hpc service hnext => rintro (hpc | hpc) <;> cases hpc
    | action now hpc action service hnext result rt hact =>
        rintro (hpc | hpc) <;> cases hpc
    | panicked input p hp => rintro (hpc | hpc) <;> cases hpc

/-- **When commands take effect before shutdown.**  In every run in which a `Shutdown` is
only taken as the first message of its pass through the command loop, the thread
leaves only after every command sent before it was handled, the actions of the service were
drained and each of them went through `handle_action`.  The condition is exact: whatever
came before, the step that takes a `Shutdown` leaves no command without its actions if and
only if no command was handled right before. -/
theorem commands_take_effect_iff :
    (∀ s : System H P L T C EL ET, (reactor prof engine).Reachable ShutdownComesFirst s →
      s.pc.Leaving → s.FullEffect prof engine) ∧
    (∀ s s' : System H P L T C EL ET, (reactor prof engine).Reachable Lts.anyLabel s →
      s.step prof (.turn .command) = some s' → s'.pc = .shutdown →
      (s'.FullEffect prof engine ↔ ¬ s.JustHandled)) := by
  constructor
  · intro s hs hleave
    exact (fullEffect_iff hs hleave).mpr (not_justHandled_of_leaving hs hleave)
  · intro s s' hs hstep hpc
    have hs' : (reactor prof engine).Reachable Lts.anyLabel s' := hs.step trivial hstep
    obtain ⟨th, hturn, rfl⟩ := Option.map_eq_some_iff.mp hstep
    rw [fullEffect_iff hs' (Or.inl hpc), not_iff_not]
    cases Thread.turned_of_turn hturn with
    | shutdown now hpc' queue hqueue => exact Iff.rfl
    | drained now hpc' hqueue => cases hpc
    | command now hpc' cmd queue hqueue => cases hpc
    | panicked input p hp => cases hpc

end

/-- A command whose actions are drained before the `Shutdown` is taken. -/
theorem commands_take_effect_apart : ∃ s : Errands.Sys,
    (reactor .release Poller.new).Reachable ShutdownComesFirst s ∧ s.pc = .exited ∧
    s.handled = [.send ⟨1⟩ []] ∧ s.FullEffect .release Poller.new := by
  have hrun : Lts.exec (System.step .release) ShutdownComesFirst Errands.boot
      [.controller 0 (.wake true), .controller 0 (.send (.cmd (.send ⟨1⟩ [])) true),
        .controller 0 (.wake true), .turn (.start [] []),
        .turn (.poll (.ready [Errands.wakerEvent])), .turn .event, .turn .event, .turn .command,
        .turn .command, .turn .action, .turn .action, .controller 0 (.send .shutdown true),
        .controller 0 (.wake true), .turn (.start [] []),
        .turn (.poll (.ready [Errands.wakerEvent])), .turn .event, .turn .event, .turn .command,
        .turn .exit] = some _ := rfl
  have hs := Errands.reachable_of_exec hrun
  exact ⟨_, hs, rfl, rfl, commands_take_effect_iff.1 _ hs (Or.inr rfl)⟩

/-- A command and a `Shutdown` that fall into one pass: the action the service has queued
in response to the command is discarded. -/
theorem commands_lose_effect : ∃ s : Errands.Sys,
    (reactor .release Poller.new).Reachable Lts.anyLabel s ∧ s.pc = .exited ∧
    s.handled = [.send ⟨1⟩ []] ∧ s.runtime.service.queue = [.send ⟨1⟩ []] ∧
    ¬ s.FullEffect .release Poller.new := by
  have hrun : Lts.exec (System.step .release) Lts.anyLabel Errands.boot
      [.controller 0 (.wake true), .controller 0 (.send (.cmd (.send ⟨1⟩ [])) true),
        .controller 0 (.wake true), .controller 0 (.send .shutdown true),
        .controller 0 (.wake true), .turn (.start [] []),
        .turn (.poll (.ready [Errands.wakerEvent])), .turn .event, .turn .event, .turn .command,
        .turn .command, .turn .exit] = some _ := rfl
  refine ⟨_, Errands.reachable_of_exec hrun, rfl, rfl, rfl, fun h => ?_⟩
  have hmem := h.drained [.call (.tick 1000)] (.send ⟨1⟩ []) [] rfl
  cases hmem

end IoReactor
