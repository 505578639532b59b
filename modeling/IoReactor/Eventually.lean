/-
# What happens sooner or later

In an infinite run the reactor thread gets its turns, the service has an end of actions in
every iteration, and a raised wake signal is reported by some poll.  Under these fairness
assumptions (`Fair`) a message that was rung for is taken, so a command is handled
(`cmd_eventually_handled`) and a `Shutdown` ends the thread
(`shutdown_eventually_exits`); and a timer fires once the clock stays past its deadline
(`timer_eventually_fires`).
-/
import IoReactor.Progress
import IoReactor.Calls
import IoReactor.Registry
import IoReactor.Timers

namespace IoReactor

variable {H P A L T C EL ET : Type}

/-! ## Histories only grow -/

/-- More messages leave the commands in front of the first `Shutdown` in place. -/
theorem commandsBeforeShutdown_isPrefix {C : Type} {msgs msgs' : List (Ctl C)}
    (h : msgs <+: msgs') : commandsBeforeShutdown msgs <+: commandsBeforeShutdown msgs' := by
  obtain ⟨rest, rfl⟩ := h
  induction msgs with
  | nil => exact List.nil_prefix
  | cons msg msgs ih =>
      cases msg with
      | cmd c => exact List.prefix_cons_inj c |>.mpr ih
      | shutdown => exact List.prefix_refl _

/-- A command is in front of the first `Shutdown`, or behind one. -/
theorem getElem?_commandsBeforeShutdown {C : Type} {msgs : List (Ctl C)} {k : ℕ} {c : C}
    (h : msgs[k]? = some (.cmd c)) :
    (commandsBeforeShutdown msgs)[k]? = some c ∨ .shutdown ∈ msgs.take k := by
  induction msgs generalizing k with
  | nil => cases h
  | cons msg msgs ih =>
      cases k with
      | zero =>
          cases h
          exact Or.inl rfl
      | succ k =>
          cases msg with
          | shutdown => exact Or.inr List.mem_cons_self
          | cmd c' =>
              rcases ih h with hk | hk
              · exact Or.inl hk
              · exact Or.inr (List.mem_cons_of_mem _ hk)

/-- The commands in front of the first `Shutdown` are fewer than the messages up to any. -/
theorem length_commandsBeforeShutdown_lt {C : Type} {msgs : List (Ctl C)} {k : ℕ}
    (h : .shutdown ∈ msgs.take k) : (commandsBeforeShutdown msgs).length < k := by
  induction msgs generalizing k with
  | nil => cases k <;> cases h
  | cons msg msgs ih =>
      cases k with
      | zero => cases h
      | succ k =>
          cases msg with
          | shutdown => exact Nat.succ_pos k
          | cmd c =>
              rcases List.mem_cons.mp h with h | h
              · cases h
              · exact Nat.succ_lt_succ (ih h)

namespace System

/-- A step of a controller only adds to the messages sent and to the calls returned. -/
theorem history_of_moved {s s' : System H P L T C EL ET} {i : ℕ} {move : Move C}
    (h : Moved s i move s') : s.sent <+: s'.sent ∧ s.returned <+: s'.returned := by
  cases h with
  | clone hi => exact ⟨List.prefix_refl _, List.prefix_refl _⟩
  | drop hi => exact ⟨List.prefix_refl _, List.prefix_refl _⟩
  | sent hi op msg hmsg hrecv => exact ⟨List.prefix_append _ _, List.prefix_refl _⟩
  | lost hi => exact ⟨List.prefix_refl _, List.prefix_refl _⟩
  | refused hi c => exact ⟨List.prefix_refl _, List.prefix_append _ _⟩
  | woke op slot hi ok =>
      rw [wakeStep_eq]
      exact ⟨List.prefix_refl _, List.prefix_append _ _⟩

section

variable [Handler H L T C EL ET] [Resource L EL] [Resource T ET] [Poll P A]
variable {prof : Profile} {engine : P} {G : System H P L T C EL ET → Label A C → Prop}

/-- A step only adds to the messages sent and to the calls returned. -/
theorem history_of_step {s s' : System H P L T C EL ET} {label : Label A C}
    (h : s.step prof label = some s') : s.sent <+: s'.sent ∧ s.returned <+: s'.returned := by
  cases label with
  | clock reading =>
      cases h
      exact ⟨List.prefix_refl _, List.prefix_refl _⟩
  | breakWaker broken =>
      cases h
      exact ⟨List.prefix_refl _, List.prefix_refl _⟩
  | controller i move => exact history_of_moved (moved_of_controllerStep h)
  | turn input =>
      obtain ⟨th, -, rfl⟩ := Option.map_eq_some_iff.mp h
      exact ⟨List.prefix_refl _, List.prefix_refl _⟩

/-- A run only adds to the messages sent and to the calls returned. -/
theorem history_of_steps {s s' : System H P L T C EL ET}
    (hrun : (reactor prof engine).Steps G s s') :
    s.sent <+: s'.sent ∧ s.returned <+: s'.returned := by
  refine hrun.preserves (I := fun u => s.sent <+: u.sent ∧ s.returned <+: u.returned) ?_
    ⟨List.prefix_refl _, List.prefix_refl _⟩
  rintro u label u' ⟨hsent, hreturned⟩ - hstep
  obtain ⟨hsent', hreturned'⟩ := history_of_step hstep
  exact ⟨hsent.trans hsent', hreturned.trans hreturned'⟩

end

end System

/-! ## Messages that will be taken -/

/-- The label is a turn of the reactor thread. -/
def Label.IsTurn (label : Label A C) : Prop := ∃ input, label = .turn input

/-- The label is the answer to a poll. -/
def Label.IsPoll (label : Label A C) : Prop := ∃ answer, label = .turn (.poll answer)

namespace System

/-- Message number `k` was sent, and was rung for. -/
structure Owed (s : System H P L T C EL ET) (k : ℕ) : Prop where
  sent : k < s.sent.length
  rung : ∃ ret ∈ s.returned, ret.slot = some k ∧ ret.woken = true

/-- Message number `k` has been taken, or the thread is past taking messages. -/
def Served (s : System H P L T C EL ET) (k : ℕ) : Prop :=
  ¬ s.pc.Running ∨ k < s.handled.length

section

variable [Handler H L T C EL ET] [Resource L EL] [Resource T ET] [Poll P A]
variable {prof : Profile} {engine : P} {G : System H P L T C EL ET → Label A C → Prop}

/-- What is owed stays owed. -/
theorem Owed.steps {s s' : System H P L T C EL ET} {k : ℕ} (h : s.Owed k)
    (hrun : (reactor prof engine).Steps G s s') : s'.Owed k := by
  obtain ⟨hsent, hreturned⟩ := history_of_steps hrun
  obtain ⟨ret, hret, hslot⟩ := h.rung
  exact ⟨h.sent.trans_le hsent.length_le, ret, hreturned.subset hret, hslot⟩

/-- While the loop runs, what was sent is what was handled and what is queued. -/
theorem length_sent {s : System H P L T C EL ET} (hs : (reactor prof engine).Reachable G s)
    (hrun : s.pc.Running) : s.sent.length = s.handled.length + s.channel.queue.length := by
  rw [sent_of_running hs hrun, List.length_append, List.length_map]

/-- A message that is owed and not served waits in the channel, and the loop is called or on
its way. -/
theorem Owed.waits {s : System H P L T C EL ET} {k : ℕ} (h : s.Owed k)
    (hs : (reactor prof engine).Reachable G s) (hno : ¬ s.Served k) :
    s.pc.Running ∧ s.channel.queue ≠ [] ∧ s.mailbox.Heeded := by
  have hrun : s.pc.Running := Decidable.not_not.mp fun hstop => hno (Or.inl hstop)
  have hlen : s.handled.length ≤ k := Nat.le_of_not_lt fun hlt => hno (Or.inr hlt)
  have hsplit := length_sent hs hrun
  have hsent := h.sent
  refine ⟨hrun, ?_, ?_⟩
  · intro hempty
    rw [hempty, List.length_nil] at hsplit
    omega
  · apply Mailbox.rung_not_stranded (mailbox_reachable hs) hrun h.rung
    constructor
    · show (s.sent.map Ctl.letter).length ≤ k + (s.channel.queue.map Ctl.letter).length
      rw [List.length_map, List.length_map]
      omega
    · show k < (s.sent.map Ctl.letter).length
      rw [List.length_map]
      exact hsent

/-- A step that is no turn of the thread leaves its core alone. -/
theorem core_of_other {s s' : System H P L T C EL ET} {label : Label A C}
    (h : s.step prof label = some s') (hno : ¬ label.IsTurn) :
    ∃ chan waker, s'.toThread = ⟨s.pc, { s.runtime with ctlRecv := chan, waker := waker }⟩ := by
  rcases core_of_step h with ⟨input, rfl, -⟩ | hcore
  · exact absurd ⟨input, rfl⟩ hno
  · exact hcore

end

end System

/-! ## Where a turn leads -/

/-- The thread is in the loop of `handle_actions`. -/
def Pc.InActions (pc : Pc) : Prop := ∃ now, pc = .actions now

/-- The thread is in the command loop. -/
def Pc.InCommands (pc : Pc) : Prop := ∃ now, pc = .commands now

/-- A panic has unwound the thread. -/
def Pc.Panicked (pc : Pc) : Prop := ∃ p, pc = .panicked p

section

variable [Handler H L T C EL ET] [Resource L EL] [Resource T ET]

variable {prof : Profile} {clock : SystemTime} {th th' : Thread H Poller L T C EL ET}
variable {input : Input Popol.Answer}

/-- A turn in the loop of `handle_events` ends the loop if nothing is pending, and
otherwise takes an event, which summons the thread if it is the waker's. -/
theorem Thread.Turned.of_events (h : Turned prof clock th input th') {now : ℕ} {awoken : Bool}
    (hpc : th.pc = .events now awoken) :
    th'.pc.Panicked ∨
      (th.runtime.poller.events = [] ∧
        th'.pc = if awoken then .commands now else .actions now) ∨
      ∃ event events, th.runtime.poller.events = event :: events ∧
        th'.runtime.poller.events = events ∧
        (th'.pc = .events now true ∨ (event.key ≠ .WAKER ∧ th'.pc = .events now awoken)) := by
  cases h with
  | batchDone now' awoken' hpc' hnext =>
      cases hpc.symm.trans hpc'
      refine Or.inr (Or.inl ⟨?_, rfl⟩)
      cases hevents : th.runtime.poller.events with
      | nil => rfl
      | cons event events =>
          change Poller.next th.runtime.poller = none at hnext
          rw [Poller.next, hevents] at hnext
          cases hnext
  | event now' awoken' hpc' id res poller hnext woken rt hev =>
      cases hpc.symm.trans hpc'
      obtain ⟨event, events, hevents, rfl, -, rfl⟩ := Poller.exists_of_next hnext
      refine Or.inr (Or.inr ⟨event, events, hevents, hev.events_eq, ?_⟩)
      cases hev with
      | waker hid io hres => exact Or.inl (by rw [Bool.or_true])
      | listenerIo hid io hres listener hlook => exact Or.inr ⟨hid, by rw [Bool.or_false]⟩
      | listenerGone hid err hres listener hlook => exact Or.inr ⟨hid, by rw [Bool.or_false]⟩
      | transportIo hid hno io hres transport hlook =>
          exact Or.inr ⟨hid, by rw [Bool.or_false]⟩
      | transportGone hid hno err hres transport hlook =>
          exact Or.inr ⟨hid, by rw [Bool.or_false]⟩
  | panicked input p hp => exact Or.inl ⟨p, rfl⟩
  -- no other outcome starts in that loop
  | _ => simp_all only [reduceCtorEq]

/-- A turn of the command loop ends the loop at an empty channel, and otherwise takes a
message. -/
theorem Thread.Turned.of_commands (h : Turned prof clock th input th')
    (hpc : th.pc.InCommands) :
    th'.pc.Panicked ∨ th'.pc = .shutdown ∨
      (th.runtime.ctlRecv.queue = [] ∧ th'.pc.InActions) ∨
      (th'.pc.InCommands ∧ ∃ cmd, th'.runtime.trace = th.runtime.trace ++
        [.call (.handleCommand cmd)]) := by
  obtain ⟨now, hpc⟩ := hpc
  cases h with
  | drained now' hpc' hqueue => exact Or.inr (Or.inr (Or.inl ⟨hqueue, now', rfl⟩))
  | command now' hpc' cmd queue hqueue =>
      exact Or.inr (Or.inr (Or.inr ⟨⟨now', rfl⟩, cmd, rfl⟩))
  | shutdown now' hpc' queue hqueue => exact Or.inr (Or.inl rfl)
  | panicked input p hp => exact Or.inl ⟨p, rfl⟩
  | _ => simp_all only [reduceCtorEq]

/-- A turn of the loop of `handle_actions` that ends the loop leads to the start of the
loop body. -/
theorem Thread.Turned.of_actions (h : Turned prof clock th input th')
    (hpc : th.pc.InActions) : th'.pc.Panicked ∨ th'.pc = .start ∨ th'.pc.InActions := by
  obtain ⟨now, hpc⟩ := hpc
  cases h with
  | actionsDone now' hpc' service hnext => exact Or.inr (Or.inl rfl)
  | action now' hpc' action service hnext result rt hact => exact Or.inr (Or.inr ⟨now', rfl⟩)
  | panicked input p hp => exact Or.inl ⟨p, rfl⟩
  | _ => simp_all only [reduceCtorEq]

/-- A turn of a thread that has taken a `Shutdown` lets `run` return. -/
theorem Thread.Turned.of_shutdown (h : Turned prof clock th input th') (hpc : th.pc = .shutdown) :
    th'.pc.Panicked ∨ th'.pc = .exited := by
  cases h with
  | exited hpc' => exact Or.inr rfl
  | panicked input p hp => exact Or.inl ⟨p, rfl⟩
  | _ => simp_all only [reduceCtorEq]

/-- A turn at the poll appends the events of the answer to what is pending. -/
theorem Thread.Turned.of_poll {answer : Popol.Answer}
    (h : Turned prof clock th (.poll answer) th') :
    th'.pc.Panicked ∨ (∃ now, th'.pc = .events now false) ∧
      th'.runtime.poller.events = th.runtime.poller.events ++ answer.events := by
  cases h with
  | polled timeout hpc answer now hclock fired hfired service rt hrt =>
      right
      rw [hrt]
      refine ⟨⟨now, rfl⟩, ?_⟩
      show (Poll.poll th.runtime.poller (some timeout) answer).2.events = _
      rw [poll_snd]
  | panicked input p hp => exact Or.inl ⟨p, rfl⟩

/-- A turn at the start of the loop body leads to the poll. -/
theorem Thread.Turned.of_start (h : Turned prof clock th input th') (hpc : th.pc = .start) :
    th'.pc.Panicked ∨ ∃ timeout, th'.pc = .poll timeout := by
  cases h with
  | started hpc' ls ts hls hts time hclock expiring hexp => exact Or.inr ⟨_, rfl⟩
  | panicked input p hp => exact Or.inl ⟨p, rfl⟩
  | _ => simp_all only [reduceCtorEq]

end

/-! ## Fairness -/

section

variable [Handler H L T C EL ET] [Resource L EL] [Resource T ET]
variable {prof : Profile} {engine : Poller}
variable {G : System H Poller L T C EL ET → Label Popol.Answer C → Prop}

/-- What an infinite run is assumed to offer the reactor thread. -/
structure Fair (r : (reactor prof engine).Run G) : Prop where
  /-- a thread that lives gets another turn -/
  turns : ∀ n, (r.state n).pc.Alive → ∃ m, n ≤ m ∧ (r.label m).IsTurn
  /-- the service runs out of actions -/
  actionsEnd : ∀ n, (r.state n).pc.InActions → ∃ m, n ≤ m ∧ ¬ (r.state m).pc.InActions
  /-- a wake signal that stays raised is reported by one of infinitely many polls -/
  wakes : ∀ n, (∀ m, n ≤ m → (r.state m).runtime.waker.signal = true) →
    (∀ l, n ≤ l → ∃ m, l ≤ m ∧ (r.label m).IsPoll) →
    ∃ m, n ≤ m ∧ ∃ answer, r.label m = .turn (.poll answer) ∧
      ∃ event ∈ answer.events, event.key = .WAKER

namespace Fair

variable {r : (reactor prof engine).Run G}

/-- The rule for the turns of the thread: if each of them reaches `Q` or brings the rank
down, then `P` leads to `Q`. -/
theorem leadsTo_of_turns (hr : Fair r) {P Q : Thread H Poller L T C EL ET → Prop}
    (rank : Thread H Poller L T C EL ET → ℕ) (halive : ∀ th, P th → th.pc.Alive)
    (hframe : ∀ th chan waker, P th →
      P ⟨th.pc, { th.runtime with ctlRecv := chan, waker := waker }⟩ ∧
        rank ⟨th.pc, { th.runtime with ctlRecv := chan, waker := waker }⟩ ≤ rank th)
    (hturn : ∀ clock th input th', P th → Thread.Turned prof clock th input th' →
      Q th' ∨ (P th' ∧ rank th' < rank th)) :
    r.LeadsTo (fun s => P s.toThread) (fun s => Q s.toThread) := by
  refine r.leadsTo_of_rank Label.IsTurn (fun s => rank s.toThread) ?_ ?_
    fun n hP => hr.turns n (halive _ hP)
  · intro s label s' _ hP _ hno hstep
    obtain ⟨chan, waker, hcore⟩ := System.core_of_other hstep hno
    rw [hcore]
    exact Or.inr (hframe s.toThread chan waker hP)
  · rintro s label s' _ hP _ ⟨input, rfl⟩ hstep
    obtain ⟨th, hth, rfl⟩ := Option.map_eq_some_iff.mp hstep
    exact hturn s.clock s.toThread input th hP (Thread.turned_of_turn hth)

/-- The start of the loop body leads to the poll. -/
theorem start_leadsTo_poll (hr : Fair r) : r.LeadsTo (fun s => s.pc = .start)
    fun s => s.pc.Panicked ∨ ∃ timeout, s.pc = .poll timeout := by
  refine hr.leadsTo_of_turns (P := fun th => th.pc = .start)
    (Q := fun th => th.pc.Panicked ∨ ∃ timeout, th.pc = .poll timeout) (fun _ => 0) ?_ ?_ ?_
  · intro th hpc
    rw [hpc]
    exact ⟨nofun, nofun⟩
  · exact fun th chan waker hpc => ⟨hpc, le_rfl⟩
  · exact fun clock th input th' hpc hturned => Or.inl (hturned.of_start hpc)

/-- The loop of `handle_events` comes to its end, and the one of a summoned thread leads
to the command loop. -/
theorem events_leadsTo (hr : Fair r) (summoned : Bool) :
    r.LeadsTo (fun s => ∃ now awoken, s.pc = .events now awoken ∧ (summoned → awoken))
      fun s => s.pc.Panicked ∨ s.pc.InCommands ∨ (s.pc.InActions ∧ summoned = false) := by
  refine hr.leadsTo_of_turns
    (P := fun th => ∃ now awoken, th.pc = .events now awoken ∧ (summoned → awoken))
    (Q := fun th => th.pc.Panicked ∨ th.pc.InCommands ∨ (th.pc.InActions ∧ summoned = false))
    (fun th => th.runtime.poller.events.length) ?_ ?_ ?_
  · rintro th ⟨now, awoken, hpc, -⟩
    rw [hpc]
    cases awoken <;> exact ⟨nofun, nofun⟩
  · exact fun th chan waker hpc => ⟨hpc, le_rfl⟩
  · rintro clock th input th' ⟨now, awoken, hpc, hsummoned⟩ hturned
    rcases hturned.of_events hpc with hp | ⟨-, hpc'⟩ | ⟨event, events, hevents, hrest, hpc'⟩
    · exact Or.inl (Or.inl hp)
    · cases awoken with
      | true => exact Or.inl (Or.inr (Or.inl ⟨now, hpc'⟩))
      | false =>
          have hnot : summoned = false := Bool.eq_false_iff.mpr fun h => by cases hsummoned h
          exact Or.inl (Or.inr (Or.inr ⟨⟨now, hpc'⟩, hnot⟩))
    · -- the batch has one event less
      right
      constructor
      · rcases hpc' with hpc' | ⟨-, hpc'⟩
        · exact ⟨now, true, hpc', fun _ => rfl⟩
        · exact ⟨now, awoken, hpc', hsummoned⟩
      · rw [hevents, hrest]
        exact Nat.lt_succ_self _

/-- A pending event of the waker summons the thread. -/
theorem reported_leadsTo_summoned (hr : Fair r) :
    r.LeadsTo (fun s => (∃ now, s.pc = .events now false) ∧
        ∃ event ∈ s.runtime.poller.events, event.key = .WAKER)
      fun s => s.pc.Panicked ∨ ∃ now, s.pc = .events now true := by
  refine hr.leadsTo_of_turns
    (P := fun th => (∃ now, th.pc = .events now false) ∧
      ∃ event ∈ th.runtime.poller.events, event.key = .WAKER)
    (Q := fun th => th.pc.Panicked ∨ ∃ now, th.pc = .events now true)
    (fun th => th.runtime.poller.events.length) ?_ ?_ ?_
  · rintro th ⟨⟨now, hpc⟩, -⟩
    rw [hpc]
    exact ⟨nofun, nofun⟩
  · exact fun th chan waker hpc => ⟨hpc, le_rfl⟩
  · rintro clock th input th' ⟨⟨now, hpc⟩, waker, hmem, hkey⟩ hturned
    rcases hturned.of_events hpc with hp | ⟨hnil, -⟩ | ⟨event, events, hevents, hrest, hpc'⟩
    · exact Or.inl (Or.inl hp)
    · rw [hnil] at hmem
      cases hmem
    · rcases hpc' with hpc' | ⟨hne, hpc'⟩
      · exact Or.inl (Or.inr ⟨now, hpc'⟩)
      · -- the event of the waker is in the rest of the batch
        rw [hevents] at hmem
        rcases List.mem_cons.mp hmem with rfl | hmem
        · exact absurd hkey hne
        · right
          refine ⟨⟨⟨now, hpc'⟩, waker, hrest ▸ hmem, hkey⟩, ?_⟩
          rw [hevents, hrest]
          exact Nat.lt_succ_self _

/-- The command loop takes a message that is owed, or one after which no other is taken. -/
theorem commands_leadsTo_served (hr : Fair r) (k : ℕ) :
    r.LeadsTo (fun s => s.Owed k ∧ s.pc.InCommands) fun s => s.Served k := by
  -- the rank counts the messages in front of the one in question
  have hlead : r.LeadsTo (fun s => (s.Owed k ∧ s.pc.InCommands) ∧ ¬ s.Served k)
      fun s => s.Served k := by
    refine r.leadsTo_of_rank Label.IsTurn (fun s => k + 1 - s.handled.length) ?_ ?_ ?_
    · rintro s label s' hs ⟨⟨howed, hpc⟩, -⟩ hG hno hstep
      have howed' := howed.steps (Relation.ReflTransGen.single ⟨label, hG, hstep⟩)
      obtain ⟨chan, waker, hcore⟩ := System.core_of_other hstep hno
      have hpc' : s'.pc = s.pc := by rw [hcore]
      have htrace : s'.runtime.trace = s.runtime.trace := by rw [hcore]
      by_cases hserved : s'.Served k
      · exact Or.inl hserved
      · right
        rw [System.handled, System.handled, htrace]
        exact ⟨⟨⟨howed', hpc' ▸ hpc⟩, hserved⟩, le_rfl⟩
    · rintro s label s' hs ⟨⟨howed, hpc⟩, hno⟩ hG ⟨input, rfl⟩ hstep
      obtain ⟨-, hqueue, -⟩ := howed.waits hs hno
      have howed' := howed.steps (Relation.ReflTransGen.single ⟨_, hG, hstep⟩)
      by_cases hserved : s'.Served k
      · exact Or.inl hserved
      right
      have hrun : s'.pc.Running := Decidable.not_not.mp fun hstop => hserved (Or.inl hstop)
      obtain ⟨th, hth, rfl⟩ := Option.map_eq_some_iff.mp hstep
      rcases (Thread.turned_of_turn hth).of_commands hpc with
        ⟨p, hp⟩ | hshut | ⟨hnil, -⟩ | ⟨hpc', cmd, htrace⟩
      · exact absurd (congrArg Pc.phase hp) hrun.2.2
      · exact absurd (congrArg Pc.phase hshut) hrun.1
      · exact absurd hnil hqueue
      · refine ⟨⟨⟨howed', hpc'⟩, hserved⟩, ?_⟩
        have hlen : s.handled.length ≤ k := Nat.le_of_not_lt fun hlt => hno (Or.inr hlt)
        have hmore : (System.handled { s with toThread := th }).length = s.handled.length + 1 := by
          show (th.runtime.trace.filterMap Observation.command).length = _
          rw [htrace, List.filterMap_append, List.length_append]
          rfl
        show k + 1 - (System.handled { s with toThread := th }).length < _
        omega
    · rintro n ⟨⟨-, now, hpc⟩, -⟩
      apply hr.turns
      rw [hpc]
      exact ⟨nofun, nofun⟩
  intro n hP
  by_cases hserved : (r.state n).Served k
  · exact ⟨n, le_rfl, hserved⟩
  · exact hlead n ⟨hP, hserved⟩

/-- A turn at the poll is the answer to the poll. -/
theorem exists_poll (hr : Fair r) {n : ℕ} (hpc : ∃ timeout, (r.state n).pc = .poll timeout) :
    ∃ m, n ≤ m ∧ (r.label m).IsPoll := by
  have halive : (r.state n).pc.Alive := by
    obtain ⟨timeout, hpc⟩ := hpc
    rw [hpc]
    exact ⟨nofun, nofun⟩
  obtain ⟨m, hnm, ⟨input, hinput⟩, timeout, hpcm⟩ := r.exists_helpful
    (P := fun s => ∃ timeout, s.pc = .poll timeout) (n := n)
    (fun m _ ⟨timeout, hpcm⟩ hno => by
      obtain ⟨chan, waker, hcore⟩ := System.core_of_other (r.step m) hno
      exact ⟨timeout, (congrArg Thread.pc hcore).trans hpcm⟩)
    (hr.turns n halive) hpc
  refine ⟨m, hnm, ?_⟩
  -- no other input fits there
  have hstep := r.step m
  rw [hinput] at hstep ⊢
  obtain ⟨th, hth, -⟩ := Option.map_eq_some_iff.mp hstep
  cases input with
  | poll answer => exact ⟨answer, rfl⟩
  | _ => simp only [Thread.turn, hpcm, reduceCtorEq] at hth

/-- A step of a loop that ends it leads to where a turn of the loop leads. -/
theorem exists_turned_of_ends {In : Pc → Prop} {n : ℕ} (hin : In (r.state n).pc)
    (hends : ∃ m, n ≤ m ∧ ¬ In (r.state m).pc) :
    ∃ i, n ≤ i ∧ In (r.state i).pc ∧ ¬ In (r.state (i + 1)).pc ∧ ∃ input,
      Thread.Turned prof (r.state i).clock (r.state i).toThread input
        (r.state (i + 1)).toThread := by
  obtain ⟨m, hnm, hout⟩ := hends
  obtain ⟨i, hni, -, hi, hi'⟩ := r.exists_crossing (P := fun s => In s.pc) hnm hin hout
  refine ⟨i, hni, hi, hi', ?_⟩
  rcases System.core_of_step (r.step i) with ⟨input, -, hturned⟩ | ⟨chan, waker, hcore⟩
  · exact ⟨input, hturned⟩
  · exact absurd ((congrArg Thread.pc hcore).symm ▸ hi) hi'

/-- A loop that goes on for ever, and whose command loops come to their end, polls again
and again. -/
theorem polls_recur (hr : Fair r) {n : ℕ} (hrun : ∀ m, n ≤ m → (r.state m).pc.Running)
    (hcommands : ∀ m, n ≤ m → (r.state m).pc.InCommands →
      ∃ l, m ≤ l ∧ ¬ (r.state l).pc.InCommands) :
    ∀ m, n ≤ m → ∃ l, m ≤ l ∧ (r.label l).IsPoll := by
  have hnot : ∀ m, n ≤ m → ¬ (r.state m).pc.Panicked := fun m hnm ⟨p, hp⟩ =>
    (hrun m hnm).2.2 (congrArg Pc.phase hp)
  -- the points of the loop, from the poll backwards
  have hstart : ∀ m, n ≤ m → (r.state m).pc = .start → ∃ l, m ≤ l ∧ (r.label l).IsPoll := by
    intro m hnm hpc
    obtain ⟨i, hmi, hp | hpoll⟩ := hr.start_leadsTo_poll m hpc
    · exact absurd hp (hnot i (hnm.trans hmi))
    · obtain ⟨l, hil, hl⟩ := hr.exists_poll hpoll
      exact ⟨l, hmi.trans hil, hl⟩
  have hactions : ∀ m, n ≤ m → (r.state m).pc.InActions →
      ∃ l, m ≤ l ∧ (r.label l).IsPoll := by
    intro m hnm hpc
    obtain ⟨i, hmi, hi, hi', input, hturned⟩ := exists_turned_of_ends hpc (hr.actionsEnd m hpc)
    rcases hturned.of_actions hi with hp | hpc' | hpc'
    · exact absurd hp (hnot (i + 1) (hnm.trans (Nat.le_succ_of_le hmi)))
    · obtain ⟨l, hil, hl⟩ := hstart (i + 1) (hnm.trans (Nat.le_succ_of_le hmi)) hpc'
      exact ⟨l, hmi.trans (Nat.le_of_succ_le hil), hl⟩
    · exact absurd hpc' hi'
  have hdrain : ∀ m, n ≤ m → (r.state m).pc.InCommands →
      ∃ l, m ≤ l ∧ (r.label l).IsPoll := by
    intro m hnm hpc
    obtain ⟨i, hmi, hi, hi', input, hturned⟩ := exists_turned_of_ends hpc (hcommands m hnm hpc)
    have hni' : n ≤ i + 1 := hnm.trans (Nat.le_succ_of_le hmi)
    rcases hturned.of_commands hi with hp | hshut | ⟨-, hpc'⟩ | ⟨hpc', -⟩
    · exact absurd hp (hnot (i + 1) hni')
    · exact absurd (congrArg Pc.phase hshut) (hrun (i + 1) hni').1
    · obtain ⟨l, hil, hl⟩ := hactions (i + 1) hni' hpc'
      exact ⟨l, hmi.trans (Nat.le_of_succ_le hil), hl⟩
    · exact absurd hpc' hi'
  intro m hnm
  cases hpc : (r.state m).pc with
  | start => exact hstart m hnm hpc
  | poll timeout => exact hr.exists_poll ⟨timeout, hpc⟩
  | events now awoken =>
      obtain ⟨i, hmi, hp | hpc' | ⟨hpc', -⟩⟩ := hr.events_leadsTo false m ⟨now, awoken, hpc, nofun⟩
      · exact absurd hp (hnot i (hnm.trans hmi))
      · obtain ⟨l, hil, hl⟩ := hdrain i (hnm.trans hmi) hpc'
        exact ⟨l, hmi.trans hil, hl⟩
      · obtain ⟨l, hil, hl⟩ := hactions i (hnm.trans hmi) hpc'
        exact ⟨l, hmi.trans hil, hl⟩
  | commands now => exact hdrain m hnm ⟨now, hpc⟩
  | actions now => exact hactions m hnm ⟨now, hpc⟩
  | shutdown => exact absurd (congrArg Pc.phase hpc) (hrun m hnm).1
  | exited => exact absurd (congrArg Pc.phase hpc) (hrun m hnm).2.1
  | panicked p => exact absurd (congrArg Pc.phase hpc) (hrun m hnm).2.2

/-- A message that is owed is served. -/
theorem owed_leadsTo_served (hr : Fair r) (k : ℕ) :
    r.LeadsTo (fun s => s.Owed k) fun s => s.Served k := by
  intro n howed
  by_contra hno
  have hnever : ∀ m, n ≤ m → ¬ (r.state m).Served k := fun m hnm h => hno ⟨m, hnm, h⟩
  have howed' : ∀ m, n ≤ m → (r.state m).Owed k := fun m hnm => howed.steps (r.steps hnm)
  have hwaits := fun m hnm => (howed' m hnm).waits (r.reachable m) (hnever m hnm)
  have hnot : ∀ m, n ≤ m → ¬ (r.state m).pc.Panicked := fun m hnm ⟨p, hp⟩ =>
    (hwaits m hnm).1.2.2 (congrArg Pc.phase hp)
  -- the command loop would serve it, and a summoned thread would enter the command loop
  have hdry : ∀ m, n ≤ m → ¬ (r.state m).pc.InCommands := by
    intro m hnm hpc
    obtain ⟨l, hml, hserved⟩ := hr.commands_leadsTo_served k m ⟨howed' m hnm, hpc⟩
    exact hnever l (hnm.trans hml) hserved
  have hasleep : ∀ m, n ≤ m → ¬ ∃ now, (r.state m).pc = .events now true := by
    rintro m hnm ⟨now, hpc⟩
    obtain ⟨l, hml, hp | hpc' | ⟨-, hfalse⟩⟩ :=
      hr.events_leadsTo true m ⟨now, true, hpc, fun _ => rfl⟩
    · exact hnot l (hnm.trans hml) hp
    · exact hdry l (hnm.trans hml) hpc'
    · cases hfalse
  -- so the signal stays raised, and the thread keeps polling
  have hsignal : ∀ m, n ≤ m → (r.state m).runtime.waker.signal = true := by
    intro m hnm
    rcases (hwaits m hnm).2.2 with hbell | hph | hph
    · exact hbell
    · exact absurd (Pc.phase_eq_summoned.mp hph) (hasleep m hnm)
    · exact absurd (Pc.phase_eq_draining.mp hph) (hdry m hnm)
  have hpolls := hr.polls_recur (fun m hnm => (hwaits m hnm).1)
    fun m hnm hpc => absurd hpc (hdry m hnm)
  obtain ⟨m, hnm, answer, hlabel, event, hevent, hkey⟩ := hr.wakes n hsignal hpolls
  have hnm' : n ≤ m + 1 := Nat.le_succ_of_le hnm
  -- the poll that reports the signal summons it
  have hstep := r.step m
  rw [hlabel] at hstep
  obtain ⟨th, hth, hstate⟩ := Option.map_eq_some_iff.mp hstep
  have hcore : (r.state (m + 1)).toThread = th := by rw [← hstate]
  rcases (Thread.turned_of_turn hth).of_poll with hp | ⟨hpc, hpending⟩
  · exact hnot (m + 1) hnm' (hcore ▸ hp)
  · have hmem : event ∈ (r.state (m + 1)).runtime.poller.events := by
      rw [hcore, hpending]
      exact List.mem_append_right _ hevent
    obtain ⟨l, hml, hp | hsummoned⟩ :=
      hr.reported_leadsTo_summoned (m + 1) ⟨hcore ▸ hpc, event, hmem, hkey⟩
    · exact hnot l (hnm'.trans hml) hp
    · exact hasleep l (hnm'.trans hml) hsummoned

/-- A thread that has taken a `Shutdown` returns. -/
theorem leaving_leadsTo_exited (hr : Fair r) :
    r.LeadsTo (fun s => s.pc.Leaving) fun s => s.pc.Panicked ∨ s.pc = .exited := by
  have hlead : r.LeadsTo (fun s => s.pc = .shutdown) fun s => s.pc.Panicked ∨ s.pc = .exited := by
    refine hr.leadsTo_of_turns (P := fun th => th.pc = .shutdown)
      (Q := fun th => th.pc.Panicked ∨ th.pc = .exited) (fun _ => 0) ?_ ?_ ?_
    · intro th hpc
      rw [hpc]
      exact ⟨nofun, nofun⟩
    · exact fun th chan waker hpc => ⟨hpc, le_rfl⟩
    · exact fun clock th input th' hpc hturned => Or.inl (hturned.of_shutdown hpc)
  rintro n (hpc | hpc)
  · exact hlead n hpc
  · exact ⟨n, le_rfl, Or.inr hpc⟩

end Fair

/-- A run that ends with a last turn of the thread is fair. -/
theorem fair_ofExec [∀ s a, Decidable (G s a)] {s₀ s : System H Poller L T C EL ET}
    {labels : List (Label Popol.Answer C)}
    (h₀ : (reactor prof engine).init s₀)
    (h : Lts.exec (System.step prof) G s₀ labels = some s) (hG : G s (.clock s.clock))
    (hdead : ¬ s.pc.Alive) (hlast : ∃ input, labels.getLast? = some (.turn input)) :
    Fair (Lts.Run.ofExec h₀ h hG rfl : (reactor prof engine).Run G) := by
  have hrest : ∀ m, labels.length ≤ m → Lts.Run.stateAt (System.step prof) s₀ labels m = s :=
    fun m hm => Lts.Run.stateAt_of_exec h hm
  refine ⟨fun n halive => ?_, fun n _ => ?_, fun n _ hpolls => ?_⟩
  · -- a thread that lives has its last turn before it
    have hlt : n < labels.length := by
      by_contra hle
      exact hdead (hrest n (not_lt.mp hle) ▸ halive)
    obtain ⟨input, hlast⟩ := hlast
    rw [List.getLast?_eq_getElem?] at hlast
    exact ⟨labels.length - 1, by omega, input, congrArg (Option.getD · _) hlast⟩
  · refine ⟨max n labels.length, le_max_left _ _, ?_⟩
    rintro ⟨now, hpc⟩
    apply hdead
    rw [← hrest _ (le_max_right n _)]
    exact hpc ▸ ⟨nofun, nofun⟩
  · obtain ⟨m, hm, answer, hlabel⟩ := hpolls (max n labels.length) (le_max_left _ _)
    have hnone := List.getElem?_eq_none_iff.mpr ((le_max_right n _).trans hm)
    change (labels[m]?.getD _ : Label _ C) = _ at hlabel
    rw [hnone] at hlabel
    cases hlabel

/-- A thread that runs no more has panicked or leaves. -/
theorem Pc.panicked_or_leaving {pc : Pc} (h : ¬ pc.Running) : pc.Panicked ∨ pc.Leaving := by
  cases pc with
  | shutdown => exact Or.inr (Or.inl rfl)
  | exited => exact Or.inr (Or.inr rfl)
  | panicked p => exact Or.inl ⟨p, rfl⟩
  | events now awoken => cases awoken <;> exact absurd ⟨nofun, nofun, nofun⟩ h
  | _ => exact absurd ⟨nofun, nofun, nofun⟩ h

variable {r : (reactor prof engine).Run G} {n k : ℕ}

/-- A message that is owed with a `Shutdown` in front of it, or that is one, ends the
thread. -/
theorem Fair.stops (hr : Fair r) (howed : (r.state n).Owed k)
    (hshut : .shutdown ∈ (r.state n).sent.take (k + 1)) :
    ∃ m, n ≤ m ∧ ((r.state m).pc.Panicked ∨ (r.state m).pc = .exited) := by
  obtain ⟨m, hnm, hserved⟩ := hr.owed_leadsTo_served k n howed
  -- it cannot have been handled, so the thread runs no more
  have hgrown := (System.history_of_steps (r.steps hnm)).1
  have hshut' : .shutdown ∈ (r.state m).sent.take (k + 1) :=
    (hgrown.take (k + 1)).subset hshut
  have hlt := length_commandsBeforeShutdown_lt hshut'
  have hle := (handled_isPrefix (r.reachable m)).length_le
  have hstop : ¬ (r.state m).pc.Running := by
    rcases hserved with hstop | hhandled
    · exact hstop
    · omega
  rcases Pc.panicked_or_leaving hstop with hp | hleave
  · exact ⟨m, hnm, Or.inl hp⟩
  · obtain ⟨l, hml, hl⟩ := hr.leaving_leadsTo_exited m hleave
    exact ⟨l, hnm.trans hml, hl⟩

/-- **A `cmd` that succeeds is handled.**  In a fair run every `cmd` that has returned `Ok`
is handled sooner or later, as the command of its place in the channel, unless a
`Shutdown` was sent before it, after which the thread returns, or the thread panics. -/
theorem cmd_eventually_handled (hr : Fair r) {ret : Return C}
    (hret : ret ∈ (r.state n).returned) {c : C} (hop : ret.op = .cmd c) (hok : ret.ok = true) :
    ∃ k, ret.slot = some k ∧ ∃ m, n ≤ m ∧
      ((r.state m).handled[k]? = some c ∨
        (.shutdown ∈ (r.state n).sent.take k ∧ (r.state m).pc = .exited) ∨
        (r.state m).pc.Panicked) := by
  have hl := System.inOrder_of_reachable (r.reachable n)
  obtain ⟨k, hslot, hwoken⟩ : ∃ k, ret.slot = some k ∧ ret.woken = true := by
    have hresult := hl.result ret hret
    rw [hok, hop] at hresult
    obtain ⟨hsent, hwoken⟩ := Bool.and_eq_true_iff.mp hresult.symm
    obtain ⟨k, hk⟩ := Option.isSome_iff_exists.mp hsent
    exact ⟨k, hk, hwoken⟩
  have hcmd : (r.state n).sent[k]? = some (.cmd c) := by
    rw [hl.done ret hret k hslot, hop]
    rfl
  have howed : (r.state n).Owed k := ⟨hl.lt_of_done hret hslot, ret, hret, hslot, hwoken⟩
  refine ⟨k, hslot, ?_⟩
  rcases getElem?_commandsBeforeShutdown hcmd with hfront | hbehind
  · obtain ⟨m, hnm, hserved⟩ := hr.owed_leadsTo_served k n howed
    have hsame : (commandsBeforeShutdown (r.state m).sent)[k]? = some c := by
      have hgrown := commandsBeforeShutdown_isPrefix (System.history_of_steps (r.steps hnm)).1
      obtain ⟨hlt, hget⟩ := List.getElem?_eq_some_iff.mp hfront
      rw [List.prefix_iff_getElem?.mp hgrown k hlt, hget]
    refine ⟨m, hnm, ?_⟩
    rcases hserved with hstop | hlt
    · rcases Pc.panicked_or_leaving hstop with hp | hleave
      · exact Or.inr (Or.inr hp)
      · left
        rw [handled_of_leaving (r.reachable m) hleave]
        exact hsame
    · left
      rw [List.prefix_iff_getElem?.mp (handled_isPrefix (r.reachable m)) k hlt] at hsame
      rw [List.getElem?_eq_getElem hlt, hsame]
  · obtain ⟨m, hnm, hp | hexit⟩ := hr.stops howed
      ((List.take_prefix_take_left (Nat.le_succ k)).subset hbehind)
    · exact ⟨m, hnm, Or.inr (Or.inr hp)⟩
    · exact ⟨m, hnm, Or.inr (Or.inl ⟨hbehind, hexit⟩)⟩

/-- **A `shutdown` that succeeds ends the thread.**  In a fair run, when the two steps of a
`shutdown` have succeeded, the thread returns sooner or later, or panics. -/
theorem shutdown_eventually_exits (hr : Fair r) {ret : Return C}
    (hret : ret ∈ (r.state n).returned) (hop : ret.op = .shutdown) (hslot : ret.slot = some k)
    (hwoken : ret.woken = true) :
    ∃ m, n ≤ m ∧ ((r.state m).pc.Panicked ∨ (r.state m).pc = .exited) := by
  have hl := System.inOrder_of_reachable (r.reachable n)
  have hsent : (r.state n).sent[k]? = some .shutdown := by
    rw [hl.done ret hret k hslot, hop]
    rfl
  refine hr.stops ⟨hl.lt_of_done hret hslot, ret, hret, hslot, hwoken⟩ ?_
  rw [List.take_add_one, hsent]
  exact List.mem_append_right _ List.mem_cons_self

/-! ## Timers -/

/-- An action cancels no timer. -/
theorem Runtime.Acted.mem_timeouts {rt rt' : Runtime H Poller L T C EL ET} {time : ℕ}
    {action : Action L T} {result : Except (Error L T) Unit}
    (h : Acted prof rt time action result rt') (htime : time < 2 ^ 74) {t : ℕ}
    (ht : t ∈ rt.timeouts.timeouts) : t ∈ (rt'.report result).timeouts.timeouts := by
  rw [h.timeouts_eq htime]
  cases action.timer with
  | none => exact ht
  | some d => exact Finset.mem_insert_of_mem ht

/-- A poll at `now`, at which the deadline `t` has expired and the service is told so. -/
structure System.Fires (s s' : System H Poller L T C EL ET)
    (label : Label Popol.Answer C) (t now : ℕ) : Prop where
  poll : label.IsPoll
  clock : Timestamp.now s.clock = .ok now
  expired : t ≤ now
  called : ∃ rest, s'.runtime.trace =
    s.runtime.trace ++ .call (.tick now) :: .call .handleTimer :: rest

/-- The step after which a deadline is no more pending is a poll at which it fires. -/
theorem System.fires_of_removed {s s' : System H Poller L T C EL ET}
    {label : Label Popol.Answer C}
    (hs : (reactor prof engine).Reachable G s) (hstep : s.step prof label = some s') {t : ℕ}
    (ht : t ∈ s.runtime.timeouts.timeouts) (ht' : t ∉ s'.runtime.timeouts.timeouts) :
    ∃ now, s.Fires s' label t now := by
  rcases System.core_of_step hstep with ⟨input, rfl, hturned⟩ | ⟨chan, waker, hcore⟩
  swap
  · rw [hcore] at ht'
    exact absurd ht ht'
  generalize hth : s'.toThread = th' at hturned
  have hgone : t ∉ th'.runtime.timeouts.timeouts := hth ▸ ht'
  cases hturned with
  | polled timeout hpc answer now hclock fired hfired service rt hrt =>
      have hle : t ≤ now := by
        by_contra hlt
        apply hgone
        rw [hrt]
        exact Finset.mem_filter.mpr ⟨ht, not_le.mp hlt⟩
      refine ⟨now, ⟨answer, rfl⟩, hclock, hle, ?_⟩
      rw [show s'.runtime = rt from congrArg Thread.runtime hth, hrt,
        hfired.mpr ⟨t, ht, hle⟩]
      exact ⟨_, rfl⟩
  | event now awoken hpc id res poller hnext woken rt hev =>
      obtain ⟨-, htimeouts, -⟩ := hev.frame
      rw [htimeouts] at hgone
      exact absurd ht hgone
  | action now hpc action service hnext result rt hact =>
      have hlt : now < 2 ^ 74 := time_lt_of_reachable hs (by rw [hpc]; rfl)
      exact absurd (hact.mem_timeouts hlt ht) hgone
  | _ => exact absurd ht hgone

/-- **A timer fires.**  In a fair run in which no command loop goes on for ever, a pending
deadline that the clock passes for good is found expired by some poll, which calls
`handle_timer`, unless the loop ends. -/
theorem timer_eventually_fires (hr : Fair r)
    (hcommands : ∀ m, n ≤ m → (r.state m).pc.InCommands →
      ∃ l, m ≤ l ∧ ¬ (r.state l).pc.InCommands)
    {t : ℕ} (ht : t ∈ (r.state n).runtime.timeouts.timeouts)
    (hclock : ∃ l, ∀ m, l ≤ m → ∃ now, Timestamp.now (r.state m).clock = .ok now ∧ t ≤ now) :
    ∃ m, n ≤ m ∧ (¬ (r.state m).pc.Running ∨
      ∃ now, (r.state m).Fires (r.state (m + 1)) (r.label m) t now) := by
  by_cases hstop : ∃ m, n ≤ m ∧ ¬ (r.state m).pc.Running
  · obtain ⟨m, hnm, hm⟩ := hstop
    exact ⟨m, hnm, Or.inl hm⟩
  have hrun : ∀ m, n ≤ m → (r.state m).pc.Running := fun m hnm =>
    Decidable.not_not.mp fun hm => hstop ⟨m, hnm, hm⟩
  obtain ⟨l, hl⟩ := hclock
  -- a poll after the clock has passed the deadline leaves it pending no more
  obtain ⟨m, hm, answer, hlabel⟩ := hr.polls_recur hrun hcommands (max n l) (le_max_left n l)
  have hnm : n ≤ m := (le_max_left n l).trans hm
  have hgone : t ∉ (r.state (m + 1)).runtime.timeouts.timeouts := by
    obtain ⟨now, hnow, hle⟩ := hl m ((le_max_right n l).trans hm)
    have hrun' := hrun (m + 1) (Nat.le_succ_of_le hnm)
    have hstep := r.step m
    rw [hlabel] at hstep
    obtain ⟨th, hth, hstate⟩ := Option.map_eq_some_iff.mp hstep
    rw [← hstate] at hrun' ⊢
    cases Thread.turned_of_turn hth with
    | polled timeout hpc answer now' hclock fired hfired service rt hrt =>
        rw [hnow] at hclock
        cases hclock
        rw [hrt]
        exact fun hmem => absurd (Finset.mem_filter.mp hmem).2 (not_lt.mpr hle)
    | panicked input p hp => exact absurd rfl hrun'.2.2
  obtain ⟨i, hni, -, hi, hi'⟩ := r.exists_crossing
    (P := fun s => t ∈ s.runtime.timeouts.timeouts) (Nat.le_succ_of_le hnm) ht hgone
  exact ⟨i, hni, Or.inr (System.fires_of_removed (r.reachable i) (r.step i) hi hi')⟩

end

/-! ## A run that ends -/

namespace Errands

/-- A command asks for a timer, which fires before a `shutdown` ends the thread. -/
def day : List Lab :=
  [.controller 0 (.wake true),
    .controller 0 (.send (.cmd (.setTimer (Duration.fromMillis 5))) true),
    .controller 0 (.wake true), .turn (.start [] []), .turn (.poll (.ready [wakerEvent])),
    .turn .event, .turn .event, .turn .command, .turn .command, .turn .action, .turn .action,
    .clock (some (Duration.fromMillis 2000)), .turn (.start [] []), .turn (.poll (.ready [])),
    .turn .event, .turn .action, .controller 0 (.send .shutdown true), .controller 0 (.wake true),
    .turn (.start [] []), .turn (.poll (.ready [wakerEvent])), .turn .event, .turn .event,
    .turn .command, .turn .exit]

/-- The day ends with the return of `run`. -/
theorem exec_day : ∃ s, Lts.exec (System.step .release) Lts.anyLabel boot day = some s ∧
    s.pc = .exited ∧ s.clock = some (Duration.fromMillis 2000) :=
  ⟨_, rfl, rfl, rfl⟩

/-- Nothing but the clock happens after the day. -/
theorem exists_run_day : ∃ r : (reactor (H := Errands) .release Poller.new).Run Lts.anyLabel,
    Fair r ∧ (∀ n, r.state n = Lts.Run.stateAt (System.step .release) boot day n) ∧
    ∀ n, day.length ≤ n → (r.state n).pc = .exited ∧
      (r.state n).clock = some (Duration.fromMillis 2000) := by
  obtain ⟨s, hexec, hpc, hclock⟩ := exec_day
  have hdead : ¬ s.pc.Alive := fun h => h.1 (congrArg Pc.phase hpc)
  refine ⟨_, fair_ofExec (init_boot .release) hexec trivial hdead ⟨_, rfl⟩, fun _ => rfl, ?_⟩
  intro n hn
  have hstate : Lts.Run.stateAt (System.step .release) boot day n = s :=
    Lts.Run.stateAt_of_exec hexec hn
  show (Lts.Run.stateAt (System.step .release) boot day n).pc = _ ∧
    (Lts.Run.stateAt (System.step .release) boot day n).clock = _
  rw [hstate]
  exact ⟨hpc, hclock⟩

end Errands

/-- The `cmd` of the day is handled. -/
theorem cmd_eventually_handled_day :
    ∃ r : (reactor (H := Errands) .release Poller.new).Run Lts.anyLabel, Fair r ∧
      ∃ k, some 0 = some k ∧ ∃ m, 3 ≤ m ∧
        ((r.state m).handled[k]? = some (.setTimer (Duration.fromMillis 5)) ∨
          (.shutdown ∈ (r.state 3).sent.take k ∧ (r.state m).pc = .exited) ∨
          (r.state m).pc.Panicked) := by
  obtain ⟨r, hfair, hstate, -⟩ := Errands.exists_run_day
  have hret : ⟨.cmd (.setTimer (Duration.fromMillis 5)), some 0, true, true⟩ ∈
      (r.state 3).returned := by
    rw [hstate]
    exact List.mem_cons_of_mem _ List.mem_cons_self
  exact ⟨r, hfair, cmd_eventually_handled hfair hret rfl rfl⟩

/-- The `shutdown` of the day ends the thread. -/
theorem shutdown_eventually_exits_day :
    ∃ r : (reactor (H := Errands) .release Poller.new).Run Lts.anyLabel, Fair r ∧
      ∃ m, 18 ≤ m ∧ ((r.state m).pc.Panicked ∨ (r.state m).pc = .exited) := by
  obtain ⟨r, hfair, hstate, -⟩ := Errands.exists_run_day
  have hret : ⟨.shutdown, some 1, true, true⟩ ∈ (r.state 18).returned := by
    rw [hstate]
    exact List.mem_cons_of_mem _ (List.mem_cons_of_mem _ List.mem_cons_self)
  exact ⟨r, hfair, shutdown_eventually_exits hfair hret rfl rfl rfl⟩

/-- The timer of the day fires, or the thread stops. -/
theorem timer_eventually_fires_day :
    ∃ r : (reactor (H := Errands) .release Poller.new).Run Lts.anyLabel, Fair r ∧
      ∃ m, 11 ≤ m ∧ (¬ (r.state m).pc.Running ∨
        ∃ now, (r.state m).Fires (r.state (m + 1)) (r.label m) 1005 now) := by
  obtain ⟨r, hfair, hstate, hend⟩ := Errands.exists_run_day
  refine ⟨r, hfair, timer_eventually_fires hfair ?_ ?_ ⟨Errands.day.length, fun m hm => ?_⟩⟩
  · intro m hnm hpc
    refine ⟨max m Errands.day.length, le_max_left _ _, ?_⟩
    rintro ⟨now, hnow⟩
    rw [(hend _ (le_max_right _ _)).1] at hnow
    cases hnow
  · rw [hstate]
    decide
  · rw [(hend m hm).2]
    exact ⟨2000, rfl, by decide⟩

end IoReactor
