/-
# The control channel as a mailbox

The control channel, the waker and the program points of the two sides form a
`Mailbox`: a message is a letter, the wake signal is the bell, a controller between
its send and its wake is a poster that owes a ring, and the reactor thread is the
collector.  `System.mailbox_of_reachable` says that every run of the reactor is a
run of the mailbox protocol; the results about commands and shutdown are the
mailbox's, read back.
-/
import IoReactor.ThreadTurns
import IoReactor.Mailbox

namespace IoReactor

/-! ## The abstraction -/

/-- A message of the control channel as a letter. -/
def Ctl.letter {C : Type} : Ctl C → Letter C
  | .cmd c => .work c
  | .shutdown => .stop

/-- The phase of the collector at a point of `Runtime::run`. -/
def Pc.phase : Pc → Phase
  | .start => .away
  | .poll _ => .away
  | .events _ false => .away
  | .events _ true => .summoned
  | .commands _ => .draining
  | .actions _ => .settling
  | .shutdown => .stopping
  | .exited => .stopped
  | .panicked _ => .crashed

/-- The thread has neither returned nor panicked. -/
def Pc.Alive (pc : Pc) : Prop := pc.phase ≠ .stopped ∧ pc.phase ≠ .crashed

/-- The thread is in `Runtime::run` and has not taken a `Shutdown`. -/
abbrev Pc.Running (pc : Pc) : Prop := pc.phase.Active

/-- The collector is summoned once the event of the waker is dispatched. -/
theorem Pc.phase_eq_summoned {pc : Pc} : pc.phase = .summoned ↔ ∃ now, pc = .events now true := by
  constructor
  · intro h
    cases pc with
    | events now awoken =>
        cases awoken with
        | true => exact ⟨now, rfl⟩
        | false => cases h
    | _ => cases h
  · rintro ⟨now, rfl⟩
    rfl

/-- The collector is in the queue while the command loop runs. -/
theorem Pc.phase_eq_draining {pc : Pc} : pc.phase = .draining ↔ ∃ now, pc = .commands now := by
  constructor
  · intro h
    cases pc with
    | commands now => exact ⟨now, rfl⟩
    | events now awoken => cases awoken <;> cases h
    | _ => cases h
  · rintro ⟨now, rfl⟩
    rfl

/-- The slot for which a clone of the controller still has to raise the wake signal. -/
def Controller.owes {C : Type} : Controller C → Option ℕ
  | .waking _ slot => slot
  | _ => none

/-- An entry of the trace as a deed: a command is handled, or the service is found to
have no further action. -/
def Observation.deed {L T C EL ET : Type} : Observation L T C EL ET → Option (Deed C)
  | .call (.handleCommand c) => some (.took c)
  | .next none => some .settled
  | _ => none

/-- The slots for which the clones still have to raise the wake signal. -/
def debts {C : Type} (cs : List (Controller C)) (i : ℕ) : Option ℕ :=
  (cs[i]?).bind Controller.owes

/-- A debt is owed by a clone between its send and its wake. -/
theorem debts_eq_some {C : Type} {cs : List (Controller C)} {i k : ℕ} :
    debts cs i = some k ↔ ∃ op, cs[i]? = some (.waking op (some k)) := by
  constructor
  · intro h
    obtain ⟨ctl, hi, howes⟩ := Option.bind_eq_some_iff.mp h
    cases ctl with
    | idle => cases howes
    | dropped => cases howes
    | waking op slot => exact ⟨op, by rw [hi]; exact congrArg _ (congrArg _ howes)⟩
  · rintro ⟨op, hi⟩
    rw [debts, hi]
    rfl

namespace System

variable {H P A L T C EL ET : Type}

/-- The system as a mailbox. -/
def mailbox (s : System H P L T C EL ET) : Mailbox ℕ C where
  queue := s.channel.queue.map Ctl.letter
  bell := s.runtime.waker.signal
  phase := s.pc.phase
  owing := debts s.controllers
  rung := {k | ∃ r ∈ s.returned, r.slot = some k ∧ r.woken = true}
  reneged := {k | ∃ r ∈ s.returned, r.slot = some k ∧ r.woken = false}
  posted := s.sent.map Ctl.letter
  deeds := s.runtime.trace.filterMap Observation.deed

/-- The receiver is dropped once the thread is gone. -/
def Open (s : System H P L T C EL ET) : Prop := s.channel.receiver = true → s.pc.Alive

/-! ## The controllers' side -/

/-- Replacing a clone replaces its debt. -/
theorem debts_set {cs : List (Controller C)} {i : ℕ} {ctl ctl' : Controller C}
    (hi : cs[i]? = some ctl) :
    debts (cs.set i ctl') = Function.update (debts cs) i ctl'.owes := by
  obtain ⟨hlt, -⟩ := List.getElem?_eq_some_iff.mp hi
  funext j
  by_cases hj : j = i
  · subst hj
    rw [Function.update_self, debts, List.getElem?_set_self hlt]
    rfl
  · rw [Function.update_of_ne hj, debts, List.getElem?_set_ne (Ne.symm hj)]
    rfl

/-- Replacing a clone by one with the same debt changes no debt. -/
theorem debts_set_of_eq {cs : List (Controller C)} {i : ℕ} {ctl ctl' : Controller C}
    (hi : cs[i]? = some ctl) (h : ctl'.owes = ctl.owes) : debts (cs.set i ctl') = debts cs := by
  have hdebt : debts cs i = ctl.owes := by
    rw [debts, hi]
    rfl
  rw [debts_set hi, h, ← hdebt, Function.update_eq_self]

/-- A new idle clone has no debt. -/
theorem debts_append (cs : List (Controller C)) : debts (cs ++ [.idle]) = debts cs := by
  funext j
  rcases Nat.lt_trichotomy j cs.length with hlt | rfl | hgt
  · rw [debts, List.getElem?_append_left hlt]
    rfl
  · rw [debts, debts, List.getElem?_concat_length, List.getElem?_eq_none (Nat.le_refl _)]
    rfl
  · have hlen : (cs ++ [Controller.idle]).length ≤ j := by
      rw [List.length_append, List.length_singleton]
      exact hgt
    rw [debts, debts, List.getElem?_eq_none hlen, List.getElem?_eq_none (Nat.le_of_lt hgt)]

/-- The slots of the calls that have returned, by the outcome of their wake. -/
theorem slots_append (rs : List (Return C)) (ret : Return C) (ok : Bool) :
    {k | ∃ r ∈ rs ++ [ret], r.slot = some k ∧ r.woken = ok} =
      {k | ∃ r ∈ rs, r.slot = some k ∧ r.woken = ok} ∪
        {k | ret.slot = some k ∧ ret.woken = ok} := by
  ext k
  constructor
  · rintro ⟨r, hr, hk⟩
    rcases List.mem_append.mp hr with hr | hr
    · exact Or.inl ⟨r, hr, hk⟩
    · rw [List.mem_singleton.mp hr] at hk
      exact Or.inr hk
  · rintro (⟨r, hr, hk⟩ | hk)
    · exact ⟨r, List.mem_append_left _ hr, hk⟩
    · exact ⟨ret, List.mem_append_right _ (List.mem_singleton.mpr rfl), hk⟩

/-- A clone whose call has returned owes nothing. -/
theorem owes_leaves (op : Op C) (ok : Bool) : (op.leaves ok).owes = none := by
  cases op with
  | launch => cases ok <;> rfl
  | cmd c => rfl
  | shutdown => cases ok <;> rfl

/-- A step of a controller is a step of a poster, or changes nothing in the mailbox;
a poster reneges only if a wake fails. -/
theorem mailbox_of_moved {s s' : System H P L T C EL ET} {i : ℕ} {move : Move C}
    (hopen : s.Open) (h : Moved s i move s') :
    s'.mailbox = s.mailbox ∨
      ∃ e, Mailbox.Step s.mailbox e s'.mailbox ∧
        ∀ j, e = .renege j → j = i ∧ move = .wake false := by
  cases h with
  | clone hi =>
      refine Or.inl (Mailbox.ext rfl rfl rfl ?_ rfl rfl rfl rfl)
      exact debts_append s.controllers
  | drop hi =>
      refine Or.inl (Mailbox.ext rfl rfl rfl ?_ rfl rfl rfl rfl)
      exact debts_set_of_eq hi rfl
  | sent hi op msg hmsg hrecv =>
      obtain ⟨hstop, hcrash⟩ := hopen hrecv
      refine Or.inr ⟨.post i msg.letter, ?_, nofun⟩
      -- an idle clone owes nothing, so it may post
      have hfree : s.mailbox.owing i = none := by
        show debts s.controllers i = none
        rw [debts, hi]
        rfl
      have hpost := Mailbox.Step.post s.mailbox i msg.letter hfree hstop hcrash
      convert hpost using 1
      refine Mailbox.ext ?_ rfl rfl ?_ rfl rfl ?_ rfl
      · exact List.map_append
      · have hlen : (s.sent.map Ctl.letter).length = s.sent.length := List.length_map _
        show debts (s.controllers.set i _) =
          Function.update (debts s.controllers) i (some (s.sent.map Ctl.letter).length)
        rw [debts_set hi, hlen]
        rfl
      · exact List.map_append
  | lost hi =>
      refine Or.inl (Mailbox.ext rfl rfl rfl ?_ rfl rfl rfl rfl)
      exact debts_set_of_eq hi rfl
  | refused hi c =>
      refine Or.inl (Mailbox.ext rfl rfl rfl rfl ?_ ?_ rfl rfl)
      · show {k | ∃ r ∈ s.returned ++ [_], r.slot = some k ∧ r.woken = true} = _
        rw [slots_append]
        simp [mailbox]
      · show {k | ∃ r ∈ s.returned ++ [_], r.slot = some k ∧ r.woken = false} = _
        rw [slots_append]
        simp [mailbox]
  | woke op slot hi ok =>
      -- the slot a poster rings for is the one its call holds
      have hdebt : s.mailbox.debt i = {k | slot = some k} := by
        ext k
        show debts s.controllers i = some k ↔ slot = some k
        rw [debts, hi]
        rfl
      rw [wakeStep_eq]
      cases ok with
      | true =>
          refine Or.inr ⟨.ring i, ?_, nofun⟩
          have hring := Mailbox.Step.ring s.mailbox i
          convert hring using 1
          refine Mailbox.ext rfl rfl rfl ?_ ?_ ?_ rfl rfl
          · show debts (s.controllers.set i _) = _
            rw [debts_set hi, owes_leaves]
            rfl
          · show {k | ∃ r ∈ s.returned ++ [_], r.slot = some k ∧ r.woken = true} = _
            rw [slots_append, hdebt]
            simp [mailbox]
          · show {k | ∃ r ∈ s.returned ++ [_], r.slot = some k ∧ r.woken = false} = _
            rw [slots_append]
            simp [mailbox]
      | false =>
          refine Or.inr ⟨.renege i, ?_, fun j hj => ?_⟩
          swap
          · cases hj
            exact ⟨rfl, rfl⟩
          have hrenege := Mailbox.Step.renege s.mailbox i
          convert hrenege using 1
          refine Mailbox.ext rfl rfl rfl ?_ ?_ ?_ rfl rfl
          · show debts (s.controllers.set i _) = _
            rw [debts_set hi, owes_leaves]
            rfl
          · show {k | ∃ r ∈ s.returned ++ [_], r.slot = some k ∧ r.woken = true} = _
            rw [slots_append]
            simp [mailbox]
          · show {k | ∃ r ∈ s.returned ++ [_], r.slot = some k ∧ r.woken = false} = _
            rw [slots_append, hdebt]
            simp [mailbox]

/-! ## The reactor thread's side -/

/-- The entries of the trace that events cause are no deeds. -/
theorem deed_of_ofEvent {obs : Observation L T C EL ET} (h : Runtime.OfEvent obs) :
    obs.deed = none := by
  cases obs with
  | call c => cases c <;> first | rfl | exact h.elim
  | handleIo id io => rfl
  | next answer => exact h.elim
  | writeAtomic id data result => rfl

/-- The entries of the trace that actions cause are no deeds. -/
theorem deed_of_ofAction {obs : Observation L T C EL ET} (h : Runtime.OfAction obs) :
    obs.deed = none := by
  cases obs with
  | call c => cases c <;> first | rfl | exact h.elim
  | handleIo id io => rfl
  | next answer => exact h.elim
  | writeAtomic id data result => rfl

/-- The callbacks around the poll are no deeds. -/
theorem deed_of_pollCalls {now : ℕ} {fired : Bool} {res : Except IoError ℕ}
    {c : Call L T C EL ET} (h : c ∈ Runtime.pollCalls now fired res) :
    (Observation.call c).deed = none := by
  rcases Runtime.eq_of_mem_pollCalls h with rfl | rfl | ⟨err, rfl⟩ <;> rfl

variable [Handler H L T C EL ET] [Resource L EL] [Resource T ET] [Poll P A]

/-- A turn of the reactor thread is a step of the collector, or changes nothing in the
mailbox. -/
theorem mailbox_of_turned {prof : Profile} {s : System H P L T C EL ET}
    {th' : Thread H P L T C EL ET} {input : Input A}
    (h : Thread.Turned prof s.clock s.toThread input th') :
    mailbox { s with toThread := th' } = s.mailbox ∨
      ∃ e, Mailbox.Step s.mailbox e (mailbox { s with toThread := th' }) ∧
        ∀ j, e ≠ .renege j := by
  cases h with
  | started hpc ls ts hls hts time hclock expiring hexp =>
      refine Or.inl (Mailbox.ext rfl rfl ?_ rfl rfl rfl rfl rfl)
      show Phase.away = s.pc.phase
      rw [hpc]
      rfl
  | polled timeout hpc answer now hclock fired hfired service rt hrt =>
      subst hrt
      refine Or.inl (Mailbox.ext rfl rfl ?_ rfl rfl rfl rfl ?_)
      · show Phase.away = s.pc.phase
        rw [hpc]
        rfl
      · apply filterMap_append_none
        intro obs hobs
        obtain ⟨c, hc, rfl⟩ := List.mem_map.mp hobs
        exact deed_of_pollCalls hc
  | batchDone now awoken hpc hnext =>
      cases awoken with
      | true =>
          refine Or.inr ⟨.enter, ?_, nofun⟩
          have hph : s.mailbox.phase = .summoned := congrArg Pc.phase hpc
          exact Mailbox.Step.enter s.mailbox hph
      | false =>
          refine Or.inr ⟨.skip, ?_, nofun⟩
          have hph : s.mailbox.phase = .away := congrArg Pc.phase hpc
          exact Mailbox.Step.skip s.mailbox hph
  | event now awoken hpc id res poller hnext woken rt hev =>
      obtain ⟨hctl, -, hwaker, tr, htrace, htr⟩ := hev.frame
      have hdeeds : rt.trace.filterMap Observation.deed = s.mailbox.deeds := by
        rw [htrace]
        exact filterMap_append_none fun obs hobs => deed_of_ofEvent (htr obs hobs)
      have hqueue : rt.ctlRecv.queue.map Ctl.letter = s.mailbox.queue := by
        rw [hctl]
        rfl
      cases woken with
      | true =>
          -- the waker may be reported more than once in an iteration
          refine Or.inr ⟨.answer, ?_, nofun⟩
          have hph : s.mailbox.phase = .away ∨ s.mailbox.phase = .summoned := by
            show s.pc.phase = .away ∨ s.pc.phase = .summoned
            rw [hpc]
            cases awoken
            · exact Or.inl rfl
            · exact Or.inr rfl
          have hstep := Mailbox.Step.answer s.mailbox hph
          convert hstep using 1
          refine Mailbox.ext hqueue ?_ ?_ rfl rfl rfl rfl hdeeds
          · show rt.waker.signal = false
            rw [hwaker]
            rfl
          · show (Pc.events now (awoken || true)).phase = .summoned
            rw [Bool.or_true]
            rfl
      | false =>
          refine Or.inl (Mailbox.ext hqueue ?_ ?_ rfl rfl rfl rfl hdeeds)
          · show rt.waker.signal = s.runtime.waker.signal
            rw [hwaker]
            rfl
          · show (Pc.events now (awoken || false)).phase = s.pc.phase
            rw [hpc, Bool.or_false]
  | drained now hpc hqueue =>
      refine Or.inr ⟨.take, ?_, nofun⟩
      have hempty : s.mailbox.queue = [] := congrArg (List.map Ctl.letter) hqueue
      exact Mailbox.Step.takeNothing s.mailbox (congrArg Pc.phase hpc) hempty
  | command now hpc cmd queue hqueue =>
      refine Or.inr ⟨.take, ?_, nofun⟩
      have hfirst : s.mailbox.queue = .work cmd :: queue.map Ctl.letter :=
        congrArg (List.map Ctl.letter) hqueue
      have hstep :=
        Mailbox.Step.takeWork s.mailbox (congrArg Pc.phase hpc) cmd (queue.map Ctl.letter) hfirst
      convert hstep using 1
      refine Mailbox.ext rfl rfl (congrArg Pc.phase hpc).symm rfl rfl rfl rfl ?_
      exact List.filterMap_append
  | shutdown now hpc queue hqueue =>
      refine Or.inr ⟨.take, ?_, nofun⟩
      have hfirst : s.mailbox.queue = .stop :: queue.map Ctl.letter :=
        congrArg (List.map Ctl.letter) hqueue
      exact Mailbox.Step.takeStop s.mailbox (congrArg Pc.phase hpc) (queue.map Ctl.letter) hfirst
  | actionsDone now hpc service hnext =>
      refine Or.inr ⟨.settle, ?_, nofun⟩
      have hstep := Mailbox.Step.settle s.mailbox (congrArg Pc.phase hpc)
      convert hstep using 1
      refine Mailbox.ext rfl rfl rfl rfl rfl rfl rfl ?_
      exact List.filterMap_append
  | action now hpc action service hnext result rt hact =>
      obtain ⟨hctl, hwaker, tr, htrace, htr⟩ := hact.frame
      refine Or.inl (Mailbox.ext ?_ ?_ (congrArg Pc.phase hpc).symm rfl rfl rfl rfl ?_)
      · show (rt.report result).ctlRecv.queue.map Ctl.letter = s.mailbox.queue
        rw [hctl]
        rfl
      · show (rt.report result).waker.signal = s.runtime.waker.signal
        rw [hwaker]
        rfl
      · show (rt.report result).trace.filterMap Observation.deed = s.mailbox.deeds
        rw [htrace, filterMap_append_none fun obs hobs => deed_of_ofAction (htr obs hobs)]
        exact filterMap_append_none fun obs hobs => by rw [List.mem_singleton.mp hobs]; rfl
  | exited hpc =>
      refine Or.inr ⟨.leave, ?_, nofun⟩
      exact Mailbox.Step.stopped s.mailbox (congrArg Pc.phase hpc)
  | panicked input p hp => exact Or.inr ⟨.leave, Mailbox.Step.crashed s.mailbox, nofun⟩

/-- The receiver is dropped only when the thread is gone. -/
theorem open_of_step {prof : Profile} {s s' : System H P L T C EL ET} {label : Label A C}
    (hopen : s.Open) (h : s.step prof label = some s') : s'.Open := by
  cases label with
  | clock reading =>
      cases h
      exact hopen
  | breakWaker broken =>
      cases h
      exact hopen
  | controller i move =>
      cases moved_of_controllerStep h with
      | clone hi => exact hopen
      | drop hi => exact hopen
      | sent hi op msg hmsg hrecv => exact hopen
      | lost hi => exact hopen
      | refused hi c => exact hopen
      | woke op slot hi ok =>
          rw [wakeStep_eq]
          exact hopen
  | turn input =>
      obtain ⟨th, hturn, rfl⟩ := Option.map_eq_some_iff.mp h
      intro hrecv
      cases Thread.turned_of_turn hturn with
      | exited hpc => cases hrecv
      | panicked input p hp => cases hrecv
      | event now awoken hpc id res poller hnext woken rt hev =>
          cases awoken || woken <;> exact ⟨nofun, nofun⟩
      | batchDone now awoken hpc hnext => cases awoken <;> exact ⟨nofun, nofun⟩
      | started hpc ls ts hls hts time hclock expiring hexp => exact ⟨nofun, nofun⟩
      | polled timeout hpc answer now hclock fired hfired service rt hrt =>
          exact ⟨nofun, nofun⟩
      | drained now hpc hqueue => exact ⟨nofun, nofun⟩
      | command now hpc cmd queue hqueue => exact ⟨nofun, nofun⟩
      | shutdown now hpc queue hqueue => exact ⟨nofun, nofun⟩
      | actionsDone now hpc service hnext => exact ⟨nofun, nofun⟩
      | action now hpc action service hnext result rt hact => exact ⟨nofun, nofun⟩

/-- A step of the system is a step of the mailbox, or changes nothing in it; a poster
reneges only if a wake fails. -/
theorem mailbox_of_step {prof : Profile} {s s' : System H P L T C EL ET} {label : Label A C}
    (hopen : s.Open) (h : s.step prof label = some s') :
    s'.mailbox = s.mailbox ∨
      ∃ e, Mailbox.Step s.mailbox e s'.mailbox ∧
        ∀ j, e = .renege j → label = .controller j (.wake false) := by
  cases label with
  | clock reading =>
      cases h
      exact Or.inl rfl
  | breakWaker broken =>
      cases h
      exact Or.inl rfl
  | controller i move =>
      rcases mailbox_of_moved hopen (moved_of_controllerStep h) with heq | ⟨e, hstep, he⟩
      · exact Or.inl heq
      · refine Or.inr ⟨e, hstep, fun j hj => ?_⟩
        obtain ⟨rfl, rfl⟩ := he j hj
        rfl
  | turn input =>
      obtain ⟨th, hturn, rfl⟩ := Option.map_eq_some_iff.mp h
      rcases mailbox_of_turned (Thread.turned_of_turn hturn) with heq | ⟨e, hstep, he⟩
      · exact Or.inl heq
      · exact Or.inr ⟨e, hstep, fun j hj => absurd hj (he j)⟩

end System

/-! ## The simulation -/

section

variable {H P A L T C EL ET : Type}
variable [Handler H L T C EL ET] [Resource L EL] [Resource T ET] [Poll P A]
variable {prof : Profile} {engine : P}

/-- A reactor that starts is a fresh mailbox. -/
theorem System.fresh_of_init {s : System H P L T C EL ET}
    (h : (reactor prof engine).init s) : s.mailbox.Fresh := by
  obtain ⟨service, fd, clock, poller, hreg, rfl⟩ := h
  refine ⟨rfl, rfl, ?_, ?_, ?_, rfl, rfl⟩
  · rintro (_ | i) <;> rfl
  · exact Set.eq_empty_of_forall_notMem fun k hk => by obtain ⟨r, hr, -⟩ := hk; cases hr
  · exact Set.eq_empty_of_forall_notMem fun k hk => by obtain ⟨r, hr, -⟩ := hk; cases hr

/-- The receiver is alive until the thread is gone. -/
theorem System.open_of_reachable {G : System H P L T C EL ET → Label A C → Prop}
    {s : System H P L T C EL ET} (hs : (reactor prof engine).Reachable G s) : s.Open := by
  refine hs.invariant (I := System.Open) ?_ (fun _ _ _ hI _ hstep => open_of_step hI hstep)
  rintro s ⟨service, fd, clock, poller, hreg, rfl⟩ -
  exact ⟨nofun, nofun⟩

/-- **Refinement.**  A run of the reactor is a run of the mailbox protocol; if no poster
may renege there, then no wake may fail here. -/
theorem System.mailbox_of_reachable {G : System H P L T C EL ET → Label A C → Prop}
    {G' : Mailbox ℕ C → Mailbox.Event ℕ C → Prop}
    (hG : ∀ mb e, (∀ j, e ≠ .renege j) → G' mb e)
    (hrenege : ∀ s j, G s (.controller j (.wake false)) → G' s.mailbox (.renege j))
    {s : System H P L T C EL ET} (hs : (reactor prof engine).Reachable G s) :
    (Mailbox.lts ℕ C).Reachable G' s.mailbox := by
  refine Lts.Reachable.map System.mailbox (fun s h => fresh_of_init h) ?_ hs
  intro s label s' hreach hlabel hstep
  rcases mailbox_of_step (open_of_reachable hreach) hstep with heq | ⟨e, hmb, he⟩
  · rw [heq]
    exact Relation.ReflTransGen.refl
  · refine Relation.ReflTransGen.single ⟨e, ?_, hmb⟩
    by_cases hj : ∃ j, e = .renege j
    · obtain ⟨j, rfl⟩ := hj
      rw [he j rfl] at hlabel
      exact hrenege s j hlabel
    · exact hG _ e fun j hj' => hj ⟨j, hj'⟩

end

end IoReactor
