/-
# One turn of the reactor thread, and what it cannot touch

`Turned` lists the outcomes of a turn of `Thread.turn`, panics included, on top of
the outcomes of events and actions in `Turns.lean`.  The steps of controllers, of
the clock and of the waker leave the *core* of the thread alone, which is all but its
control channel and waker (`core_of_step`), so a property of the core that every turn
keeps holds of every reachable state (`core_invariant`).
-/
import IoReactor.Turns

namespace IoReactor

namespace Runtime

variable {H P A L T C EL ET : Type} [Handler H L T C EL ET]

/-- Whether a check of the timer at `now` fires. -/
def Fires (rt : Runtime H P L T C EL ET) (now : ℕ) : Prop :=
  ∃ t ∈ rt.timeouts.timeouts, t ≤ now

/-- The callbacks between the poll and `handle_events`. -/
def pollCalls (now : ℕ) (fired : Bool) (res : Except IoError ℕ) :
    List (Call L T C EL ET) :=
  .tick now :: ((if fired then [.handleTimer] else []) ++
    match res with
    | .ok _ => []
    | .error err => [.handleError (.poll err)])

/-- The callbacks between the poll and `handle_events`, one by one. -/
theorem eq_of_mem_pollCalls {now : ℕ} {fired : Bool} {res : Except IoError ℕ}
    {c : Call L T C EL ET} (h : c ∈ pollCalls now fired res) :
    c = .tick now ∨ c = .handleTimer ∨ ∃ err, c = .handleError (.poll err) := by
  unfold pollCalls at h
  rcases List.mem_cons.mp h with htick | h
  · exact Or.inl htick
  · rcases List.mem_append.mp h with h | h
    · cases fired with
      | true => exact Or.inr (Or.inl (List.mem_singleton.mp h))
      | false => cases h
    · cases res with
      | ok n => cases h
      | error err => exact Or.inr (Or.inr ⟨err, List.mem_singleton.mp h⟩)

end Runtime

namespace Thread

variable {H P A L T C EL ET : Type}

/-! ## The computations around a turn -/

/-- A resumed computation has either panicked or advanced the thread. -/
theorem resume_cases (th : Thread H P L T C EL ET)
    (x : Except Panic (Pc × Runtime H P L T C EL ET)) :
    (∃ p, x = .error p ∧ th.resume x =
      ⟨.panicked p, { th.runtime with ctlRecv := th.runtime.ctlRecv.close }⟩) ∨
    (∃ pc rt, x = .ok (pc, rt) ∧ th.resume x = ⟨pc, rt⟩) := by
  cases x with
  | error p => exact Or.inl ⟨p, rfl, rfl⟩
  | ok r => exact Or.inr ⟨r.1, r.2, rfl, rfl⟩

/-- The clock panics only before the epoch. -/
theorem now_error {clock : SystemTime} {p : Panic} (h : Timestamp.now clock = .error p) :
    clock = none ∧ p = .systemTime := by
  cases clock with
  | none =>
      cases h
      exact ⟨rfl, rfl⟩
  | some d => cases h

section

variable [Handler H L T C EL ET] [Poll P A]

/-- What happens between the poll and `handle_events`. -/
theorem afterPoll_ok {prof : Profile} {clock : SystemTime} {rt rt' : Runtime H P L T C EL ET}
    {timeout : Duration} {answer : A} {now : ℕ}
    (h : rt.afterPoll prof clock timeout answer = .ok (now, rt')) :
    Timestamp.now clock = .ok now ∧ ∃ fired service, (fired = true ↔ rt.Fires now) ∧
      rt' = { rt with
        service := service
        poller := (Poll.poll rt.poller (some timeout) answer).2
        timeouts := ⟨rt.timeouts.timeouts.filter (now < ·)⟩
        trace := rt.trace ++ (Runtime.pollCalls now fired
          (Poll.poll rt.poller (some timeout) answer).1).map .call } := by
  unfold Runtime.afterPoll at h
  generalize Poll.poll rt.poller (some timeout) answer = out at h ⊢
  obtain ⟨res, poller⟩ := out
  obtain ⟨now', hclock, hrest⟩ := exists_of_bind_eq_ok h
  obtain ⟨⟨count, timeouts⟩, hexp, hret⟩ := exists_of_bind_eq_ok hrest
  have hlt : now' + 1 < 2 ^ 128 := by
    have := Timestamp.lt_of_now hclock
    omega
  rw [Timer.removeExpiredBy_eq hlt] at hexp
  cases hexp
  -- the number of expired deadlines is positive when there is one
  have hfires : 0 < (rt.timeouts.timeouts.filter (· ≤ now')).card ↔ rt.Fires now' := by
    rw [Finset.card_pos]
    constructor
    · rintro ⟨t, ht⟩
      obtain ⟨hmem, hle⟩ := Finset.mem_filter.mp ht
      exact ⟨t, hmem, hle⟩
    · rintro ⟨t, hmem, hle⟩
      exact ⟨t, Finset.mem_filter.mpr ⟨hmem, hle⟩⟩
  by_cases hf : rt.Fires now'
  · refine ⟨?_, true, rt'.service, ?_, ?_⟩ <;> cases res <;> cases hret
    · exact hclock
    · exact hclock
    · simp [hf]
    · simp [hf]
    · simp [Runtime.call, Runtime.note, Runtime.pollCalls, hfires, hf]
    · simp [Runtime.call, Runtime.note, Runtime.pollCalls, hfires, hf]
  · refine ⟨?_, false, rt'.service, ?_, ?_⟩ <;> cases res <;> cases hret
    · exact hclock
    · exact hclock
    · simp [hf]
    · simp [hf]
    · simp [Runtime.call, Runtime.note, Runtime.pollCalls, hfires, hf]
    · simp [Runtime.call, Runtime.note, Runtime.pollCalls, hfires, hf]

/-- Around the poll only the clock can make the thread panic. -/
theorem afterPoll_error {prof : Profile} {clock : SystemTime} {rt : Runtime H P L T C EL ET}
    {timeout : Duration} {answer : A} {p : Panic}
    (h : rt.afterPoll prof clock timeout answer = .error p) :
    clock = none ∧ p = .systemTime := by
  unfold Runtime.afterPoll at h
  generalize Poll.poll rt.poller (some timeout) answer = out at h
  obtain ⟨res, poller⟩ := out
  rcases error_of_bind_eq_error h with hclock | ⟨now, hclock, hrest⟩
  · exact now_error hclock
  · rcases error_of_bind_eq_error hrest with hexp | ⟨⟨fired, timeouts⟩, hexp, hret⟩
    · have hlt : now + 1 < 2 ^ 128 := by
        have := Timestamp.lt_of_now hclock
        omega
      rw [Timer.removeExpiredBy_eq hlt] at hexp
      cases hexp
    · cases res <;> cases hret

end

/-! ## The outcomes of a turn -/

variable [Handler H L T C EL ET] [Resource L EL] [Resource T ET] [Poll P A]

/-- The causes of a panic of the reactor thread, by the point it is at and the input it is
fed. -/
inductive Raises (prof : Profile) (clock : SystemTime) (th : Thread H P L T C EL ET) :
    Input A → Panic → Prop
  | clockAtStart (hpc : th.pc = .start) (ls ts : List ResourceId) (hclock : clock = none) :
      Raises prof clock th (.start ls ts) .systemTime
  | clockAtPoll (timeout : Duration) (hpc : th.pc = .poll timeout) (answer : A)
      (hclock : clock = none) : Raises prof clock th (.poll answer) .systemTime
  | truncation (hpc : th.pc = .start) (ls ts : List ResourceId) (time : ℕ)
      (hclock : Timestamp.now clock = .ok time) (hprof : prof = .debug)
      (htrunc : th.runtime.timeouts.Truncates time) :
      Raises prof clock th (.start ls ts) .subtractWithOverflow
  | wakerFailure (now : ℕ) (awoken : Bool) (hpc : th.pc = .events now awoken)
      (err : IoFail) : Raises prof clock th .event (.wakerFailure err)
  | waker (now : ℕ) (awoken : Bool) (hpc : th.pc = .events now awoken) :
      Raises prof clock th .event .unableToResetWaker
  | unknown (now : ℕ) (awoken : Bool) (hpc : th.pc = .events now awoken)
      (id : ResourceId) (res : Except IoFail IoType) (poller : P)
      (hnext : Poll.next th.runtime.poller = some ((id, res), poller))
      (hid : id ≠ .WAKER) (hl : id ∉ th.runtime.listeners) (ht : id ∉ th.runtime.transports) :
      Raises prof clock th .event .unknownDescriptor
  | broken (now : ℕ) (hpc : th.pc = .commands now)
      (hsenders : th.runtime.ctlRecv.senders = 0) :
      Raises prof clock th .command .controlChannelBroken
  | engine (now : ℕ) (hpc : th.pc = .actions now) (action : Action L T) (service : H)
      (hnext : Handler.next th.runtime.service = (some action, service))
      (hregisters : action.registers = true) (fd : RawFd) (p : Panic)
      (hreg : Poll.register prof th.runtime.poller fd .readOnly = .error p) :
      Raises prof clock th .action p
  | timer (now : ℕ) (hpc : th.pc = .actions now) (duration : Duration) (p : Panic)
      (hset : th.runtime.timeouts.setTimeout prof duration now = .error p) :
      Raises prof clock th .action p
  | writeOrBuf (now : ℕ) (hpc : th.pc = .actions now) :
      Raises prof clock th .action .writeOrBufMustBuffer
  | writeNotReady (now : ℕ) (hpc : th.pc = .actions now) (id : ResourceId) :
      Raises prof clock th .action (.writeNotReady id)

/-- The outcomes of one turn of the reactor thread, by the input it is fed. -/
inductive Turned (prof : Profile) (clock : SystemTime) (th : Thread H P L T C EL ET) :
    Input A → Thread H P L T C EL ET → Prop
  | started (hpc : th.pc = .start) (ls ts : List ResourceId)
      (hls : ls.Perm th.runtime.listeners.keys) (hts : ts.Perm th.runtime.transports.keys)
      (time : ℕ) (hclock : Timestamp.now clock = .ok time) (expiring : Option Duration)
      (hexp : th.runtime.timeouts.nextExpiringFrom prof time = .ok expiring) :
      Turned prof clock th (.start ls ts) ⟨.poll (expiring.getD WAIT_TIMEOUT), { th.runtime with
        poller := Runtime.setInterests th.runtime.transports
          (Runtime.setInterests th.runtime.listeners th.runtime.poller ls) ts }⟩
  | polled (timeout : Duration) (hpc : th.pc = .poll timeout) (answer : A) (now : ℕ)
      (hclock : Timestamp.now clock = .ok now) (fired : Bool)
      (hfired : fired = true ↔ th.runtime.Fires now) (service : H)
      (rt : Runtime H P L T C EL ET)
      (hrt : rt = { th.runtime with
        service := service
        poller := (Poll.poll th.runtime.poller (some timeout) answer).2
        timeouts := ⟨th.runtime.timeouts.timeouts.filter (now < ·)⟩
        trace := th.runtime.trace ++ (Runtime.pollCalls now fired
          (Poll.poll th.runtime.poller (some timeout) answer).1).map .call }) :
      Turned prof clock th (.poll answer) ⟨.events now false, rt⟩
  | batchDone (now : ℕ) (awoken : Bool) (hpc : th.pc = .events now awoken)
      (hnext : Poll.next th.runtime.poller = none) :
      Turned prof clock th .event ⟨if awoken then .commands now else .actions now, th.runtime⟩
  | event (now : ℕ) (awoken : Bool) (hpc : th.pc = .events now awoken)
      (id : ResourceId) (res : Except IoFail IoType) (poller : P)
      (hnext : Poll.next th.runtime.poller = some ((id, res), poller)) (woken : Bool)
      (rt : Runtime H P L T C EL ET)
      (hev : Runtime.Handled { th.runtime with poller := poller } id res now woken rt) :
      Turned prof clock th .event ⟨.events now (awoken || woken), rt⟩
  | drained (now : ℕ) (hpc : th.pc = .commands now)
      (hqueue : th.runtime.ctlRecv.queue = []) :
      Turned prof clock th .command ⟨.actions now, th.runtime⟩
  | command (now : ℕ) (hpc : th.pc = .commands now) (cmd : C) (queue : List (Ctl C))
      (hqueue : th.runtime.ctlRecv.queue = .cmd cmd :: queue) :
      Turned prof clock th .command ⟨.commands now,
        { th.runtime with ctlRecv := { th.runtime.ctlRecv with queue := queue } }.call
          (.handleCommand cmd)⟩
  | shutdown (now : ℕ) (hpc : th.pc = .commands now) (queue : List (Ctl C))
      (hqueue : th.runtime.ctlRecv.queue = .shutdown :: queue) :
      Turned prof clock th .command ⟨.shutdown,
        { th.runtime with ctlRecv := { th.runtime.ctlRecv with queue := queue } }⟩
  | actionsDone (now : ℕ) (hpc : th.pc = .actions now) (service : H)
      (hnext : Handler.next th.runtime.service = (none, service)) :
      Turned prof clock th .action
        ⟨.start, { th.runtime with service := service }.note (.next none)⟩
  | action (now : ℕ) (hpc : th.pc = .actions now) (action : Action L T) (service : H)
      (hnext : Handler.next th.runtime.service = (some action, service))
      (result : Except (Error L T) Unit) (rt : Runtime H P L T C EL ET)
      (hact : Runtime.Acted prof ({ th.runtime with service := service }.note
        (.next (some action))) now action result rt) :
      Turned prof clock th .action ⟨.actions now, rt.report result⟩
  | exited (hpc : th.pc = .shutdown) :
      Turned prof clock th .exit
        ⟨.exited, { th.runtime with ctlRecv := th.runtime.ctlRecv.close }⟩
  | panicked (input : Input A) (p : Panic) (hp : Raises prof clock th input p) :
      Turned prof clock th input
        ⟨.panicked p, { th.runtime with ctlRecv := th.runtime.ctlRecv.close }⟩

/-- The list of outcomes of a turn is complete. -/
theorem turned_of_turn {prof : Profile} {clock : SystemTime} {th th' : Thread H P L T C EL ET}
    {input : Input A} (h : th.turn prof clock input = some th') :
    Turned prof clock th input th' := by
  -- an input fits at one point of the loop only, where the computation runs or panics
  cases input with
  | start ls ts =>
      simp only [turn] at h
      split at h
      · rename_i hpc
        split at h
        · rename_i hperm
          obtain ⟨hls, hts⟩ := hperm
          cases h
          rcases th.resume_cases _ with ⟨p, herr, hres⟩ | ⟨pc, rt, hok, hres⟩
          · rw [hres]
            refine .panicked _ p ?_
            rcases error_of_bind_eq_error herr with hbefore | ⟨⟨timeout, rt⟩, -, hret⟩
            · rcases error_of_bind_eq_error hbefore with hnow | ⟨time, hnow, hrest⟩
              · obtain ⟨hclock, rfl⟩ := now_error hnow
                exact .clockAtStart hpc ls ts hclock
              · rcases error_of_bind_eq_error hrest with hexp | ⟨expiring, -, hret⟩
                · obtain ⟨hprof, htrunc, rfl⟩ := Timer.nextExpiringFrom_eq_error_iff.mp hexp
                  exact .truncation hpc ls ts time hnow hprof htrunc
                · cases hret
            · cases hret
          · rw [hres]
            obtain ⟨⟨timeout, rt'⟩, hbefore, hret⟩ := exists_of_bind_eq_ok hok
            obtain ⟨time, hnow, hrest⟩ := exists_of_bind_eq_ok hbefore
            obtain ⟨expiring, hexp, hret'⟩ := exists_of_bind_eq_ok hrest
            cases hret'
            cases hret
            exact .started hpc ls ts hls hts time hnow expiring hexp
        · cases h
      · cases h
  | poll answer =>
      simp only [turn] at h
      split at h
      · rename_i timeout hpc
        cases h
        rcases th.resume_cases _ with ⟨p, herr, hres⟩ | ⟨pc, rt, hok, hres⟩
        · rw [hres]
          refine .panicked _ p ?_
          rcases error_of_bind_eq_error herr with hafter | ⟨⟨now, rt⟩, -, hret⟩
          · obtain ⟨hclock, rfl⟩ := afterPoll_error hafter
            exact .clockAtPoll timeout hpc answer hclock
          · cases hret
        · rw [hres]
          obtain ⟨⟨now, rt'⟩, hafter, hret⟩ := exists_of_bind_eq_ok hok
          obtain ⟨hclock, fired, service, hfired, hrt⟩ := afterPoll_ok hafter
          cases hret
          exact .polled timeout hpc answer now hclock fired hfired service rt' hrt
      · cases h
  | event =>
      simp only [turn] at h
      split at h
      · rename_i now awoken hpc
        split at h
        · rename_i hnext
          cases h
          exact .batchDone now awoken hpc hnext
        · rename_i id res poller hnext
          cases h
          rcases th.resume_cases _ with ⟨p, herr, hres⟩ | ⟨pc, rt, hok, hres⟩
          · rw [hres]
            refine .panicked _ p ?_
            rcases error_of_bind_eq_error herr with hev | ⟨⟨woken, rt⟩, -, hret⟩
            · rcases Runtime.handleEvent_error hev with
                ⟨err, rfl⟩ | rfl | ⟨rfl, hid, hl, ht⟩
              · exact .wakerFailure now awoken hpc err
              · exact .waker now awoken hpc
              · exact .unknown now awoken hpc id res poller hnext hid hl ht
            · cases hret
          · rw [hres]
            obtain ⟨⟨woken, rt'⟩, hev, hret⟩ := exists_of_bind_eq_ok hok
            cases hret
            exact .event now awoken hpc id res poller hnext woken rt'
              (Runtime.handled_of_handleEvent hev)
      · cases h
  | command =>
      simp only [turn] at h
      split at h
      · rename_i now hpc
        cases h
        -- `try_recv` looks at the queue first, and at the senders if it is empty
        cases hqueue : th.runtime.ctlRecv.queue with
        | nil =>
            by_cases hsenders : th.runtime.ctlRecv.senders = 0
            · have hrecv : th.runtime.receive = .error .controlChannelBroken := by
                simp [Runtime.receive, Channel.tryRecv, hqueue, hsenders]
              rw [hrecv]
              exact .panicked _ _ (.broken now hpc hsenders)
            · have hrecv : th.runtime.receive = .ok (.drained, th.runtime) := by
                simp [Runtime.receive, Channel.tryRecv, hqueue, hsenders]
              rw [hrecv]
              exact .drained now hpc hqueue
        | cons msg queue =>
            cases msg with
            | cmd c =>
                have hrecv : th.runtime.receive = .ok (.again,
                    { th.runtime with ctlRecv := { th.runtime.ctlRecv with queue := queue } }.call
                      (.handleCommand c)) := by
                  simp [Runtime.receive, Channel.tryRecv, hqueue]
                rw [hrecv]
                exact .command now hpc c queue hqueue
            | shutdown =>
                have hrecv : th.runtime.receive = .ok (.shutdown,
                    { th.runtime with ctlRecv := { th.runtime.ctlRecv with queue := queue } }) := by
                  simp [Runtime.receive, Channel.tryRecv, hqueue]
                rw [hrecv]
                exact .shutdown now hpc queue hqueue
      · cases h
  | action =>
      simp only [turn] at h
      split at h
      · rename_i now hpc
        cases h
        rcases hnext : Handler.next th.runtime.service with ⟨answer, service⟩
        -- the answer of the service decides whether the loop goes on
        cases answer with
        | none =>
            have hturn : th.runtime.handleNext prof now =
                .ok (false, { th.runtime with service := service }.note (.next none)) := by
              simp [Runtime.handleNext, hnext]
            rw [hturn]
            exact .actionsDone now hpc service hnext
        | some action =>
            rcases th.resume_cases _ with ⟨p, herr, hres⟩ | ⟨pc, rt, hok, hres⟩
            · rw [hres]
              refine .panicked _ p ?_
              rcases error_of_bind_eq_error herr with hturn | ⟨⟨more, rt⟩, -, hret⟩
              · simp only [Runtime.handleNext, hnext] at hturn
                rcases error_of_bind_eq_error hturn with hact | ⟨⟨result, rt⟩, -, hret⟩
                · rcases Runtime.handleAction_error hact with
                    ⟨hregisters, fd, hreg⟩ | ⟨duration, hset⟩ | rfl | ⟨id, rfl⟩
                  · exact .engine now hpc action service hnext hregisters fd p hreg
                  · exact .timer now hpc duration p hset
                  · exact .writeOrBuf now hpc
                  · exact .writeNotReady now hpc id
                · cases result <;> cases hret
              · cases hret
            · rw [hres]
              obtain ⟨⟨more, rt'⟩, hturn, hret⟩ := exists_of_bind_eq_ok hok
              simp only [Runtime.handleNext, hnext] at hturn
              obtain ⟨⟨result, rt''⟩, hact, hret'⟩ := exists_of_bind_eq_ok hturn
              have hacted := Runtime.acted_of_handleAction hact
              cases result with
              | ok u =>
                  cases hret'
                  cases hret
                  exact .action now hpc action service hnext (.ok ()) rt'' hacted
              | error err =>
                  cases hret'
                  cases hret
                  exact .action now hpc action service hnext (.error err) rt'' hacted
      · cases h
  | exit =>
      simp only [turn] at h
      split at h
      · rename_i hpc
        cases h
        exact .exited hpc
      · cases h

end Thread

/-! ## Steps of the system -/

/-- How many senders of the channel a clone holds. -/
def Controller.senders {C : Type} : Controller C → ℕ
  | .dropped => 0
  | _ => 1

/-- The clones before and after the `i`-th one, which stay when it is replaced. -/
theorem exists_split_at {C : Type} {cs : List (Controller C)} {i : ℕ} {ctl : Controller C}
    (hi : cs[i]? = some ctl) (ctl' : Controller C) :
    ∃ before after, cs = before ++ ctl :: after ∧ cs.set i ctl' = before ++ ctl' :: after := by
  obtain ⟨hlt, rfl⟩ := List.getElem?_eq_some_iff.mp hi
  obtain ⟨before, after, hsplit, -, hset⟩ := List.exists_of_set hlt
  exact ⟨before, after, hsplit, hset⟩

namespace System

variable {H P A L T C EL ET : Type}

/-- Dropping a clone drops its sender. -/
theorem release_eq (s : System H P L T C EL ET) (ctl : Controller C) :
    s.release ctl = s.setChannel
      { s.channel with senders := s.channel.senders - (1 - ctl.senders) } := by
  cases ctl with
  | idle => rfl
  | waking op slot => rfl
  | dropped => rfl

/-- What the second step of a call changes. -/
theorem wakeStep_eq (s : System H P L T C EL ET) (i : ℕ) (op : Op C) (slot : Option ℕ)
    (ok : Bool) :
    s.wakeStep i op slot ok = { s with
      runtime := { s.runtime with
        waker := if ok then s.runtime.waker.wake else s.runtime.waker
        ctlRecv := { s.channel with
          senders := s.channel.senders - (1 - (op.leaves (op.result slot.isSome ok)).senders) } }
      controllers := s.controllers.set i (op.leaves (op.result slot.isSome ok))
      returned := s.returned ++ [⟨op, slot, ok, op.result slot.isSome ok⟩] } := by
  unfold wakeStep
  simp only
  rw [release_eq]
  cases ok with
  | true => rfl
  | false => rfl

/-- The outcomes of a step of the `i`-th clone of the controller. -/
inductive Moved (s : System H P L T C EL ET) (i : ℕ) : Move C → System H P L T C EL ET → Prop
  | clone (hi : s.controllers[i]? = some .idle) :
      Moved s i .clone { s.setChannel { s.channel with senders := s.channel.senders + 1 } with
        controllers := s.controllers ++ [.idle] }
  | drop (hi : s.controllers[i]? = some .idle) :
      Moved s i .drop ((s.setController i .dropped).release .dropped)
  | sent (hi : s.controllers[i]? = some .idle) (op : Op C) (msg : Ctl C)
      (hmsg : op.message = some msg) (hrecv : s.channel.receiver = true) :
      Moved s i (.send op true) { (s.setChannel (s.channel.push msg)).setController i
        (.waking op (some s.sent.length)) with sent := s.sent ++ [msg] }
  | lost (hi : s.controllers[i]? = some .idle) :
      Moved s i (.send .shutdown false) (s.setController i (.waking .shutdown none))
  | refused (hi : s.controllers[i]? = some .idle) (c : C) :
      Moved s i (.send (.cmd c) false) (s.record ⟨.cmd c, none, false, false⟩)
  | woke (op : Op C) (slot : Option ℕ) (hi : s.controllers[i]? = some (.waking op slot))
      (ok : Bool) :
      Moved s i (.wake ok) (s.wakeStep i op slot ok)

/-- The list of outcomes of a step of a controller is complete. -/
theorem moved_of_controllerStep {s s' : System H P L T C EL ET} {i : ℕ} {move : Move C}
    (h : s.controllerStep i move = some s') : Moved s i move s' := by
  cases move with
  | clone =>
      simp only [controllerStep] at h
      split at h
      · rename_i hi
        cases h
        exact .clone hi
      · cases h
  | drop =>
      simp only [controllerStep] at h
      split at h
      · rename_i hi
        cases h
        exact .drop hi
      · cases h
  | send op ok =>
      simp only [controllerStep] at h
      split at h
      · rename_i hi
        unfold sendStep at h
        split at h
        · cases h
        · rename_i msg hmsg
          cases ok with
          | true =>
              rw [if_pos rfl] at h
              split at h
              · rename_i hrecv
                cases h
                exact .sent hi op msg hmsg hrecv
              · cases h
          | false =>
              rw [if_neg Bool.false_ne_true] at h
              cases op with
              | launch => cases hmsg
              | cmd c =>
                  cases h
                  exact .refused hi c
              | shutdown =>
                  cases h
                  exact .lost hi
      · cases h
  | wake ok =>
      simp only [controllerStep] at h
      split at h
      · rename_i op slot hi
        cases h
        exact .woke op slot hi ok
      · cases h

/-- A step of a controller touches the control channel and the waker of the
runtime, and nothing else of the reactor thread. -/
theorem core_of_controllerStep {s s' : System H P L T C EL ET} {i : ℕ} {move : Move C}
    (h : s.controllerStep i move = some s') :
    ∃ chan waker, s'.toThread =
      ⟨s.pc, { s.runtime with ctlRecv := chan, waker := waker }⟩ := by
  cases moved_of_controllerStep h with
  | clone hi => exact ⟨_, _, rfl⟩
  | drop hi => exact ⟨_, _, rfl⟩
  | sent hi op msg hmsg hrecv => exact ⟨_, _, rfl⟩
  | lost hi => exact ⟨_, _, rfl⟩
  | refused hi c => exact ⟨_, _, rfl⟩
  | woke op slot hi ok =>
      rw [wakeStep_eq]
      exact ⟨_, _, rfl⟩

variable [Handler H L T C EL ET] [Resource L EL] [Resource T ET] [Poll P A]

/-- A step of the system is a turn of the reactor thread, or leaves the core of the
thread alone. -/
theorem core_of_step {prof : Profile} {s s' : System H P L T C EL ET} {label : Label A C}
    (h : s.step prof label = some s') :
    (∃ input, label = .turn input ∧
      Thread.Turned prof s.clock s.toThread input s'.toThread) ∨
    (∃ chan waker, s'.toThread =
      ⟨s.pc, { s.runtime with ctlRecv := chan, waker := waker }⟩) := by
  cases label with
  | clock reading =>
      cases h
      exact Or.inr ⟨_, _, rfl⟩
  | breakWaker broken =>
      cases h
      exact Or.inr ⟨_, _, rfl⟩
  | controller i move => exact Or.inr (core_of_controllerStep h)
  | turn input =>
      obtain ⟨th, hturn, rfl⟩ := Option.map_eq_some_iff.mp h
      exact Or.inl ⟨input, rfl, Thread.turned_of_turn hturn⟩

end System

section

variable {H P A L T C EL ET : Type}
variable [Handler H L T C EL ET] [Resource L EL] [Resource T ET] [Poll P A]
variable {prof : Profile} {engine : P}
variable {G : System H P L T C EL ET → Label A C → Prop}

/-- **The invariant rule for the core.**  A property of the reactor thread that does
not depend on the control channel and the waker, holds when the thread starts and is
kept by every turn, holds in every reachable state. -/
theorem core_invariant {I : Thread H P L T C EL ET → Prop}
    (hframe : ∀ th chan waker, I th →
      I ⟨th.pc, { th.runtime with ctlRecv := chan, waker := waker }⟩)
    (hinit : ∀ service poller fd, Poll.registerWaker engine fd = .ok poller →
      I (System.boot service poller none : System H P L T C EL ET).toThread)
    (hturn : ∀ s input th', (reactor prof engine).Reachable G s → I s.toThread →
      G s (.turn input) → Thread.Turned prof s.clock s.toThread input th' → I th')
    {s : System H P L T C EL ET} (hs : (reactor prof engine).Reachable G s) :
    I s.toThread := by
  refine Lts.Reachable.invariant_of (J := (reactor prof engine).Reachable G)
    (I := fun s => I s.toThread) (fun _ h => h) ?_ ?_ hs
  · rintro s ⟨service, fd, clock, poller, hreg, rfl⟩
    exact hinit service poller fd hreg
  · intro s label s' hreach hI hG hstep
    rcases System.core_of_step hstep with ⟨input, rfl, hturned⟩ | ⟨chan, waker, hcore⟩
    · exact hturn s input s'.toThread hreach hI hG hturned
    · rw [hcore]
      exact hframe s.toThread chan waker hI

/-! ## The rule for the trace and the maps -/

/-- The entries of the trace that no event and no action makes. -/
def Observation.Idle : Observation L T C EL ET → Prop
  | .call (.tick _) => True
  | .call .handleTimer => True
  | .call (.handleCommand _) => True
  | .call (.handleError (.poll _)) => True
  | .next none => True
  | _ => False

/-- A property that idle entries, events and actions keep is kept by every turn. -/
theorem Thread.Turned.keeps {I : Runtime H P L T C EL ET → Prop} {clock : SystemTime}
    {th th' : Thread H P L T C EL ET} {input : Input A}
    (h : Thread.Turned prof clock th input th')
    (hidle : ∀ rt rt' tr, I rt → rt'.trace = rt.trace ++ tr → (∀ obs ∈ tr, obs.Idle) →
      rt'.listeners = rt.listeners → rt'.transports = rt.transports → I rt')
    (hevent : ∀ rt id res time woken rt', I rt → Runtime.Handled rt id res time woken rt' → I rt')
    (haction : ∀ now action service result rt', input = .action →
      Runtime.Acted prof ({ th.runtime with service := service }.note (.next (some action))) now
        action result rt' → I (rt'.report result)) (hI : I th.runtime) : I th'.runtime := by
  have hsame : ∀ rt' : Runtime H P L T C EL ET, rt'.trace = th.runtime.trace →
      rt'.listeners = th.runtime.listeners → rt'.transports = th.runtime.transports → I rt' :=
    fun rt' htrace hl ht => hidle th.runtime rt' [] hI (by rw [htrace, List.append_nil])
      (List.forall_mem_nil _) hl ht
  cases h with
  | started hpc ls ts hls hts time hclock expiring hexp => exact hsame _ rfl rfl rfl
  | polled timeout hpc answer now hclock fired hfired service rt hrt =>
      subst hrt
      refine hidle _ _ _ hI rfl (fun obs hobs => ?_) rfl rfl
      obtain ⟨c, hc, rfl⟩ := List.mem_map.mp hobs
      rcases Runtime.eq_of_mem_pollCalls hc with rfl | rfl | ⟨err, rfl⟩ <;> trivial
  | batchDone now awoken hpc hnext => exact hI
  | event now awoken hpc id res poller hnext woken rt hev =>
      have hpopped : I { th.runtime with poller := poller } := hsame _ rfl rfl rfl
      exact hevent _ _ _ _ _ _ hpopped hev
  | drained now hpc hqueue => exact hI
  | command now hpc cmd queue hqueue =>
      exact hidle _ _ [.call (.handleCommand cmd)] hI rfl (List.forall_mem_singleton.mpr trivial)
        rfl rfl
  | shutdown now hpc queue hqueue => exact hsame _ rfl rfl rfl
  | actionsDone now hpc service hnext =>
      exact hidle _ _ [.next none] hI rfl (List.forall_mem_singleton.mpr trivial) rfl rfl
  | action now hpc action service hnext result rt hact => exact haction _ _ _ _ _ rfl hact
  | exited hpc => exact hsame _ rfl rfl rfl
  | panicked input p hp => exact hsame _ rfl rfl rfl

/-- **The invariant rule for the trace and the maps.**  A property of the runtime that
holds when the thread starts and is kept by idle entries, events and actions holds in
every reachable state. -/
theorem runtime_invariant {I : Runtime H P L T C EL ET → Prop}
    (hinit : ∀ service poller fd, Poll.registerWaker engine fd = .ok poller →
      I (System.boot service poller none : System H P L T C EL ET).runtime)
    (hidle : ∀ rt rt' tr, I rt → rt'.trace = rt.trace ++ tr → (∀ obs ∈ tr, obs.Idle) →
      rt'.listeners = rt.listeners → rt'.transports = rt.transports → I rt')
    (hevent : ∀ rt id res time woken rt', I rt → Runtime.Handled rt id res time woken rt' → I rt')
    (haction : ∀ s now action service result rt', I s.runtime → G s (.turn .action) →
      Runtime.Acted prof ({ s.runtime with service := service }.note (.next (some action))) now
        action result rt' → I (rt'.report result))
    {s : System H P L T C EL ET} (hs : (reactor prof engine).Reachable G s) : I s.runtime := by
  refine core_invariant (I := fun th => I th.runtime) ?_ hinit ?_ hs
  · intro th chan waker hI
    exact hidle _ _ [] hI (List.append_nil _).symm (List.forall_mem_nil _) rfl rfl
  · intro s input th' _ hI hG hturned
    refine hturned.keeps hidle hevent ?_ hI
    rintro now action service result rt' rfl hact
    exact haction s now action service result rt' hI hG hact

/-! ## The time of an iteration -/

/-- The post-poll clock reading of the iteration the thread is in. -/
def Pc.time : Pc → Option ℕ
  | .events now _ => some now
  | .commands now => some now
  | .actions now => some now
  | _ => none

/-- The time of an iteration is a reading of the clock, so far below the `u128` range. -/
theorem time_lt_of_reachable {prof : Profile} {engine : P}
    {G : System H P L T C EL ET → Label A C → Prop} {s : System H P L T C EL ET}
    (hs : (reactor prof engine).Reachable G s) {now : ℕ} (hnow : s.pc.time = some now) :
    now < 2 ^ 74 := by
  refine core_invariant (I := fun th => ∀ now, th.pc.time = some now → now < 2 ^ 74)
    (fun th chan waker h => h) ?_ ?_ hs now hnow
  · exact fun service poller fd hreg now hnow => by cases hnow
  · intro s input th' _ hI hG hturned
    cases hturned with
    | started hpc ls ts hls hts time hclock expiring hexp => exact nofun
    | polled timeout hpc answer time hclock fired hfired service rt hrt =>
        intro now hnow
        cases hnow
        exact Timestamp.lt_of_now hclock
    | batchDone time awoken hpc hnext =>
        intro now hnow
        apply hI now
        rw [hpc]
        cases awoken <;> exact hnow
    | event time awoken hpc id res poller hnext woken rt hev =>
        intro now hnow
        exact hI now (by rw [hpc]; exact hnow)
    | drained time hpc hqueue => exact fun now hnow => hI now (by rw [hpc]; exact hnow)
    | command time hpc cmd queue hqueue => exact fun now hnow => hI now (by rw [hpc]; exact hnow)
    | shutdown time hpc queue hqueue => exact nofun
    | actionsDone time hpc service hnext => exact nofun
    | action time hpc action service hnext result rt hact =>
        exact fun now hnow => hI now (by rw [hpc]; exact hnow)
    | exited hpc => exact nofun
    | panicked input p hp => exact nofun

end

end IoReactor
