/-
# When timers fire

`Iteration` is what one pass through the loop of `Runtime::run` has to do with timers:
the clock reading after the poll, the calls of `handle_timer` and the durations of the
timers set.  `iterations` reads them off the trace.  The timer of the runtime is the
agenda of these iterations (`Thread.Timed`), so the iterations that fire are known from the
readings and the durations alone (`timers_fire_exactly`).

The deadline of a timer counts from the reading of the iteration that sets it, not from
the moment the service asks for it; `timers_not_early_iff` says what follows.
-/
import Mathlib.Data.List.ModifyLast
import IoReactor.ThreadTurns
import IoReactor.Agenda

namespace IoReactor

/-! ## Iterations -/

/-- One iteration of the loop. -/
structure Iteration where
  /-- the clock reading after the poll -/
  now : ℕ
  /-- the number of calls of `handle_timer` -/
  fired : ℕ
  /-- the durations of the timers set, in order -/
  set : List Duration

namespace Iteration

/-- The iteration as a round of the agenda. -/
def round (it : Iteration) : Round ℕ := ⟨it.now, it.set.map (it.now + ·.asMillis)⟩

/-- The iterations after one more entry of the trace. -/
def extend {L T C EL ET : Type} (its : List Iteration) :
    Observation L T C EL ET → List Iteration
  | .call (.tick now) => its ++ [⟨now, 0, []⟩]
  | .call .handleTimer => its.modifyLast fun it => { it with fired := it.fired + 1 }
  | .next (some (.setTimer d)) => its.modifyLast fun it => { it with set := it.set ++ [d] }
  | _ => its

/-- Every iteration fires at most once, and does if and only if its check strikes a
deadline from the agenda that the iterations before it leave. -/
def Exact (its : List Iteration) : Prop :=
  ∀ (k : ℕ) (it : Iteration), its[k]? = some it →
    it.fired ≤ 1 ∧ (0 < it.fired ↔ Agenda.Due ((its.take k).map round) it.now)

/-- Exactness is a property of each iteration and those before it. -/
theorem exact_concat {its : List Iteration} {it : Iteration} :
    Exact (its ++ [it]) ↔
      Exact its ∧ it.fired ≤ 1 ∧ (0 < it.fired ↔ Agenda.Due (its.map round) it.now) := by
  constructor
  · intro h
    constructor
    · intro k r hr
      have hk : k < its.length := (List.getElem?_eq_some_iff.mp hr).1
      have := h k r (by rwa [List.getElem?_append_left hk])
      rwa [List.take_append_of_le_length hk.le] at this
    · have := h its.length it List.getElem?_concat_length
      rwa [List.take_left] at this
  · rintro ⟨hits, hlast⟩ k r hr
    rcases Agenda.getElem?_concat_eq_some.mp hr with hold | ⟨rfl, rfl⟩
    · have hk : k < its.length := (List.getElem?_eq_some_iff.mp hold).1
      rw [List.take_append_of_le_length hk.le]
      exact hits k r hold
    · rw [List.take_left]
      exact hlast

end Iteration

section

variable {L T C EL ET : Type}

/-- The iterations that a trace shows. -/
def iterations (tr : List (Observation L T C EL ET)) : List Iteration :=
  tr.foldl Iteration.extend []

/-- An entry of the trace that has nothing to do with timers. -/
def Observation.Quiet (obs : Observation L T C EL ET) : Prop :=
  ∀ its, Iteration.extend its obs = its

/-- The iterations of a longer trace. -/
theorem iterations_append (tr tr' : List (Observation L T C EL ET)) :
    iterations (tr ++ tr') = tr'.foldl Iteration.extend (iterations tr) :=
  List.foldl_append

/-- Entries that have nothing to do with timers leave the iterations alone. -/
theorem iterations_append_of_quiet {tr tr' : List (Observation L T C EL ET)}
    (h : ∀ obs ∈ tr', obs.Quiet) : iterations (tr ++ tr') = iterations tr := by
  rw [iterations_append]
  generalize iterations tr = its
  induction tr' with
  | nil => rfl
  | cons obs tr' ih =>
      rw [List.foldl_cons, h obs List.mem_cons_self]
      exact ih fun o ho => h o (List.mem_cons_of_mem _ ho)

/-- What an event notes down has nothing to do with timers. -/
theorem Observation.quiet_of_ofEvent {obs : Observation L T C EL ET}
    (h : Runtime.OfEvent obs) : obs.Quiet := by
  intro its
  cases obs with
  | call c =>
      cases c with
      | tick time => exact h.elim
      | handleTimer => exact h.elim
      | _ => rfl
  | next answer => exact h.elim
  | handleIo id io => rfl
  | writeAtomic id data result => rfl

/-- What an action notes down has nothing to do with timers. -/
theorem Observation.quiet_of_ofAction {obs : Observation L T C EL ET}
    (h : Runtime.OfAction obs) : obs.Quiet := by
  intro its
  cases obs with
  | call c =>
      cases c with
      | tick time => exact h.elim
      | handleTimer => exact h.elim
      | _ => rfl
  | next answer => exact h.elim
  | handleIo id io => rfl
  | writeAtomic id data result => rfl

/-- The poll begins an iteration and fires in it at most once. -/
theorem iterations_append_pollCalls (tr : List (Observation L T C EL ET)) (now : ℕ)
    (fired : Bool) (res : Except IoError ℕ) :
    iterations (tr ++ (Runtime.pollCalls now fired res).map .call) =
      iterations tr ++ [⟨now, if fired then 1 else 0, []⟩] := by
  rw [iterations_append]
  cases fired with
  | false => cases res <;> rfl
  | true =>
      have h : (iterations tr ++ [(⟨now, 0, []⟩ : Iteration)]).modifyLast
          (fun it => { it with fired := it.fired + 1 }) = iterations tr ++ [⟨now, 1, []⟩] :=
        List.modifyLast_concat _ _ _
      cases res with
      | ok n => exact h
      | error err => exact h

end

/-! ## The timer is the agenda of the iterations -/

/-- The duration of the timer that an action sets. -/
def Action.timer {L T : Type} : Action L T → Option Duration
  | .setTimer d => some d
  | _ => none

variable {H P A L T C EL ET : Type}

/-- What an action does to the timer. -/
theorem Runtime.Acted.timeouts_eq [Handler H L T C EL ET] [Resource L EL] [Resource T ET]
    [Poll P A] {prof : Profile} {rt rt' : Runtime H P L T C EL ET} {time : ℕ}
    {action : Action L T} {result : Except (Error L T) Unit}
    (h : Acted prof rt time action result rt') (htime : time < 2 ^ 74) :
    (rt'.report result).timeouts.timeouts = match action.timer with
      | none => rt.timeouts.timeouts
      | some d => insert (time + d.asMillis) rt.timeouts.timeouts := by
  cases h with
  | registerListener listener id poller hreg => rfl
  | registerTransport transport id poller hreg => rfl
  | unregisterListener id listener hlook => rfl
  | unregisterTransport id transport hlook => rfl
  | sent id data transport transport' hlook hwrite => rfl
  | sendFailed id data transport transport' err hlook hwrite => rfl
  | setTimer d timeouts hset =>
      have hlt : time + d.asMillis < 2 ^ 128 := by
        have := d.asMillis_lt
        omega
      rw [Timer.setTimeout_eq hlt] at hset
      cases hset
      rfl
  | ignored action hno =>
      cases action with
      | setTimer d => exact hno.elim
      | _ => rfl

namespace Thread

/-- The iterations the thread has begun. -/
def iterations (th : Thread H P L T C EL ET) : List Iteration :=
  IoReactor.iterations th.runtime.trace

/-- The iterations as rounds, one by one. -/
theorem getElem?_rounds {th : Thread H P L T C EL ET} {k : ℕ} {r : Round ℕ} :
    (th.iterations.map Iteration.round)[k]? = some r ↔
      ∃ it, th.iterations[k]? = some it ∧ it.round = r := by
  rw [List.getElem?_map, Option.map_eq_some_iff]

/-- The pending deadlines are those of the iterations, which fire exactly; the time of the
thread is that of the last iteration. -/
structure Timed (th : Thread H P L T C EL ET) : Prop where
  pending : th.runtime.timeouts.timeouts = Agenda.pending (th.iterations.map Iteration.round)
  exact : Iteration.Exact th.iterations
  current : ∀ now, th.pc.time = some now →
    ∃ before it, th.iterations = before ++ [it] ∧ it.now = now

/-- A turn that leaves the timer, the iterations and the time alone. -/
theorem Timed.of_quiet {th th' : Thread H P L T C EL ET} (h : th.Timed)
    (htimeouts : th'.runtime.timeouts = th.runtime.timeouts)
    (hits : th'.iterations = th.iterations)
    (htime : ∀ now, th'.pc.time = some now → th.pc.time = some now) : th'.Timed := by
  constructor
  · rw [htimeouts, hits]
    exact h.pending
  · rw [hits]
    exact h.exact
  · intro now hnow
    rw [hits]
    exact h.current now (htime now hnow)

/-- The check after the poll begins an iteration. -/
theorem Timed.polled {th : Thread H P L T C EL ET} (h : th.Timed) {now : ℕ} {fired : Bool}
    (hfired : fired = true ↔ th.runtime.Fires now) {res : Except IoError ℕ}
    {rt : Runtime H P L T C EL ET}
    (htimeouts : rt.timeouts.timeouts = th.runtime.timeouts.timeouts.filter (now < ·))
    (htrace : rt.trace = th.runtime.trace ++ (Runtime.pollCalls now fired res).map .call) :
    Timed ⟨.events now false, rt⟩ := by
  have hits : iterations ⟨.events now false, rt⟩ =
      th.iterations ++ [⟨now, if fired then 1 else 0, []⟩] := by
    rw [iterations, htrace]
    exact iterations_append_pollCalls _ _ _ _
  -- the check finds the agenda as the iterations before have left it
  have hdue : th.runtime.Fires now ↔ Agenda.Due (th.iterations.map Iteration.round) now := by
    rw [Runtime.Fires, h.pending]
    exact Iff.rfl
  constructor
  · rw [hits, List.map_append, htimeouts, h.pending]
    exact (Agenda.pending_check _ _).symm
  · rw [hits, Iteration.exact_concat]
    refine ⟨h.exact, ?_, ?_⟩
    · cases fired <;> simp
    · rw [← hdue, ← hfired]
      cases fired <;> simp
  · intro time htime
    cases htime
    exact ⟨_, _, hits, rfl⟩

/-- Setting a timer enters its deadline in the current iteration. -/
theorem Timed.setTimer {th th' : Thread H P L T C EL ET} (h : th.Timed) {now : ℕ}
    (hnow : th.pc.time = some now) (hnow' : th'.pc.time = some now) {d : Duration}
    (htimeouts : th'.runtime.timeouts.timeouts =
      insert (now + d.asMillis) th.runtime.timeouts.timeouts)
    (hits : th'.iterations = th.iterations.modifyLast
      fun it => { it with set := it.set ++ [d] }) : th'.Timed := by
  obtain ⟨before, it, hbefore, hit⟩ := h.current now hnow
  rw [hbefore, List.modifyLast_concat] at hits
  -- the iteration as a round has one more deadline
  have hround : Iteration.round { it with set := it.set ++ [d] } =
      ⟨it.round.now, it.round.entered ++ [now + d.asMillis]⟩ := by
    rw [← hit]
    simp [Iteration.round]
  constructor
  · rw [hits, htimeouts, h.pending, hbefore, List.map_append, List.map_append, List.map_singleton,
      List.map_singleton, hround]
    exact (Agenda.pending_enter _ _ _).symm
  · -- the iteration has fired, or not, before
    have hexact := h.exact
    rw [hbefore, Iteration.exact_concat] at hexact
    rw [hits, Iteration.exact_concat]
    exact hexact
  · intro time htime
    rw [hnow', Option.some.injEq] at htime
    exact ⟨before, _, hits, hit.trans htime⟩

end Thread

section

variable [Handler H L T C EL ET] [Resource L EL] [Resource T ET] [Poll P A]
variable {prof : Profile} {engine : P}
variable {G : System H P L T C EL ET → Label A C → Prop}

/-- An action sets its timer, if it has one, and leaves the timer alone otherwise. -/
theorem Thread.Timed.acted {th : Thread H P L T C EL ET} (h : th.Timed) {now : ℕ}
    (hpc : th.pc = .actions now) (hlt : now < 2 ^ 74) {action : Action L T} {service : H}
    {result : Except (Error L T) Unit} {rt : Runtime H P L T C EL ET}
    (hact : Runtime.Acted prof ({ th.runtime with service := service }.note
      (.next (some action))) now action result rt) :
    Thread.Timed ⟨.actions now, rt.report result⟩ := by
  obtain ⟨-, -, tr, htrace, htr⟩ := hact.frame
  have htimeouts := hact.timeouts_eq hlt
  have hits : Thread.iterations ⟨.actions now, rt.report result⟩ =
      Iteration.extend th.iterations (.next (some action) : Observation L T C EL ET) := by
    rw [Thread.iterations, htrace,
      iterations_append_of_quiet fun obs hobs => Observation.quiet_of_ofAction (htr obs hobs)]
    exact iterations_append _ _
  have hnow : th.pc.time = some now := by
    rw [hpc]
    rfl
  cases action with
  | setTimer d => exact h.setTimer hnow rfl htimeouts hits
  | _ => exact h.of_quiet (congrArg Timer.mk htimeouts) hits fun time htime => hnow.trans htime

/-- The timer is the agenda of the iterations in every reachable state. -/
theorem timed_of_reachable {s : System H P L T C EL ET}
    (hs : (reactor prof engine).Reachable G s) : s.toThread.Timed := by
  refine core_invariant (I := Thread.Timed) ?_ ?_ ?_ hs
  · intro th chan waker h
    exact ⟨h.pending, h.exact, h.current⟩
  · intro service poller fd hreg
    exact ⟨rfl, nofun, nofun⟩
  · intro s input th' hreach hI hG hturned
    cases hturned with
    | started hpc ls ts hls hts time hclock expiring hexp => exact hI.of_quiet rfl rfl nofun
    | polled timeout hpc answer now hclock fired hfired service rt hrt =>
        exact hI.polled hfired (by rw [hrt]) (by rw [hrt])
    | batchDone now awoken hpc hnext =>
        refine hI.of_quiet rfl rfl fun time htime => ?_
        rw [hpc]
        cases awoken <;> exact htime
    | event now awoken hpc id res poller hnext woken rt hev =>
        obtain ⟨-, htimeouts, -, tr, htrace, htr⟩ := hev.frame
        refine hI.of_quiet htimeouts ?_ fun time htime => by rw [hpc]; exact htime
        rw [Thread.iterations, htrace]
        exact iterations_append_of_quiet fun obs hobs => Observation.quiet_of_ofEvent (htr obs hobs)
    | drained now hpc hqueue =>
        exact hI.of_quiet rfl rfl fun time htime => by rw [hpc]; exact htime
    | command now hpc cmd queue hqueue =>
        refine hI.of_quiet rfl ?_ fun time htime => by rw [hpc]; exact htime
        exact iterations_append_of_quiet (List.forall_mem_singleton.mpr fun its => rfl)
    | shutdown now hpc queue hqueue => exact hI.of_quiet rfl rfl nofun
    | actionsDone now hpc service hnext =>
        refine hI.of_quiet rfl ?_ nofun
        exact iterations_append_of_quiet (List.forall_mem_singleton.mpr fun its => rfl)
    | action now hpc action service hnext result rt hact =>
        have hnow : s.pc.time = some now := by
          rw [hpc]
          rfl
        exact hI.acted hpc (time_lt_of_reachable hreach hnow) hact
    | exited hpc => exact hI.of_quiet rfl rfl nofun
    | panicked input p hp => exact hI.of_quiet rfl rfl nofun

/-! ## Firing -/

/-- **Timers fire exactly.**  An iteration calls `handle_timer` at most once.  It does so if
and only if an earlier iteration set a timer whose deadline is at or before the clock
reading of this one and after the reading of every iteration strictly between the two. -/
theorem timers_fire_exactly {s : System H P L T C EL ET}
    (hs : (reactor prof engine).Reachable Lts.anyLabel s) {k : ℕ} {it : Iteration}
    (hk : s.iterations[k]? = some it) :
    it.fired ≤ 1 ∧
    (0 < it.fired ↔ ∃ j < k, ∃ r, s.iterations[j]? = some r ∧ ∃ d ∈ r.set,
      r.now + d.asMillis ≤ it.now ∧ ∀ (i : ℕ) (r' : Iteration), j < i → i < k →
        s.iterations[i]? = some r' → r'.now < r.now + d.asMillis) := by
  obtain ⟨honce, hdue⟩ := (timed_of_reachable hs).exact k it hk
  refine ⟨honce, ?_⟩
  rw [hdue, List.map_take, Agenda.due_iff]
  constructor
  · rintro ⟨j, hj, r, hr, t, ht, hle, hlater⟩
    obtain ⟨u, hu, rfl⟩ := Thread.getElem?_rounds.mp hr
    obtain ⟨d, hd, rfl⟩ := List.mem_map.mp ht
    refine ⟨j, hj, u, hu, d, hd, hle, fun i r' hji hik hr' => ?_⟩
    exact hlater i r'.round hji hik (Thread.getElem?_rounds.mpr ⟨r', hr', rfl⟩)
  · rintro ⟨j, hj, u, hu, d, hd, hle, hlater⟩
    refine ⟨j, hj, u.round, Thread.getElem?_rounds.mpr ⟨u, hu, rfl⟩, u.now + d.asMillis,
      List.mem_map.mpr ⟨d, hd, rfl⟩, hle, fun i r' hji hik hr' => ?_⟩
    obtain ⟨u', hu', rfl⟩ := Thread.getElem?_rounds.mp hr'
    exact hlater i u' hji hik hu'

end

/-- A timer that is set in the first iteration, is not due in the second and fires in the
third. -/
theorem timers_fire_exactly_third : ∃ s : Errands.Sys,
    (reactor .release Poller.new).Reachable Lts.anyLabel s ∧
    s.iterations.map Iteration.now = [1000, 1999, 2000] ∧
    ∃ it, s.iterations[2]? = some it ∧ it.fired = 1 ∧ it.fired ≤ 1 ∧
    (0 < it.fired ↔ ∃ j < 2, ∃ r, s.iterations[j]? = some r ∧ ∃ d ∈ r.set,
      r.now + d.asMillis ≤ it.now ∧ ∀ (i : ℕ) (r' : Iteration), j < i → i < 2 →
        s.iterations[i]? = some r' → r'.now < r.now + d.asMillis) := by
  have hrun : Lts.exec (System.step .release) Lts.anyLabel Errands.boot
      [.controller 0 (.wake true),
        .controller 0 (.send (.cmd (.setTimer (Duration.fromMillis 1000))) true),
        .controller 0 (.wake true), .turn (.start [] []),
        .turn (.poll (.ready [Errands.wakerEvent])), .turn .event, .turn .event, .turn .command,
        .turn .command, .turn .action, .turn .action,
        .clock (some (Duration.fromMillis 1999)), .turn (.start [] []), .turn (.poll (.ready [])),
        .turn .event, .turn .action, .clock (some (Duration.fromMillis 2000)),
        .turn (.start [] []), .turn (.poll (.ready []))] = some _ := rfl
  have hs := Errands.reachable_of_exec hrun
  exact ⟨_, hs, rfl, _, rfl, rfl, timers_fire_exactly hs rfl⟩

/-! ## Early timers -/

/-- The duration of the timer that the service is about to ask for. -/
def System.request [Handler H L T C EL ET] (s : System H P L T C EL ET) : Option Duration :=
  (Handler.next s.runtime.service).1.bind Action.timer

/-- The clock has moved on since the iteration began. -/
def System.Late (s : System H P L T C EL ET) : Prop :=
  ∃ reading ∈ s.clock, ∃ now ∈ s.pc.time, now < reading.asMillis

instance (s : System H P L T C EL ET) : Decidable s.Late :=
  inferInstanceAs (Decidable (∃ reading ∈ s.clock, ∃ now ∈ s.pc.time, now < reading.asMillis))

/-- The condition that timers are set while the clock still shows the time of the
iteration. -/
abbrev OnTime [Handler H L T C EL ET] : System H P L T C EL ET → Label A C → Prop :=
  Lts.demand Label.atAction fun s _ => s.request ≠ none → ¬ s.Late

/-- The assumption that the clock never goes back. -/
abbrev MonotoneClock : System H P L T C EL ET → Label A C → Prop :=
  Lts.demand Label.atClock fun s reading =>
    ∀ old ∈ s.clock, ∃ new ∈ reading, old.asMillis ≤ new.asMillis

section

variable [Handler H L T C EL ET] [Resource L EL] [Resource T ET] [Poll P A]

/-- The service asks for a timer of the duration `d` in the iteration with the time `now`,
while the clock reads `m`. -/
structure System.Sets (prof : Profile) (s s' : System H P L T C EL ET) (d : Duration)
    (now m : ℕ) : Prop where
  iteration : s.pc = .actions now
  request : s.request = some d
  clock : Timestamp.now s.clock = .ok m
  step : s.step prof (.turn .action) = some s'

/-- The check of the iteration with the time `now` removes the deadline `t` as expired. -/
structure System.Strikes (prof : Profile) (s s' : System H P L T C EL ET) (answer : A)
    (t now : ℕ) : Prop where
  step : s.step prof (.turn (.poll answer)) = some s'
  iteration : s'.pc = .events now false
  pending : t ∈ s.runtime.timeouts.timeouts
  removed : t ∉ s'.runtime.timeouts.timeouts

/-- In some run under the guard `G` the service asks for a timer of the duration `d` while
the clock reads `m`, and the deadline of that timer is removed later in an iteration with
the time `now'`. -/
inductive Expires (prof : Profile) (engine : P)
    (G : System H P L T C EL ET → Label A C → Prop) (d : Duration) (m now' : ℕ) : Prop
  | run (s₁ s₂ s₃ s₄ : System H P L T C EL ET) (now : ℕ) (answer : A)
      (reach : (reactor prof engine).Reachable G s₁)
      (hset : G s₁ (.turn .action)) (sets : s₁.Sets prof s₂ d now m)
      (later : (reactor prof engine).Steps G s₂ s₃)
      (hcheck : G s₃ (.turn (.poll answer)))
      (strikes : s₃.Strikes prof s₄ answer (now + d.asMillis) now')

variable {prof : Profile} {engine : P}

/-- A clock that is not late reads at most the time of the iteration. -/
theorem System.Sets.le_iff {s s' : System H P L T C EL ET} {d : Duration} {now m : ℕ}
    (h : s.Sets prof s' d now m) : m ≤ now ↔ OnTime (A := A) s (.turn .action) := by
  obtain ⟨reading, hclock, rfl⟩ := Timestamp.now_eq_ok_iff.mp h.clock
  have hnow : s.pc.time = some now := by
    rw [h.iteration]
    rfl
  have hrequest : s.request ≠ none := by
    rw [h.request]
    exact Option.some_ne_none d
  constructor
  · rintro hle - ⟨reading', hreading', now', hnow', hlt⟩
    rw [hclock, Option.mem_some_iff] at hreading'
    rw [hnow, Option.mem_some_iff] at hnow'
    rw [← hreading', ← hnow'] at hlt
    omega
  · intro hontime
    by_contra hlt
    exact hontime hrequest ⟨reading, hclock, now, hnow, not_le.mp hlt⟩

/-- A check strikes only what is at or before its time. -/
theorem System.Strikes.le {s s' : System H P L T C EL ET} {answer : A} {t now : ℕ}
    (h : s.Strikes prof s' answer t now) : t ≤ now := by
  obtain ⟨hstep, hpc, hmem, hnot⟩ := h
  obtain ⟨th, hturn, rfl⟩ := Option.map_eq_some_iff.mp hstep
  cases Thread.turned_of_turn hturn with
  | polled timeout hpc' answer time hclock fired hfired service rt hrt =>
      cases hpc
      by_contra hlt
      apply hnot
      rw [hrt]
      exact Finset.mem_filter.mpr ⟨hmem, not_le.mp hlt⟩
  | panicked input p hp => cases hpc

/-- Asking for a timer enters its deadline. -/
theorem System.Sets.timeouts_eq {s s' : System H P L T C EL ET} {d : Duration} {now m : ℕ}
    (h : s.Sets prof s' d now m) (hlt : now < 2 ^ 74) :
    s'.runtime.timeouts.timeouts = insert (now + d.asMillis) s.runtime.timeouts.timeouts := by
  obtain ⟨hpc, hrequest, -, hstep⟩ := h
  obtain ⟨th, hturn, rfl⟩ := Option.map_eq_some_iff.mp hstep
  obtain ⟨action, hnext, haction⟩ := Option.bind_eq_some_iff.mp hrequest
  have hsetTimer : action = .setTimer d := by
    cases action <;> cases haction
    rfl
  have hsum : now + d.asMillis < 2 ^ 128 := by
    have := d.asMillis_lt
    omega
  -- the sum does not overflow, so the action succeeds
  simp only [Thread.turn, hpc, Runtime.handleNext] at hturn
  generalize Handler.next s.runtime.service = next at hturn hnext
  obtain ⟨answer, service⟩ := next
  cases hnext
  rw [hsetTimer] at hturn
  simp only [Runtime.handleAction, Runtime.note, Timer.setTimeout_eq hsum] at hturn
  cases hturn
  rfl

/-- Only a change of the clock changes what it reads. -/
theorem System.clock_of_step {s s' : System H P L T C EL ET} {label : Label A C}
    (hlabel : label.atClock = none) (h : s.step prof label = some s') : s'.clock = s.clock := by
  cases label with
  | clock reading => cases hlabel
  | breakWaker broken =>
      cases h
      rfl
  | controller i move =>
      cases moved_of_controllerStep h with
      | woke op slot hi ok => rw [wakeStep_eq]
      | _ => rfl
  | turn input =>
      obtain ⟨th, -, rfl⟩ := Option.map_eq_some_iff.mp h
      rfl

/-- A clock that never goes back reads no less at the end of a run. -/
theorem clock_le_of_steps {s s' : System H P L T C EL ET}
    (hrun : (reactor prof engine).Steps MonotoneClock s s') {old : Duration}
    (hold : old ∈ s.clock) : ∃ new ∈ s'.clock, old.asMillis ≤ new.asMillis := by
  refine hrun.preserves (I := fun u => ∃ new ∈ u.clock, old.asMillis ≤ new.asMillis) ?_
    ⟨old, hold, le_rfl⟩
  rintro u label u' ⟨new, hnew, hle⟩ hG hstep
  cases hclock : label.atClock with
  | none => exact ⟨new, by rwa [System.clock_of_step hclock hstep], hle⟩
  | some reading =>
      obtain ⟨new', hnew', hle'⟩ := Lts.demand_iff.mp hG reading hclock new hnew
      cases label with
      | clock reading' =>
          cases hclock
          cases hstep
          exact ⟨new', hnew', hle.trans hle'⟩
      | _ => cases hclock

/-- The time of a check is the reading of the clock. -/
theorem System.Strikes.clock {s s' : System H P L T C EL ET} {answer : A} {t now : ℕ}
    (h : s.Strikes prof s' answer t now) : Timestamp.now s.clock = .ok now := by
  obtain ⟨hstep, hpc, -, -⟩ := h
  obtain ⟨th, hturn, rfl⟩ := Option.map_eq_some_iff.mp hstep
  cases Thread.turned_of_turn hturn with
  | polled timeout hpc' answer time hclock fired hfired service rt hrt =>
      cases hpc
      exact hclock
  | panicked input p hp => cases hpc

/-- **When timers do not fire early.**  In every run in which timers are only set while the
clock still shows the time of the iteration, the deadline of a timer of the duration `d`
that the service asks for while the clock reads `m` is removed at `m + d` or later.  The
condition is exact: whatever came before, every check that removes the deadline is at
`m + d` or later if and only if the clock was not late when the timer was set.  These checks
may be at any time; on a clock that never goes back none comes before `m`, so there the
condition is not necessary for a timer of 0 ms. -/
theorem timers_not_early_iff :
    (∀ (d : Duration) (m now' : ℕ),
      Expires prof engine (OnTime : System H P L T C EL ET → Label A C → Prop) d m now' →
        m + d.asMillis ≤ now') ∧
    (∀ (s s' : System H P L T C EL ET) (d : Duration) (now m : ℕ),
      (reactor prof engine).Reachable Lts.anyLabel s → s.Sets prof s' d now m →
      ((∀ time < 2 ^ 128 - 1, ∀ count left,
          s'.runtime.timeouts.removeExpiredBy prof time = .ok (count, left) →
            now + d.asMillis ∉ left.timeouts → m + d.asMillis ≤ time) ↔
        OnTime (A := A) s (.turn .action))) ∧
    (∀ (d : Duration) (m now' : ℕ),
      Expires prof engine (MonotoneClock : System H P L T C EL ET → Label A C → Prop) d m now' →
        m ≤ now') := by
  refine ⟨?_, ?_, ?_⟩
  · rintro d m now' ⟨s₁, s₂, s₃, s₄, now, answer, reach, hset, sets, later, hcheck, strikes⟩
    have hm : m ≤ now := sets.le_iff.mpr hset
    calc m + d.asMillis ≤ now + d.asMillis := Nat.add_le_add_right hm _
      _ ≤ now' := strikes.le
  · intro s s' d now m hs sets
    have hnow : s.pc.time = some now := by
      rw [sets.iteration]
      rfl
    have hlt := time_lt_of_reachable hs hnow
    have hd := d.asMillis_lt
    rw [← sets.le_iff]
    constructor
    · -- the check at the deadline itself removes it
      intro h
      have hsum : now + d.asMillis < 2 ^ 128 - 1 := by omega
      have hle := h (now + d.asMillis) hsum _ _ (Timer.removeExpiredBy_eq (by omega))
        fun hmem => lt_irrefl _ (Finset.mem_filter.mp hmem).2
      exact Nat.le_of_add_le_add_right hle
    · intro hm time htime count left hremove hnot
      rw [Timer.removeExpiredBy_eq (by omega)] at hremove
      cases hremove
      have hmem : now + d.asMillis ∈ s'.runtime.timeouts.timeouts := by
        rw [sets.timeouts_eq hlt]
        exact Finset.mem_insert_self _ _
      have hle : now + d.asMillis ≤ time := by
        by_contra hlate
        exact hnot (Finset.mem_filter.mpr ⟨hmem, not_le.mp hlate⟩)
      omega
  · rintro d m now' ⟨s₁, s₂, s₃, s₄, now, answer, -, hset, sets, later, -, strikes⟩
    obtain ⟨old, hold, rfl⟩ := Timestamp.now_eq_ok_iff.mp sets.clock
    obtain ⟨new, hnew, rfl⟩ := Timestamp.now_eq_ok_iff.mp strikes.clock
    have hrun : (reactor prof engine).Steps MonotoneClock s₁ s₃ :=
      Relation.ReflTransGen.head ⟨_, hset, sets.step⟩ later
    obtain ⟨new', hnew', hle⟩ := clock_le_of_steps hrun hold
    cases hnew.symm.trans hnew'
    exact hle

end

/-- A timer of one second that is set on time. -/
theorem timers_not_early_on_time :
    Expires (A := Popol.Answer) .release Poller.new
      (OnTime : Errands.Sys → Errands.Lab → Prop) (Duration.fromMillis 1000) 1000 2000 ∧
    1000 + (Duration.fromMillis 1000).asMillis ≤ 2000 := by
  have hreach : Lts.exec (System.step .release) OnTime Errands.boot
      [.controller 0 (.wake true),
        .controller 0 (.send (.cmd (.setTimer (Duration.fromMillis 1000))) true),
        .controller 0 (.wake true), .turn (.start [] []),
        .turn (.poll (.ready [Errands.wakerEvent])), .turn .event, .turn .event, .turn .command,
        .turn .command] = some _ := rfl
  have h : Expires (A := Popol.Answer) .release Poller.new
      (OnTime : Errands.Sys → Errands.Lab → Prop) (Duration.fromMillis 1000) 1000 2000 := by
    exact .run _ _ _ _ 1000 (.ready []) (Errands.reachable_of_exec hreach) (by decide)
      ⟨rfl, rfl, rfl, rfl⟩ (Lts.steps_of_exec (by exact rfl : Lts.exec _ OnTime _
        [.turn .action, .clock (some (Duration.fromMillis 2000)), .turn (.start [] [])] = some _))
      trivial (by exact ⟨rfl, rfl, by decide, by decide⟩)
  exact ⟨h, timers_not_early_iff.1 _ _ _ h⟩

/-- A timer of one second that the service asks for when its callbacks have taken a second
expires at once, on a clock that never goes back. -/
theorem timer_fires_early :
    Expires (A := Popol.Answer) .release Poller.new
      (MonotoneClock : Errands.Sys → Errands.Lab → Prop) (Duration.fromMillis 1000) 2000 2000 ∧
    ¬ 2000 + (Duration.fromMillis 1000).asMillis ≤ 2000 := by
  have hreach : Lts.exec (System.step .release) MonotoneClock Errands.boot
      [.controller 0 (.wake true),
        .controller 0 (.send (.cmd (.setTimer (Duration.fromMillis 1000))) true),
        .controller 0 (.wake true), .turn (.start [] []),
        .turn (.poll (.ready [Errands.wakerEvent])), .turn .event, .turn .event, .turn .command,
        .turn .command, .clock (some (Duration.fromMillis 2000))] = some _ := rfl
  constructor
  · exact .run _ _ _ _ 1000 (.ready []) (Errands.reachable_of_exec hreach) trivial
      ⟨rfl, rfl, rfl, rfl⟩ (Lts.steps_of_exec (by exact rfl : Lts.exec _ MonotoneClock _
        [.turn .action, .turn (.start [] [])] = some _))
      trivial (by exact ⟨rfl, rfl, by decide, by decide⟩)
  · decide

end IoReactor
