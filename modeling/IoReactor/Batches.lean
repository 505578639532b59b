/-
# A batch of events (reactor.rs, `handle_events`)

`Runtime.handleEvents` is the whole loop of `handle_events`.  On a batch of events about
distinct registered ids its effect has a closed form, `Runtime.Dispatched`: each event
acts on the entry of its own id as it was before the batch (`Entry.after`) and adds its
own piece to the trace (`Entry.dispatch`), so the order of the batch shows in the order
of these pieces only.
-/
import IoReactor.Frames

namespace IoReactor

variable {H P A L T C EL ET : Type}

/-! ## The loop -/

/-- The run takes turns of the loop of `handle_events` only. -/
abbrev EventPhase (_ : System H P L T C EL ET) (label : Label A C) : Prop :=
  label.atEvent.isSome

namespace Runtime

section

variable [Handler H L T C EL ET] [Resource L EL] [Resource T ET] [Poll P A]

/-- The loop of `Runtime::handle_events`, for at most `fuel` turns; `none` when it has not
ended by then.  It accumulates the flag `awoken` and the number of resets of the waker. -/
def handleEvents (self : Runtime H P L T C EL ET) (time : ℕ) :
    ℕ → Bool × ℕ → Except Panic (Option ((Bool × ℕ) × Runtime H P L T C EL ET))
  | 0, _ => .ok none
  | fuel + 1, (awoken, resets) =>
      match Poll.next self.poller with
      | none => .ok (some ((awoken, resets), self))
      | some ((id, res), poller) => do
          let (woken, self) ← { self with poller := poller }.handleEvent id res time
          self.handleEvents time fuel (awoken || woken, if woken then resets + 1 else resets)

/-- The loop as turns of the reactor thread. -/
theorem steps_of_handleEvents {prof : Profile} {engine : P} {time fuel : ℕ}
    {s : System H P L T C EL ET} {rt : Runtime H P L T C EL ET} {acc acc' : Bool × ℕ}
    (hpc : s.pc = .events time acc.1)
    (h : s.runtime.handleEvents time fuel acc = .ok (some (acc', rt))) :
    (reactor prof engine).Steps EventPhase s { s with
      pc := if acc'.1 then .commands time else .actions time
      runtime := rt } := by
  induction fuel generalizing s acc with
  | zero => cases h
  | succ fuel ih =>
      obtain ⟨awoken, resets⟩ := acc
      rw [handleEvents] at h
      cases hnext : Poll.next s.runtime.poller with
      | none =>
          rw [hnext] at h
          cases h
          refine Relation.ReflTransGen.single ⟨.turn .event, rfl, ?_⟩
          show Option.map _ (s.toThread.turn prof s.clock .event) = _
          simp only [Thread.turn, hpc, hnext]
          rfl
      | some out =>
          obtain ⟨⟨id, res⟩, poller⟩ := out
          rw [hnext] at h
          obtain ⟨⟨woken, rt'⟩, hev, hrest⟩ := exists_of_bind_eq_ok h
          have hstep : System.step prof s (.turn .event) = some { s with
              pc := .events time (awoken || woken)
              runtime := rt' } := by
            show Option.map _ (s.toThread.turn prof s.clock .event) = _
            simp only [Thread.turn, hpc, hnext]
            rw [hev]
            rfl
          refine Relation.ReflTransGen.head ⟨.turn .event, rfl, hstep⟩ ?_
          exact @ih { s with pc := .events time (awoken || woken), runtime := rt' }
            (awoken || woken, if woken then resets + 1 else resets) rfl hrest

end

/-! ## What one event does, in closed form -/

section

variable [Handler H L T C EL ET]

/-- The service after it has seen the callbacks of a piece of the trace. -/
def replay (service : H) (tr : List (Observation L T C EL ET)) : H :=
  tr.foldl (fun service obs => match obs with
    | .call c => Handler.react service c
    | _ => service) service

/-- The service sees the pieces of the trace one after the other. -/
theorem replay_append (service : H) (tr tr' : List (Observation L T C EL ET)) :
    replay service (tr ++ tr') = replay (replay service tr) tr' :=
  List.foldl_append

/-- The piece of the trace for the flags `ios`: each flag is handed to the resource, and
the event it returns to the callback `onEvent`. -/
def ioTrace {R E : Type} [Resource R E] (id : ResourceId) (onEvent : E → Call L T C EL ET) :
    R → List Io → List (Observation L T C EL ET)
  | _, [] => []
  | res, io :: ios =>
      .handleIo id io ::
        ((Resource.handleIo res io).1.toList.map fun event => .call (onEvent event)) ++
        ioTrace id onEvent (Resource.handleIo res io).2 ios

/-- The inner loop of `handle_events` in closed form. -/
theorem ioLoop_eq {R E : Type} [Resource R E] (id : ResourceId)
    (onEvent : E → Call L T C EL ET) (rt : Runtime H P L T C EL ET) (res : R) (ios : List Io) :
    (ioLoop id onEvent rt res ios).1 = { rt with
      service := replay rt.service (ioTrace id onEvent res ios)
      trace := rt.trace ++ ioTrace id onEvent res ios } := by
  induction ios generalizing rt res with
  | nil => simp [ioLoop, ioTrace, replay]
  | cons io ios ih =>
      rw [ioLoop, ioTrace]
      cases hio : Resource.handleIo res io with
      | mk event res' =>
          cases event with
          | none =>
              simp only
              rw [ih]
              simp [note, replay]
          | some event =>
              simp only
              rw [ih]
              simp [note, call, replay]

end

end Runtime

namespace Entry

variable [Resource L EL] [Resource T ET]

/-- What is held under an id after an event: the resource has seen the flags, or it is
taken out. -/
def after (entry : Entry L T) : Except IoFail IoType → Entry L T
  | .ok io => ⟨entry.listener.map (Runtime.afterIo · io.toList),
      entry.transport.map (Runtime.afterIo · io.toList), entry.source⟩
  | .error _ => .empty

variable [Handler H L T C EL ET]

/-- The piece of the trace for an event: the flags and the events they return, or the
one report of the disconnect. -/
def dispatch (entry : Entry L T) (time : ℕ) (id : ResourceId) (res : Except IoFail IoType) :
    List (Observation L T C EL ET) :=
  match entry.listener, entry.transport, res with
  | some listener, _, .ok io =>
      Runtime.ioTrace id (fun event => .handleListenerEvent id event time) listener io.toList
  | some listener, _, .error _ => [.call (.handleError (.listenerDisconnect id listener))]
  | none, some transport, .ok io =>
      Runtime.ioTrace id (fun event => .handleTransportEvent id event time) transport io.toList
  | none, some transport, .error _ =>
      [.call (.handleError (.transportDisconnect id transport))]
  | none, none, _ => []

end Entry

/-! ## Entries in a registry that is in order -/

namespace Runtime

variable {rt rt' : Runtime H Poller L T C EL ET}

/-- The entry of a listener in a registry that is in order. -/
theorem entry_listener (h : Registry rt) {id : ResourceId} {listener : L}
    (hlook : rt.listeners.lookup id = some listener) :
    rt.entry id = ⟨some listener, none, rt.poller.poll.lookup id⟩ := by
  have hno : rt.transports.lookup id = none :=
    AList.lookup_eq_none.mpr (h.disjoint id (mem_of_lookup hlook))
  exact Entry.ext hlook hno rfl

/-- The entry of what is not a listener. -/
theorem entry_transport {id : ResourceId} (hno : id ∉ rt.listeners) {transport : T}
    (hlook : rt.transports.lookup id = some transport) :
    rt.entry id = ⟨none, some transport, rt.poller.poll.lookup id⟩ :=
  Entry.ext (AList.lookup_eq_none.mpr hno) hlook rfl

/-- The entry of the waker in a registry that is in order. -/
theorem entry_waker (h : Registry rt) :
    rt.entry ResourceId.WAKER = ⟨none, none, rt.poller.poll.lookup ResourceId.WAKER⟩ := by
  obtain ⟨hl, ht⟩ := h.waker_notMem
  exact Entry.ext (AList.lookup_eq_none.mpr hl) (AList.lookup_eq_none.mpr ht) rfl

/-- A source other than the waker's has a resource in its entry. -/
theorem entry_of_source (h : Registry rt) {id : ResourceId} (hkey : id ∈ rt.poller.poll)
    (hid : id ≠ ResourceId.WAKER) :
    (rt.entry id).listener ≠ none ∨ (rt.entry id).transport ≠ none := by
  rcases (h.sources id).mp hkey with hw | hl | ht
  · exact absurd hw hid
  · exact Or.inl fun hnone => AList.lookup_eq_none.mp hnone hl
  · exact Or.inr fun hnone => AList.lookup_eq_none.mp hnone ht

section

variable [Handler H L T C EL ET] [Resource L EL] [Resource T ET]

/-- The effect of an event on its entry, on the trace and on the service. -/
theorem Handled.effect (hreg : Registry rt) {id : ResourceId} {res : Except IoFail IoType}
    {time : ℕ} {woken : Bool} (h : Handled rt id res time woken rt') :
    woken = decide (id = .WAKER) ∧ rt'.poller.events = rt.poller.events ∧
      rt'.poller.idGen = rt.poller.idGen ∧ rt'.entry id = (rt.entry id).after res ∧
      rt'.trace = rt.trace ++ (rt.entry id).dispatch time id res ∧
      rt'.service = replay rt.service ((rt.entry id).dispatch time id res) := by
  cases h with
  | waker hid io hres =>
      subst hid hres
      rw [entry_waker hreg]
      refine ⟨rfl, rfl, rfl, ?_, (List.append_nil _).symm, rfl⟩
      show rt.entry .WAKER = _
      exact entry_waker hreg
  | listenerIo hid io hres listener hlook =>
      subst hres
      rw [entry_listener hreg hlook, Runtime.listenerIo, ioLoop_eq, ioLoop_snd]
      refine ⟨(decide_eq_false hid).symm, rfl, rfl, ?_, rfl, rfl⟩
      have hno : rt.transports.lookup id = none :=
        AList.lookup_eq_none.mpr (hreg.disjoint id (mem_of_lookup hlook))
      exact Entry.ext (AList.lookup_insert _) hno rfl
  | listenerGone hid err hres listener hlook =>
      subst hres
      rw [entry_listener hreg hlook]
      refine ⟨(decide_eq_false hid).symm, rfl, rfl, ?_, rfl, rfl⟩
      have hno : rt.transports.lookup id = none :=
        AList.lookup_eq_none.mpr (hreg.disjoint id (mem_of_lookup hlook))
      exact Entry.ext (AList.lookup_erase _ _) hno (AList.lookup_erase _ _)
  | transportIo hid hno io hres transport hlook =>
      subst hres
      rw [entry_transport hno hlook, Runtime.transportIo, ioLoop_eq, ioLoop_snd]
      refine ⟨(decide_eq_false hid).symm, rfl, rfl, ?_, rfl, rfl⟩
      exact Entry.ext (AList.lookup_eq_none.mpr hno) (AList.lookup_insert _) rfl
  | transportGone hid hno err hres transport hlook =>
      subst hres
      rw [entry_transport hno hlook]
      refine ⟨(decide_eq_false hid).symm, rfl, rfl, ?_, rfl, rfl⟩
      exact Entry.ext (AList.lookup_eq_none.mpr hno) (AList.lookup_erase _ _)
        (AList.lookup_erase _ _)

/-- An event about the waker, in good order, or about a registered resource is handled. -/
theorem exists_handled {id : ResourceId} {res : Except IoFail IoType} {time : ℕ}
    (hwaker : id = .WAKER → rt.waker.broken = false ∧ ∃ io, res = .ok io)
    (hknown : id ≠ .WAKER → id ∈ rt.listeners ∨ id ∈ rt.transports) :
    ∃ woken rt', rt.handleEvent id res time = .ok (woken, rt') := by
  unfold handleEvent
  by_cases hid : id = .WAKER
  · obtain ⟨hreset, io, rfl⟩ := hwaker hid
    refine ⟨true, { rt with waker := { rt.waker with signal := false } }, ?_⟩
    rw [if_pos hid]
    simp only [Waker.reset, hreset]
    rfl
  · rw [if_neg hid]
    by_cases hl : id ∈ rt.listeners
    · obtain ⟨listener, hlook⟩ := exists_lookup hl
      rw [if_pos hl]
      cases res with
      | ok io =>
          simp only [hlook]
          exact ⟨_, _, rfl⟩
      | error err =>
          simp only [unregisterListener_of_lookup hlook]
          exact ⟨_, _, rfl⟩
    · obtain ⟨transport, hlook⟩ := exists_lookup ((hknown hid).resolve_left hl)
      rw [if_neg hl, if_pos (mem_of_lookup hlook)]
      cases res with
      | ok io =>
          simp only [hlook]
          exact ⟨_, _, rfl⟩
      | error err =>
          simp only [unregisterTransport_of_lookup hlook]
          exact ⟨_, _, rfl⟩

end

end Runtime

/-! ## The whole batch -/

/-- The flag that an entry of the trace hands to the resource `id`. -/
def Observation.ioOf (id : ResourceId) : Observation L T C EL ET → Option Io
  | .handleIo id' io => if id' = id then some io else none
  | _ => none

/-- What the popol engine is about to report, from the head of its queue. -/
def Poller.reported (self : Poller) : List (ResourceId × Except IoFail IoType) :=
  self.events.map fun event => (event.key, Poller.resultOf event)

/-- Another order of the batch is in order as well. -/
theorem Batch.perm {poller : Poller} (hb : Batch poller) {events : List Popol.Event}
    (hperm : events.Perm poller.events) : Batch { poller with events := events } where
  nodup := (hperm.map _).nodup_iff.mpr hb.nodup
  registered event hmem := hb.registered event (hperm.mem_iff.mp hmem)

namespace Runtime

variable [Handler H L T C EL ET] [Resource L EL] [Resource T ET]
variable {rt rt' : Runtime H Poller L T C EL ET}

/-- The pieces of the trace for the pending batch. -/
def dispatches (rt : Runtime H Poller L T C EL ET) (time : ℕ) :
    List (Observation L T C EL ET) :=
  rt.poller.reported.flatMap fun r => (rt.entry r.1).dispatch time r.1 r.2

/-- `rt'` is `rt` after the whole pending batch. -/
structure Dispatched (rt : Runtime H Poller L T C EL ET) (time : ℕ)
    (rt' : Runtime H Poller L T C EL ET) : Prop where
  /-- the queue is empty -/
  queue : rt'.poller.events = []
  /-- each event has acted on the entry of its id -/
  handled : ∀ r ∈ rt.poller.reported, rt'.entry r.1 = (rt.entry r.1).after r.2
  /-- the other entries are unchanged -/
  others : ∀ id, (∀ r ∈ rt.poller.reported, r.1 ≠ id) → rt'.entry id = rt.entry id
  /-- each event has added its piece to the trace -/
  trace : rt'.trace = rt.trace ++ rt.dispatches time
  /-- the service has seen the callbacks of these pieces and no others -/
  service : rt'.service = replay rt.service (rt.dispatches time)
  /-- the waker is reset by its event -/
  waker : rt'.waker = if ResourceId.WAKER ∈ rt.poller.events.map Popol.Event.key
    then { rt.waker with signal := false } else rt.waker
  /-- the timers, the control channel and the id generator are unchanged -/
  timeouts : rt'.timeouts = rt.timeouts
  ctlRecv : rt'.ctlRecv = rt.ctlRecv
  idGen : rt'.poller.idGen = rt.poller.idGen

/-- The waker can be reset if the batch has an event for it, which is then no error. -/
def WakerReady (rt : Runtime H Poller L T C EL ET) : Prop :=
  ∀ r ∈ rt.poller.reported, r.1 = ResourceId.WAKER →
    rt.waker.broken = false ∧ ∃ io, r.2 = .ok io

/-- Handling the head of the batch and then the rest. -/
theorem Dispatched.cons {time : ℕ} {event : Popol.Event} {events : List Popol.Event}
    {rt₁ rt₂ : Runtime H Poller L T C EL ET} (hreg : Registry rt) (hbatch : Batch rt.poller)
    (hevents : rt.poller.events = event :: events) {woken : Bool}
    (hrt₁ : rt₁ = { rt with poller := { rt.poller with events := events } })
    (hev : Handled rt₁ event.key (Poller.resultOf event) time woken rt₂)
    (hrest : Dispatched rt₂ time rt') : Dispatched rt time rt' := by
  have hreg₁ : Registry rt₁ := by
    subst hrt₁
    exact hreg.of_keys (fun _ => Iff.rfl) (fun _ => Iff.rfl) (fun _ => Iff.rfl) rfl rfl
  obtain ⟨hwoken, hqueue, hgen, hentry, htrace, hservice⟩ := hev.effect hreg₁
  obtain ⟨hctl, htimeouts, hwaker, -⟩ := hev.frame
  have hsame : ∀ id, rt₁.entry id = rt.entry id := by
    subst hrt₁
    exact fun id => rfl
  have hevents₁ : rt₁.poller.events = events := by rw [hrt₁]
  have hreported : rt.poller.reported =
      (event.key, Poller.resultOf event) :: rt₂.poller.reported := by
    rw [Poller.reported, hevents, List.map_cons, Poller.reported, hqueue, hevents₁]
  -- the key of the head does not occur in the rest
  have hnew : ∀ r ∈ rt₂.poller.reported, r.1 ≠ event.key := by
    intro r hr heq
    have hnodup := hbatch.nodup
    rw [hevents, List.map_cons, List.nodup_cons] at hnodup
    rw [Poller.reported, hqueue, hevents₁] at hr
    obtain ⟨event', hmem, rfl⟩ := List.mem_map.mp hr
    exact hnodup.1 (heq ▸ List.mem_map_of_mem hmem)
  have hlater : ∀ id, id ≠ event.key → rt₂.entry id = rt.entry id := fun id hne =>
    (hev.entry_ne hne).trans (hsame id)
  have hdispatches : rt.dispatches time =
      (rt.entry event.key).dispatch time event.key (Poller.resultOf event) ++
        rt₂.dispatches time := by
    rw [dispatches, hreported, List.flatMap_cons, dispatches]
    congr 1
    apply List.flatMap_congr
    intro r hr
    rw [hlater r.1 (hnew r hr)]
  rw [hsame] at hentry htrace hservice
  constructor
  · exact hrest.queue
  · intro r hr
    rw [hreported] at hr
    rcases List.mem_cons.mp hr with rfl | hr
    · rw [hrest.others _ hnew]
      exact hentry
    · rw [hrest.handled r hr, hlater r.1 (hnew r hr)]
  · intro id hid
    rw [hreported] at hid
    obtain ⟨hhead, hno⟩ := List.forall_mem_cons.mp hid
    rw [hrest.others id hno, hlater id (Ne.symm hhead)]
  · rw [hrest.trace, htrace, hdispatches, hrt₁, List.append_assoc]
  · rw [hrest.service, hservice, hdispatches, hrt₁, replay_append]
  · rw [hrest.waker, hwaker, hwoken, hqueue, hevents₁, hevents, hrt₁, List.map_cons]
    -- a second reset would change nothing
    by_cases hkey : event.key = ResourceId.WAKER
    · simp [hkey]
    · simp [hkey, Ne.symm hkey]
  · rw [hrest.timeouts, htimeouts, hrt₁]
  · rw [hrest.ctlRecv, hctl, hrt₁]
  · rw [hrest.idGen, hgen, hrt₁]

/-- The waker stays ready for the rest of the batch. -/
theorem WakerReady.cons {time : ℕ} {event : Popol.Event} {events : List Popol.Event}
    {rt₁ rt₂ : Runtime H Poller L T C EL ET} (hready : rt.WakerReady)
    (hevents : rt.poller.events = event :: events) {woken : Bool}
    (hrt₁ : rt₁ = { rt with poller := { rt.poller with events := events } })
    (hqueue : rt₂.poller.events = rt₁.poller.events)
    (hev : Handled rt₁ event.key (Poller.resultOf event) time woken rt₂) : rt₂.WakerReady := by
  have hbroken : rt₂.waker.broken = rt.waker.broken := by
    rw [hev.frame.2.2.1, hrt₁]
    cases woken <;> rfl
  intro r hr hid
  rw [hbroken]
  apply hready r ?_ hid
  rw [Poller.reported, hqueue, hrt₁] at hr
  rw [Poller.reported, hevents]
  exact List.mem_cons_of_mem _ hr

/-- **The loop of `handle_events` in closed form.**  On a batch in order it ends with the
queue empty, after one turn for each event and one more; it counts the events of the
waker, and has the closed form as its effect. -/
theorem handleEvents_eq (time : ℕ) {fuel : ℕ} (acc : Bool × ℕ) (hreg : Registry rt)
    (hbatch : Batch rt.poller) (hready : rt.WakerReady) (hfuel : rt.poller.events.length < fuel) :
    ∃ rt', rt.handleEvents time fuel acc = .ok (some
        ((acc.1 || decide (ResourceId.WAKER ∈ rt.poller.events.map Popol.Event.key),
          acc.2 + (rt.poller.events.map Popol.Event.key).count ResourceId.WAKER), rt')) ∧
      Dispatched rt time rt' := by
  obtain ⟨awoken, resets⟩ := acc
  -- the induction is on the queue, each turn taking its head
  generalize hevents : rt.poller.events = events
  induction events generalizing rt fuel awoken resets with
  | nil =>
      cases fuel with
      | zero => exact absurd hfuel (Nat.not_lt_zero _)
      | succ fuel =>
          refine ⟨rt, ?_, ⟨hevents, ?_, fun id _ => rfl, ?_, ?_, ?_, rfl, rfl, rfl⟩⟩
          · have hnext : Poll.next rt.poller = none := by
              show Poller.next rt.poller = none
              rw [Poller.next, hevents]
            rw [handleEvents, hnext]
            simp
          · simp [Poller.reported, hevents]
          · simp [dispatches, Poller.reported, hevents]
          · simp [dispatches, Poller.reported, hevents, replay]
          · simp [hevents]
  | cons event events ih =>
      cases fuel with
      | zero => exact absurd hfuel (Nat.not_lt_zero _)
      | succ fuel =>
          have hnext : Poll.next rt.poller = some ((event.key, Poller.resultOf event),
              { rt.poller with events := events }) := by
            show Poller.next rt.poller = _
            rw [Poller.next, hevents]
          obtain ⟨hid, hbatch₁, hkeys, -, -⟩ := hbatch.next hnext
          have hhead : (event.key, Poller.resultOf event) ∈ rt.poller.reported := by
            rw [Poller.reported, hevents]
            exact List.mem_cons_self
          rw [handleEvents, hnext]
          generalize hrt₁ : ({ rt with poller := { rt.poller with events := events } } :
            Runtime H Poller L T C EL ET) = rt₁
          have hreg₁ : Registry rt₁ := by
            rw [← hrt₁]
            exact hreg.of_keys (fun _ => Iff.rfl) (fun _ => Iff.rfl) (fun _ => Iff.rfl) rfl rfl
          obtain ⟨woken, rt₂, hhandle⟩ : ∃ woken rt₂,
              rt₁.handleEvent event.key (Poller.resultOf event) time = .ok (woken, rt₂) := by
            apply exists_handled
            · rw [← hrt₁]
              exact hready _ hhead
            · rw [← hrt₁]
              exact ((hreg.sources event.key).mp hid).resolve_left
          have hev := handled_of_handleEvent hhandle
          obtain ⟨hwoken, hqueue, -⟩ := hev.effect hreg₁
          have hevents₂ : rt₂.poller.events = events := by rw [hqueue, ← hrt₁]
          have hbatch₂ : Batch rt₂.poller := by
            apply Batch.handled ?_ hev
            · rw [← hrt₁]
              exact hkeys
            · rw [← hrt₁]
              exact hbatch₁
          have hlen : rt₂.poller.events.length < fuel := by
            rw [hevents, List.length_cons] at hfuel
            rw [hevents₂]
            omega
          obtain ⟨rt', hloop, hrest⟩ := ih (hreg₁.handled hev) hbatch₂
            (hready.cons hevents hrt₁.symm hqueue hev) hlen (awoken || woken)
            (if woken then resets + 1 else resets) hevents₂
          refine ⟨rt', ?_, hrest.cons hreg hbatch hevents hrt₁.symm hev⟩
          show (do
            let (woken, self) ←
              { rt with poller := { rt.poller with events := events } }.handleEvent
                event.key (Poller.resultOf event) time
            self.handleEvents time fuel (awoken || woken, if woken then resets + 1 else resets)) = _
          rw [hrt₁, hhandle]
          show rt₂.handleEvents time fuel _ = _
          rw [hloop, List.map_cons, List.count_cons, hwoken]
          -- the head counts if it is the event of the waker
          by_cases hkey : event.key = ResourceId.WAKER
          · simp [hkey]
            omega
          · simp [hkey, Ne.symm hkey]

/-! ## The piece of one event -/

omit [Resource L EL] [Resource T ET] in
/-- In the piece of the trace for some flags an entry hands over one of them, or it is the
callback for an event that the resource has returned. -/
theorem mem_ioTrace {R E : Type} [Resource R E] {id : ResourceId} {onEvent : E → Call L T C EL ET}
    {res : R} {ios : List Io} {obs : Observation L T C EL ET}
    (h : obs ∈ ioTrace id onEvent res ios) :
    (∃ io ∈ ios, obs = .handleIo id io) ∨ ∃ event, obs = .call (onEvent event) := by
  induction ios generalizing res with
  | nil => cases h
  | cons io ios ih =>
      rw [ioTrace] at h
      rcases List.mem_append.mp h with h | h
      · rcases List.mem_cons.mp h with rfl | h
        · exact Or.inl ⟨io, List.mem_cons_self, rfl⟩
        · obtain ⟨event, -, rfl⟩ := List.mem_map.mp h
          exact Or.inr ⟨event, rfl⟩
      · rcases ih h with ⟨io', hio', rfl⟩ | hevent
        · exact Or.inl ⟨io', List.mem_cons_of_mem _ hio', rfl⟩
        · exact Or.inr hevent

/-- The piece of the trace for an event is about its id. -/
theorem id_of_mem_dispatch {entry : Entry L T} {time : ℕ} {id : ResourceId}
    {res : Except IoFail IoType} {obs : Observation L T C EL ET}
    (h : obs ∈ entry.dispatch time id res) : obs.id = some id := by
  unfold Entry.dispatch at h
  split at h
  · rcases mem_ioTrace h with ⟨io, -, rfl⟩ | ⟨event, rfl⟩ <;> rfl
  · rw [List.mem_singleton.mp h]
    rfl
  · rcases mem_ioTrace h with ⟨io, -, rfl⟩ | ⟨event, rfl⟩ <;> rfl
  · rw [List.mem_singleton.mp h]
    rfl
  · cases h

/-- The part of a piece that is about an id is all of it, or nothing. -/
theorem filter_dispatch (entry : Entry L T) (time : ℕ) (id id' : ResourceId)
    (res : Except IoFail IoType) :
    ((entry.dispatch time id res : List (Observation L T C EL ET)).filter fun obs =>
      obs.id = some id') = if id = id' then entry.dispatch time id res else [] := by
  split
  · rename_i heq
    subst heq
    apply List.filter_eq_self.mpr
    intro obs hobs
    exact decide_eq_true (id_of_mem_dispatch hobs)
  · rename_i hne
    apply List.filter_eq_nil_iff.mpr
    intro obs hobs heq
    have hid := id_of_mem_dispatch hobs
    rw [of_decide_eq_true heq, Option.some.injEq] at hid
    exact hne hid.symm

omit [Handler H L T C EL ET] in
/-- Among the pieces of a batch in order, those about an id are the piece of its event. -/
theorem filter_dispatches (hbatch : Batch rt.poller) {r : ResourceId × Except IoFail IoType}
    (hr : r ∈ rt.poller.reported) (time : ℕ) :
    (rt.dispatches time).filter (fun obs => obs.id = some r.1) =
      (rt.entry r.1).dispatch time r.1 r.2 := by
  have hnodup : (rt.poller.reported.map Prod.fst).Nodup := by
    rw [Poller.reported, List.map_map]
    exact hbatch.nodup
  rw [dispatches, List.filter_flatMap]
  simp only [filter_dispatch]
  generalize rt.poller.reported = batch at hr hnodup
  induction batch with
  | nil => cases hr
  | cons r' batch ih =>
      rw [List.map_cons, List.nodup_cons] at hnodup
      rw [List.flatMap_cons]
      rcases List.mem_cons.mp hr with rfl | hr
      · -- the others are about other ids
        rw [if_pos rfl, List.flatMap_eq_nil_iff.mpr, List.append_nil]
        intro r' hr'
        apply if_neg
        intro heq
        exact hnodup.1 (heq ▸ List.mem_map_of_mem hr')
      · rw [if_neg, List.nil_append]
        · exact ih hr hnodup.2
        · intro heq
          exact hnodup.1 (heq ▸ List.mem_map_of_mem hr)

/-! ## The flags of a batch -/

omit [Resource L EL] [Resource T ET] in
/-- The flags in a piece of the trace are those the loop goes through, in order. -/
theorem filterMap_ioTrace {R E : Type} [Resource R E] (id : ResourceId)
    (onEvent : E → Call L T C EL ET) (res : R) (ios : List Io) :
    (ioTrace id onEvent res ios).filterMap (Observation.ioOf id) = ios := by
  induction ios generalizing res with
  | nil => rfl
  | cons io ios ih =>
      rw [ioTrace, List.filterMap_append, ih, List.filterMap_cons]
      -- the callback for the event the resource returns is no flag
      cases (Resource.handleIo res io).1 with
      | none => simp [Observation.ioOf]
      | some event => simp [Observation.ioOf]

/-- A registered resource is handed the flags of its event, write before read. -/
theorem filterMap_dispatch {entry : Entry L T}
    (hentry : entry.listener ≠ none ∨ entry.transport ≠ none) (time : ℕ) (id : ResourceId)
    (io : IoType) : (entry.dispatch time id (.ok io) :
      List (Observation L T C EL ET)).filterMap (Observation.ioOf id) =
        (if io.write then [.write] else []) ++ (if io.read then [.read] else []) := by
  obtain ⟨listener, transport, source⟩ := entry
  cases listener with
  | some listener => exact filterMap_ioTrace id _ listener io.toList
  | none =>
      cases transport with
      | some transport => exact filterMap_ioTrace id _ transport io.toList
      | none => rcases hentry with h | h <;> exact absurd rfl h

omit [Resource L EL] [Resource T ET] in
/-- A flag handed to a resource has its entry in the trace. -/
theorem handleIo_mem_of_ioOf {tr : List (Observation L T C EL ET)} {id : ResourceId} {io : Io}
    (h : io ∈ tr.filterMap (Observation.ioOf id)) : .handleIo id io ∈ tr := by
  obtain ⟨obs, hobs, heq⟩ := List.mem_filterMap.mp h
  cases obs with
  | handleIo id' io' =>
      by_cases hid : id' = id
      · rw [Observation.ioOf, if_pos hid, Option.some.injEq] at heq
        rwa [← hid, ← heq]
      · rw [Observation.ioOf, if_neg hid] at heq
        cases heq
  | _ => cases heq

omit [Resource L EL] [Resource T ET] in
/-- The flags handed to a resource are in the entries about it. -/
theorem filterMap_ioOf_filter (id : ResourceId) (tr : List (Observation L T C EL ET)) :
    (tr.filter fun obs => obs.id = some id).filterMap (Observation.ioOf id) =
      tr.filterMap (Observation.ioOf id) := by
  rw [List.filterMap_filter]
  apply List.filterMap_congr
  intro obs _
  cases obs with
  | handleIo id' io => by_cases h : id' = id <;> simp [Observation.id, Observation.ioOf, h]
  | call c => simp [Observation.ioOf]
  | next answer => simp [Observation.ioOf]
  | writeAtomic id' data result => simp [Observation.ioOf]

omit [Handler H L T C EL ET] in
/-- Over the whole batch a resource is handed the flags of its event and no others. -/
theorem filterMap_dispatches (hreg : Registry rt) (hbatch : Batch rt.poller) {id : ResourceId}
    {io : IoType} (hid : id ≠ ResourceId.WAKER) (hio : (id, .ok io) ∈ rt.poller.reported)
    (time : ℕ) : (rt.dispatches time).filterMap (Observation.ioOf id) =
      (if io.write then [.write] else []) ++ (if io.read then [.read] else []) := by
  have hkey : id ∈ rt.poller.poll := by
    obtain ⟨event, hmem, heq⟩ := List.mem_map.mp hio
    obtain rfl : event.key = id := congrArg Prod.fst heq
    exact hbatch.registered event hmem
  rw [← filterMap_ioOf_filter, filter_dispatches hbatch hio]
  exact filterMap_dispatch (entry_of_source hreg hkey hid) time id io

/-! ## The order of the batch -/

/-- Both orders of a batch have the same effect on every entry. -/
theorem Dispatched.entry_eq {time : ℕ} {events : List Popol.Event}
    {rt'' : Runtime H Poller L T C EL ET} (hperm : events.Perm rt.poller.events)
    (h : Dispatched rt time rt')
    (h' : Dispatched { rt with poller := { rt.poller with events := events } } time rt'')
    (id : ResourceId) : rt''.entry id = rt'.entry id := by
  have hreported : ∀ r, r ∈ Poller.reported { rt.poller with events := events } ↔
      r ∈ rt.poller.reported := fun r => (hperm.map _).mem_iff
  by_cases hid : ∃ r ∈ rt.poller.reported, r.1 = id
  · obtain ⟨r, hr, rfl⟩ := hid
    rw [h.handled r hr, h'.handled r ((hreported r).mpr hr)]
    rfl
  · have hno : ∀ r ∈ rt.poller.reported, r.1 ≠ id := fun r hr heq => hid ⟨r, hr, heq⟩
    rw [h.others id hno, h'.others id fun r hr => hno r ((hreported r).mp hr)]
    rfl

/-- **Exact dispatch of a batch.**  In a runtime whose registry and batch are in order,
and with the waker ready, `handle_events` ends with the closed form as its effect: it
returns whether the batch had an event of the waker, and has then reset the waker once.
A resource reported ready is handed each of its flags once, write before read.  Every order
of the batch leaves the same entries and returns the same. -/
theorem batch_dispatched_exactly (time : ℕ) (hreg : Registry rt) (hbatch : Batch rt.poller)
    (hready : rt.WakerReady) {fuel : ℕ} (hfuel : rt.poller.events.length < fuel) :
    ∃ awoken resets rt', rt.handleEvents time fuel (false, 0) =
        .ok (some ((awoken, resets), rt')) ∧
      (awoken = true ↔ ∃ event ∈ rt.poller.events, event.key = ResourceId.WAKER) ∧
      resets = (if awoken then 1 else 0) ∧
      rt'.waker = (if awoken then { rt.waker with signal := false } else rt.waker) ∧
      Dispatched rt time rt' ∧
      (∀ id io, id ≠ ResourceId.WAKER → (id, .ok io) ∈ rt.poller.reported →
        (rt.dispatches time).filterMap (Observation.ioOf id) =
          (if io.write then [.write] else []) ++ (if io.read then [.read] else [])) ∧
      ∀ events, events.Perm rt.poller.events → ∃ rt'',
        handleEvents { rt with poller := { rt.poller with events := events } } time fuel
          (false, 0) = .ok (some ((awoken, resets), rt'')) ∧
        ∀ id, rt''.entry id = rt'.entry id := by
  obtain ⟨rt', hloop, hrt'⟩ := handleEvents_eq time (false, 0) hreg hbatch hready hfuel
  have hmem : ResourceId.WAKER ∈ rt.poller.events.map Popol.Event.key ↔
      ∃ event ∈ rt.poller.events, event.key = ResourceId.WAKER := List.mem_map
  -- the key of the waker occurs at most once
  have hcount : (rt.poller.events.map Popol.Event.key).count ResourceId.WAKER =
      if ResourceId.WAKER ∈ rt.poller.events.map Popol.Event.key then 1 else 0 := by
    split
    · rename_i hin
      exact List.count_eq_one_of_mem hbatch.nodup hin
    · rename_i hout
      exact List.count_eq_zero.mpr hout
  refine ⟨_, _, rt', hloop, ?_, ?_, ?_, hrt',
    fun id io hid hio => filterMap_dispatches hreg hbatch hid hio time, ?_⟩
  · simp [hmem]
  · simp [hcount]
  · rw [hrt'.waker]
    simp
  · intro events hperm
    have hready' : WakerReady { rt with poller := { rt.poller with events := events } } :=
      fun r hr => hready r (((hperm.map _).mem_iff).mp hr)
    have hreg' : Registry { rt with poller := { rt.poller with events := events } } :=
      hreg.of_keys (fun _ => Iff.rfl) (fun _ => Iff.rfl) (fun _ => Iff.rfl) rfl rfl
    have hfuel' : events.length < fuel := by
      rw [hperm.length_eq]
      exact hfuel
    obtain ⟨rt'', hloop', hrt''⟩ :=
      handleEvents_eq time (false, 0) hreg' (hbatch.perm hperm) hready' hfuel'
    refine ⟨rt'', ?_, hrt'.entry_eq hperm hrt''⟩
    rw [hloop']
    have hkeys := hperm.map Popol.Event.key
    simp only [hkeys.count_eq, hkeys.mem_iff]

/-- A batch of a wake-up and a hangup of the only transport. -/
theorem batch_dispatched_exactly_wake :
    ∃ rt : Runtime Errands Poller Pipe Pipe (Action Pipe Pipe) Io Io,
      rt.poller.reported = [(.WAKER, .ok ⟨true, false⟩), (⟨1⟩, .error (.connectivity 17))] ∧
      ∃ rt', rt.handleEvents 1000 3 (false, 0) = .ok (some ((true, 1), rt')) ∧
        rt'.entry ⟨1⟩ = .empty := by
  have hrun : Lts.exec (System.step .release) PopolContract Errands.boot
      [.controller 0 (.wake true),
        .controller 0 (.send (.cmd (.registerTransport Errands.pipe)) true),
        .controller 0 (.wake true), .turn (.start [] []),
        .turn (.poll (.ready [Errands.wakerEvent])), .turn .event, .turn .event, .turn .command,
        .turn .command, .turn .action, .turn .action, .turn (.start [] [⟨1⟩]),
        .turn (.poll (.ready [Errands.wakerEvent, ⟨⟨1⟩, 17, true, false, true, false, false⟩]))] =
          some _ := rfl
  obtain ⟨s, hs, hreported, hlen, hwaker⟩ : ∃ s : Errands.Sys,
      (reactor .release Poller.new).Reachable PopolContract s ∧
      s.runtime.poller.reported =
        [(.WAKER, .ok ⟨true, false⟩), (⟨1⟩, .error (.connectivity 17))] ∧
      s.runtime.poller.events.length = 2 ∧ s.runtime.waker.broken = false :=
    ⟨_, Errands.reachable_of_exec hrun, rfl, rfl, rfl⟩
  obtain ⟨hreg, hbatch, -⟩ := inStep_of_reachable hs
  have hready : s.runtime.WakerReady := by
    intro r hr hid
    refine ⟨hwaker, ?_⟩
    rw [hreported] at hr
    rcases List.mem_cons.mp hr with rfl | hr
    · exact ⟨_, rfl⟩
    · rw [List.mem_singleton.mp hr] at hid
      cases hid
  obtain ⟨awoken, resets, rt', hloop, hawoken, hresets, -, hrt', -, -⟩ :=
    batch_dispatched_exactly 1000 hreg hbatch hready (by omega : _ < 3)
  have hevent : ∃ event ∈ s.runtime.poller.events, event.key = ResourceId.WAKER := by
    have hmem : (ResourceId.WAKER, Except.ok ⟨true, false⟩) ∈ s.runtime.poller.reported := by
      rw [hreported]
      exact List.mem_cons_self
    obtain ⟨event, hin, heq⟩ := List.mem_map.mp hmem
    exact ⟨event, hin, congrArg Prod.fst heq⟩
  have htrue := hawoken.mpr hevent
  subst htrue
  refine ⟨s.runtime, hreported, rt', by rw [hloop, hresets]; rfl, ?_⟩
  rw [hrt'.handled (⟨1⟩, .error (.connectivity 17)) (by rw [hreported]; simp)]
  rfl

end Runtime

/-! ## Readiness and failure in one event -/

/-- The event has the hangup, the error or the invalid bit. -/
def Popol.Event.failed (event : Popol.Event) : Bool :=
  event.isHangup || event.isError || event.isInvalid

/-- An event without these bits is reported by its readiness. -/
theorem Poller.resultOf_of_not_failed {event : Popol.Event} (h : event.failed = false) :
    Poller.resultOf event = .ok ⟨event.isReadable, event.isWritable⟩ := by
  simp only [Popol.Event.failed, Bool.or_eq_false_iff] at h
  simp [Poller.resultOf, h]

/-- An event with one of these bits is reported as a failure, whatever else it says. -/
theorem Poller.resultOf_of_failed {event : Popol.Event} (h : event.failed = true) :
    ∃ err, Poller.resultOf event = .error err := by
  unfold Poller.resultOf
  cases hhangup : event.isHangup with
  | true => exact ⟨_, rfl⟩
  | false =>
      simp only [Popol.Event.failed, hhangup, Bool.false_or] at h
      simp [h]

section

variable [Handler H L T C EL ET] [Resource L EL] [Resource T ET]

/-- The queue after a poll is the events it was answered with. -/
theorem events_of_poll {prof : Profile} {s₀ s : System H Poller L T C EL ET}
    (hs : (reactor prof Poller.new).Reachable PopolContract s₀) {answer : Popol.Answer}
    (hstep : System.step prof s₀ (.turn (.poll answer)) = some s) {now : ℕ}
    (hpc : s.pc = .events now false) : s.runtime.poller.events = answer.events := by
  obtain ⟨-, -, hquiet⟩ := inStep_of_reachable hs
  obtain ⟨th, hturn, rfl⟩ := Option.map_eq_some_iff.mp hstep
  have hth : th.pc = .events now false := hpc
  show th.runtime.poller.events = answer.events
  cases Thread.turned_of_turn hturn with
  | polled timeout hpc₀ answer time hclock fired hfired service rt hrt =>
      have hempty : s₀.runtime.poller.events = [] := hquiet (by rw [hpc₀]; trivial)
      rw [hrt]
      show (Poll.poll s₀.runtime.poller (some timeout) answer).2.events = answer.events
      rw [poll_snd, hempty]
      rfl
  | panicked input p hp => cases hth

omit [Handler H L T C EL ET] in
/-- Readiness gives no resource back. -/
theorem Entry.givenBack_of_mem_dispatch {entry : Entry L T} {time : ℕ} {id : ResourceId}
    {io : IoType} {obs : Observation L T C EL ET} (h : obs ∈ entry.dispatch time id (.ok io)) :
    obs.givenBack = none := by
  obtain ⟨listener, transport, source⟩ := entry
  cases listener with
  | some listener => rcases Runtime.mem_ioTrace h with ⟨io, -, rfl⟩ | ⟨event, rfl⟩ <;> rfl
  | none =>
      cases transport with
      | some transport => rcases Runtime.mem_ioTrace h with ⟨io, -, rfl⟩ | ⟨event, rfl⟩ <;> rfl
      | none => cases h

omit [Handler H L T C EL ET] in
/-- The piece of a registered resource for a failure is the report of its disconnect. -/
theorem Entry.dispatch_error {entry : Entry L T}
    (hentry : entry.listener ≠ none ∨ entry.transport ≠ none) (time : ℕ) (id : ResourceId)
    (err : IoFail) :
    ∃ e : Error L T, (entry.dispatch time id (.error err) : List (Observation L T C EL ET)) =
        [.call (.handleError e)] ∧
      ((∃ listener, entry.listener = some listener ∧ e = .listenerDisconnect id listener) ∨
        ∃ transport, entry.transport = some transport ∧ e = .transportDisconnect id transport) := by
  obtain ⟨listener, transport, source⟩ := entry
  cases listener with
  | some listener => exact ⟨_, rfl, Or.inl ⟨listener, rfl, rfl⟩⟩
  | none =>
      cases transport with
      | some transport => exact ⟨_, rfl, Or.inr ⟨transport, rfl, rfl⟩⟩
      | none => rcases hentry with h | h <;> exact absurd rfl h

/-- **A healthy event is offered, a failed one is reported.**  In the iteration whose poll
is answered with events, and in which the waker does not fail, a registered resource
whose event has no hangup, error or invalid bit is handed each flag that the event
reports and is not given back; one whose event has such a bit is reported in one
disconnect of its kind and handed nothing. -/
theorem readiness_offered_or_disconnect {prof : Profile} {s₀ s : System H Poller L T C EL ET}
    (hs : (reactor prof Poller.new).Reachable PopolContract s₀) {answer : Popol.Answer}
    (hG : PopolContract s₀ (.turn (.poll answer)))
    (hstep : System.step prof s₀ (.turn (.poll answer)) = some s) {now : ℕ}
    (hpc : s.pc = .events now false)
    (hwaker : ∀ event ∈ answer.events, event.key = ResourceId.WAKER →
      s.runtime.waker.broken = false ∧ event.failed = false) :
    ∃ s' tr, (reactor prof Poller.new).Steps EventPhase s s' ∧
      (s'.pc = .commands now ∨ s'.pc = .actions now) ∧
      s'.runtime.trace = s.runtime.trace ++ tr ∧
      ∀ event ∈ answer.events, event.key ≠ ResourceId.WAKER →
        (event.failed = false →
          (event.isReadable = true → .handleIo event.key .read ∈ tr) ∧
          (event.isWritable = true → .handleIo event.key .write ∈ tr) ∧
          ∀ obs ∈ tr, obs.id = some event.key → obs.givenBack = none) ∧
        (event.failed = true → ∃ e,
          tr.filter (fun obs => obs.id = some event.key) = [.call (.handleError e)] ∧
          ((∃ listener, s.runtime.listeners.lookup event.key = some listener ∧
              e = .listenerDisconnect event.key listener) ∨
            ∃ transport, s.runtime.transports.lookup event.key = some transport ∧
              e = .transportDisconnect event.key transport)) := by
  obtain ⟨hreg, hbatch, -⟩ := inStep_of_reachable (hs.step hG hstep)
  have hevents := events_of_poll hs hstep hpc
  have hreported : s.runtime.poller.reported =
      answer.events.map fun event => (event.key, Poller.resultOf event) := by
    rw [Poller.reported, hevents]
  have hready : s.runtime.WakerReady := by
    intro r hr hid
    rw [hreported] at hr
    obtain ⟨event, hmem, rfl⟩ := List.mem_map.mp hr
    obtain ⟨hreset, hfailed⟩ := hwaker event hmem hid
    exact ⟨hreset, _, Poller.resultOf_of_not_failed hfailed⟩
  obtain ⟨rt', hloop, hrt'⟩ := Runtime.handleEvents_eq now (false, 0) hreg hbatch hready
    (Nat.lt_succ_self _)
  refine ⟨_, s.runtime.dispatches now, Runtime.steps_of_handleEvents hpc hloop, ?_, hrt'.trace, ?_⟩
  · simp only
    split
    · exact Or.inl rfl
    · exact Or.inr rfl
  · intro event hmem hid
    have hr : (event.key, Poller.resultOf event) ∈ s.runtime.poller.reported := by
      rw [hreported]
      exact List.mem_map_of_mem hmem
    have hfilter := Runtime.filter_dispatches hbatch hr now
    -- the resource is registered
    have hkey : event.key ∈ s.runtime.poller.poll := by
      apply hbatch.registered event
      rw [hevents]
      exact hmem
    have hentry := Runtime.entry_of_source hreg hkey hid
    constructor
    · intro hfailed
      rw [Poller.resultOf_of_not_failed hfailed] at hr hfilter
      have hflags := Runtime.filterMap_dispatches hreg hbatch hid hr now
      refine ⟨fun hread => Runtime.handleIo_mem_of_ioOf ?_,
        fun hwrite => Runtime.handleIo_mem_of_ioOf ?_, fun obs hobs hobsid => ?_⟩
      · simp [hflags, hread]
      · simp [hflags, hwrite]
      · have hin : obs ∈ (s.runtime.dispatches now).filter (fun obs => obs.id = some event.key) :=
          List.mem_filter.mpr ⟨hobs, decide_eq_true hobsid⟩
        rw [hfilter] at hin
        exact Entry.givenBack_of_mem_dispatch hin
    · intro hfailed
      obtain ⟨err, herr⟩ := Poller.resultOf_of_failed hfailed
      rw [herr] at hfilter
      rw [hfilter]
      exact Entry.dispatch_error hentry now event.key err

end

/-- The event of the only transport says that it is readable and healthy. -/
theorem readiness_offered_or_disconnect_readable : ∃ s s' : Errands.Sys,
    (reactor .release Poller.new).Steps EventPhase s s' ∧ s.runtime.transports.keys = [⟨1⟩] ∧
    ∃ tr, s'.runtime.trace = s.runtime.trace ++ tr ∧ .handleIo ⟨1⟩ .read ∈ tr := by
  have hrun : Lts.exec (System.step .release) PopolContract Errands.boot
      [.controller 0 (.wake true),
        .controller 0 (.send (.cmd (.registerTransport Errands.pipe)) true),
        .controller 0 (.wake true), .turn (.start [] []),
        .turn (.poll (.ready [Errands.wakerEvent])), .turn .event, .turn .event, .turn .command,
        .turn .command, .turn .action, .turn .action, .turn (.start [] [⟨1⟩])] = some _ := rfl
  obtain ⟨s₀, s, hs, hG, hstep, hpc, hkeys⟩ : ∃ s₀ s : Errands.Sys,
      (reactor .release Poller.new).Reachable PopolContract s₀ ∧
      PopolContract s₀ (.turn (.poll (.ready [⟨⟨1⟩, 1, true, false, false, false, false⟩]))) ∧
      System.step .release s₀
        (.turn (.poll (.ready [⟨⟨1⟩, 1, true, false, false, false, false⟩]))) = some s ∧
      s.pc = .events 1000 false ∧ s.runtime.transports.keys = [⟨1⟩] :=
    ⟨_, _, Errands.reachable_of_exec hrun, by decide, rfl, rfl, rfl⟩
  have hwaker : ∀ event ∈ [(⟨⟨1⟩, 1, true, false, false, false, false⟩ : Popol.Event)],
      event.key = ResourceId.WAKER → s.runtime.waker.broken = false ∧ event.failed = false := by
    intro event hmem hid
    rw [List.mem_singleton.mp hmem] at hid
    cases hid
  obtain ⟨s', tr, hsteps, -, htrace, hevents⟩ :=
    readiness_offered_or_disconnect hs hG hstep hpc hwaker
  obtain ⟨hoffered, -⟩ := hevents _ (List.mem_singleton.mpr rfl) nofun
  exact ⟨s, s', hsteps, hkeys, tr, htrace, (hoffered rfl).1 rfl⟩

/-- The event of the only transport says that it is readable and hung up; all that happens
to the transport after its registration is the report of the disconnect. -/
theorem readable_swallowed : ∃ s₀ s s' : Errands.Sys,
    (reactor .release Poller.new).Reachable PopolContract s₀ ∧
    PopolContract s₀ (.turn (.poll (.ready [⟨⟨1⟩, 17, true, false, true, false, false⟩]))) ∧
    System.step .release s₀
      (.turn (.poll (.ready [⟨⟨1⟩, 17, true, false, true, false, false⟩]))) = some s ∧
    s.runtime.transports.keys = [⟨1⟩] ∧
    (reactor .release Poller.new).Steps EventPhase s s' ∧ s'.pc = .actions 1000 ∧
    s'.runtime.trace.filter (fun obs => obs.id = some ⟨1⟩) =
      [.call (.handleRegistered 7 ⟨1⟩ .transport),
        .call (.handleError (.transportDisconnect ⟨1⟩ Errands.pipe))] := by
  have hrun : Lts.exec (System.step .release) PopolContract Errands.boot
      [.controller 0 (.wake true),
        .controller 0 (.send (.cmd (.registerTransport Errands.pipe)) true),
        .controller 0 (.wake true), .turn (.start [] []),
        .turn (.poll (.ready [Errands.wakerEvent])), .turn .event, .turn .event, .turn .command,
        .turn .command, .turn .action, .turn .action, .turn (.start [] [⟨1⟩])] = some _ := rfl
  exact ⟨_, _, _, Errands.reachable_of_exec hrun, by decide, rfl, rfl,
    Lts.steps_of_exec (by exact rfl : Lts.exec (System.step .release) EventPhase _
      [.turn .event, .turn .event] = some _), rfl, rfl⟩

end IoReactor
