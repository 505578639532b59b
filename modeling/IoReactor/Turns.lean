/-
# What an event and an action can do

The functions of the runtime that handle events and actions are opened once, here.
`Handled` lists the outcomes of one event and `Acted` those of one action;
`handled_of_handleEvent` and `acted_of_handleAction` say that the lists are complete.
The results about runs argue on these lists only.
-/
import IoReactor.System

namespace IoReactor

/-- A computation that sequences two steps succeeds only if both do. -/
theorem exists_of_bind_eq_ok {α β : Type} {x : Except Panic α} {f : α → Except Panic β} {b : β}
    (h : (x >>= f) = .ok b) : ∃ a, x = .ok a ∧ f a = .ok b := by
  cases x with
  | error p => cases h
  | ok a => exact ⟨a, rfl, h⟩

/-- A computation that sequences two steps panics in one of them. -/
theorem error_of_bind_eq_error {α β : Type} {x : Except Panic α} {f : α → Except Panic β}
    {p : Panic} (h : (x >>= f) = .error p) :
    x = .error p ∨ ∃ a, x = .ok a ∧ f a = .error p := by
  cases x with
  | error q =>
      cases h
      exact Or.inl rfl
  | ok a => exact Or.inr ⟨a, rfl, h⟩

/-- Entries that a selection passes over leave the selection alone. -/
theorem filterMap_append_none {α β : Type} {f : α → Option β} {xs ys : List α}
    (h : ∀ y ∈ ys, f y = none) : (xs ++ ys).filterMap f = xs.filterMap f := by
  rw [List.filterMap_append, List.filterMap_eq_nil_iff.mpr h, List.append_nil]

/-- The action registers a resource. -/
def Action.registers {L T : Type} : Action L T → Bool
  | .registerListener _ => true
  | .registerTransport _ => true
  | _ => false

namespace Runtime

variable {H P A L T C EL ET : Type}

/-! ## Callbacks leave everything but the service alone -/

section

variable [Handler H L T C EL ET]

@[simp] theorem call_poller (rt : Runtime H P L T C EL ET) (c : Call L T C EL ET) :
    (rt.call c).poller = rt.poller := rfl
@[simp] theorem call_ctlRecv (rt : Runtime H P L T C EL ET) (c : Call L T C EL ET) :
    (rt.call c).ctlRecv = rt.ctlRecv := rfl
@[simp] theorem call_listeners (rt : Runtime H P L T C EL ET) (c : Call L T C EL ET) :
    (rt.call c).listeners = rt.listeners := rfl
@[simp] theorem call_transports (rt : Runtime H P L T C EL ET) (c : Call L T C EL ET) :
    (rt.call c).transports = rt.transports := rfl
@[simp] theorem call_waker (rt : Runtime H P L T C EL ET) (c : Call L T C EL ET) :
    (rt.call c).waker = rt.waker := rfl
@[simp] theorem call_timeouts (rt : Runtime H P L T C EL ET) (c : Call L T C EL ET) :
    (rt.call c).timeouts = rt.timeouts := rfl
@[simp] theorem call_trace (rt : Runtime H P L T C EL ET) (c : Call L T C EL ET) :
    (rt.call c).trace = rt.trace ++ [.call c] := rfl

/-- The observations the inner loop of `handle_events` can make. -/
def IoObservation {E : Type} (id : ResourceId) (onEvent : E → Call L T C EL ET) :
    Observation L T C EL ET → Prop
  | .handleIo id' _ => id' = id
  | .call c => ∃ event, c = onEvent event
  | _ => False

/-- The inner loop of `handle_events` changes the service and the resource it is
given, and extends the trace by its `handle_io` calls and their callbacks. -/
theorem ioLoop_spec {R E : Type} [Resource R E] (id : ResourceId)
    (onEvent : E → Call L T C EL ET) (rt : Runtime H P L T C EL ET) (res : R) (ios : List Io) :
    ∃ service tr, (ioLoop id onEvent rt res ios).1 =
        { rt with service := service, trace := rt.trace ++ tr } ∧
      ∀ obs ∈ tr, IoObservation id onEvent obs := by
  -- the flags are handled one after the other, each on the resource the last one left
  induction ios generalizing rt res with
  | nil => exact ⟨rt.service, [], by simp [ioLoop], by simp⟩
  | cons io ios ih =>
      rw [ioLoop]
      cases hio : Resource.handleIo res io with
      | mk event res' =>
          cases event with
          | none =>
              obtain ⟨service, tr, heq, htr⟩ := ih (rt.note (.handleIo id io)) res'
              refine ⟨service, .handleIo id io :: tr, ?_, ?_⟩
              · rw [heq]
                simp [note]
              · rintro obs hobs
                rcases List.mem_cons.mp hobs with rfl | hobs
                · exact rfl
                · exact htr obs hobs
          | some event =>
              obtain ⟨service, tr, heq, htr⟩ :=
                ih ((rt.note (.handleIo id io)).call (onEvent event)) res'
              refine ⟨service, .handleIo id io :: .call (onEvent event) :: tr, ?_, ?_⟩
              · rw [heq]
                simp [note, call]
              · rintro obs hobs
                rcases List.mem_cons.mp hobs with rfl | hobs
                · exact rfl
                · rcases List.mem_cons.mp hobs with rfl | hobs
                  · exact ⟨event, rfl⟩
                  · exact htr obs hobs

/-- A resource after its I/O flags `ios` are handled. -/
def afterIo {R E : Type} [Resource R E] (res : R) (ios : List Io) : R :=
  ios.foldl (fun res io => (Resource.handleIo res io).2) res

/-- The inner loop of `handle_events` hands every flag to the resource. -/
theorem ioLoop_snd {R E : Type} [Resource R E] (id : ResourceId)
    (onEvent : E → Call L T C EL ET) (rt : Runtime H P L T C EL ET) (res : R) (ios : List Io) :
    (ioLoop id onEvent rt res ios).2 = afterIo res ios := by
  induction ios generalizing rt res with
  | nil => rfl
  | cons io ios ih =>
      rw [ioLoop, afterIo, List.foldl_cons]
      cases hio : Resource.handleIo res io with
      | mk event res' =>
          cases event with
          | none => exact ih _ res'
          | some event => exact ih _ res'

end

/-! ## Taking a resource out -/

/-- A key of a map has a value. -/
theorem exists_lookup {R : Type} {map : HashMap ResourceId R} {id : ResourceId}
    (h : id ∈ map) : ∃ res, map.lookup id = some res :=
  Option.isSome_iff_exists.mp (AList.lookup_isSome.mpr h)

section

variable [Poll P A]

/-- The runtime after the listener `id` is taken out of it. -/
def dropListener (rt : Runtime H P L T C EL ET) (id : ResourceId) : Runtime H P L T C EL ET :=
  { rt with listeners := rt.listeners.erase id, poller := Poll.unregister rt.poller id }

/-- The runtime after the transport `id` is taken out of it. -/
def dropTransport (rt : Runtime H P L T C EL ET) (id : ResourceId) : Runtime H P L T C EL ET :=
  { rt with transports := rt.transports.erase id, poller := Poll.unregister rt.poller id }

/-- What `unregister_listener` does to a registered listener. -/
theorem unregisterListener_of_lookup {rt : Runtime H P L T C EL ET} {id : ResourceId}
    {listener : L} (h : rt.listeners.lookup id = some listener) :
    rt.unregisterListener id = (some listener, rt.dropListener id) := by
  rw [unregisterListener, takeResource, h]
  rfl

/-- What `unregister_transport` does to a registered transport. -/
theorem unregisterTransport_of_lookup {rt : Runtime H P L T C EL ET} {id : ResourceId}
    {transport : T} (h : rt.transports.lookup id = some transport) :
    rt.unregisterTransport id = (some transport, rt.dropTransport id) := by
  rw [unregisterTransport, takeResource, h]
  rfl

end

/-! ## One event -/

section

variable [Handler H L T C EL ET] [Resource L EL] [Resource T ET] [Poll P A]

/-- The runtime after the I/O flags `io` of the listener `id` are handled. -/
def listenerIo (rt : Runtime H P L T C EL ET) (id : ResourceId) (listener : L) (io : IoType)
    (time : ℕ) : Runtime H P L T C EL ET :=
  let r := ioLoop id (fun event => .handleListenerEvent id event time) rt listener io.toList
  { r.1 with listeners := r.1.listeners.insert id r.2 }

/-- The runtime after the I/O flags `io` of the transport `id` are handled. -/
def transportIo (rt : Runtime H P L T C EL ET) (id : ResourceId) (transport : T) (io : IoType)
    (time : ℕ) : Runtime H P L T C EL ET :=
  let r := ioLoop id (fun event => .handleTransportEvent id event time) rt transport io.toList
  { r.1 with transports := r.1.transports.insert id r.2 }

/-- The outcomes of one event: whether it was the waker's, and the runtime after it. -/
inductive Handled (rt : Runtime H P L T C EL ET) (id : ResourceId)
    (res : Except IoFail IoType) (time : ℕ) :
    Bool → Runtime H P L T C EL ET → Prop
  | waker (hid : id = .WAKER) (io : IoType) (hres : res = .ok io) :
      Handled rt id res time true { rt with waker := { rt.waker with signal := false } }
  | listenerIo (hid : id ≠ .WAKER) (io : IoType) (hres : res = .ok io) (listener : L)
      (hlook : rt.listeners.lookup id = some listener) :
      Handled rt id res time false (rt.listenerIo id listener io time)
  | listenerGone (hid : id ≠ .WAKER) (err : IoFail) (hres : res = .error err) (listener : L)
      (hlook : rt.listeners.lookup id = some listener) :
      Handled rt id res time false
        ((rt.dropListener id).call (.handleError (.listenerDisconnect id listener)))
  | transportIo (hid : id ≠ .WAKER) (hno : id ∉ rt.listeners) (io : IoType)
      (hres : res = .ok io) (transport : T) (hlook : rt.transports.lookup id = some transport) :
      Handled rt id res time false (rt.transportIo id transport io time)
  | transportGone (hid : id ≠ .WAKER) (hno : id ∉ rt.listeners) (err : IoFail)
      (hres : res = .error err) (transport : T)
      (hlook : rt.transports.lookup id = some transport) :
      Handled rt id res time false
        ((rt.dropTransport id).call (.handleError (.transportDisconnect id transport)))

/-- The list of outcomes of an event is complete. -/
theorem handled_of_handleEvent {rt rt' : Runtime H P L T C EL ET} {id : ResourceId}
    {res : Except IoFail IoType} {time : ℕ} {woken : Bool}
    (h : rt.handleEvent id res time = .ok (woken, rt')) : Handled rt id res time woken rt' := by
  unfold handleEvent at h
  split at h
  · -- the event of the waker, which panics if there is an error
    rename_i hid
    cases res with
    | error err => cases h
    | ok io =>
        obtain ⟨waker, hreset, hret⟩ := exists_of_bind_eq_ok h
        unfold Waker.reset at hreset
        split at hreset
        · cases hreset
        · cases hreset
          cases hret
          exact .waker hid io rfl
  · rename_i hid
    split at h
    · -- a listener is looked up where it was just found
      rename_i hmem
      obtain ⟨listener, hlook⟩ := exists_lookup hmem
      cases res with
      | ok io =>
          simp only [hlook, IoType.flags_eq_toList] at h
          cases h
          exact .listenerIo hid io rfl listener hlook
      | error err =>
          simp only [unregisterListener_of_lookup hlook] at h
          cases h
          exact .listenerGone hid err rfl listener hlook
    · rename_i hno
      split at h
      · -- and so is a transport
        rename_i hmem
        obtain ⟨transport, hlook⟩ := exists_lookup hmem
        cases res with
        | ok io =>
            simp only [hlook, IoType.flags_eq_toList] at h
            cases h
            exact .transportIo hid hno io rfl transport hlook
        | error err =>
            simp only [unregisterTransport_of_lookup hlook] at h
            cases h
            exact .transportGone hid hno err rfl transport hlook
      · cases h

/-- The panics an event can cause: the waker failed, or its id is unknown. -/
theorem handleEvent_error {rt : Runtime H P L T C EL ET} {id : ResourceId}
    {res : Except IoFail IoType} {time : ℕ} {p : Panic}
    (h : rt.handleEvent id res time = .error p) :
    (∃ err, p = .wakerFailure err) ∨ p = .unableToResetWaker ∨
      (p = .unknownDescriptor ∧ id ≠ .WAKER ∧ id ∉ rt.listeners ∧ id ∉ rt.transports) := by
  unfold handleEvent at h
  split at h
  · cases res with
    | error err =>
        cases h
        exact Or.inl ⟨err, rfl⟩
    | ok io =>
        rcases error_of_bind_eq_error h with hreset | ⟨waker, -, hret⟩
        · unfold Waker.reset at hreset
          split at hreset
          · cases hreset
            exact Or.inr (Or.inl rfl)
          · cases hreset
        · cases hret
  · rename_i hid
    split at h
    · rename_i hmem
      obtain ⟨listener, hlook⟩ := exists_lookup hmem
      cases res with
      | ok io =>
          simp only [hlook] at h
          cases h
      | error err =>
          simp only [unregisterListener_of_lookup hlook] at h
          cases h
    · rename_i hno
      split at h
      · rename_i hmem
        obtain ⟨transport, hlook⟩ := exists_lookup hmem
        cases res with
        | ok io =>
            simp only [hlook] at h
            cases h
        | error err =>
            simp only [unregisterTransport_of_lookup hlook] at h
            cases h
      · rename_i hno'
        cases h
        exact Or.inr (Or.inr ⟨rfl, hid, hno, hno'⟩)

/-! ## One action -/

/-- Pass an error of `handle_action` on to the service. -/
def report (rt : Runtime H P L T C EL ET) : Except (Error L T) Unit → Runtime H P L T C EL ET
  | .ok () => rt
  | .error err => rt.call (.handleError err)

/-- The runtime after `writeAtomic` has changed the transport `id`. -/
def wrote (rt : Runtime H P L T C EL ET) (id : ResourceId) (transport : T) (data : List UInt8)
    (result : Except WriteError Unit) : Runtime H P L T C EL ET :=
  { rt with transports := rt.transports.insert id transport }.note (.writeAtomic id data result)

/-- An action that names no resource of its kind. -/
def Ignores (rt : Runtime H P L T C EL ET) : Action L T → Prop
  | .unregisterListener id => rt.listeners.lookup id = none
  | .unregisterTransport id => rt.transports.lookup id = none
  | .send id _ => rt.transports.lookup id = none
  | _ => False

/-- The outcomes of one action: what `handle_action` returns, and the runtime after it. -/
inductive Acted (prof : Profile) (rt : Runtime H P L T C EL ET) (time : ℕ) :
    Action L T → Except (Error L T) Unit → Runtime H P L T C EL ET → Prop
  | registerListener (listener : L) (id : ResourceId) (poller : P)
      (hreg : Poll.register prof rt.poller (Resource.asRawFd listener) .readOnly =
        .ok (id, poller)) :
      Acted prof rt time (.registerListener listener) (.ok ())
        ({ rt with poller := poller, listeners := rt.listeners.insert id listener }.call
          (.handleRegistered (Resource.asRawFd listener) id .listener))
  | registerTransport (transport : T) (id : ResourceId) (poller : P)
      (hreg : Poll.register prof rt.poller (Resource.asRawFd transport) .readOnly =
        .ok (id, poller)) :
      Acted prof rt time (.registerTransport transport) (.ok ())
        ({ rt with poller := poller, transports := rt.transports.insert id transport }.call
          (.handleRegistered (Resource.asRawFd transport) id .transport))
  | unregisterListener (id : ResourceId) (listener : L)
      (hlook : rt.listeners.lookup id = some listener) :
      Acted prof rt time (.unregisterListener id) (.ok ())
        ((rt.dropListener id).call (.handoverListener id listener))
  | unregisterTransport (id : ResourceId) (transport : T)
      (hlook : rt.transports.lookup id = some transport) :
      Acted prof rt time (.unregisterTransport id) (.ok ())
        ((rt.dropTransport id).call (.handoverTransport id transport))
  | sent (id : ResourceId) (data : List UInt8) (transport transport' : T)
      (hlook : rt.transports.lookup id = some transport)
      (hwrite : writeAtomic prof transport data = .ok (.ok (), transport')) :
      Acted prof rt time (.send id data) (.ok ()) (rt.wrote id transport' data (.ok ()))
  | sendFailed (id : ResourceId) (data : List UInt8) (transport transport' : T) (err : IoError)
      (hlook : rt.transports.lookup id = some transport)
      (hwrite : writeAtomic prof transport data = .ok (.error (.io err), transport')) :
      Acted prof rt time (.send id data) (.error (.transportDisconnect id transport'))
        ((rt.wrote id transport' data (.error (.io err))).dropTransport id)
  | setTimer (duration : Duration) (timeouts : Timer)
      (hset : rt.timeouts.setTimeout prof duration time = .ok timeouts) :
      Acted prof rt time (.setTimer duration) (.ok ()) { rt with timeouts := timeouts }
  | ignored (action : Action L T) (hno : rt.Ignores action) :
      Acted prof rt time action (.ok ()) rt

/-- The list of outcomes of an action is complete. -/
theorem acted_of_handleAction {prof : Profile} {rt rt' : Runtime H P L T C EL ET}
    {action : Action L T} {time : ℕ} {result : Except (Error L T) Unit}
    (h : rt.handleAction prof action time = .ok (result, rt')) :
    Acted prof rt time action result rt' := by
  cases action with
  | registerListener listener =>
      obtain ⟨⟨id, poller⟩, hreg, hret⟩ := exists_of_bind_eq_ok h
      cases hret
      exact .registerListener listener id poller hreg
  | registerTransport transport =>
      obtain ⟨⟨id, poller⟩, hreg, hret⟩ := exists_of_bind_eq_ok h
      cases hret
      exact .registerTransport transport id poller hreg
  | unregisterListener id =>
      simp only [handleAction] at h
      cases hlook : rt.listeners.lookup id with
      | none =>
          have hno : rt.unregisterListener id = (none, rt) := by
            rw [unregisterListener, takeResource, hlook]
            rfl
          rw [hno] at h
          cases h
          exact .ignored _ hlook
      | some listener =>
          rw [unregisterListener_of_lookup hlook] at h
          cases h
          exact .unregisterListener id listener hlook
  | unregisterTransport id =>
      simp only [handleAction] at h
      cases hlook : rt.transports.lookup id with
      | none =>
          have hno : rt.unregisterTransport id = (none, rt) := by
            rw [unregisterTransport, takeResource, hlook]
            rfl
          rw [hno] at h
          cases h
          exact .ignored _ hlook
      | some transport =>
          rw [unregisterTransport_of_lookup hlook] at h
          cases h
          exact .unregisterTransport id transport hlook
  | send id data =>
      simp only [handleAction] at h
      cases hlook : rt.transports.lookup id with
      | none =>
          rw [hlook] at h
          cases h
          exact .ignored _ hlook
      | some transport =>
          rw [hlook] at h
          obtain ⟨⟨outcome, transport'⟩, hwrite, hret⟩ := exists_of_bind_eq_ok h
          cases outcome with
          | ok u =>
              cases hret
              exact .sent id data transport transport' hlook hwrite
          | error werr =>
              cases werr with
              | notReady => cases hret
              | io err =>
                  -- the transport is written back, so it is there to be unregistered
                  have hlook' : (rt.wrote id transport' data
                      (.error (.io err))).transports.lookup id = some transport' :=
                    AList.lookup_insert _
                  have hdrop := unregisterTransport_of_lookup hlook'
                  simp only [wrote] at hdrop
                  simp only [hdrop] at hret
                  cases hret
                  exact .sendFailed id data transport transport' err hlook hwrite
  | setTimer duration =>
      obtain ⟨timeouts, hset, hret⟩ := exists_of_bind_eq_ok h
      cases hret
      exact .setTimer duration timeouts hset

/-- Every outcome in the list is one. -/
theorem handleAction_of_acted {prof : Profile} {rt rt' : Runtime H P L T C EL ET}
    {action : Action L T} {time : ℕ} {result : Except (Error L T) Unit}
    (h : Acted prof rt time action result rt') :
    rt.handleAction prof action time = .ok (result, rt') := by
  cases h with
  | registerListener listener id poller hreg =>
      simp only [handleAction, hreg]
      rfl
  | registerTransport transport id poller hreg =>
      simp only [handleAction, hreg]
      rfl
  | unregisterListener id listener hlook =>
      simp only [handleAction, unregisterListener_of_lookup hlook]
  | unregisterTransport id transport hlook =>
      simp only [handleAction, unregisterTransport_of_lookup hlook]
  | sent id data transport transport' hlook hwrite =>
      simp only [handleAction, hlook, hwrite]
      rfl
  | sendFailed id data transport transport' err hlook hwrite =>
      -- the transport is written back, so it is there to be unregistered
      have hlook' : (rt.wrote id transport' data (.error (.io err))).transports.lookup id =
          some transport' := AList.lookup_insert _
      have hdrop := unregisterTransport_of_lookup hlook'
      simp only [wrote] at hdrop
      simp only [handleAction, hlook, hwrite, bind, Except.bind, hdrop]
      rfl
  | setTimer duration timeouts hset =>
      simp only [handleAction, hset]
      rfl
  | ignored action hno =>
      cases action with
      | unregisterListener id =>
          have hnone : rt.listeners.lookup id = none := hno
          simp [handleAction, Runtime.unregisterListener, takeResource, hnone]
      | unregisterTransport id =>
          have hnone : rt.transports.lookup id = none := hno
          simp [handleAction, Runtime.unregisterTransport, takeResource, hnone]
      | send id data =>
          have hnone : rt.transports.lookup id = none := hno
          simp [handleAction, hnone]
      | _ => exact hno.elim

/-- What makes an action panic: the poll engine on a registration, the clock on a
timer, a `write_or_buf` outside its contract or a transport that is not ready. -/
theorem handleAction_error {prof : Profile} {rt : Runtime H P L T C EL ET}
    {action : Action L T} {time : ℕ} {p : Panic}
    (h : rt.handleAction prof action time = .error p) :
    (action.registers = true ∧ ∃ fd, Poll.register prof rt.poller fd .readOnly = .error p) ∨
    (∃ duration, rt.timeouts.setTimeout prof duration time = .error p) ∨
    p = .writeOrBufMustBuffer ∨ (∃ id, p = .writeNotReady id) := by
  cases action with
  | registerListener listener =>
      rcases error_of_bind_eq_error h with hreg | ⟨⟨id, poller⟩, -, hret⟩
      · exact Or.inl ⟨rfl, _, hreg⟩
      · cases hret
  | registerTransport transport =>
      rcases error_of_bind_eq_error h with hreg | ⟨⟨id, poller⟩, -, hret⟩
      · exact Or.inl ⟨rfl, _, hreg⟩
      · cases hret
  | unregisterListener id =>
      simp only [handleAction] at h
      split at h <;> cases h
  | unregisterTransport id =>
      simp only [handleAction] at h
      split at h <;> cases h
  | send id data =>
      simp only [handleAction] at h
      split at h
      · cases h
      · rcases error_of_bind_eq_error h with hwrite | ⟨⟨outcome, transport'⟩, -, hret⟩
        · exact Or.inr (Or.inr (Or.inl (writeAtomic_error hwrite)))
        · cases outcome with
          | ok u => cases hret
          | error werr =>
              cases werr with
              | notReady =>
                  cases hret
                  exact Or.inr (Or.inr (Or.inr ⟨id, rfl⟩))
              | io err =>
                  simp only at hret
                  split at hret <;> cases hret
  | setTimer duration =>
      rcases error_of_bind_eq_error h with hset | ⟨timeouts, -, hret⟩
      · exact Or.inr (Or.inl ⟨duration, hset⟩)
      · cases hret

/-! ## What a turn leaves alone and what it notes down -/

omit [Resource T ET] in
/-- The I/O flags of a listener change its entry, the service and the trace. -/
theorem listenerIo_eq (rt : Runtime H P L T C EL ET) (id : ResourceId) (listener : L)
    (io : IoType) (time : ℕ) :
    ∃ service tr, rt.listenerIo id listener io time = { rt with
        service := service
        trace := rt.trace ++ tr
        listeners := rt.listeners.insert id (afterIo listener io.toList) } ∧
      ∀ obs ∈ tr, IoObservation id
        (fun event => (.handleListenerEvent id event time : Call L T C EL ET)) obs := by
  obtain ⟨service, tr, heq, htr⟩ := ioLoop_spec id
    (fun event => (.handleListenerEvent id event time : Call L T C EL ET)) rt listener io.toList
  refine ⟨service, tr, ?_, htr⟩
  rw [listenerIo]
  simp only [heq, ioLoop_snd]

omit [Resource L EL] in
/-- The I/O flags of a transport change its entry, the service and the trace. -/
theorem transportIo_eq (rt : Runtime H P L T C EL ET) (id : ResourceId) (transport : T)
    (io : IoType) (time : ℕ) :
    ∃ service tr, rt.transportIo id transport io time = { rt with
        service := service
        trace := rt.trace ++ tr
        transports := rt.transports.insert id (afterIo transport io.toList) } ∧
      ∀ obs ∈ tr, IoObservation id
        (fun event => (.handleTransportEvent id event time : Call L T C EL ET)) obs := by
  obtain ⟨service, tr, heq, htr⟩ := ioLoop_spec id
    (fun event => (.handleTransportEvent id event time : Call L T C EL ET)) rt transport
    io.toList
  refine ⟨service, tr, ?_, htr⟩
  rw [transportIo]
  simp only [heq, ioLoop_snd]

/-- The entries of the trace that an event can cause. -/
def OfEvent : Observation L T C EL ET → Prop
  | .handleIo _ _ => True
  | .call (.handleListenerEvent _ _ _) => True
  | .call (.handleTransportEvent _ _ _) => True
  | .call (.handleError (.listenerDisconnect _ _)) => True
  | .call (.handleError (.transportDisconnect _ _)) => True
  | _ => False

/-- The entries of the trace that an action can cause. -/
def OfAction : Observation L T C EL ET → Prop
  | .writeAtomic _ _ _ => True
  | .call (.handleRegistered _ _ _) => True
  | .call (.handoverListener _ _) => True
  | .call (.handoverTransport _ _) => True
  | .call (.handleError (.transportDisconnect _ _)) => True
  | _ => False

/-- What an event leaves alone, and what it notes down. -/
theorem Handled.frame {rt rt' : Runtime H P L T C EL ET} {id : ResourceId}
    {res : Except IoFail IoType} {time : ℕ} {woken : Bool}
    (h : Handled rt id res time woken rt') :
    rt'.ctlRecv = rt.ctlRecv ∧ rt'.timeouts = rt.timeouts ∧
      rt'.waker = (if woken then { rt.waker with signal := false } else rt.waker) ∧
      ∃ tr, rt'.trace = rt.trace ++ tr ∧ ∀ obs ∈ tr, OfEvent obs := by
  cases h with
  | waker hid io hres => exact ⟨rfl, rfl, rfl, [], by simp, by simp⟩
  | listenerIo hid io hres listener hlook =>
      obtain ⟨service, tr, heq, htr⟩ := rt.listenerIo_eq id listener io time
      rw [heq]
      refine ⟨rfl, rfl, rfl, tr, rfl, fun obs hobs => ?_⟩
      have hio := htr obs hobs
      cases obs with
      | call c =>
          obtain ⟨event, rfl⟩ := hio
          trivial
      | handleIo id' io' => trivial
      | next answer => exact hio.elim
      | writeAtomic id' data result => exact hio.elim
  | listenerGone hid err hres listener hlook =>
      exact ⟨rfl, rfl, rfl, _, rfl, List.forall_mem_singleton.mpr trivial⟩
  | transportIo hid hno io hres transport hlook =>
      obtain ⟨service, tr, heq, htr⟩ := rt.transportIo_eq id transport io time
      rw [heq]
      refine ⟨rfl, rfl, rfl, tr, rfl, fun obs hobs => ?_⟩
      have hio := htr obs hobs
      cases obs with
      | call c =>
          obtain ⟨event, rfl⟩ := hio
          trivial
      | handleIo id' io' => trivial
      | next answer => exact hio.elim
      | writeAtomic id' data result => exact hio.elim
  | transportGone hid hno err hres transport hlook =>
      exact ⟨rfl, rfl, rfl, _, rfl, List.forall_mem_singleton.mpr trivial⟩

/-- What an action and the report of its error leave alone, and what they note down. -/
theorem Acted.frame {prof : Profile} {rt rt' : Runtime H P L T C EL ET} {time : ℕ}
    {action : Action L T} {result : Except (Error L T) Unit}
    (h : Acted prof rt time action result rt') :
    (rt'.report result).ctlRecv = rt.ctlRecv ∧ (rt'.report result).waker = rt.waker ∧
      ∃ tr, (rt'.report result).trace = rt.trace ++ tr ∧ ∀ obs ∈ tr, OfAction obs := by
  cases h with
  | registerListener listener id poller hreg =>
      exact ⟨rfl, rfl, _, rfl, List.forall_mem_singleton.mpr trivial⟩
  | registerTransport transport id poller hreg =>
      exact ⟨rfl, rfl, _, rfl, List.forall_mem_singleton.mpr trivial⟩
  | unregisterListener id listener hlook =>
      exact ⟨rfl, rfl, _, rfl, List.forall_mem_singleton.mpr trivial⟩
  | unregisterTransport id transport hlook =>
      exact ⟨rfl, rfl, _, rfl, List.forall_mem_singleton.mpr trivial⟩
  | sent id data transport transport' hlook hwrite =>
      exact ⟨rfl, rfl, _, rfl, List.forall_mem_singleton.mpr trivial⟩
  | sendFailed id data transport transport' err hlook hwrite =>
      refine ⟨rfl, rfl, _, List.append_assoc _ _ _, fun obs hobs => ?_⟩
      rcases List.mem_append.mp hobs with hobs | hobs
      · rw [List.mem_singleton.mp hobs]
        trivial
      · rw [List.mem_singleton.mp hobs]
        trivial
  | setTimer duration timeouts hset => exact ⟨rfl, rfl, [], by simp [report], by simp⟩
  | ignored action hno => exact ⟨rfl, rfl, [], by simp [report], by simp⟩

end

end Runtime

end IoReactor
