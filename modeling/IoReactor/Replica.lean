/-
# The trace determines the state

A `Replica` follows the reactor thread from its trace alone: the service, the resources of
the two maps, the deadlines, the time of the round, and what the last entry has made due.
`Replica.apply` is what an entry does to it and `Replica.Allows` says which entries can
come, so that an event comes when and as a resource has returned it, an action when and as
the service has yielded it, a disconnect or a handover with the resource as it is held, and
`handle_timer` when a deadline has expired.  `trace_determines_state` says that every entry
of the trace of a run is allowed, and that the runtime is what the replica arrives at.
-/
import IoReactor.Passes

namespace IoReactor

variable {H P A L T C EL ET : Type}

/-! ## The replica -/

/-- What the last entry of the trace has made due. -/
inductive Due (L T EL ET : Type)
  | nothing
  /-- a deadline has expired -/
  | timer
  /-- a resource has returned an event -/
  | listenerEvent (id : ResourceId) (event : EL)
  | transportEvent (id : ResourceId) (event : ET)
  /-- the service has yielded an action on a resource -/
  | listener (listener : L)
  | transport (transport : T)
  | handoverListener (id : ResourceId)
  | handoverTransport (id : ResourceId)
  | write (id : ResourceId) (data : List UInt8)
  /-- a write has failed -/
  | disconnect (id : ResourceId)

/-- What a write has made due. -/
def Due.ofWrite (id : ResourceId) : Except WriteError Unit → Due L T EL ET
  | .ok () => .nothing
  | .error _ => .disconnect id

/-- The reactor thread as far as its trace tells. -/
structure Replica (H L T EL ET : Type) where
  service : H
  listeners : ResourceId → Option L
  transports : ResourceId → Option T
  timeouts : Timer
  now : ℕ
  due : Due L T EL ET

/-- The replica that agrees with a runtime, in a round with the time `now`. -/
def Runtime.replica (rt : Runtime H P L T C EL ET) (now : ℕ) : Replica H L T EL ET where
  service := rt.service
  listeners := fun id => rt.listeners.lookup id
  transports := fun id => rt.transports.lookup id
  timeouts := rt.timeouts
  now := now
  due := .nothing

namespace Replica

section

variable [Handler H L T C EL ET]

/-- The effect of a callback on what the replica holds, the service apart. -/
def heard (self : Replica H L T EL ET) : Call L T C EL ET → Replica H L T EL ET
  | .tick now => { self with
      timeouts := ⟨self.timeouts.timeouts.filter (now < ·)⟩
      now := now
      due := if ∃ t ∈ self.timeouts.timeouts, t ≤ now then .timer else .nothing }
  | .handleRegistered _ id _ =>
      match self.due with
      | .listener listener => { self with
          listeners := Function.update self.listeners id (some listener), due := .nothing }
      | .transport transport => { self with
          transports := Function.update self.transports id (some transport), due := .nothing }
      | _ => self
  | .handleError (.listenerDisconnect id _) =>
      { self with listeners := Function.update self.listeners id none, due := .nothing }
  | .handleError (.transportDisconnect id _) =>
      { self with transports := Function.update self.transports id none, due := .nothing }
  | .handoverListener id _ =>
      { self with listeners := Function.update self.listeners id none, due := .nothing }
  | .handoverTransport id _ =>
      { self with transports := Function.update self.transports id none, due := .nothing }
  | _ => { self with due := .nothing }

/-- What an action makes due: an action on a resource that is not held is ignored. -/
def demand (self : Replica H L T EL ET) : Action L T → Due L T EL ET
  | .registerListener listener => .listener listener
  | .registerTransport transport => .transport transport
  | .unregisterListener id =>
      if (self.listeners id).isSome then .handoverListener id else .nothing
  | .unregisterTransport id =>
      if (self.transports id).isSome then .handoverTransport id else .nothing
  | .send id data => if (self.transports id).isSome then .write id data else .nothing
  | .setTimer _ => .nothing

/-- The deadlines after an action. -/
def schedule (prof : Profile) (self : Replica H L T EL ET) : Action L T → Timer
  | .setTimer duration =>
      match self.timeouts.setTimeout prof duration self.now with
      | .ok timeouts => timeouts
      | .error _ => self.timeouts
  | _ => self.timeouts

/-- The replica after the service has yielded an action, and is now `service`. -/
def yielded (prof : Profile) (self : Replica H L T EL ET) (service : H) (action : Action L T) :
    Replica H L T EL ET :=
  { self with
    service := service
    timeouts := self.schedule prof action
    due := self.demand action }

variable [Resource L EL] [Resource T ET]

/-- What an entry of the trace does to the replica. -/
def apply (prof : Profile) (self : Replica H L T EL ET) :
    Observation L T C EL ET → Replica H L T EL ET
  | .call c => { self.heard c with service := Handler.react self.service c }
  | .next none => { self with service := (Handler.next self.service).2 }
  | .next (some action) => self.yielded prof (Handler.next self.service).2 action
  | .handleIo id io =>
      match self.listeners id, self.transports id with
      | some listener, _ =>
          let (event, listener) := Resource.handleIo listener io
          { self with
            listeners := Function.update self.listeners id (some listener)
            due := event.elim .nothing (.listenerEvent id) }
      | none, some transport =>
          let (event, transport) := Resource.handleIo transport io
          { self with
            transports := Function.update self.transports id (some transport)
            due := event.elim .nothing (.transportEvent id) }
      | none, none => self
  | .writeAtomic id data _ =>
      match self.transports id with
      | none => self
      | some transport =>
          match writeAtomic prof transport data with
          | .error _ => self
          | .ok (result, transport) => { self with
              transports := Function.update self.transports id (some transport)
              due := .ofWrite id result }

/-- Which callbacks can come. -/
def Hears (self : Replica H L T EL ET) : Call L T C EL ET → Prop
  | .tick _ => self.due = .nothing
  | .handleTimer => self.due = .timer
  | .handleListenerEvent id event time => self.due = .listenerEvent id event ∧ time = self.now
  | .handleTransportEvent id event time => self.due = .transportEvent id event ∧ time = self.now
  | .handleRegistered fd _ .listener =>
      ∃ listener, self.due = .listener listener ∧ fd = Resource.asRawFd listener
  | .handleRegistered fd _ .transport =>
      ∃ transport, self.due = .transport transport ∧ fd = Resource.asRawFd transport
  | .handleCommand _ => self.due = .nothing
  | .handleError (.poll _) => self.due = .nothing
  | .handleError (.listenerDisconnect id listener) =>
      self.due = .nothing ∧ self.listeners id = some listener
  | .handleError (.transportDisconnect id transport) =>
      (self.due = .nothing ∨ self.due = .disconnect id) ∧ self.transports id = some transport
  | .handoverListener id listener =>
      self.due = .handoverListener id ∧ self.listeners id = some listener
  | .handoverTransport id transport =>
      self.due = .handoverTransport id ∧ self.transports id = some transport

/-- Which entries can come: what is due, and if nothing is, what the state admits. -/
def Allows (prof : Profile) (self : Replica H L T EL ET) : Observation L T C EL ET → Prop
  | .call c => self.Hears c
  | .next answer => self.due = .nothing ∧ answer = (Handler.next self.service).1
  | .handleIo id _ =>
      self.due = .nothing ∧ ((self.listeners id).isSome ∨ (self.transports id).isSome)
  | .writeAtomic id data result => self.due = .write id data ∧
      ∃ transport transport', self.transports id = some transport ∧
        writeAtomic prof transport data = .ok (result, transport')

/-- The replica after a trace. -/
def after (prof : Profile) (self : Replica H L T EL ET) (tr : List (Observation L T C EL ET)) :
    Replica H L T EL ET :=
  tr.foldl (apply prof) self

/-- Every entry of the trace is one that can come. -/
def Faithful (prof : Profile) : Replica H L T EL ET → List (Observation L T C EL ET) → Prop
  | _, [] => True
  | self, obs :: tr => self.Allows prof obs ∧ Faithful prof (self.apply prof obs) tr

/-- What a write to a transport that is held does to the replica. -/
theorem apply_writeAtomic {prof : Profile} {self : Replica H L T EL ET} {id : ResourceId}
    {data : List UInt8} {transport transport' : T} {result : Except WriteError Unit}
    (hlook : self.transports id = some transport)
    (hwrite : IoReactor.writeAtomic prof transport data = .ok (result, transport')) :
    self.apply prof (.writeAtomic id data result : Observation L T C EL ET) = { self with
      transports := Function.update self.transports id (some transport')
      due := .ofWrite id result } := by
  simp only [apply, hlook, hwrite]

/-! ### Traces in pieces -/

/-- The replica after a trace, entry by entry. -/
theorem after_cons {prof : Profile} (self : Replica H L T EL ET) (obs : Observation L T C EL ET)
    (tr : List (Observation L T C EL ET)) :
    self.after prof (obs :: tr) = (self.apply prof obs).after prof tr := rfl

/-- The replica after a longer trace. -/
theorem after_append {prof : Profile} (self : Replica H L T EL ET)
    (tr tr' : List (Observation L T C EL ET)) :
    self.after prof (tr ++ tr') = (self.after prof tr).after prof tr' :=
  List.foldl_append

/-- A longer trace is faithful piece by piece. -/
theorem Faithful.append {prof : Profile} {self : Replica H L T EL ET}
    {tr tr' : List (Observation L T C EL ET)} (h : self.Faithful prof tr)
    (h' : (self.after prof tr).Faithful prof tr') : self.Faithful prof (tr ++ tr') := by
  induction tr generalizing self with
  | nil => exact h'
  | cons obs tr ih => exact ⟨h.1, ih h.2 h'⟩

/-- The flags of a resource: `put` is the replica by its service, the resource and what is
due.  It takes each flag to the resource and each event to the service. -/
theorem faithful_ioTrace {prof : Profile} {R E : Type} [Resource R E] (id : ResourceId)
    (put : H → R → Due L T EL ET → Replica H L T EL ET)
    (onEvent : E → Call L T C EL ET) (dueEvent : E → Due L T EL ET)
    (hio : ∀ service res io, (put service res .nothing).Allows prof
        (.handleIo id io : Observation L T C EL ET) ∧
      (put service res .nothing).apply prof (.handleIo id io : Observation L T C EL ET) =
        put service (Resource.handleIo res io).2
          ((Resource.handleIo res io).1.elim .nothing dueEvent))
    (hevent : ∀ service res event,
      (put service res (dueEvent event)).Allows prof (.call (onEvent event)) ∧
      (put service res (dueEvent event)).apply prof (.call (onEvent event)) =
        put (Handler.react service (onEvent event)) res .nothing)
    (service : H) (res : R) (ios : List Io) :
    (put service res .nothing).Faithful prof (Runtime.ioTrace id onEvent res ios) ∧
      (put service res .nothing).after prof (Runtime.ioTrace id onEvent res ios) =
        put (Runtime.replay service (Runtime.ioTrace id onEvent res ios))
          (Runtime.afterIo res ios) .nothing := by
  induction ios generalizing service res with
  | nil => exact ⟨trivial, rfl⟩
  | cons io ios ih =>
      obtain ⟨hallows, happly⟩ := hio service res io
      have hafter : Runtime.afterIo res (io :: ios) =
          Runtime.afterIo (Resource.handleIo res io).2 ios := rfl
      rw [hafter, Runtime.ioTrace]
      cases hres : (Resource.handleIo res io).1 with
      | none =>
          rw [hres] at happly
          obtain ⟨hfaithful, heq⟩ := ih service (Resource.handleIo res io).2
          refine ⟨⟨hallows, ?_⟩, ?_⟩
          · rw [happly]
            exact hfaithful
          · rw [List.cons_append, after_cons, happly]
            exact heq
      | some event =>
          rw [hres] at happly
          obtain ⟨hallows', happly'⟩ := hevent service (Resource.handleIo res io).2 event
          obtain ⟨hfaithful, heq⟩ := ih (Handler.react service (onEvent event))
            (Resource.handleIo res io).2
          refine ⟨⟨hallows, ?_⟩, ?_⟩
          · rw [happly]
            refine ⟨hallows', ?_⟩
            rw [show Option.elim _ _ _ = dueEvent event from rfl, happly']
            exact hfaithful
          · rw [List.cons_append, after_cons, happly]
            show Replica.after prof (put _ _ (dueEvent event)) (.call (onEvent event) :: _) = _
            rw [after_cons, happly']
            exact heq

end

end Replica

/-! ## The replica follows the runtime -/

namespace Runtime

section

variable [Handler H L T C EL ET] [Resource L EL] [Resource T ET]

/-- The trace of `rt'` goes on from that of `rt` by a faithful piece, after which the replica
agrees with `rt'`. -/
def Tracks (prof : Profile) (rt : Runtime H P L T C EL ET) (now : ℕ)
    (rt' : Runtime H P L T C EL ET) (now' : ℕ) : Prop :=
  ∃ tr, rt'.trace = rt.trace ++ tr ∧ (rt.replica now).Faithful prof tr ∧
    (rt.replica now).after prof tr = rt'.replica now'

variable {prof : Profile} {rt rt' : Runtime H P L T C EL ET}

/-- A runtime that agrees with another in what the replica holds. -/
theorem Tracks.of_eq {now : ℕ} (htrace : rt'.trace = rt.trace)
    (hreplica : rt'.replica now = rt.replica now) : Tracks prof rt now rt' now :=
  ⟨[], by rw [htrace, List.append_nil], trivial, hreplica.symm⟩

/-- The listeners after one of them is replaced. -/
theorem lookup_insert_eq_update {R : Type} (map : HashMap ResourceId R) (id : ResourceId)
    (res : R) : (fun id' => (map.insert id res).lookup id') =
      Function.update (fun id' => map.lookup id') id (some res) := by
  funext id'
  by_cases hid : id' = id
  · subst hid
    rw [Function.update_self, AList.lookup_insert]
  · rw [Function.update_of_ne hid, AList.lookup_insert_ne hid]

/-- The map after a resource is taken out. -/
theorem lookup_erase_eq_update {R : Type} (map : HashMap ResourceId R) (id : ResourceId) :
    (fun id' => (map.erase id).lookup id') =
      Function.update (fun id' => map.lookup id') id none := by
  funext id'
  by_cases hid : id' = id
  · subst hid
    rw [Function.update_self, AList.lookup_erase]
  · rw [Function.update_of_ne hid, AList.lookup_erase_ne hid]

/-- The replica whose listener `id` is replaced. -/
def withListener (rt : Runtime H P L T C EL ET) (now : ℕ) (id : ResourceId) (service : H)
    (listener : L) (due : Due L T EL ET) : Replica H L T EL ET :=
  { rt.replica now with
    service := service
    listeners := Function.update (rt.replica now).listeners id (some listener)
    due := due }

/-- The replica whose transport `id` is replaced. -/
def withTransport (rt : Runtime H P L T C EL ET) (now : ℕ) (id : ResourceId) (service : H)
    (transport : T) (due : Due L T EL ET) : Replica H L T EL ET :=
  { rt.replica now with
    service := service
    transports := Function.update (rt.replica now).transports id (some transport)
    due := due }

/-- The flags of a listener are tracked. -/
theorem tracks_listenerIo {id : ResourceId} {listener : L} {io : IoType} {time : ℕ}
    (hlook : rt.listeners.lookup id = some listener) :
    Tracks prof rt time (rt.listenerIo id listener io time) time := by
  obtain ⟨hfaithful, hafter⟩ := Replica.faithful_ioTrace id (rt.withListener time id)
    (fun event => (.handleListenerEvent id event time : Call L T C EL ET)) (.listenerEvent id)
    (fun service res io => by simp [withListener, Replica.Allows, Replica.apply])
    (fun service res event => ⟨⟨rfl, rfl⟩, rfl⟩) rt.service listener io.toList
  have hstart : rt.withListener time id rt.service listener .nothing = rt.replica time := by
    unfold withListener
    rw [show some listener = (rt.replica time).listeners id from hlook.symm,
      Function.update_eq_self]
    rfl
  rw [hstart] at hfaithful hafter
  refine ⟨_, ?_, hfaithful, hafter.trans ?_⟩
  · rw [listenerIo, ioLoop_eq]
  · rw [listenerIo, ioLoop_eq, ioLoop_snd, replica]
    simp only [lookup_insert_eq_update]
    rfl

/-- The flags of a transport are tracked. -/
theorem tracks_transportIo {id : ResourceId} {transport : T} {io : IoType} {time : ℕ}
    (hno : id ∉ rt.listeners) (hlook : rt.transports.lookup id = some transport) :
    Tracks prof rt time (rt.transportIo id transport io time) time := by
  have hnone : (rt.replica time).listeners id = none := AList.lookup_eq_none.mpr hno
  obtain ⟨hfaithful, hafter⟩ := Replica.faithful_ioTrace id (rt.withTransport time id)
    (fun event => (.handleTransportEvent id event time : Call L T C EL ET)) (.transportEvent id)
    (fun service res io => by simp [withTransport, Replica.Allows, Replica.apply, hnone])
    (fun service res event => ⟨⟨rfl, rfl⟩, rfl⟩) rt.service transport io.toList
  have hstart : rt.withTransport time id rt.service transport .nothing = rt.replica time := by
    unfold withTransport
    rw [show some transport = (rt.replica time).transports id from hlook.symm,
      Function.update_eq_self]
    rfl
  rw [hstart] at hfaithful hafter
  refine ⟨_, ?_, hfaithful, hafter.trans ?_⟩
  · rw [transportIo, ioLoop_eq]
  · rw [transportIo, ioLoop_eq, ioLoop_snd, replica]
    simp only [lookup_insert_eq_update]
    rfl

variable [Poll P A]

omit [Resource L EL] [Resource T ET] in
/-- The replica after a listener is taken out. -/
theorem replica_dropListener (rt : Runtime H P L T C EL ET) (now : ℕ) (id : ResourceId)
    (c : Call L T C EL ET) : ((rt.dropListener id).call c).replica now = { rt.replica now with
      service := Handler.react rt.service c
      listeners := Function.update (rt.replica now).listeners id none } := by
  unfold replica
  simp only [call_listeners, call_transports, dropListener, lookup_erase_eq_update]
  rfl

omit [Resource L EL] [Resource T ET] in
/-- The replica after a transport is taken out. -/
theorem replica_dropTransport (rt : Runtime H P L T C EL ET) (now : ℕ) (id : ResourceId)
    (c : Call L T C EL ET) : ((rt.dropTransport id).call c).replica now = { rt.replica now with
      service := Handler.react rt.service c
      transports := Function.update (rt.replica now).transports id none } := by
  unfold replica
  simp only [call_listeners, call_transports, dropTransport, lookup_erase_eq_update]
  rfl

/-- Every event is tracked. -/
theorem Handled.tracks {id : ResourceId} {res : Except IoFail IoType} {time : ℕ} {woken : Bool}
    (h : Handled rt id res time woken rt') : Tracks prof rt time rt' time := by
  cases h with
  | waker hid io hres => exact Tracks.of_eq rfl rfl
  | listenerIo hid io hres listener hlook => exact tracks_listenerIo hlook
  | listenerGone hid err hres listener hlook =>
      refine ⟨[.call (.handleError (.listenerDisconnect id listener))], rfl,
        ⟨⟨rfl, hlook⟩, trivial⟩, ?_⟩
      rw [replica_dropListener]
      rfl
  | transportIo hid hno io hres transport hlook => exact tracks_transportIo hno hlook
  | transportGone hid hno err hres transport hlook =>
      refine ⟨[.call (.handleError (.transportDisconnect id transport))], rfl,
        ⟨⟨Or.inl rfl, hlook⟩, trivial⟩, ?_⟩
      rw [replica_dropTransport]
      rfl

omit [Poll P A] in
/-- What the trace says of an action goes on from where the service has yielded it. -/
theorem tracks_of_yielded {now : ℕ} {action : Action L T} {service : H}
    (hnext : Handler.next rt.service = (some action, service))
    {tr : List (Observation L T C EL ET)}
    (htrace : rt'.trace = rt.trace ++ .next (some action) :: tr)
    (hfaithful : ((rt.replica now).yielded prof service action).Faithful prof tr)
    (hafter : ((rt.replica now).yielded prof service action).after prof tr = rt'.replica now) :
    Tracks prof rt now rt' now := by
  have happly : (rt.replica now).apply prof (.next (some action) : Observation L T C EL ET) =
      (rt.replica now).yielded prof service action := by
    show (rt.replica now).yielded prof (Handler.next rt.service).2 action = _
    rw [hnext]
  refine ⟨_, htrace, ⟨⟨rfl, ?_⟩, ?_⟩, ?_⟩
  · show _ = (Handler.next rt.service).1
    rw [hnext]
  · rw [happly]
    exact hfaithful
  · rw [Replica.after_cons, happly]
    exact hafter

omit [Handler H L T C EL ET] [Resource L EL] [Resource T ET] [Poll P A] in
/-- A send to a transport that is held makes a write due. -/
theorem demand_send {now : ℕ} {id : ResourceId} {transport : T} (data : List UInt8)
    (hlook : rt.transports.lookup id = some transport) :
    (rt.replica now).demand (.send id data) = .write id data :=
  if_pos (Option.isSome_iff_exists.mpr ⟨transport, hlook⟩)

omit [Handler H L T C EL ET] [Resource L EL] [Resource T ET] [Poll P A] in
/-- An action on a resource that is not held makes nothing due, and sets no deadline. -/
theorem demand_of_ignores {now : ℕ} {action : Action L T} (h : rt.Ignores action) :
    (rt.replica now).demand action = .nothing ∧
      (rt.replica now).schedule prof action = rt.timeouts := by
  cases action with
  | unregisterListener id => exact ⟨if_neg (Option.not_isSome_iff_eq_none.mpr h), rfl⟩
  | unregisterTransport id => exact ⟨if_neg (Option.not_isSome_iff_eq_none.mpr h), rfl⟩
  | send id data => exact ⟨if_neg (Option.not_isSome_iff_eq_none.mpr h), rfl⟩
  | _ => exact h.elim

/-- The next action of the service and its effect are tracked. -/
theorem Acted.tracks {now : ℕ} {action : Action L T} {service : H}
    (hnext : Handler.next rt.service = (some action, service))
    {result : Except (Error L T) Unit}
    (h : Acted prof ({ rt with service := service }.note (.next (some action))) now action result
      rt') : Tracks prof rt now (rt'.report result) now := by
  have hassoc : ∀ tr : List (Observation L T C EL ET),
      rt.trace ++ [.next (some action)] ++ tr = rt.trace ++ .next (some action) :: tr :=
    fun tr => List.append_assoc _ _ _
  cases h with
  | registerListener listener id poller hreg =>
      refine tracks_of_yielded hnext (hassoc [_]) ⟨⟨listener, rfl, rfl⟩, trivial⟩ ?_
      unfold replica
      simp only [call_listeners, call_transports, report, lookup_insert_eq_update]
      rfl
  | registerTransport transport id poller hreg =>
      refine tracks_of_yielded hnext (hassoc [_]) ⟨⟨transport, rfl, rfl⟩, trivial⟩ ?_
      unfold replica
      simp only [call_listeners, call_transports, report, lookup_insert_eq_update]
      rfl
  | unregisterListener id listener hlook =>
      have hdue : (rt.replica now).demand (.unregisterListener id) = .handoverListener id :=
        if_pos (Option.isSome_iff_exists.mpr ⟨listener, hlook⟩)
      refine tracks_of_yielded hnext (hassoc [_]) ⟨⟨hdue, hlook⟩, trivial⟩ ?_
      show _ = replica (Runtime.call (dropListener _ _) _) _
      rw [replica_dropListener]
      rfl
  | unregisterTransport id transport hlook =>
      have hdue : (rt.replica now).demand (.unregisterTransport id) = .handoverTransport id :=
        if_pos (Option.isSome_iff_exists.mpr ⟨transport, hlook⟩)
      refine tracks_of_yielded hnext (hassoc [_]) ⟨⟨hdue, hlook⟩, trivial⟩ ?_
      show _ = replica (Runtime.call (dropTransport _ _) _) _
      rw [replica_dropTransport]
      rfl
  | sent id data transport transport' hlook hwrite =>
      refine tracks_of_yielded hnext (hassoc [_])
        ⟨⟨demand_send data hlook, transport, transport', hlook, hwrite⟩, trivial⟩ ?_
      rw [Replica.after_cons, Replica.apply_writeAtomic hlook hwrite]
      unfold replica report wrote
      simp only [note, lookup_insert_eq_update]
      rfl
  | sendFailed id data transport transport' err hlook hwrite =>
      -- the failed write, and the disconnect of the transport as the write has left it
      have happly : ((rt.replica now).yielded prof service (.send id data)).apply prof
          (.writeAtomic id data (.error (.io err)) : Observation L T C EL ET) = _ :=
        Replica.apply_writeAtomic hlook hwrite
      refine tracks_of_yielded hnext ((List.append_assoc _ [_] [_]).trans (hassoc [_, _]))
        ⟨⟨demand_send data hlook, transport, transport', hlook, hwrite⟩, ?_, trivial⟩ ?_
      · rw [happly]
        exact ⟨Or.inr rfl, Function.update_self _ _ _⟩
      · rw [Replica.after_cons, happly, report, replica_dropTransport]
        unfold replica wrote
        simp only [note, lookup_insert_eq_update]
        rfl
  | setTimer duration timeouts hset =>
      refine tracks_of_yielded hnext rfl trivial ?_
      have hschedule : (rt.replica now).schedule prof (.setTimer duration) = timeouts := by
        have hset' : (rt.replica now).timeouts.setTimeout prof duration now = .ok timeouts := hset
        rw [Replica.schedule, show (rt.replica now).now = now from rfl, hset']
      unfold Replica.after Replica.yielded
      rw [hschedule]
      rfl
  | ignored _ hno =>
      refine tracks_of_yielded hnext rfl trivial ?_
      obtain ⟨hdue, hschedule⟩ : (rt.replica now).demand action = .nothing ∧
          (rt.replica now).schedule prof action = rt.timeouts := demand_of_ignores hno
      unfold Replica.after Replica.yielded
      rw [hdue, hschedule]
      rfl

/-- A turn of the loop of `handle_actions` is tracked. -/
theorem tracks_handleNext {now : ℕ} {more : Bool} (h : rt.handleNext prof now = .ok (more, rt')) :
    Tracks prof rt now rt' now := by
  unfold handleNext at h
  cases hnext : Handler.next rt.service with
  | mk answer service =>
      rw [hnext] at h
      cases answer with
      | none =>
          cases h
          have hservice : (Handler.next rt.service).2 = service := by rw [hnext]
          refine ⟨[.next none], rfl, ⟨⟨rfl, ?_⟩, trivial⟩, ?_⟩
          · show none = (Handler.next rt.service).1
            rw [hnext]
          · show ({ rt.replica now with service := (Handler.next rt.service).2 } :
              Replica H L T EL ET) = _
            rw [hservice]
            rfl
      | some action =>
          obtain ⟨⟨result, rt''⟩, hact, hret⟩ := exists_of_bind_eq_ok h
          have hrt' : rt' = rt''.report result := by
            cases result <;> cases hret <;> rfl
          rw [hrt']
          exact (acted_of_handleAction hact).tracks hnext

/-- The service of `rt'` has seen the callbacks that the trace has got since `rt`. -/
def Seen (rt rt' : Runtime H P L T C EL ET) : Prop :=
  ∃ tr, rt'.trace = rt.trace ++ tr ∧ rt'.service = replay rt.service tr

omit [Resource L EL] [Resource T ET] [Poll P A] in
/-- One more callback is seen. -/
theorem Seen.call (h : Seen rt rt') (c : Call L T C EL ET) : Seen rt (rt'.call c) := by
  obtain ⟨tr, htrace, hservice⟩ := h
  refine ⟨tr ++ [.call c], ?_, ?_⟩
  · rw [call_trace, htrace, List.append_assoc]
  · rw [replay_append, ← hservice]
    rfl

omit [Poll P A] in
/-- Whether the timer fires is what a tick makes due. -/
theorem apply_tick {now₀ now : ℕ} {fired : Bool} (hfired : fired = true ↔ rt.Fires now) :
    (rt.replica now₀).apply prof (.call (.tick now) : Observation L T C EL ET) =
      { rt.replica now with
        service := Handler.react rt.service (.tick now)
        timeouts := ⟨rt.timeouts.timeouts.filter (now < ·)⟩
        due := if fired then .timer else .nothing } := by
  have hdue : (if ∃ t ∈ rt.timeouts.timeouts, t ≤ now then (.timer : Due L T EL ET)
      else .nothing) = if fired then .timer else .nothing :=
    if_congr hfired.symm rfl rfl
  rw [← hdue]
  rfl

omit [Resource L EL] [Resource T ET] in
/-- The service after the poll has seen the callbacks that the poll has added to the trace. -/
theorem seen_of_afterPoll {clock : SystemTime} {timeout : Duration} {answer : A} {now : ℕ}
    (h : rt.afterPoll prof clock timeout answer = .ok (now, rt')) : Seen rt rt' := by
  unfold afterPoll at h
  generalize Poll.poll rt.poller (some timeout) answer = out at h
  obtain ⟨res, poller⟩ := out
  obtain ⟨now', hclock, hrest⟩ := exists_of_bind_eq_ok h
  obtain ⟨⟨count, timeouts⟩, hexp, hret⟩ := exists_of_bind_eq_ok hrest
  have htick : Seen rt { ({ rt with poller := poller }.call (.tick now')) with
      timeouts := timeouts } := ⟨[.call (.tick now')], rfl, rfl⟩
  have htimer : Seen rt (if 0 < count then { ({ rt with poller := poller }.call (.tick now')) with
      timeouts := timeouts }.call .handleTimer else
      { ({ rt with poller := poller }.call (.tick now')) with timeouts := timeouts }) := by
    split
    · exact htick.call _
    · exact htick
  cases res with
  | ok n =>
      cases hret
      exact htimer
  | error err =>
      cases hret
      exact htimer.call _

/-- What follows the poll is tracked. -/
theorem tracks_afterPoll {clock : SystemTime} {timeout : Duration} {answer : A} {now₀ now : ℕ}
    (h : rt.afterPoll prof clock timeout answer = .ok (now, rt')) :
    Tracks prof rt now₀ rt' now := by
  obtain ⟨-, fired, service, hfired, hrt⟩ := Thread.afterPoll_ok h
  obtain ⟨tr, htr, hservice⟩ := seen_of_afterPoll h
  generalize (Poll.poll rt.poller (some timeout) answer).1 = res at hrt
  have hpiece : (pollCalls now fired res).map .call = tr :=
    List.append_cancel_left ((congrArg Runtime.trace hrt).symm.trans htr)
  subst hpiece
  have hreplica : rt'.replica now = { rt.replica now with
      service := replay rt.service ((pollCalls now fired res).map .call)
      timeouts := ⟨rt.timeouts.timeouts.filter (now < ·)⟩ } := by
    rw [← hservice, hrt]
    rfl
  have htick : (rt.replica now₀).apply prof (.call (.tick now) : Observation L T C EL ET) = _ :=
    apply_tick hfired
  refine ⟨_, htr, ⟨rfl, ?_⟩, ?_⟩
  · rw [htick]
    cases fired with
    | true =>
        cases res with
        | ok n => exact ⟨rfl, trivial⟩
        | error err => exact ⟨rfl, rfl, trivial⟩
    | false =>
        cases res with
        | ok n => trivial
        | error err => exact ⟨rfl, trivial⟩
  · show Replica.after prof ((rt.replica now₀).apply prof (.call (.tick now) :
      Observation L T C EL ET)) _ = _
    rw [hreplica, htick]
    cases fired <;> cases res <;> rfl

end

end Runtime

/-! ## Whole runs -/

section

variable [Handler H L T C EL ET] [Resource L EL] [Resource T ET] [Poll P A]
variable {prof : Profile} {engine : P} {G : System H P L T C EL ET → Label A C → Prop}

/-- The replica that follows the trace from the start agrees with the thread. -/
def Followed (prof : Profile) (origin : Replica H L T EL ET) (th : Thread H P L T C EL ET) :
    Prop :=
  origin.Faithful prof th.runtime.trace ∧ ∃ now,
    origin.after prof th.runtime.trace = th.runtime.replica now ∧
    ∀ time, th.pc.time = some time → time = now

/-- A turn that is tracked goes on with the trace. -/
theorem Followed.tracks {origin : Replica H L T EL ET} {th th' : Thread H P L T C EL ET}
    {now' : ℕ} (h : Followed prof origin th)
    (htracks : ∀ now, (∀ time, th.pc.time = some time → time = now) →
      Runtime.Tracks prof th.runtime now th'.runtime now')
    (htime : ∀ time, th'.pc.time = some time → time = now') : Followed prof origin th' := by
  obtain ⟨hfaithful, now, hafter, hnow⟩ := h
  obtain ⟨tr, htrace, hpiece, hend⟩ := htracks now hnow
  refine ⟨?_, now', ?_, htime⟩
  · rw [htrace]
    exact hfaithful.append (hafter ▸ hpiece)
  · rw [htrace, Replica.after_append, hafter, hend]

/-- A turn that leaves what the replica holds alone. -/
theorem Followed.same {origin : Replica H L T EL ET} {th th' : Thread H P L T C EL ET}
    (h : Followed prof origin th) (htrace : th'.runtime.trace = th.runtime.trace)
    (hreplica : ∀ now, th'.runtime.replica now = th.runtime.replica now)
    (htime : ∀ time, th'.pc.time = some time → th.pc.time = some time) :
    Followed prof origin th' := by
  obtain ⟨hfaithful, now, hafter, hnow⟩ := h
  refine ⟨htrace ▸ hfaithful, now, ?_, fun time ht => hnow time (htime time ht)⟩
  rw [htrace, hafter, hreplica]

/-- A turn in a round that has a time. -/
theorem Followed.within {origin : Replica H L T EL ET} {th th' : Thread H P L T C EL ET}
    {now : ℕ} (h : Followed prof origin th) (hnow : th.pc.time = some now)
    (htracks : Runtime.Tracks prof th.runtime now th'.runtime now)
    (htime : ∀ time, th'.pc.time = some time → time = now) : Followed prof origin th' := by
  refine h.tracks (fun now₀ hthis => ?_) htime
  cases hthis now hnow
  exact htracks

/-- Every turn is followed. -/
theorem Followed.ran {origin : Replica H L T EL ET} {clock : SystemTime}
    {th th' : Thread H P L T C EL ET} {input : Input A} (h : Followed prof origin th)
    (hran : Thread.Ran prof clock th input th') : Followed prof origin th' := by
  cases hran with
  | start hpc ls ts hperm timeout rt hrun =>
      obtain ⟨time, -, hrest⟩ := exists_of_bind_eq_ok hrun
      obtain ⟨expiring, -, hret⟩ := exists_of_bind_eq_ok hrest
      cases hret
      exact h.same rfl (fun _ => rfl) nofun
  | poll timeout hpc answer now rt hrun =>
      exact h.tracks (fun _ _ => Runtime.tracks_afterPoll hrun) fun _ htime =>
        (Option.some.inj htime).symm
  | batchDone now awoken hpc hnext =>
      refine h.same rfl (fun _ => rfl) fun time htime => ?_
      rw [hpc]
      cases awoken <;> exact htime
  | event now awoken hpc id res poller hnext woken rt hrun =>
      have htracks : Runtime.Tracks prof { th.runtime with poller := poller } now rt now :=
        (Runtime.handled_of_handleEvent hrun).tracks
      exact h.within (by rw [hpc]; rfl) htracks fun _ htime => (Option.some.inj htime).symm
  | command now hpc turn rt hrun =>
      rcases Runtime.receive_ok hrun with ⟨rfl, rfl⟩ | ⟨rfl, queue, rfl⟩ | ⟨rfl, cmd, queue, rfl⟩
      · exact h.same rfl (fun _ => rfl) fun time htime => by rw [hpc]; exact htime
      · exact h.same rfl (fun _ => rfl) nofun
      · exact h.within (by rw [hpc]; rfl)
          ⟨[.call (.handleCommand cmd)], rfl, ⟨rfl, trivial⟩, rfl⟩
          fun _ htime => (Option.some.inj htime).symm
  | action now hpc more rt hrun =>
      refine h.within (by rw [hpc]; rfl) (Runtime.tracks_handleNext hrun) fun time htime => ?_
      cases more with
      | true => exact (Option.some.inj htime).symm
      | false => cases htime
  | exit hpc => exact h.same rfl (fun _ => rfl) nofun
  | panicked input p => exact h.same rfl (fun _ => rfl) nofun

/-- **The trace determines the state.**  In every run of the reactor, on any engine and
whatever the other threads, the clock, the polls and the resources do, each entry of the
trace is the one that is due, or one that the state admits: an event comes right after the
flag for which its resource returned it, once and with the time of the round, an action is
the one the service yields and is followed by its effect, a disconnect or a handover
carries the resource as the flags and writes before have left it, and `handle_timer` comes
after a tick exactly when a deadline has expired.  The service, the resources and the
deadlines of the runtime are what the trace leads to from the service at the start. -/
theorem trace_determines_state {s₀ s : System H P L T C EL ET}
    (hinit : (reactor prof engine).init s₀) (hrun : (reactor prof engine).Steps G s₀ s) :
    (s₀.runtime.replica 0).Faithful prof s.runtime.trace ∧
    ∃ now, (s₀.runtime.replica 0).after prof s.runtime.trace = s.runtime.replica now ∧
      ∀ time, s.pc.time = some time → time = now := by
  refine hrun.preserves (I := fun s => Followed prof (s₀.runtime.replica 0) s.toThread) ?_ ?_
  · intro s label s' hI hG hstep
    cases label with
    | clock reading =>
        cases hstep
        exact hI
    | breakWaker broken =>
        cases hstep
        exact hI
    | controller i move =>
        -- the replica knows neither the channel nor the waker
        obtain ⟨chan, waker, hcore⟩ := System.core_of_controllerStep hstep
        rw [hcore]
        exact hI
    | turn input =>
        obtain ⟨th, hturn, rfl⟩ := Option.map_eq_some_iff.mp hstep
        exact hI.ran (Thread.ran_of_turn hturn)
  · obtain ⟨service, fd, clock, poller, hreg, rfl⟩ := hinit
    exact ⟨trivial, 0, rfl, nofun⟩

end

/-- A transport is registered and a write to it fails. -/
theorem trace_determines_state_broken : ∃ s : Errands.Sys,
    (reactor .release Poller.new).Steps Lts.anyLabel Errands.boot s ∧ s.pc = .start ∧
    s.runtime.transports.keys = [] ∧
    ((Errands.boot.runtime.replica 0).Faithful .release s.runtime.trace ∧
    ∃ now, (Errands.boot.runtime.replica 0).after .release s.runtime.trace =
        s.runtime.replica now ∧
      ∀ time, s.pc.time = some time → time = now) := by
  have hexec : Lts.exec (System.step .release) Lts.anyLabel Errands.boot
      [.controller 0 (.wake true),
        .controller 0 (.send (.cmd (.registerTransport
          { Errands.pipe with failure := some ⟨.other 5⟩ })) true),
        .controller 0 (.wake true), .controller 0 (.send (.cmd (.send ⟨1⟩ [1, 2])) true),
        .controller 0 (.wake true), .turn (.start [] []),
        .turn (.poll (.ready [Errands.wakerEvent])), .turn .event, .turn .event, .turn .command,
        .turn .command, .turn .command, .turn .action, .turn .action, .turn .action] =
      some _ := rfl
  have hrun : (reactor .release Poller.new).Steps Lts.anyLabel Errands.boot _ :=
    Lts.steps_of_exec hexec
  exact ⟨_, hrun, rfl, rfl, trace_determines_state (Errands.init_boot .release) hrun⟩

end IoReactor
