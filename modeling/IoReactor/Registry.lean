/-
# The registry of the reactor

Four tables must agree when the reactor runs on the popol engine: the two maps of the
runtime, the source table of the engine and its queue of pending events.  `Registry`
says that they do, together with the id generator; every event and every action keeps
it, and so does every turn of the thread (`inStep_of_reachable`).
-/
import IoReactor.ThreadTurns

namespace IoReactor

variable {H L T C EL ET : Type}

/-! ## The invariant -/

/-- The id and the kind of resource an entry of the trace announces. -/
def Observation.announced {L T C EL ET : Type} :
    Observation L T C EL ET → Option (ResourceId × ResourceType)
  | .call (.handleRegistered _ id ty) => some (id, ty)
  | _ => none

/-- The ids announced so far, in order. -/
def issued (tr : List (Observation L T C EL ET)) : List ResourceId :=
  (tr.filterMap Observation.announced).map Prod.fst

/-- The two maps, the source table and the id generator agree. -/
structure Registry (rt : Runtime H Poller L T C EL ET) : Prop where
  disjoint : ∀ id ∈ rt.listeners, id ∉ rt.transports
  listeners_issued : ∀ id ∈ rt.listeners, id ∈ issued rt.trace
  transports_issued : ∀ id ∈ rt.transports, id ∈ issued rt.trace
  sources : ∀ id, id ∈ rt.poller.poll ↔
    id = ResourceId.WAKER ∨ id ∈ rt.listeners ∨ id ∈ rt.transports
  fresh : ∀ id ∈ issued rt.trace, 0 < id.raw ∧ id.raw < rt.poller.idGen.counter
  counter : rt.poller.idGen.counter = (issued rt.trace).length + 1
  nodup : (issued rt.trace).Nodup

/-- The pending events are about registered keys, and about each at most once. -/
structure Batch (poller : Poller) : Prop where
  nodup : (poller.events.map Popol.Event.key).Nodup
  registered : ∀ event ∈ poller.events, event.key ∈ poller.poll

/-- The thread is not in the loop of `handle_events`, nor gone. -/
def Pc.Quiet : Pc → Prop
  | .start => True
  | .poll _ => True
  | .commands _ => True
  | .actions _ => True
  | _ => False

/-- The registry is in order, and events are pending only while they are handled. -/
structure InOrder (th : Thread H Poller L T C EL ET) : Prop where
  registry : Registry th.runtime
  quiet : th.pc.Quiet → th.runtime.poller.events = []

/-- The registry is in order, and so is the batch, which is empty outside the events. -/
structure InStep (th : Thread H Poller L T C EL ET) : Prop where
  registry : Registry th.runtime
  batch : Batch th.runtime.poller
  quiet : th.pc.Quiet → th.runtime.poller.events = []

/-- What a registration does to the popol engine. -/
theorem Poller.register_eq {prof : Profile} {self poller : Poller} {fd : RawFd} {io : IoType}
    {id : ResourceId} (h : Poll.register prof self fd io = .ok (id, poller)) :
    id = ⟨self.idGen.counter⟩ ∧ poller.events = self.events ∧
      poller.poll = self.poll.insert id ⟨fd, io.toInterest⟩ := by
  change Poller.register prof self fd io = _ at h
  obtain ⟨⟨id', idGen⟩, hnext, hret⟩ := exists_of_bind_eq_ok h
  obtain ⟨counter, -, hret'⟩ := exists_of_bind_eq_ok hnext
  cases hret'
  cases hret
  exact ⟨rfl, rfl, rfl⟩

/-! ## What keeps the registry in order -/

namespace Registry

variable {rt rt' : Runtime H Poller L T C EL ET}

/-- An issued id is not the waker's. -/
theorem ne_waker (h : Registry rt) {id : ResourceId} (hid : id ∈ issued rt.trace) :
    id ≠ ResourceId.WAKER := by
  rintro rfl
  exact absurd (h.fresh _ hid).1 (Nat.lt_irrefl 0)

/-- The waker is no resource. -/
theorem waker_notMem (h : Registry rt) :
    ResourceId.WAKER ∉ rt.listeners ∧ ResourceId.WAKER ∉ rt.transports :=
  ⟨fun hmem => h.ne_waker (h.listeners_issued _ hmem) rfl,
    fun hmem => h.ne_waker (h.transports_issued _ hmem) rfl⟩

/-- The registry depends on the keys of the tables only. -/
theorem of_keys (h : Registry rt) (hl : ∀ id, id ∈ rt'.listeners ↔ id ∈ rt.listeners)
    (ht : ∀ id, id ∈ rt'.transports ↔ id ∈ rt.transports)
    (hp : ∀ id, id ∈ rt'.poller.poll ↔ id ∈ rt.poller.poll)
    (hgen : rt'.poller.idGen = rt.poller.idGen)
    (hissued : issued rt'.trace = issued rt.trace) : Registry rt' where
  disjoint id hid := by
    rw [ht]
    exact h.disjoint id ((hl id).mp hid)
  listeners_issued id hid := by
    rw [hissued]
    exact h.listeners_issued id ((hl id).mp hid)
  transports_issued id hid := by
    rw [hissued]
    exact h.transports_issued id ((ht id).mp hid)
  sources id := by rw [hp, hl, ht, h.sources]
  fresh := by
    rw [hissued, hgen]
    exact h.fresh
  counter := by
    rw [hissued, hgen]
    exact h.counter
  nodup := by
    rw [hissued]
    exact h.nodup

/-- The registry is about the tables and the ids issued, and about nothing else. -/
theorem of_tables (h : Registry rt) (hl : rt'.listeners = rt.listeners)
    (ht : rt'.transports = rt.transports) (hp : rt'.poller = rt.poller)
    (hissued : issued rt'.trace = issued rt.trace) : Registry rt' := by
  apply h.of_keys
  · exact fun id => by rw [hl]
  · exact fun id => by rw [ht]
  · exact fun id => by rw [hp]
  · rw [hp]
  · exact hissued

/-- Taking a listener out of its map and out of the source table. -/
theorem dropListener (h : Registry rt) {id : ResourceId} (hid : id ∈ rt.listeners) :
    Registry (rt.dropListener id) where
  disjoint id' hid' := h.disjoint id' (AList.mem_erase.mp hid').2
  listeners_issued id' hid' := h.listeners_issued id' (AList.mem_erase.mp hid').2
  transports_issued := h.transports_issued
  sources id' := by
    show id' ∈ AList.erase id rt.poller.poll ↔
      id' = ResourceId.WAKER ∨ id' ∈ AList.erase id rt.listeners ∨ id' ∈ rt.transports
    rw [AList.mem_erase, AList.mem_erase, h.sources]
    constructor
    · rintro ⟨hne, hw | hl | ht⟩
      · exact Or.inl hw
      · exact Or.inr (Or.inl ⟨hne, hl⟩)
      · exact Or.inr (Or.inr ht)
    · -- the id taken out is neither the waker's nor a transport's
      rintro (rfl | ⟨hne, hl⟩ | ht)
      · exact ⟨fun heq => h.ne_waker (h.listeners_issued id hid) heq.symm, Or.inl rfl⟩
      · exact ⟨hne, Or.inr (Or.inl hl)⟩
      · refine ⟨?_, Or.inr (Or.inr ht)⟩
        rintro rfl
        exact h.disjoint id' hid ht
  fresh := h.fresh
  counter := h.counter
  nodup := h.nodup

/-- Taking a transport out of its map and out of the source table. -/
theorem dropTransport (h : Registry rt) {id : ResourceId} (hid : id ∈ rt.transports) :
    Registry (rt.dropTransport id) where
  disjoint id' hid' hmem := h.disjoint id' hid' (AList.mem_erase.mp hmem).2
  listeners_issued := h.listeners_issued
  transports_issued id' hid' := h.transports_issued id' (AList.mem_erase.mp hid').2
  sources id' := by
    show id' ∈ AList.erase id rt.poller.poll ↔
      id' = ResourceId.WAKER ∨ id' ∈ rt.listeners ∨ id' ∈ AList.erase id rt.transports
    rw [AList.mem_erase, AList.mem_erase, h.sources]
    constructor
    · rintro ⟨hne, hw | hl | ht⟩
      · exact Or.inl hw
      · exact Or.inr (Or.inl hl)
      · exact Or.inr (Or.inr ⟨hne, ht⟩)
    · -- the id taken out is neither the waker's nor a listener's
      rintro (rfl | hl | ⟨hne, ht⟩)
      · exact ⟨fun heq => h.ne_waker (h.transports_issued id hid) heq.symm, Or.inl rfl⟩
      · refine ⟨?_, Or.inr (Or.inl hl)⟩
        rintro rfl
        exact h.disjoint id' hl hid
      · exact ⟨hne, Or.inr (Or.inr ht)⟩
  fresh := h.fresh
  counter := h.counter
  nodup := h.nodup

/-- The table of sources after a registration. -/
theorem mem_register {prof : Profile} {self poller : Poller} {fd : RawFd} {io : IoType}
    {id : ResourceId} (hlt : self.idGen.counter + 1 < 2 ^ 64)
    (hreg : Poll.register prof self fd io = .ok (id, poller)) :
    id = ⟨self.idGen.counter⟩ ∧ poller.idGen = ⟨self.idGen.counter + 1⟩ ∧
      poller.events = self.events ∧ ∀ id', id' ∈ poller.poll ↔ id' = id ∨ id' ∈ self.poll := by
  change Poller.register prof self fd io = _ at hreg
  unfold Poller.register at hreg
  rw [ResourceIdGenerator.next_eq hlt] at hreg
  cases hreg
  exact ⟨rfl, rfl, rfl, fun id' => AList.mem_insert _⟩

/-- Adding a listener or a transport under the id the engine hands out; `rt'` has the
new key in one of its maps. -/
theorem register (h : Registry rt) {id : ResourceId} {fd : RawFd} {ty : ResourceType}
    (hid : id = ⟨rt.poller.idGen.counter⟩)
    (hgen : rt'.poller.idGen = ⟨rt.poller.idGen.counter + 1⟩)
    (hp : ∀ id', id' ∈ rt'.poller.poll ↔ id' = id ∨ id' ∈ rt.poller.poll)
    (htrace : rt'.trace = rt.trace ++ [.call (.handleRegistered fd id ty)])
    (hmaps : ((∀ id', id' ∈ rt'.listeners ↔ id' = id ∨ id' ∈ rt.listeners) ∧
        ∀ id', id' ∈ rt'.transports ↔ id' ∈ rt.transports) ∨
      ((∀ id', id' ∈ rt'.listeners ↔ id' ∈ rt.listeners) ∧
        ∀ id', id' ∈ rt'.transports ↔ id' = id ∨ id' ∈ rt.transports)) : Registry rt' := by
  have hissued : issued rt'.trace = issued rt.trace ++ [id] := by
    rw [htrace, issued, List.filterMap_append, List.map_append]
    rfl
  -- the new id is above all issued before
  have hnew : id ∉ issued rt.trace := by
    intro hmem
    have hlt := (h.fresh id hmem).2
    rw [hid] at hlt
    exact Nat.lt_irrefl _ hlt
  have hlistener : id ∉ rt.listeners := fun hmem => hnew (h.listeners_issued id hmem)
  have htransport : id ∉ rt.transports := fun hmem => hnew (h.transports_issued id hmem)
  have hmono : ∀ id' ∈ issued rt.trace, id' ∈ issued rt'.trace := by
    intro id' hmem
    rw [hissued]
    exact List.mem_append_left _ hmem
  have hself : id ∈ issued rt'.trace := by
    rw [hissued]
    exact List.mem_append_right _ (List.mem_singleton.mpr rfl)
  refine ⟨?_, ?_, ?_, ?_, ?_, ?_, ?_⟩
  · intro id' hl ht
    rcases hmaps with ⟨hlmap, htmap⟩ | ⟨hlmap, htmap⟩
    · rw [htmap] at ht
      rcases (hlmap id').mp hl with rfl | hl
      · exact htransport ht
      · exact h.disjoint id' hl ht
    · rw [hlmap] at hl
      rcases (htmap id').mp ht with rfl | ht
      · exact hlistener hl
      · exact h.disjoint id' hl ht
  · intro id' hl
    rcases hmaps with ⟨hlmap, -⟩ | ⟨hlmap, -⟩
    · rcases (hlmap id').mp hl with rfl | hl
      · exact hself
      · exact hmono id' (h.listeners_issued id' hl)
    · exact hmono id' (h.listeners_issued id' ((hlmap id').mp hl))
  · intro id' ht
    rcases hmaps with ⟨-, htmap⟩ | ⟨-, htmap⟩
    · exact hmono id' (h.transports_issued id' ((htmap id').mp ht))
    · rcases (htmap id').mp ht with rfl | ht
      · exact hself
      · exact hmono id' (h.transports_issued id' ht)
  · intro id'
    rw [hp, h.sources]
    rcases hmaps with ⟨hlmap, htmap⟩ | ⟨hlmap, htmap⟩
    · rw [hlmap, htmap]
      tauto
    · rw [hlmap, htmap]
      tauto
  · intro id' hmem
    rw [hissued] at hmem
    rw [hgen]
    rcases List.mem_append.mp hmem with hmem | hmem
    · have := h.fresh id' hmem
      exact ⟨this.1, Nat.lt_succ_of_lt this.2⟩
    · rw [List.mem_singleton.mp hmem, hid]
      have hcounter := h.counter
      exact ⟨by simp only; omega, Nat.lt_succ_self _⟩
  · rw [hissued, hgen, List.length_append, List.length_singleton, h.counter]
  · rw [hissued]
    apply List.Nodup.append h.nodup (List.nodup_singleton id)
    intro id' hmem hmem'
    rw [List.mem_singleton.mp hmem'] at hmem
    exact hnew hmem

end Registry

/-! ## One event, one action, one push of interests -/

/-- Entries that announce no id leave the issued ids alone. -/
theorem issued_append {tr tr' : List (Observation L T C EL ET)}
    (h : ∀ obs ∈ tr', obs.announced = none) : issued (tr ++ tr') = issued tr := by
  rw [issued, issued, filterMap_append_none h]

/-- An entry that announces no id leaves the issued ids alone. -/
theorem issued_concat {tr : List (Observation L T C EL ET)} {obs : Observation L T C EL ET}
    (h : obs.announced = none) : issued (tr ++ [obs]) = issued tr :=
  issued_append (List.forall_mem_singleton.mpr h)

/-- Events announce no id. -/
theorem issued_of_ofEvent {obs : Observation L T C EL ET} (h : Runtime.OfEvent obs) :
    obs.announced = none := by
  cases obs with
  | call c => cases c <;> first | rfl | exact h.elim
  | handleIo id io => rfl
  | next answer => rfl
  | writeAtomic id data result => rfl

/-- The callbacks around the poll announce no id. -/
theorem issued_of_pollCalls {now : ℕ} {fired : Bool} {res : Except IoError ℕ}
    {c : Call L T C EL ET} (h : c ∈ Runtime.pollCalls now fired res) :
    (Observation.call c).announced = none := by
  rcases Runtime.eq_of_mem_pollCalls h with rfl | rfl | ⟨err, rfl⟩ <;> rfl

/-- Replacing the value of a key that is in a map adds no key. -/
theorem mem_insert_of_lookup {R : Type} {map : HashMap ResourceId R} {id : ResourceId}
    {res res' : R} (h : map.lookup id = some res) (id' : ResourceId) :
    id' ∈ map.insert id res' ↔ id' ∈ map := by
  have hid : id ∈ map := AList.lookup_isSome.mp (by rw [h]; rfl)
  rw [AList.mem_insert]
  constructor
  · rintro (rfl | h)
    · exact hid
    · exact h
  · exact Or.inr

/-- A key with a value is in the map. -/
theorem mem_of_lookup {R : Type} {map : HashMap ResourceId R} {id : ResourceId} {res : R}
    (h : map.lookup id = some res) : id ∈ map :=
  AList.lookup_isSome.mp (by rw [h]; rfl)

section

variable [Handler H L T C EL ET] [Resource L EL] [Resource T ET]
variable {rt rt' : Runtime H Poller L T C EL ET}

/-- An event keeps the registry in order. -/
theorem Registry.handled (h : Registry rt) {id : ResourceId} {res : Except IoFail IoType}
    {time : ℕ} {woken : Bool} (hev : Runtime.Handled rt id res time woken rt') :
    Registry rt' := by
  obtain ⟨-, -, -, tr, htrace, htr⟩ := hev.frame
  have hissued : issued rt'.trace = issued rt.trace := by
    rw [htrace]
    exact issued_append fun obs hobs => issued_of_ofEvent (htr obs hobs)
  cases hev with
  | waker hid io hres =>
      exact h.of_tables rfl rfl rfl hissued
  | listenerIo hid io hres listener hlook =>
      obtain ⟨service, tr, heq, -⟩ := rt.listenerIo_eq id listener io time
      rw [heq] at hissued ⊢
      exact h.of_keys (mem_insert_of_lookup hlook) (fun _ => Iff.rfl) (fun _ => Iff.rfl) rfl
        hissued
  | listenerGone hid err hres listener hlook =>
      exact (h.dropListener (mem_of_lookup hlook)).of_tables rfl rfl rfl
        hissued
  | transportIo hid hno io hres transport hlook =>
      obtain ⟨service, tr, heq, -⟩ := rt.transportIo_eq id transport io time
      rw [heq] at hissued ⊢
      exact h.of_keys (fun _ => Iff.rfl) (mem_insert_of_lookup hlook) (fun _ => Iff.rfl) rfl
        hissued
  | transportGone hid hno err hres transport hlook =>
      exact (h.dropTransport (mem_of_lookup hlook)).of_tables rfl rfl rfl
        hissued

omit [Resource L EL] [Resource T ET] in
/-- Unregistering a key with no pending event keeps the batch in order. -/
theorem Batch.unregister {poller : Poller} (hb : Batch poller) {id : ResourceId}
    (hid : ∀ event ∈ poller.events, event.key ≠ id) : Batch (Poll.unregister poller id) where
  nodup := hb.nodup
  registered event hmem := AList.mem_erase.mpr ⟨hid event hmem, hb.registered event hmem⟩

/-- An event keeps the rest of the batch in order, in which its id does not occur. -/
theorem Batch.handled (hb : Batch rt.poller) {id : ResourceId} {res : Except IoFail IoType}
    {time : ℕ} {woken : Bool} (hev : Runtime.Handled rt id res time woken rt')
    (hid : ∀ event ∈ rt.poller.events, event.key ≠ id) : Batch rt'.poller := by
  cases hev with
  | waker hid' io hres => exact hb
  | listenerIo hid' io hres listener hlook =>
      obtain ⟨service, tr, heq, -⟩ := rt.listenerIo_eq id listener io time
      rw [heq]
      exact hb
  | listenerGone hid' err hres listener hlook => exact hb.unregister hid
  | transportIo hid' hno io hres transport hlook =>
      obtain ⟨service, tr, heq, -⟩ := rt.transportIo_eq id transport io time
      rw [heq]
      exact hb
  | transportGone hid' hno err hres transport hlook => exact hb.unregister hid

/-- An action, with the report of its error, keeps the registry in order and the queue
of events as it is, as long as the counter of the ids does not overflow. -/
theorem Registry.acted {prof : Profile} (h : Registry rt) {time : ℕ} {action : Action L T}
    {result : Except (Error L T) Unit}
    (hfew : action.registers = true → (issued rt.trace).length + 1 < 2 ^ 64 - 1)
    (hact : Runtime.Acted prof rt time action result rt') :
    Registry (rt'.report result) ∧ (rt'.report result).poller.events = rt.poller.events := by
  have hcounter := h.counter
  cases hact with
  | registerListener listener id poller hreg =>
      have hlt := hfew rfl
      obtain ⟨hid, hgen, hevents, hp⟩ := Registry.mem_register (by omega) hreg
      exact ⟨h.register hid hgen hp rfl
        (Or.inl ⟨fun id' => AList.mem_insert _, fun _ => Iff.rfl⟩), hevents⟩
  | registerTransport transport id poller hreg =>
      have hlt := hfew rfl
      obtain ⟨hid, hgen, hevents, hp⟩ := Registry.mem_register (by omega) hreg
      exact ⟨h.register hid hgen hp rfl
        (Or.inr ⟨fun _ => Iff.rfl, fun id' => AList.mem_insert _⟩), hevents⟩
  | unregisterListener id listener hlook =>
      refine ⟨(h.dropListener (mem_of_lookup hlook)).of_tables rfl rfl rfl ?_, rfl⟩
      exact issued_concat rfl
  | unregisterTransport id transport hlook =>
      refine ⟨(h.dropTransport (mem_of_lookup hlook)).of_tables rfl rfl rfl ?_, rfl⟩
      exact issued_concat rfl
  | sent id data transport transport' hlook hwrite =>
      refine ⟨h.of_keys (fun _ => Iff.rfl) (mem_insert_of_lookup hlook) (fun _ => Iff.rfl) rfl
        ?_, rfl⟩
      exact issued_concat rfl
  | sendFailed id data transport transport' err hlook hwrite =>
      -- the transport is written back before it is taken out
      have hwrote : Registry (rt.wrote id transport' data (.error (.io err))) := by
        refine h.of_keys (fun _ => Iff.rfl) (mem_insert_of_lookup hlook) (fun _ => Iff.rfl) rfl ?_
        exact issued_concat rfl
      refine ⟨(hwrote.dropTransport (AList.mem_insert _ |>.mpr (Or.inl rfl))).of_tables
        rfl rfl rfl ?_, rfl⟩
      exact issued_concat rfl
  | setTimer duration timeouts hset =>
      exact ⟨h.of_tables rfl rfl rfl rfl, rfl⟩
  | ignored action hno => exact ⟨h, rfl⟩

/-- An event leaves the rest of the batch pending. -/
theorem Runtime.Handled.events_eq {id : ResourceId} {res : Except IoFail IoType} {time : ℕ}
    {woken : Bool} (h : Handled rt id res time woken rt') :
    rt'.poller.events = rt.poller.events := by
  cases h with
  | waker hid io hres => rfl
  | listenerIo hid io hres listener hlook =>
      obtain ⟨service, tr, heq, -⟩ := rt.listenerIo_eq id listener io time
      rw [heq]
  | listenerGone hid err hres listener hlook => rfl
  | transportIo hid hno io hres transport hlook =>
      obtain ⟨service, tr, heq, -⟩ := rt.transportIo_eq id transport io time
      rw [heq]
  | transportGone hid hno err hres transport hlook => rfl

/-- An action, with the report of its error, leaves the events pending. -/
theorem Runtime.Acted.events_eq {prof : Profile} {time : ℕ} {action : Action L T}
    {result : Except (Error L T) Unit} (h : Acted prof rt time action result rt') :
    (rt'.report result).poller.events = rt.poller.events := by
  have hregister : ∀ {fd : RawFd} {id : ResourceId} {poller : Poller},
      Poll.register prof rt.poller fd .readOnly = .ok (id, poller) →
        poller.events = rt.poller.events := by
    intro fd id poller hreg
    obtain ⟨⟨id', idGen⟩, -, hret⟩ := exists_of_bind_eq_ok hreg
    cases hret
    rfl
  cases h with
  | registerListener listener id poller hreg => exact hregister hreg
  | registerTransport transport id poller hreg => exact hregister hreg
  | unregisterListener id listener hlook => rfl
  | unregisterTransport id transport hlook => rfl
  | sent id data transport transport' hlook hwrite => rfl
  | sendFailed id data transport transport' err hlook hwrite => rfl
  | setTimer duration timeouts hset => rfl
  | ignored action hno => rfl

/-- Pushing the interests of a map registers nothing and takes nothing from the queue. -/
theorem setInterests_frame {R E : Type} [Resource R E] (map : HashMap ResourceId R)
    (poller : Poller) (ids : List ResourceId) :
    (∀ id, id ∈ (Runtime.setInterests map poller ids).poll ↔ id ∈ poller.poll) ∧
      (Runtime.setInterests map poller ids).events = poller.events ∧
      (Runtime.setInterests map poller ids).idGen = poller.idGen := by
  unfold Runtime.setInterests
  induction ids generalizing poller with
  | nil => exact ⟨fun _ => Iff.rfl, rfl, rfl⟩
  | cons id ids ih =>
      rw [List.foldl_cons]
      cases hlook : map.lookup id with
      | none => exact ih poller
      | some res =>
          obtain ⟨hmem, hevents, hgen⟩ := ih (Poll.setInterest poller id (Resource.interests res)).2
          refine ⟨fun id' => ?_, hevents, hgen⟩
          rw [hmem]
          show id' ∈ (Popol.Sources.set (Popol.Sources.unset poller.poll id
            (Resource.interests res).not.toInterest).2 id
              (Resource.interests res).toInterest).2 ↔ id' ∈ poller.poll
          exact Popol.Sources.mem_modify.trans Popol.Sources.mem_modify

end

/-! ## Whole runs -/

/-- A poll appends the events it is answered with, whatever it returns. -/
theorem poll_snd (self : Poller) (timeout : Option Duration) (answer : Popol.Answer) :
    (Poll.poll self timeout answer).2 = { self with events := self.events ++ answer.events } := by
  show (Poller.pollSources self timeout answer).2 = _
  unfold Poller.pollSources
  cases answer.result with
  | ok count => rfl
  | error err =>
      -- a timeout counts as no event, any other error is passed on
      by_cases htimeout : err.kind = .timedOut
      · simp [htimeout]
      · simp [htimeout]

/-- A batch without events is in order. -/
theorem Batch.of_nil {poller : Poller} (h : poller.events = []) : Batch poller where
  nodup := by
    rw [h]
    exact List.nodup_nil
  registered event hmem := by
    rw [h] at hmem
    cases hmem

/-- What the engine hands out next is the head of its queue. -/
theorem Poller.exists_of_next {self poller : Poller} {id : ResourceId}
    {res : Except IoFail IoType} (h : Poll.next self = some ((id, res), poller)) :
    ∃ event events, self.events = event :: events ∧ id = event.key ∧
      res = Poller.resultOf event ∧ poller = { self with events := events } := by
  change Poller.next self = _ at h
  unfold Poller.next at h
  cases hevents : self.events with
  | nil =>
      rw [hevents] at h
      cases h
  | cons event events =>
      rw [hevents] at h
      cases h
      exact ⟨event, events, rfl, rfl, rfl, rfl⟩

/-- What the engine hands out next is the head of its queue, and the rest of the batch
is in order and about other keys. -/
theorem Batch.next {self poller : Poller} (hb : Batch self) {id : ResourceId}
    {res : Except IoFail IoType} (h : Poll.next self = some ((id, res), poller)) :
    id ∈ self.poll ∧ Batch poller ∧ (∀ event ∈ poller.events, event.key ≠ id) ∧
      poller.poll = self.poll ∧ poller.idGen = self.idGen := by
  obtain ⟨event, events, hevents, rfl, -, rfl⟩ := Poller.exists_of_next h
  -- the key of the head does not occur in the rest
  have hnodup := hb.nodup
  rw [hevents, List.map_cons, List.nodup_cons] at hnodup
  refine ⟨hb.registered event ?_, ⟨hnodup.2, ?_⟩, ?_, rfl, rfl⟩
  · rw [hevents]
    exact List.mem_cons_self
  · intro event' hmem
    apply hb.registered event'
    rw [hevents]
    exact List.mem_cons_of_mem _ hmem
  · intro event' hmem heq
    exact hnodup.1 (heq ▸ List.mem_map_of_mem hmem)

section

variable [Handler H L T C EL ET] [Resource L EL] [Resource T ET]

/-- What is assumed of the service: it registers fewer than `2 ^ 64 - 1` resources, so that
the ids do not run out. -/
abbrev FewIds {P A : Type} : System H P L T C EL ET → Label A C → Prop :=
  Lts.demand Label.atAction fun s _ =>
    (Handler.next s.runtime.service).1.any Action.registers = true →
      (issued s.runtime.trace).length + 1 < 2 ^ 64 - 1

/-- What is assumed of a run on the popol engine: the system reports only keys that are
registered, each at most once in an answer, and the service registers fewer than
`2 ^ 64 - 1` resources. -/
abbrev PopolContract (s : System H Poller L T C EL ET) (label : Label Popol.Answer C) : Prop :=
  Lts.demand Label.atPoll (fun s answer => (answer.events.map Popol.Event.key).Nodup ∧
    ∀ event ∈ answer.events, event.key ∈ s.runtime.poller.poll) s label ∧ FewIds s label

/-- Every turn keeps the registry in order. -/
theorem inOrder_of_turned {prof : Profile} {s : System H Poller L T C EL ET}
    {th' : Thread H Poller L T C EL ET} {input : Input Popol.Answer}
    (hI : InOrder s.toThread) (hG : FewIds s (.turn input))
    (h : Thread.Turned prof s.clock s.toThread input th') : InOrder th' := by
  obtain ⟨hreg, hquiet⟩ := hI
  cases h with
  | started hpc ls ts hls hts time hclock expiring hexp =>
      -- the interests of the listeners are pushed first, then those of the transports
      have hempty : s.runtime.poller.events = [] := hquiet (by rw [hpc]; trivial)
      obtain ⟨hl, hlevents, hlgen⟩ := setInterests_frame s.runtime.listeners s.runtime.poller ls
      obtain ⟨ht, htevents, htgen⟩ := setInterests_frame s.runtime.transports
        (Runtime.setInterests s.runtime.listeners s.runtime.poller ls) ts
      have hevents := htevents.trans (hlevents.trans hempty)
      refine ⟨hreg.of_keys (fun _ => Iff.rfl) (fun _ => Iff.rfl) ?_ (htgen.trans hlgen) rfl,
        fun _ => hevents⟩
      exact fun id => (ht id).trans (hl id)
  | polled timeout hpc answer now hclock fired hfired service rt hrt =>
      have hissued : issued rt.trace = issued s.runtime.trace := by
        rw [hrt]
        apply issued_append
        intro obs hobs
        obtain ⟨c, hc, rfl⟩ := List.mem_map.mp hobs
        exact issued_of_pollCalls hc
      have hpoller : rt.poller = { s.runtime.poller with
          events := s.runtime.poller.events ++ answer.events } := by
        rw [hrt]
        exact poll_snd _ _ answer
      refine ⟨hreg.of_keys ?_ ?_ ?_ ?_ hissued, nofun⟩
      · rw [hrt]
        exact fun _ => Iff.rfl
      · rw [hrt]
        exact fun _ => Iff.rfl
      · rw [hpoller]
        exact fun _ => Iff.rfl
      · rw [hpoller]
  | batchDone now awoken hpc hnext =>
      refine ⟨hreg, fun _ => ?_⟩
      change Poller.next s.runtime.poller = none at hnext
      unfold Poller.next at hnext
      cases hevents : s.runtime.poller.events with
      | nil => rfl
      | cons event events =>
          rw [hevents] at hnext
          cases hnext
  | event now awoken hpc id res poller hnext woken rt hev =>
      obtain ⟨event, events, -, -, -, rfl⟩ := Poller.exists_of_next hnext
      -- the event is taken from the queue, and the sources stay
      have hreg' : Registry { s.runtime with
          poller := { s.runtime.poller with events := events } } :=
        hreg.of_keys (fun _ => Iff.rfl) (fun _ => Iff.rfl) (fun _ => Iff.rfl) rfl rfl
      exact ⟨hreg'.handled hev, nofun⟩
  | drained now hpc hqueue => exact ⟨hreg, fun _ => hquiet (by rw [hpc]; trivial)⟩
  | command now hpc cmd queue hqueue =>
      refine ⟨hreg.of_tables rfl rfl rfl ?_, fun _ => hquiet (by rw [hpc]; trivial)⟩
      exact issued_concat rfl
  | shutdown now hpc queue hqueue => exact ⟨hreg.of_tables rfl rfl rfl rfl, nofun⟩
  | actionsDone now hpc service hnext =>
      refine ⟨hreg.of_tables rfl rfl rfl ?_, fun _ => hquiet (by rw [hpc]; trivial)⟩
      exact issued_concat rfl
  | action now hpc action service hnext result rt hact =>
      have hempty : s.runtime.poller.events = [] := hquiet (by rw [hpc]; trivial)
      have hnoted : issued (s.runtime.trace ++ [.next (some action)]) = issued s.runtime.trace :=
        issued_concat rfl
      have hreg' : Registry ({ s.runtime with service := service }.note (.next (some action))) :=
        hreg.of_tables rfl rfl rfl hnoted
      have hfew : action.registers = true →
          (issued (s.runtime.trace ++ [.next (some action)])).length + 1 < 2 ^ 64 - 1 := by
        intro hregisters
        rw [hnoted]
        apply hG
        rw [hnext]
        exact hregisters
      obtain ⟨hreg'', hevents⟩ := hreg'.acted hfew hact
      exact ⟨hreg'', fun _ => hevents.trans hempty⟩
  | exited hpc => exact ⟨hreg.of_tables rfl rfl rfl rfl, nofun⟩
  | panicked input p hp => exact ⟨hreg.of_tables rfl rfl rfl rfl, nofun⟩

omit [Handler H L T C EL ET] [Resource L EL] [Resource T ET] in
/-- The waker is the only source when the reactor starts. -/
theorem inOrder_of_boot {service : H} {poller : Poller} {fd : RawFd}
    (h : Poll.registerWaker Poller.new fd = .ok poller) :
    InOrder (System.boot service poller none : System H Poller L T C EL ET).toThread := by
  cases h
  refine ⟨⟨nofun, nofun, nofun, fun id => ?_, nofun, rfl, List.nodup_nil⟩, fun _ => rfl⟩
  show id ∈ AList.insert ResourceId.WAKER _ ∅ ↔ _
  rw [AList.mem_insert]
  constructor
  · rintro (h | h)
    · exact Or.inl h
    · cases h
  · rintro (h | h | h)
    · exact Or.inl h
    · cases h
    · cases h

/-- The registry is in order in every reachable state, whatever the polls report. -/
theorem inOrder_of_reachable {prof : Profile} {s : System H Poller L T C EL ET}
    (hs : (reactor prof Poller.new).Reachable FewIds s) : InOrder s.toThread := by
  refine core_invariant (I := InOrder) ?_ ?_ ?_ hs
  · rintro th chan waker ⟨hreg, hquiet⟩
    exact ⟨hreg.of_tables rfl rfl rfl rfl, hquiet⟩
  · exact fun service poller fd hregister => inOrder_of_boot hregister
  · intro s input th' _ hI hG hturned
    exact inOrder_of_turned hI hG hturned

/-- A turn keeps the batch in order: the poll makes it, the events use it up, and nothing
else touches it. -/
theorem batch_of_turned {prof : Profile} {s : System H Poller L T C EL ET}
    {th' : Thread H Poller L T C EL ET} {input : Input Popol.Answer}
    (hI : InStep s.toThread) (hG : PopolContract s (.turn input)) (hI' : InOrder th')
    (h : Thread.Turned prof s.clock s.toThread input th') : Batch th'.runtime.poller := by
  obtain ⟨hreg, hbatch, hquiet⟩ := hI
  cases h with
  | started hpc ls ts hls hts time hclock expiring hexp =>
      exact Batch.of_nil (hI'.quiet trivial)
  | polled timeout hpc answer now hclock fired hfired service rt hrt =>
      have hempty : s.runtime.poller.events = [] := hquiet (by rw [hpc]; trivial)
      have hpoller : rt.poller =
          { s.runtime.poller with events := answer.events } := by
        rw [hrt]
        show (Poll.poll s.runtime.poller (some timeout) answer).2 = _
        rw [poll_snd, hempty, List.nil_append]
      -- the batch is in order by assumption
      rw [hpoller]
      exact ⟨hG.1.1, hG.1.2⟩
  | batchDone now awoken hpc hnext => exact hbatch
  | event now awoken hpc id res poller hnext woken rt hev =>
      obtain ⟨-, hbatch', hid, -, -⟩ := hbatch.next hnext
      exact Batch.handled hbatch' hev hid
  | drained now hpc hqueue => exact hbatch
  | command now hpc cmd queue hqueue => exact hbatch
  | shutdown now hpc queue hqueue => exact hbatch
  | actionsDone now hpc service hnext => exact hbatch
  | action now hpc action service hnext result rt hact => exact Batch.of_nil (hI'.quiet trivial)
  | exited hpc => exact hbatch
  | panicked input p hp => exact hbatch

/-- The tables are in step in every reachable state. -/
theorem inStep_of_reachable {prof : Profile} {s : System H Poller L T C EL ET}
    (hs : (reactor prof Poller.new).Reachable PopolContract s) : InStep s.toThread := by
  refine core_invariant (I := InStep) ?_ ?_ ?_ hs
  · rintro th chan waker ⟨hreg, hbatch, hquiet⟩
    exact ⟨hreg.of_tables rfl rfl rfl rfl, hbatch, hquiet⟩
  · intro service poller fd hregister
    obtain ⟨hreg, hquiet⟩ := inOrder_of_boot hregister
    exact ⟨hreg, Batch.of_nil (hquiet trivial), hquiet⟩
  · intro s input th' _ hI hG hturned
    have hI' := inOrder_of_turned ⟨hI.registry, hI.quiet⟩ hG.2 hturned
    exact ⟨hI'.registry, batch_of_turned hI hG hI' hturned, hI'.quiet⟩

/-- **Runtime and engine stay in step.**  In every state that a run on the popol engine
reaches, the keys of the two maps are disjoint and not the waker's, the sources are the
waker and these keys, every id issued is below the counter and no id is issued twice,
and no event is pending at the poll, between iterations or during the actions. -/
theorem runtime_and_poller_in_step {prof : Profile} {s : System H Poller L T C EL ET}
    (hs : (reactor prof Poller.new).Reachable PopolContract s) :
    (∀ id ∈ s.runtime.listeners, id ∉ s.runtime.transports) ∧
    ResourceId.WAKER ∉ s.runtime.listeners ∧ ResourceId.WAKER ∉ s.runtime.transports ∧
    (∀ id, id ∈ s.runtime.poller.poll ↔
      id = ResourceId.WAKER ∨ id ∈ s.runtime.listeners ∨ id ∈ s.runtime.transports) ∧
    (∀ id ∈ issued s.runtime.trace, id.raw < s.runtime.poller.idGen.counter) ∧
    (issued s.runtime.trace).Nodup ∧
    (s.pc.Quiet → s.runtime.poller.events = []) := by
  obtain ⟨hreg, -, hquiet⟩ := inStep_of_reachable hs
  obtain ⟨hl, ht⟩ := hreg.waker_notMem
  exact ⟨hreg.disjoint, hl, ht, hreg.sources, fun id hid => (hreg.fresh id hid).2, hreg.nodup,
    hquiet⟩

end

/-- A listener and a transport are registered, and the transport is unregistered again. -/
theorem runtime_and_poller_in_step_registered : ∃ s : Errands.Sys,
    (reactor .release Poller.new).Reachable PopolContract s ∧
    issued s.runtime.trace = [⟨1⟩, ⟨2⟩] ∧ s.runtime.listeners.keys = [⟨1⟩] ∧
    ((∀ id ∈ s.runtime.listeners, id ∉ s.runtime.transports) ∧
    ResourceId.WAKER ∉ s.runtime.listeners ∧ ResourceId.WAKER ∉ s.runtime.transports ∧
    (∀ id, id ∈ s.runtime.poller.poll ↔
      id = ResourceId.WAKER ∨ id ∈ s.runtime.listeners ∨ id ∈ s.runtime.transports) ∧
    (∀ id ∈ issued s.runtime.trace, id.raw < s.runtime.poller.idGen.counter) ∧
    (issued s.runtime.trace).Nodup ∧
    (s.pc.Quiet → s.runtime.poller.events = [])) := by
  have hrun : Lts.exec (System.step .release) PopolContract Errands.boot
      [.controller 0 (.wake true),
        .controller 0 (.send (.cmd (.registerListener Errands.pipe)) true),
        .controller 0 (.wake true),
        .controller 0 (.send (.cmd (.registerTransport Errands.pipe)) true),
        .controller 0 (.wake true),
        .controller 0 (.send (.cmd (.unregisterTransport ⟨2⟩)) true),
        .controller 0 (.wake true), .turn (.start [] []),
        .turn (.poll (.ready [Errands.wakerEvent])), .turn .event, .turn .event, .turn .command,
        .turn .command, .turn .command, .turn .command, .turn .action, .turn .action,
        .turn .action, .turn .action] = some _ := rfl
  have hs := Errands.reachable_of_exec hrun
  exact ⟨_, hs, rfl, rfl, runtime_and_poller_in_step hs⟩

end IoReactor
