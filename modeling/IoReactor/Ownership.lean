/-
# Who owns a resource

The reactor is a depositary of resources: the service deposits one with each
registration, under the id it is told, and gets it back by a handover or with a
disconnect error.  `owned_of_reachable` says that the accounts of this depositary are
sound in every run on an engine that hands out fresh ids, so no resource is lost,
duplicated or handed back under another id.
-/
import IoReactor.Custody
import IoReactor.Registry

namespace IoReactor

variable {H P A L T C EL ET : Type}

/-! ## What becomes of a resource -/

/-- A resource after any number of calls of `handle_io` and `write_or_buf`. -/
def Becomes {R E : Type} [Resource R E] : R → R → Prop :=
  Relation.ReflTransGen fun res res' =>
    (∃ io, res' = (Resource.handleIo res io).2) ∨ ∃ buf, res' = (Resource.writeOrBuf res buf).2

/-- Handling I/O flags is something that becomes of a resource. -/
theorem becomes_afterIo {R E : Type} [Resource R E] (res : R) (ios : List Io) :
    Becomes res (Runtime.afterIo res ios) := by
  induction ios generalizing res with
  | nil => exact Relation.ReflTransGen.refl
  | cons io ios ih => exact Relation.ReflTransGen.head (Or.inl ⟨io, rfl⟩) (ih _)

/-- So is an atomic write, unless the resource is not ready. -/
theorem becomes_writeAtomic {R E : Type} [Resource R E] {prof : Profile} {res res' : R}
    {buf : List UInt8} {result : Except WriteError Unit}
    (h : writeAtomic prof res buf = .ok (result, res')) : Becomes res res' := by
  rcases writeAtomic_ok h with ⟨-, rfl, -⟩ | ⟨-, hw⟩ | ⟨err, -, hw⟩
  · exact Relation.ReflTransGen.refl
  · exact Relation.ReflTransGen.single (Or.inr ⟨buf, by rw [hw]⟩)
  · exact Relation.ReflTransGen.single (Or.inr ⟨buf, by rw [hw]⟩)

/-- What becomes of a listener or a transport, which stays what it is. -/
def Fate [Resource L EL] [Resource T ET] : L ⊕ T → L ⊕ T → Prop :=
  Sum.LiftRel Becomes Becomes

/-! ## The accounts -/

/-- The resource an entry of the trace yields for registration. -/
def Observation.yielded : Observation L T C EL ET → Option (L ⊕ T)
  | .next (some (.registerListener listener)) => some (.inl listener)
  | .next (some (.registerTransport transport)) => some (.inr transport)
  | _ => none

/-- The resource an entry of the trace gives back to the service, and its id. -/
def Observation.givenBack : Observation L T C EL ET → Option (ResourceId × (L ⊕ T))
  | .call (.handoverListener id listener) => some (id, .inl listener)
  | .call (.handoverTransport id transport) => some (id, .inr transport)
  | .call (.handleError (.listenerDisconnect id listener)) => some (id, .inl listener)
  | .call (.handleError (.transportDisconnect id transport)) => some (id, .inr transport)
  | _ => none

/-- The kind of a resource. -/
def kindOf : L ⊕ T → ResourceType
  | .inl _ => .listener
  | .inr _ => .transport

/-- The registrations so far: the resources yielded, under the ids announced for them. -/
def registrations (tr : List (Observation L T C EL ET)) : List (ResourceId × (L ⊕ T)) :=
  (issued tr).zip (tr.filterMap Observation.yielded)

/-- The entries of the two maps. -/
def holdings (listeners : HashMap ResourceId L) (transports : HashMap ResourceId T) :
    List (ResourceId × (L ⊕ T)) :=
  listeners.entries.map (fun entry => (entry.1, .inl entry.2)) ++
    transports.entries.map fun entry => (entry.1, .inr entry.2)

/-- The accounts of the runtime as a depositary. -/
def Runtime.custody (rt : Runtime H P L T C EL ET) : Custody ResourceId (L ⊕ T) where
  deposited := registrations rt.trace
  held := holdings rt.listeners rt.transports
  returned := rt.trace.filterMap Observation.givenBack

/-- The accounts are sound, and every resource yielded is announced as what it is. -/
structure Runtime.Owned [Resource L EL] [Resource T ET] (rt : Runtime H P L T C EL ET) :
    Prop where
  sound : rt.custody.Sound Fate
  kinds : (rt.trace.filterMap Observation.announced).map Prod.snd =
    (rt.trace.filterMap Observation.yielded).map kindOf

/-! ## The maps as lists of entries -/

/-- A map with an entry is that entry and the map without it. -/
theorem entries_perm {R : Type} {map : HashMap ResourceId R} {id : ResourceId} {res : R}
    (h : map.lookup id = some res) : map.entries.Perm (⟨id, res⟩ :: (map.erase id).entries) := by
  have hkey : id ∈ map.entries.keys := AList.lookup_isSome.mp (by rw [h]; rfl)
  obtain ⟨res', l₁, l₂, -, hsplit, herase⟩ := List.exists_of_kerase hkey
  -- the entry that `kerase` removes is the one the lookup finds
  have hmem : (⟨id, res'⟩ : Sigma fun _ => R) ∈ map.entries := by
    rw [hsplit]
    exact List.mem_append_right _ List.mem_cons_self
  have hres : res' = res := by
    rw [AList.mem_lookup_iff.mpr hmem, Option.some.injEq] at h
    exact h
  show map.entries.Perm (⟨id, res⟩ :: map.entries.kerase id)
  rw [herase, hsplit, hres]
  exact List.perm_middle

/-- The entries of a map with a new key. -/
theorem entries_insert_of_notMem {R : Type} {map : HashMap ResourceId R} {id : ResourceId}
    {res : R} (h : id ∉ map) : (map.insert id res).entries = ⟨id, res⟩ :: map.entries := by
  rw [AList.entries_insert, List.kerase_of_notMem_keys h]

/-- Holdings with an entry for a listener. -/
theorem holdings_listener {listeners : HashMap ResourceId L} {id : ResourceId} {listener : L}
    (h : listeners.lookup id = some listener) (transports : HashMap ResourceId T) :
    (holdings listeners transports).Perm
      ((id, .inl listener) :: holdings (listeners.erase id) transports) :=
  ((entries_perm h).map _).append_right _

/-- Holdings with an entry for a transport. -/
theorem holdings_transport {transports : HashMap ResourceId T} {id : ResourceId} {transport : T}
    (h : transports.lookup id = some transport) (listeners : HashMap ResourceId L) :
    (holdings listeners transports).Perm
      ((id, .inr transport) :: holdings listeners (transports.erase id)) :=
  (((entries_perm h).map _).append_left _).trans List.perm_middle

/-- A key of the maps is among the keys held. -/
theorem mem_keys_holdings {listeners : HashMap ResourceId L} {transports : HashMap ResourceId T}
    {id : ResourceId} :
    id ∈ Custody.keys (holdings listeners transports) ↔ id ∈ listeners ∨ id ∈ transports := by
  rw [Custody.keys, holdings, List.map_append, List.mem_append, List.map_map, List.map_map]
  exact Iff.rfl

/-! ## What keeps the accounts sound -/

/-- An entry of the trace that is about no deposit and no return. -/
structure Observation.Silent (obs : Observation L T C EL ET) : Prop where
  yielded : obs.yielded = none
  announced : obs.announced = none
  givenBack : obs.givenBack = none

namespace Runtime.Owned

variable [Resource L EL] [Resource T ET] {rt rt' : Runtime H P L T C EL ET}

/-- As many resources are yielded as ids are announced. -/
theorem length_eq (h : rt.Owned) : (issued rt.trace).length =
    (rt.trace.filterMap Observation.yielded).length := by
  have hlen := congrArg List.length h.kinds
  simpa [issued] using hlen

/-- The keys deposited are the ids announced. -/
theorem keys_deposited (h : rt.Owned) :
    Custody.keys rt.custody.deposited = issued rt.trace :=
  List.map_fst_zip (Nat.le_of_eq h.length_eq)

/-- An id that was never announced is in none of the maps. -/
theorem notMem_of_fresh (h : rt.Owned) {id : ResourceId} (hid : id ∉ issued rt.trace) :
    id ∉ rt.listeners ∧ id ∉ rt.transports := by
  rw [← not_or, ← mem_keys_holdings]
  intro hmem
  apply hid
  rw [← h.keys_deposited, ← h.sound.perm.mem_iff, Custody.keys, List.map_append]
  exact List.mem_append_left _ hmem

/-- With entries that are about no deposit, only the holdings and the returns change. -/
theorem of_trace (h : rt.Owned) {tr : List (Observation L T C EL ET)}
    (htrace : rt'.trace = rt.trace ++ tr)
    (htr : ∀ obs ∈ tr, obs.yielded = none ∧ obs.announced = none)
    (hsound : Custody.Sound Fate ⟨rt.custody.deposited, rt'.custody.held,
      rt.custody.returned ++ tr.filterMap Observation.givenBack⟩) : rt'.Owned := by
  have hyielded : rt'.trace.filterMap Observation.yielded =
      rt.trace.filterMap Observation.yielded := by
    rw [htrace]
    exact filterMap_append_none fun obs hobs => (htr obs hobs).1
  have hannounced : rt'.trace.filterMap Observation.announced =
      rt.trace.filterMap Observation.announced := by
    rw [htrace]
    exact filterMap_append_none fun obs hobs => (htr obs hobs).2
  have hcustody : rt'.custody = ⟨rt.custody.deposited, rt'.custody.held,
      rt.custody.returned ++ tr.filterMap Observation.givenBack⟩ := by
    have hdeposited : registrations rt'.trace = registrations rt.trace := by
      rw [registrations, issued, hyielded, hannounced]
      rfl
    have hreturned : rt'.trace.filterMap Observation.givenBack =
        rt.trace.filterMap Observation.givenBack ++ tr.filterMap Observation.givenBack := by
      rw [htrace, List.filterMap_append]
    rw [Runtime.custody, hdeposited, hreturned]
    rfl
  -- only the holdings and the returns have changed
  refine ⟨by rw [hcustody]; exact hsound, ?_⟩
  rw [hannounced, hyielded]
  exact h.kinds

/-- Silent entries of the trace and untouched maps. -/
theorem quiet (h : rt.Owned) {tr : List (Observation L T C EL ET)}
    (htrace : rt'.trace = rt.trace ++ tr) (hsilent : ∀ obs ∈ tr, obs.Silent)
    (hl : rt'.listeners = rt.listeners) (ht : rt'.transports = rt.transports) : rt'.Owned := by
  refine h.of_trace htrace
    (fun obs hobs => ⟨(hsilent obs hobs).yielded, (hsilent obs hobs).announced⟩) ?_
  have hheld : rt'.custody.held = rt.custody.held := by
    show holdings rt'.listeners rt'.transports = _
    rw [hl, ht]
    rfl
  rw [List.filterMap_eq_nil_iff.mpr fun obs hobs => (hsilent obs hobs).givenBack,
    List.append_nil, hheld]
  exact h.sound

/-- Silent entries of the trace and a change of an item that is held. -/
theorem update (h : rt.Owned) {tr : List (Observation L T C EL ET)}
    (htrace : rt'.trace = rt.trace ++ tr) (hsilent : ∀ obs ∈ tr, obs.Silent)
    {id : ResourceId} {v v' : L ⊕ T} (hfate : ∀ u, Fate u v → Fate u v')
    {rest : List (ResourceId × (L ⊕ T))} (hbefore : rt.custody.held.Perm ((id, v) :: rest))
    (hafter : rt'.custody.held.Perm ((id, v') :: rest)) : rt'.Owned := by
  refine h.of_trace htrace
    (fun obs hobs => ⟨(hsilent obs hobs).yielded, (hsilent obs hobs).announced⟩) ?_
  rw [List.filterMap_eq_nil_iff.mpr fun obs hobs => (hsilent obs hobs).givenBack,
    List.append_nil]
  exact h.sound.update hfate hbefore hafter

/-- An entry of the trace that gives back an item that is held. -/
theorem giveBack (h : rt.Owned) {obs : Observation L T C EL ET}
    (htrace : rt'.trace = rt.trace ++ [obs]) {id : ResourceId} {v : L ⊕ T}
    (hobs : obs.givenBack = some (id, v))
    (hbefore : rt.custody.held.Perm ((id, v) :: rt'.custody.held)) : rt'.Owned := by
  refine h.of_trace htrace ?_ ?_
  · intro obs' hmem
    rw [List.mem_singleton.mp hmem]
    cases obs with
    | call c => cases c <;> first | exact ⟨rfl, rfl⟩ | cases hobs
    | next answer => cases hobs
    | handleIo id io => exact ⟨rfl, rfl⟩
    | writeAtomic id data result => exact ⟨rfl, rfl⟩
  · rw [List.filterMap_cons_some hobs, List.filterMap_nil]
    exact h.sound.giveBack hbefore

/-- The two entries of a registration, under an id that was never announced. -/
theorem deposit (h : rt.Owned) {action : Action L T} {fd : RawFd} {id : ResourceId}
    {v : L ⊕ T}
    (htrace : rt'.trace = rt.trace ++
      [.next (some action), .call (.handleRegistered fd id (kindOf v))])
    (hyield : (.next (some action) : Observation L T C EL ET).yielded = some v)
    (hid : id ∉ issued rt.trace)
    (hheld : rt'.custody.held.Perm ((id, v) :: rt.custody.held)) : rt'.Owned := by
  have hyielded : rt'.trace.filterMap Observation.yielded =
      rt.trace.filterMap Observation.yielded ++ [v] := by
    rw [htrace, List.filterMap_append, List.filterMap_cons_some hyield]
    rfl
  have hannounced : rt'.trace.filterMap Observation.announced =
      rt.trace.filterMap Observation.announced ++ [(id, kindOf v)] := by
    rw [htrace, List.filterMap_append]
    rfl
  have hreturned : rt'.trace.filterMap Observation.givenBack =
      rt.trace.filterMap Observation.givenBack := by
    rw [htrace]
    apply filterMap_append_none
    intro obs hobs
    rcases List.mem_cons.mp hobs with rfl | hobs
    · rfl
    · rw [List.mem_singleton.mp hobs]
      rfl
  have hdeposited : registrations rt'.trace = registrations rt.trace ++ [(id, v)] := by
    have hlen : ((rt.trace.filterMap Observation.announced).map Prod.fst).length =
        (rt.trace.filterMap Observation.yielded).length := h.length_eq
    rw [registrations, issued, hyielded, hannounced, List.map_append, List.zip_append hlen]
    rfl
  constructor
  · -- the new deposit has a key of its own and is unchanged so far
    have hnew : id ∉ Custody.keys rt.custody.deposited := by
      rw [h.keys_deposited]
      exact hid
    have hrefl : Fate v v := by
      cases v with
      | inl listener => exact Sum.LiftRel.inl Relation.ReflTransGen.refl
      | inr transport => exact Sum.LiftRel.inr Relation.ReflTransGen.refl
    have hsound := h.sound.deposit hnew hrefl hheld
    rw [Runtime.custody, hdeposited, hreturned]
    exact hsound
  · rw [hannounced, hyielded, List.map_append, List.map_append, h.kinds]
    rfl

end Runtime.Owned

/-! ## Turns of the thread -/

/-- The I/O of a resource is silent if the callback for its events is. -/
theorem silent_of_io {E : Type} {id : ResourceId} {onEvent : E → Call L T C EL ET}
    (hevent : ∀ event, (Observation.call (onEvent event)).Silent)
    {obs : Observation L T C EL ET} (h : Runtime.IoObservation id onEvent obs) :
    obs.Silent := by
  cases obs with
  | call c =>
      obtain ⟨event, rfl⟩ := h
      exact hevent event
  | handleIo id' io => exact ⟨rfl, rfl, rfl⟩
  | next answer => exact h.elim
  | writeAtomic id' data result => exact h.elim

/-- Entries that no event and no action makes are silent. -/
theorem silent_of_idle {obs : Observation L T C EL ET} (h : obs.Idle) : obs.Silent := by
  unfold Observation.Idle at h
  split at h
  · exact ⟨rfl, rfl, rfl⟩
  · exact ⟨rfl, rfl, rfl⟩
  · exact ⟨rfl, rfl, rfl⟩
  · exact ⟨rfl, rfl, rfl⟩
  · exact ⟨rfl, rfl, rfl⟩
  · exact h.elim

section

variable [Handler H L T C EL ET] [Resource L EL] [Resource T ET]

/-- What becomes of a listener later is what becomes of it. -/
theorem fate_inl {listener listener' : L} (h : Becomes listener listener') (u : L ⊕ T)
    (hu : Fate u (.inl listener)) : Fate u (.inl listener') := by
  cases hu with
  | inl hb => exact Sum.LiftRel.inl (hb.trans h)

/-- What becomes of a transport later is what becomes of it. -/
theorem fate_inr {transport transport' : T} (h : Becomes transport transport') (u : L ⊕ T)
    (hu : Fate u (.inr transport)) : Fate u (.inr transport') := by
  cases hu with
  | inr hb => exact Sum.LiftRel.inr (hb.trans h)

variable [Poll P A] {rt rt' : Runtime H P L T C EL ET}

/-- An event keeps the accounts sound. -/
theorem owned_of_handled (h : rt.Owned) {id : ResourceId} {res : Except IoFail IoType}
    {time : ℕ} {woken : Bool} (hev : Runtime.Handled rt id res time woken rt') : rt'.Owned := by
  cases hev with
  | waker hid io hres => exact h.quiet (List.append_nil _).symm nofun rfl rfl
  | listenerIo hid io hres listener hlook =>
      obtain ⟨service, tr, heq, htr⟩ := rt.listenerIo_eq id listener io time
      rw [heq]
      exact h.update rfl (fun obs hobs => silent_of_io (fun _ => ⟨rfl, rfl, rfl⟩) (htr obs hobs))
        (fate_inl (becomes_afterIo listener io.toList)) (holdings_listener hlook rt.transports)
        (List.Perm.refl _)
  | listenerGone hid err hres listener hlook =>
      exact h.giveBack rfl rfl (holdings_listener hlook rt.transports)
  | transportIo hid hno io hres transport hlook =>
      obtain ⟨service, tr, heq, htr⟩ := rt.transportIo_eq id transport io time
      rw [heq]
      exact h.update rfl (fun obs hobs => silent_of_io (fun _ => ⟨rfl, rfl, rfl⟩) (htr obs hobs))
        (fate_inr (becomes_afterIo transport io.toList)) (holdings_transport hlook rt.listeners)
        List.perm_middle
  | transportGone hid hno err hres transport hlook =>
      exact h.giveBack rfl rfl (holdings_transport hlook rt.listeners)

/-- An action, from its yield to the report of its error, keeps the accounts sound if the
engine hands out fresh ids. -/
theorem owned_of_acted {prof : Profile} (h : rt.Owned) {time : ℕ} {action : Action L T}
    {service : H} {result : Except (Error L T) Unit}
    (hfresh : ∀ fd id poller, Poll.register prof rt.poller fd .readOnly = .ok (id, poller) →
      id ∉ issued rt.trace)
    (hact : Runtime.Acted prof ({ rt with service := service }.note (.next (some action))) time
      action result rt') : (rt'.report result).Owned := by
  -- without a registration, the yield of the action is silent
  have hyield : (.next (some action) : Observation L T C EL ET).yielded = none →
      ({ rt with service := service }.note (.next (some action))).Owned := by
    intro hnone
    exact h.quiet rfl (List.forall_mem_singleton.mpr ⟨hnone, rfl, rfl⟩) rfl rfl
  cases hact with
  | registerListener listener id poller hreg =>
      have hid := hfresh _ _ _ hreg
      obtain ⟨hl, -⟩ := h.notMem_of_fresh hid
      apply h.deposit (v := .inl listener) (List.append_assoc _ _ _) rfl hid
      show (holdings (rt.listeners.insert id listener) rt.transports).Perm _
      rw [holdings, entries_insert_of_notMem hl]
      exact List.Perm.refl _
  | registerTransport transport id poller hreg =>
      have hid := hfresh _ _ _ hreg
      obtain ⟨-, ht⟩ := h.notMem_of_fresh hid
      apply h.deposit (v := .inr transport) (List.append_assoc _ _ _) rfl hid
      show (holdings rt.listeners (rt.transports.insert id transport)).Perm _
      rw [holdings, entries_insert_of_notMem ht]
      exact List.perm_middle
  | unregisterListener id listener hlook =>
      exact (hyield rfl).giveBack rfl rfl (holdings_listener hlook _)
  | unregisterTransport id transport hlook =>
      exact (hyield rfl).giveBack rfl rfl (holdings_transport hlook _)
  | sent id data transport transport' hlook hwrite =>
      exact (hyield rfl).update rfl (List.forall_mem_singleton.mpr ⟨rfl, rfl, rfl⟩)
        (fate_inr (becomes_writeAtomic hwrite)) (holdings_transport hlook _) List.perm_middle
  | sendFailed id data transport transport' err hlook hwrite =>
      -- the transport is written back first, and then given back
      have hwrote : (({ rt with service := service }.note (.next (some (.send id data)))).wrote id
          transport' data (.error (.io err))).Owned := by
        exact (hyield rfl).update rfl (List.forall_mem_singleton.mpr ⟨rfl, rfl, rfl⟩)
          (fate_inr (becomes_writeAtomic hwrite)) (holdings_transport hlook _) List.perm_middle
      exact hwrote.giveBack rfl rfl (holdings_transport (AList.lookup_insert _) _)
  | setTimer duration timeouts hset =>
      exact (hyield rfl).quiet (List.append_nil _).symm nofun rfl rfl
  | ignored action hno =>
      cases action with
      | registerListener listener => exact hno.elim
      | registerTransport transport => exact hno.elim
      | unregisterListener id => exact hyield rfl
      | unregisterTransport id => exact hyield rfl
      | send id data => exact hyield rfl
      | setTimer duration => exact hno.elim

/-- What is assumed of the poll engine: it registers a resource under an id that was
never announced. -/
abbrev FreshIds (prof : Profile) : System H P L T C EL ET → Label A C → Prop :=
  Lts.demand Label.atAction fun s _ => ∀ fd id poller,
    Poll.register prof s.runtime.poller fd .readOnly = .ok (id, poller) →
      id ∉ issued s.runtime.trace

/-- The accounts are sound in every reachable state. -/
theorem owned_of_reachable {prof : Profile} {engine : P} {s : System H P L T C EL ET}
    (hs : (reactor prof engine).Reachable (FreshIds prof) s) : s.runtime.Owned := by
  refine runtime_invariant (I := Runtime.Owned) ?_ ?_ ?_ ?_ hs
  · exact fun service poller fd hreg => ⟨Custody.Sound.empty, rfl⟩
  · intro rt rt' tr h htrace hidle hl ht
    exact h.quiet htrace (fun obs hobs => silent_of_idle (hidle obs hobs)) hl ht
  · exact fun rt id res time woken rt' h hev => owned_of_handled h hev
  · exact fun s now action service result rt' h hfresh hact => owned_of_acted h hfresh hact

/-- The map of its kind holds the resource under the id. -/
def Runtime.Holds (rt : Runtime H P L T C EL ET) (id : ResourceId) : L ⊕ T → Prop
  | .inl listener => rt.listeners.lookup id = some listener
  | .inr transport => rt.transports.lookup id = some transport

omit [Handler H L T C EL ET] [Resource L EL] [Resource T ET] [Poll P A] in
/-- The holdings are what the maps hold. -/
theorem mem_holdings {id : ResourceId} {res : L ⊕ T} :
    (id, res) ∈ holdings rt.listeners rt.transports ↔ rt.Holds id res := by
  rw [holdings, List.mem_append, List.mem_map, List.mem_map]
  cases res with
  | inl listener =>
      constructor
      · rintro (⟨entry, hentry, heq⟩ | ⟨entry, -, heq⟩)
        · cases heq
          exact AList.mem_lookup_iff.mpr hentry
        · cases heq
      · exact fun h => Or.inl ⟨_, AList.mem_lookup_iff.mp h, rfl⟩
  | inr transport =>
      constructor
      · rintro (⟨entry, -, heq⟩ | ⟨entry, hentry, heq⟩)
        · cases heq
        · cases heq
          exact AList.mem_lookup_iff.mpr hentry
      · exact fun h => Or.inr ⟨_, AList.mem_lookup_iff.mp h, rfl⟩

/-- The resources given back to the service so far, with their ids. -/
def givenBack (tr : List (Observation L T C EL ET)) : List (ResourceId × (L ⊕ T)) :=
  tr.filterMap Observation.givenBack

/-- Every resource the service has yielded for registration is in exactly one place. -/
structure Runtime.EachInOnePlace [Resource L EL] [Resource T ET]
    (rt : Runtime H P L T C EL ET) : Prop where
  /-- the resources yielded are announced in order, each as what it is -/
  announced : (rt.trace.filterMap Observation.announced).map Prod.snd =
    (rt.trace.filterMap Observation.yielded).map kindOf
  /-- each is announced under an id of its own -/
  unique : (issued rt.trace).Nodup
  /-- each is in the map of its kind under its id, and was never given back, or it is in
  no map and was given back once, under its id and by a callback of its kind -/
  place : ∀ id res, (id, res) ∈ registrations rt.trace →
    ((∃ res', rt.Holds id res' ∧ Fate res res') ∧
      ¬ (id ∈ rt.listeners ∧ id ∈ rt.transports) ∧
      ((givenBack rt.trace).map Prod.fst).count id = 0) ∨
    ((∃ res', (id, res') ∈ givenBack rt.trace ∧ Fate res res') ∧
      ((givenBack rt.trace).map Prod.fst).count id = 1 ∧
      id ∉ rt.listeners ∧ id ∉ rt.transports)
  /-- nothing else is in a map or was given back -/
  origin : ∀ id res', rt.Holds id res' ∨ (id, res') ∈ givenBack rt.trace →
    ∃ res, (id, res) ∈ registrations rt.trace ∧ Fate res res'

/-- **Resources are neither lost nor duplicated** in a run on an engine that hands out
fresh ids. -/
theorem resource_in_one_place {prof : Profile} {engine : P} {s : System H P L T C EL ET}
    (hs : (reactor prof engine).Reachable (FreshIds prof) s) : s.runtime.EachInOnePlace := by
  have h := owned_of_reachable hs
  refine ⟨h.kinds, ?_, ?_, ?_⟩
  · rw [← h.keys_deposited]
    exact h.sound.nodup
  · intro id res hres
    rcases h.sound.exactly_one_place hres with
      ⟨⟨res', hheld, hfate⟩, hcount, hreturned⟩ | ⟨⟨res', hreturned, hfate⟩, hcount, hheld⟩
    · refine Or.inl ⟨⟨res', mem_holdings.mp hheld, hfate⟩, ?_, List.count_eq_zero.mpr hreturned⟩
      -- an id in both maps would occur twice among the holdings
      rintro ⟨hl, ht⟩
      have htwice : (Custody.keys (holdings s.runtime.listeners s.runtime.transports)).count id =
          (s.runtime.listeners.keys).count id + (s.runtime.transports.keys).count id := by
        rw [Custody.keys, holdings, List.map_append, List.count_append, List.map_map,
          List.map_map]
        rfl
      have hone : (Custody.keys (holdings s.runtime.listeners s.runtime.transports)).count id = 1 :=
        hcount
      have hl' := List.count_pos_iff.mpr (AList.mem_keys.mp hl)
      have ht' := List.count_pos_iff.mpr (AList.mem_keys.mp ht)
      omega
    · have hno := mt mem_keys_holdings.mpr hheld
      exact Or.inr ⟨⟨res', hreturned, hfate⟩, hcount, fun hl => hno (Or.inl hl),
        fun ht => hno (Or.inr ht)⟩
  · rintro id res' (hheld | hreturned)
    · exact h.sound.origin id res' (List.mem_append_left _ (mem_holdings.mpr hheld))
    · exact h.sound.origin id res' (List.mem_append_right _ hreturned)

end

/-! ## The popol engine hands out fresh ids -/

/-- A run on the popol engine is a run on an engine that hands out fresh ids, as long as
the ids last. -/
theorem freshIds_of_fewIds [Handler H L T C EL ET] [Resource L EL] [Resource T ET]
    {prof : Profile} {s : System H Poller L T C EL ET}
    (hs : (reactor prof Poller.new).Reachable FewIds s) :
    (reactor prof Poller.new).Reachable (FreshIds prof) s := by
  refine hs.map id (fun s h => h) ?_
  intro s label s' hreach hG hstep
  refine Relation.ReflTransGen.single ⟨label, ?_, hstep⟩
  cases label with
  | turn input =>
      cases input with
      | action =>
          intro fd id poller hreg hmem
          obtain ⟨hregistry, -⟩ := inOrder_of_reachable hreach
          have hlt := (hregistry.fresh id hmem).2
          -- the id is the counter
          obtain ⟨rfl, -, -⟩ := Poller.register_eq hreg
          exact Nat.lt_irrefl _ hlt
      | _ => trivial
  | _ => trivial

/-- So is a run under the whole contract of the engine. -/
theorem freshIds_of_popol [Handler H L T C EL ET] [Resource L EL] [Resource T ET]
    {prof : Profile} {s : System H Poller L T C EL ET}
    (hs : (reactor prof Poller.new).Reachable PopolContract s) :
    (reactor prof Poller.new).Reachable (FreshIds prof) s :=
  freshIds_of_fewIds (hs.mono fun _ _ h => h.2)

/-- Three resources: one stays, one is handed over, one fails at a send. -/
theorem resource_in_one_place_three : ∃ s : Errands.Sys,
    (reactor .release Poller.new).Reachable (FreshIds .release) s ∧
    registrations s.runtime.trace = [(⟨1⟩, .inl Errands.pipe), (⟨2⟩, .inr Errands.pipe),
      (⟨3⟩, .inr { Errands.pipe with failure := some ⟨.other 32⟩ })] ∧
    givenBack s.runtime.trace = [(⟨2⟩, .inr Errands.pipe),
      (⟨3⟩, .inr { Errands.pipe with failure := some ⟨.other 32⟩ })] ∧
    s.runtime.EachInOnePlace := by
  have hrun : Lts.exec (System.step .release) PopolContract Errands.boot
      [.controller 0 (.wake true),
        .controller 0 (.send (.cmd (.registerListener Errands.pipe)) true),
        .controller 0 (.wake true),
        .controller 0 (.send (.cmd (.registerTransport Errands.pipe)) true),
        .controller 0 (.wake true),
        .controller 0 (.send (.cmd (.registerTransport
          { Errands.pipe with failure := some ⟨.other 32⟩ })) true),
        .controller 0 (.wake true),
        .controller 0 (.send (.cmd (.unregisterTransport ⟨2⟩)) true),
        .controller 0 (.wake true), .controller 0 (.send (.cmd (.send ⟨3⟩ [42])) true),
        .controller 0 (.wake true), .turn (.start [] []),
        .turn (.poll (.ready [Errands.wakerEvent])), .turn .event, .turn .event, .turn .command,
        .turn .command, .turn .command, .turn .command, .turn .command, .turn .command,
        .turn .action, .turn .action, .turn .action, .turn .action, .turn .action,
        .turn .action] = some _ := rfl
  have hs := freshIds_of_popol (Errands.reachable_of_exec hrun)
  exact ⟨_, hs, rfl, rfl, resource_in_one_place hs⟩

end IoReactor
