/-
# The protocol of the callbacks

What the service hears about one id is the life of one resource: its registration, then
its events, through the callback of its kind only, then at most one handover or disconnect,
and nothing more.  The life is followed along the trace (`Runtime.Follows`): while it goes
on the id is in the map of its kind, and before and after that it is in none.
-/
import IoReactor.Lifecycle
import IoReactor.Frames

namespace IoReactor

variable {H P A L T C EL ET : Type}

/-! ## The callbacks about an id -/

/-- The stage in the life of a resource that a callback tells of. -/
def Call.stage : Call L T C EL ET → Option (Stage ResourceType)
  | .handleRegistered _ _ ty => some (.born ty)
  | .handleListenerEvent _ _ _ => some (.used .listener)
  | .handleTransportEvent _ _ _ => some (.used .transport)
  | .handoverListener _ _ => some (.gone .listener)
  | .handoverTransport _ _ => some (.gone .transport)
  | .handleError (.listenerDisconnect _ _) => some (.gone .listener)
  | .handleError (.transportDisconnect _ _) => some (.gone .transport)
  | _ => none

/-- The callback that an entry of the trace is, if it mentions the id. -/
def Observation.callAbout (id : ResourceId) :
    Observation L T C EL ET → Option (Call L T C EL ET)
  | .call c => if c.id = some id then some c else none
  | _ => none

/-- The callbacks that mention the id. -/
def callsAbout (id : ResourceId) (tr : List (Observation L T C EL ET)) :
    List (Call L T C EL ET) :=
  tr.filterMap (Observation.callAbout id)

/-- The pieces of a trace have their callbacks one after the other. -/
theorem callsAbout_append (id : ResourceId) (tr tr' : List (Observation L T C EL ET)) :
    callsAbout id (tr ++ tr') = callsAbout id tr ++ callsAbout id tr' :=
  List.filterMap_append

/-- The ids announced in a piece of the trace stay announced. -/
theorem mem_issued_append {tr : List (Observation L T C EL ET)} {id : ResourceId}
    (h : id ∈ issued tr) (tr' : List (Observation L T C EL ET)) :
    id ∈ issued (tr ++ tr') := by
  rw [issued, List.filterMap_append, List.map_append]
  exact List.mem_append_left _ h

/-- Entries that no event and no action makes are about no id. -/
theorem id_of_idle {obs : Observation L T C EL ET} (h : obs.Idle) : obs.id = none := by
  unfold Observation.Idle at h
  split at h
  · rfl
  · rfl
  · rfl
  · rfl
  · rfl
  · exact h.elim

/-! ## Following a life -/

namespace Runtime

/-- What the service has heard about the id, and the maps, agree on the life. -/
structure Follows (rt : Runtime H P L T C EL ET) (id : ResourceId) (life : Life ResourceType) :
    Prop where
  run : Life.run Call.stage .unborn (callsAbout id rt.trace) = some life
  listener : id ∈ rt.listeners → life = .alive .listener
  transport : id ∈ rt.transports → life = .alive .transport
  announced : life ≠ .unborn → id ∈ issued rt.trace

/-- What the service has heard about each id is the life of one resource. -/
def Orderly (rt : Runtime H P L T C EL ET) : Prop :=
  ∀ id, ∃ life, rt.Follows id life

variable {rt rt' : Runtime H P L T C EL ET}

/-- The life goes on with the callbacks of the next piece of the trace. -/
theorem Follows.append {id : ResourceId} {life life' : Life ResourceType}
    (h : rt.Follows id life) {tr : List (Observation L T C EL ET)}
    (htrace : rt'.trace = rt.trace ++ tr)
    (hrun : Life.run Call.stage life (callsAbout id tr) = some life')
    (hl : id ∈ rt'.listeners → life' = .alive .listener)
    (ht : id ∈ rt'.transports → life' = .alive .transport)
    (hann : life' ≠ .unborn → life ≠ .unborn ∨ id ∈ issued rt'.trace) :
    rt'.Follows id life' where
  run := by
    rw [htrace, callsAbout_append, Life.run_append, h.run]
    exact hrun
  listener := hl
  transport := ht
  announced hne := by
    rcases hann hne with hbefore | hnow
    · rw [htrace]
      exact mem_issued_append (h.announced hbefore) tr
    · exact hnow

/-- Without a callback about the id its life stays as it is. -/
theorem Follows.quiet {id : ResourceId} {life : Life ResourceType} (h : rt.Follows id life)
    {tr : List (Observation L T C EL ET)} (htrace : rt'.trace = rt.trace ++ tr)
    (htr : ∀ obs ∈ tr, obs.callAbout id = none)
    (hl : id ∈ rt'.listeners → id ∈ rt.listeners)
    (ht : id ∈ rt'.transports → id ∈ rt.transports) : rt'.Follows id life := by
  apply h.append htrace
  · rw [callsAbout, List.filterMap_eq_nil_iff.mpr htr]
    rfl
  · exact fun hmem => h.listener (hl hmem)
  · exact fun hmem => h.transport (ht hmem)
  · exact Or.inl

/-- Entries of the trace that are about no id. -/
theorem Orderly.quiet (h : rt.Orderly) {tr : List (Observation L T C EL ET)}
    (htrace : rt'.trace = rt.trace ++ tr) (htr : ∀ obs ∈ tr, obs.id = none)
    (hl : rt'.listeners = rt.listeners) (ht : rt'.transports = rt.transports) :
    rt'.Orderly := by
  intro id
  obtain ⟨life, hlife⟩ := h id
  refine ⟨life, hlife.quiet htrace (fun obs hobs => ?_) ?_ ?_⟩
  · have hid := htr obs hobs
    cases obs with
    | call c =>
        have hc : c.id = none := hid
        simp [Observation.callAbout, hc]
    | _ => rfl
  · rw [hl]
    exact fun hmem => hmem
  · rw [ht]
    exact fun hmem => hmem

/-- Entries of the trace that are about one id, and a change of the maps under it. -/
theorem Orderly.about (h : rt.Orderly) {tr : List (Observation L T C EL ET)}
    (htrace : rt'.trace = rt.trace ++ tr) {id : ResourceId}
    (htr : ∀ obs ∈ tr, obs.id = some id)
    (hl : ∀ id', id' ≠ id → id' ∈ rt'.listeners → id' ∈ rt.listeners)
    (ht : ∀ id', id' ≠ id → id' ∈ rt'.transports → id' ∈ rt.transports)
    (hself : ∀ life, rt.Follows id life → ∃ life', rt'.Follows id life') : rt'.Orderly := by
  intro id'
  by_cases hid : id' = id
  · subst hid
    obtain ⟨life, hlife⟩ := h id'
    exact hself life hlife
  · obtain ⟨life, hlife⟩ := h id'
    refine ⟨life, hlife.quiet htrace (fun obs hobs => ?_) (hl id' hid) (ht id' hid)⟩
    -- the callbacks mention the other id
    have hobsid := htr obs hobs
    cases obs with
    | call c =>
        have hc : c.id = some id := hobsid
        have hne : ¬ id = id' := fun heq => hid heq.symm
        simp [Observation.callAbout, hc, hne]
    | _ => rfl

/-- A stretch of events, all through the callback of one kind. -/
theorem Orderly.used (h : rt.Orderly) {tr : List (Observation L T C EL ET)}
    (htrace : rt'.trace = rt.trace ++ tr) {id : ResourceId} {kind : ResourceType}
    (htr : ∀ obs ∈ tr, obs.id = some id ∧
      ∀ c, obs.callAbout id = some c → c.stage = some (.used kind))
    (hl : ∀ id', id' ∈ rt'.listeners ↔ id' ∈ rt.listeners)
    (ht : ∀ id', id' ∈ rt'.transports ↔ id' ∈ rt.transports)
    (hkind : ∀ life, rt.Follows id life → life = .alive kind) : rt'.Orderly := by
  apply h.about htrace fun obs hobs => (htr obs hobs).1
  · exact fun id' _ => (hl id').mp
  · exact fun id' _ => (ht id').mp
  · intro life hlife
    have hlife' := hkind life hlife
    refine ⟨life, hlife.append htrace ?_ ?_ ?_ Or.inl⟩
    · rw [hlife']
      apply Life.run_uses
      intro c hc
      obtain ⟨obs, hobs, heq⟩ := List.mem_filterMap.mp hc
      exact (htr obs hobs).2 c heq
    · exact fun hmem => hlife.listener ((hl id).mp hmem)
    · exact fun hmem => hlife.transport ((ht id).mp hmem)

/-- The one callback that ends a life; the id is then in no map. -/
theorem Orderly.gone (h : rt.Orderly) {tr : List (Observation L T C EL ET)}
    (htrace : rt'.trace = rt.trace ++ tr) {id : ResourceId} {kind : ResourceType}
    {c : Call L T C EL ET} (htr : ∀ obs ∈ tr, obs.id = some id)
    (hcalls : callsAbout id tr = [c]) (hstage : c.stage = some (.gone kind))
    (hl : ∀ id', id' ∈ rt'.listeners → id' ≠ id ∧ id' ∈ rt.listeners)
    (ht : ∀ id', id' ∈ rt'.transports → id' ≠ id ∧ id' ∈ rt.transports)
    (hkind : ∀ life, rt.Follows id life → life = .alive kind) : rt'.Orderly := by
  apply h.about htrace htr
  · exact fun id' _ hmem => (hl id' hmem).2
  · exact fun id' _ hmem => (ht id' hmem).2
  · intro life hlife
    have hlife' := hkind life hlife
    subst hlife'
    refine ⟨.dead kind, hlife.append htrace ?_ ?_ ?_ ?_⟩
    · rw [hcalls]
      exact Life.run_singleton hstage (by simp [Life.step])
    · exact fun hmem => absurd rfl (hl id hmem).1
    · exact fun hmem => absurd rfl (ht id hmem).1
    · intro _
      refine Or.inl fun h => ?_
      cases h

/-- The announcement of an id begins its life, if it was never announced before. -/
theorem Orderly.born (h : rt.Orderly) {fd : RawFd} {id : ResourceId} {kind : ResourceType}
    (htrace : rt'.trace = rt.trace ++ [.call (.handleRegistered fd id kind)])
    (hnew : id ∉ issued rt.trace)
    (hl : ∀ id', id' ∈ rt'.listeners ↔ (id' = id ∧ kind = .listener) ∨ id' ∈ rt.listeners)
    (ht : ∀ id', id' ∈ rt'.transports ↔ (id' = id ∧ kind = .transport) ∨ id' ∈ rt.transports) :
    rt'.Orderly := by
  apply h.about htrace (List.forall_mem_singleton.mpr rfl)
  · exact fun id' hne hmem => ((hl id').mp hmem).resolve_left fun heq => hne heq.1
  · exact fun id' hne hmem => ((ht id').mp hmem).resolve_left fun heq => hne heq.1
  · intro life hlife
    have hunborn : life = .unborn := by
      by_contra hne
      exact hnew (hlife.announced hne)
    subst hunborn
    refine ⟨.alive kind, hlife.append htrace ?_ ?_ ?_ ?_⟩
    · simp [callsAbout, Observation.callAbout, Call.id, Life.run, Call.stage, Life.step]
    · intro hmem
      rcases (hl id).mp hmem with ⟨-, rfl⟩ | hold
      · rfl
      · cases hlife.listener hold
    · intro hmem
      rcases (ht id).mp hmem with ⟨-, rfl⟩ | hold
      · rfl
      · cases hlife.transport hold
    · intro _
      refine Or.inr ?_
      rw [htrace, issued, List.filterMap_append, List.map_append]
      exact List.mem_append_right _ (List.mem_singleton.mpr rfl)

/-! ## One event, one action, one turn -/

section

variable [Handler H L T C EL ET] [Resource L EL] [Resource T ET] [Poll P A]

omit [Resource L EL] [Resource T ET] [Poll P A] in
/-- The entries that the inner loop of `handle_events` makes are about the resource, and
their callbacks are uses of it. -/
theorem used_of_ioObservation {E : Type} {id : ResourceId}
    {onEvent : E → Call L T C EL ET} {kind : ResourceType}
    (hevent : ∀ event, (onEvent event).id = some id ∧
      (onEvent event).stage = some (.used kind))
    {obs : Observation L T C EL ET} (h : IoObservation id onEvent obs) :
    obs.id = some id ∧ ∀ c, obs.callAbout id = some c → c.stage = some (.used kind) := by
  cases obs with
  | call c =>
      obtain ⟨event, rfl⟩ := h
      obtain ⟨hid, hstage⟩ := hevent event
      refine ⟨hid, fun c hc => ?_⟩
      rw [Observation.callAbout, if_pos hid, Option.some.injEq] at hc
      rw [← hc]
      exact hstage
  | handleIo id' io =>
      have hid : id' = id := h
      exact ⟨congrArg some hid, nofun⟩
  | next answer => exact h.elim
  | writeAtomic id' data result => exact h.elim

omit [Handler H L T C EL ET] [Resource L EL] [Resource T ET] [Poll P A] in
/-- No id is in both maps, since its life is of one kind. -/
theorem Orderly.disjoint (h : rt.Orderly) {id : ResourceId} (hl : id ∈ rt.listeners) :
    id ∉ rt.transports := by
  intro ht
  obtain ⟨life, hlife⟩ := h id
  have hlistener := hlife.listener hl
  rw [hlife.transport ht] at hlistener
  cases hlistener

omit [Resource L EL] [Resource T ET] in
/-- A listener is taken out, and the service told so. -/
theorem Orderly.dropListener (h : rt.Orderly) {id : ResourceId} {listener : L}
    (hlook : rt.listeners.lookup id = some listener) {c : Call L T C EL ET}
    (hid : c.id = some id) (hstage : c.stage = some (.gone .listener)) :
    ((rt.dropListener id).call c).Orderly := by
  have hmem : id ∈ rt.listeners := mem_of_lookup hlook
  refine h.gone rfl (List.forall_mem_singleton.mpr hid) ?_ hstage ?_ ?_ ?_
  · simp [callsAbout, Observation.callAbout, hid]
  · exact fun id' hmem' => AList.mem_erase.mp hmem'
  · intro id' hmem'
    refine ⟨?_, hmem'⟩
    rintro rfl
    exact h.disjoint hmem hmem'
  · exact fun life hlife => hlife.listener hmem

omit [Resource L EL] [Resource T ET] in
/-- A transport is taken out, and the service told so. -/
theorem Orderly.dropTransport (h : rt.Orderly) {id : ResourceId} {transport : T}
    (hlook : rt.transports.lookup id = some transport) {c : Call L T C EL ET}
    (hid : c.id = some id) (hstage : c.stage = some (.gone .transport)) :
    ((rt.dropTransport id).call c).Orderly := by
  have hmem : id ∈ rt.transports := mem_of_lookup hlook
  refine h.gone rfl (List.forall_mem_singleton.mpr hid) ?_ hstage ?_ ?_ ?_
  · simp [callsAbout, Observation.callAbout, hid]
  · intro id' hmem'
    refine ⟨?_, hmem'⟩
    rintro rfl
    exact h.disjoint hmem' hmem
  · exact fun id' hmem' => AList.mem_erase.mp hmem'
  · exact fun life hlife => hlife.transport hmem

omit [Handler H L T C EL ET] [Resource L EL] [Resource T ET] [Poll P A] in
/-- An atomic write is no callback. -/
theorem Orderly.wrote (h : rt.Orderly) {id : ResourceId} {transport : T}
    (hlook : rt.transports.lookup id = some transport) (transport' : T) (data : List UInt8)
    (result : Except WriteError Unit) : (rt.wrote id transport' data result).Orderly := by
  have hkind : ∀ life, rt.Follows id life → life = .alive .transport := fun life hlife =>
    hlife.transport (mem_of_lookup hlook)
  exact h.used rfl (List.forall_mem_singleton.mpr ⟨rfl, nofun⟩) (fun _ => Iff.rfl)
    (mem_insert_of_lookup hlook) hkind

/-- An event continues the life of its id, or ends it. -/
theorem orderly_of_handled (h : rt.Orderly) {id : ResourceId} {res : Except IoFail IoType}
    {time : ℕ} {woken : Bool} (hev : Handled rt id res time woken rt') : rt'.Orderly := by
  cases hev with
  | waker hid io hres => exact h.quiet (List.append_nil _).symm nofun rfl rfl
  | listenerIo hid io hres listener hlook =>
      obtain ⟨service, tr, heq, htr⟩ := rt.listenerIo_eq id listener io time
      rw [heq]
      refine h.used rfl (fun obs hobs => used_of_ioObservation (fun _ => ⟨rfl, rfl⟩) (htr obs hobs))
        (mem_insert_of_lookup hlook) (fun _ => Iff.rfl) ?_
      exact fun life hlife => hlife.listener (mem_of_lookup hlook)
  | listenerGone hid err hres listener hlook => exact h.dropListener hlook rfl rfl
  | transportIo hid hno io hres transport hlook =>
      obtain ⟨service, tr, heq, htr⟩ := rt.transportIo_eq id transport io time
      rw [heq]
      refine h.used rfl (fun obs hobs => used_of_ioObservation (fun _ => ⟨rfl, rfl⟩) (htr obs hobs))
        (fun _ => Iff.rfl) (mem_insert_of_lookup hlook) ?_
      exact fun life hlife => hlife.transport (mem_of_lookup hlook)
  | transportGone hid hno err hres transport hlook => exact h.dropTransport hlook rfl rfl

/-- An action begins, continues or ends a life, if the engine hands out fresh ids. -/
theorem orderly_of_acted {prof : Profile} (h : rt.Orderly) {time : ℕ} {action : Action L T}
    {result : Except (Error L T) Unit}
    (hfresh : ∀ fd id poller, Poll.register prof rt.poller fd .readOnly = .ok (id, poller) →
      id ∉ issued rt.trace)
    (hact : Acted prof rt time action result rt') : (rt'.report result).Orderly := by
  cases hact with
  | registerListener listener id poller hreg =>
      refine h.born rfl (hfresh _ _ _ hreg) (fun id' => ?_) (fun id' => ?_)
      · show id' ∈ rt.listeners.insert id listener ↔ _
        simp [AList.mem_insert]
      · simp [report]
  | registerTransport transport id poller hreg =>
      refine h.born rfl (hfresh _ _ _ hreg) (fun id' => ?_) (fun id' => ?_)
      · simp [report]
      · show id' ∈ rt.transports.insert id transport ↔ _
        simp [AList.mem_insert]
  | unregisterListener id listener hlook => exact h.dropListener hlook rfl rfl
  | unregisterTransport id transport hlook => exact h.dropTransport hlook rfl rfl
  | sent id data transport transport' hlook hwrite => exact h.wrote hlook transport' data _
  | sendFailed id data transport transport' err hlook hwrite =>
      -- the transport is written back first, and then taken out
      exact (h.wrote hlook transport' data _).dropTransport (AList.lookup_insert _) rfl rfl
  | setTimer duration timeouts hset =>
      exact h.quiet (List.append_nil _).symm (List.forall_mem_nil _) rfl rfl
  | ignored action hno => exact h

/-- What the service hears about each id is the life of one resource, in every reachable
state. -/
theorem orderly_of_reachable {prof : Profile} {engine : P} {s : System H P L T C EL ET}
    (hs : (reactor prof engine).Reachable (FreshIds prof) s) : s.runtime.Orderly := by
  refine runtime_invariant (I := Orderly) ?_ ?_ ?_ ?_ hs
  · exact fun service poller fd hreg id => ⟨.unborn, rfl, nofun, nofun, fun h => absurd rfl h⟩
  · intro rt rt' tr h htrace hidle hl ht
    exact h.quiet htrace (fun obs hobs => id_of_idle (hidle obs hobs)) hl ht
  · exact fun rt id res time woken rt' h hev => orderly_of_handled h hev
  · intro s now action service result rt' h hfresh hact
    have hnoted : ({ s.runtime with service := service }.note (.next (some action))).Orderly :=
      h.quiet rfl (List.forall_mem_singleton.mpr rfl) rfl rfl
    refine orderly_of_acted hnoted (fun fd id poller hreg hmem => ?_) hact
    -- the yield of the action announces nothing
    apply hfresh fd id poller hreg
    have hsame : issued (s.runtime.trace ++ [.next (some action)]) = issued s.runtime.trace :=
      issued_concat rfl
    rwa [← hsame]

end

end Runtime

/-! ## Whole runs -/

section

variable [Handler H L T C EL ET] [Resource L EL] [Resource T ET] [Poll P A]
variable {prof : Profile} {engine : P} {s s' : System H P L T C EL ET}

/-- A step of the system only adds to the trace. -/
theorem exists_trace_of_step {label : Label A C} (h : System.step prof s label = some s') :
    ∃ tr, s'.runtime.trace = s.runtime.trace ++ tr := by
  rcases System.core_of_step h with ⟨input, rfl, hturned⟩ | ⟨chan, waker, hcore⟩
  · refine hturned.keeps (I := fun rt => ∃ tr, rt.trace = s.runtime.trace ++ tr) ?_ ?_ ?_
      ⟨[], (List.append_nil _).symm⟩
    · rintro rt rt' tr' ⟨tr, htrace⟩ htrace' - - -
      exact ⟨tr ++ tr', by rw [htrace', htrace, List.append_assoc]⟩
    · rintro rt id res time woken rt' ⟨tr, htrace⟩ hev
      obtain ⟨-, -, -, tr', htrace', -⟩ := hev.frame
      exact ⟨tr ++ tr', by rw [htrace', htrace, List.append_assoc]⟩
    · rintro now action service result rt' - hact
      obtain ⟨-, -, tr, htrace, -⟩ := hact.frame
      exact ⟨.next (some action) :: tr, htrace.trans (List.append_assoc _ _ _)⟩
  · rw [hcore]
    exact ⟨[], (List.append_nil _).symm⟩

/-- A run of the system only adds to the trace. -/
theorem exists_trace_of_steps {G : System H P L T C EL ET → Label A C → Prop}
    (hrun : (reactor prof engine).Steps G s s') :
    ∃ tr, s'.runtime.trace = s.runtime.trace ++ tr := by
  refine hrun.preserves (I := fun u => ∃ tr, u.runtime.trace = s.runtime.trace ++ tr) ?_
    ⟨[], (List.append_nil _).symm⟩
  rintro u label u' ⟨tr, htrace⟩ - hstep
  obtain ⟨tr', htrace'⟩ := exists_trace_of_step hstep
  exact ⟨tr ++ tr', by rw [htrace', htrace, List.append_assoc]⟩

/-- **The protocol of the callbacks.**  In every run on an engine that hands out fresh ids,
the callbacks that mention an id are `handle_registered`, then event callbacks of the kind
registered, then at most one handover or disconnect of that kind, and nothing follows it
for the rest of the run. -/
theorem callbacks_follow_protocol (hs : (reactor prof engine).Reachable (FreshIds prof) s)
    (id : ResourceId) :
    IsLife Call.stage (callsAbout id s.runtime.trace) ∧
    ∀ s', (reactor prof engine).Steps (FreshIds prof) s s' →
      (∃ c ∈ callsAbout id s.runtime.trace, ∃ kind, c.stage = some (.gone kind)) →
      callsAbout id s'.runtime.trace = callsAbout id s.runtime.trace := by
  obtain ⟨life, hlife⟩ := Runtime.orderly_of_reachable hs id
  refine ⟨Life.isLife_of_run hlife.run, ?_⟩
  rintro s' hrun ⟨c, hc, kind, hgone⟩
  obtain ⟨tr, htrace⟩ := exists_trace_of_steps hrun
  obtain ⟨life', hlife'⟩ := Runtime.orderly_of_reachable (hs.steps hrun) id
  have hword := hlife'.run
  rw [htrace, callsAbout_append] at hword ⊢
  rw [Life.eq_nil_of_gone hword hc hgone, List.append_nil]

end

/-- A transport is registered, has an event and is handed over. -/
theorem callbacks_follow_protocol_handover : ∃ s : Errands.Sys,
    (reactor .release Poller.new).Reachable (FreshIds .release) s ∧
    callsAbout ⟨1⟩ s.runtime.trace = [.handleRegistered 7 ⟨1⟩ .transport,
      .handleTransportEvent ⟨1⟩ .read 1000, .handoverTransport ⟨1⟩ Errands.pipe] ∧
    IsLife Call.stage (callsAbout ⟨1⟩ s.runtime.trace) := by
  have hrun : Lts.exec (System.step .release) PopolContract Errands.boot
      [.controller 0 (.wake true),
        .controller 0 (.send (.cmd (.registerTransport Errands.pipe)) true),
        .controller 0 (.wake true), .turn (.start [] []),
        .turn (.poll (.ready [Errands.wakerEvent])), .turn .event, .turn .event, .turn .command,
        .turn .command, .turn .action, .turn .action, .turn (.start [] [⟨1⟩]),
        .controller 0 (.send (.cmd (.unregisterTransport ⟨1⟩)) true),
        .controller 0 (.wake true),
        .turn (.poll (.ready [⟨⟨1⟩, 1, true, false, false, false, false⟩, Errands.wakerEvent])),
        .turn .event, .turn .event, .turn .event, .turn .command, .turn .command,
        .turn .action] = some _ := rfl
  have hs := freshIds_of_popol (Errands.reachable_of_exec hrun)
  exact ⟨_, hs, rfl, (callbacks_follow_protocol hs ⟨1⟩).1⟩

end IoReactor
