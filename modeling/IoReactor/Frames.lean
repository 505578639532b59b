/-
# What an action and an event may touch

`Runtime.entry` is everything the runtime and the popol engine hold under one id: the
entries of the two maps and the source.  An event changes the entry of its id only
(`Handled.entry_ne`), an action the entry of the id it names, or that of the id it is
given for a registration (`Acted.entry_ne`, `Acted.registered`).
-/
import IoReactor.Ownership

namespace IoReactor

variable {H L T C EL ET : Type}

/-! ## Ids in the trace -/

/-- The id a callback mentions. -/
def Call.id : Call L T C EL ET → Option ResourceId
  | .handleListenerEvent id _ _ => some id
  | .handleTransportEvent id _ _ => some id
  | .handleRegistered _ id _ => some id
  | .handleError (.listenerDisconnect id _) => some id
  | .handleError (.transportDisconnect id _) => some id
  | .handoverListener id _ => some id
  | .handoverTransport id _ => some id
  | _ => none

/-- The id an entry of the trace is about. -/
def Observation.id : Observation L T C EL ET → Option ResourceId
  | .call c => c.id
  | .handleIo id _ => some id
  | .writeAtomic id _ _ => some id
  | .next _ => none

/-! ## Entries -/

/-- What is held under an id. -/
@[ext] structure Entry (L T : Type) where
  listener : Option L
  transport : Option T
  source : Option Popol.Source

namespace Entry

/-- Nothing is held under the id. -/
def empty : Entry L T := ⟨none, none, none⟩

end Entry

/-- The resource an action is about: its id and the kind it is taken for. -/
def Action.about : Action L T → Option (ResourceId × ResourceType)
  | .unregisterListener id => some (id, .listener)
  | .unregisterTransport id => some (id, .transport)
  | .send id _ => some (id, .transport)
  | _ => none

/-- The entry of a resource that an action registers. -/
def Action.registered [Resource L EL] [Resource T ET] : Action L T → Entry L T
  | .registerListener listener =>
      ⟨some listener, none, some ⟨Resource.asRawFd listener, .READ⟩⟩
  | .registerTransport transport =>
      ⟨none, some transport, some ⟨Resource.asRawFd transport, .READ⟩⟩
  | _ => .empty

namespace Runtime

/-- What the runtime and the popol engine hold under an id. -/
def entry (rt : Runtime H Poller L T C EL ET) (id : ResourceId) : Entry L T :=
  ⟨rt.listeners.lookup id, rt.transports.lookup id, rt.poller.poll.lookup id⟩

/-- The entries are made of the three tables. -/
theorem entry_congr {rt rt' : Runtime H Poller L T C EL ET} {id : ResourceId}
    (hl : rt'.listeners.lookup id = rt.listeners.lookup id)
    (ht : rt'.transports.lookup id = rt.transports.lookup id)
    (hp : rt'.poller.poll.lookup id = rt.poller.poll.lookup id) :
    rt'.entry id = rt.entry id :=
  Entry.ext hl ht hp

/-- An id in none of the tables has an empty entry. -/
theorem entry_eq_empty {rt : Runtime H Poller L T C EL ET} {id : ResourceId}
    (hl : id ∉ rt.listeners) (ht : id ∉ rt.transports) (hp : id ∉ rt.poller.poll) :
    rt.entry id = .empty :=
  Entry.ext (AList.lookup_eq_none.mpr hl) (AList.lookup_eq_none.mpr ht)
    (AList.lookup_eq_none.mpr hp)

/-- Taking a listener out touches no other entry. -/
theorem dropListener_entry_ne (rt : Runtime H Poller L T C EL ET) {id id' : ResourceId}
    (h : id' ≠ id) : (rt.dropListener id).entry id' = rt.entry id' :=
  entry_congr (AList.lookup_erase_ne h) rfl (AList.lookup_erase_ne h)

/-- Taking a transport out touches no other entry. -/
theorem dropTransport_entry_ne (rt : Runtime H Poller L T C EL ET) {id id' : ResourceId}
    (h : id' ≠ id) : (rt.dropTransport id).entry id' = rt.entry id' :=
  entry_congr rfl (AList.lookup_erase_ne h) (AList.lookup_erase_ne h)

section

variable [Handler H L T C EL ET]

/-- The report of an error touches no entry. -/
@[simp] theorem report_entry (rt : Runtime H Poller L T C EL ET)
    (result : Except (Error L T) Unit) (id : ResourceId) :
    (rt.report result).entry id = rt.entry id := by
  cases result with
  | ok u => rfl
  | error err => rfl

variable [Resource L EL] [Resource T ET] {rt rt' : Runtime H Poller L T C EL ET}

/-! ## One event, one action -/

/-- An event touches the entry of its id only. -/
theorem Handled.entry_ne {id : ResourceId} {res : Except IoFail IoType} {time : ℕ}
    {woken : Bool} (h : Handled rt id res time woken rt') {id' : ResourceId} (hne : id' ≠ id) :
    rt'.entry id' = rt.entry id' := by
  cases h with
  | waker hid io hres => rfl
  | listenerIo hid io hres listener hlook =>
      obtain ⟨service, tr, heq, -⟩ := rt.listenerIo_eq id listener io time
      rw [heq]
      exact entry_congr (AList.lookup_insert_ne hne) rfl rfl
  | listenerGone hid err hres listener hlook => exact rt.dropListener_entry_ne hne
  | transportIo hid hno io hres transport hlook =>
      obtain ⟨service, tr, heq, -⟩ := rt.transportIo_eq id transport io time
      rw [heq]
      exact entry_congr rfl (AList.lookup_insert_ne hne) rfl
  | transportGone hid hno err hres transport hlook => exact rt.dropTransport_entry_ne hne

/-- An action that registers nothing touches the entry of the id it names only. -/
theorem Acted.entry_ne {prof : Profile} {time : ℕ} {action : Action L T}
    {result : Except (Error L T) Unit} (h : Acted prof rt time action result rt')
    (hreg : action.registers = false) {id' : ResourceId}
    (hne : ∀ id ty, action.about = some (id, ty) → id' ≠ id) : rt'.entry id' = rt.entry id' := by
  cases h with
  | registerListener listener id poller hr => cases hreg
  | registerTransport transport id poller hr => cases hreg
  | unregisterListener id listener hlook => exact rt.dropListener_entry_ne (hne id _ rfl)
  | unregisterTransport id transport hlook => exact rt.dropTransport_entry_ne (hne id _ rfl)
  | sent id data transport transport' hlook hwrite =>
      exact entry_congr rfl (AList.lookup_insert_ne (hne id _ rfl)) rfl
  | sendFailed id data transport transport' err hlook hwrite =>
      have hid := hne id _ rfl
      rw [dropTransport_entry_ne _ hid]
      exact entry_congr rfl (AList.lookup_insert_ne hid) rfl
  | setTimer duration timeouts hset => rfl
  | ignored action hno => rfl

/-- Only a `SetTimer` changes the timers. -/
theorem Acted.timeouts_eq_of_ne {prof : Profile} {time : ℕ} {action : Action L T}
    {result : Except (Error L T) Unit} (h : Acted prof rt time action result rt')
    (hne : ∀ duration, action ≠ .setTimer duration) : rt'.timeouts = rt.timeouts := by
  cases h with
  | setTimer duration timeouts hset => exact absurd rfl (hne duration)
  | _ => rfl

end

end Runtime

/-- The id that the engine hands out next has an empty entry. -/
theorem Registry.entry_counter {rt : Runtime H Poller L T C EL ET} (h : Registry rt) :
    rt.entry ⟨rt.poller.idGen.counter⟩ = .empty := by
  have hissued : (⟨rt.poller.idGen.counter⟩ : ResourceId) ∉ issued rt.trace := by
    intro hmem
    exact absurd (h.fresh _ hmem).2 (Nat.lt_irrefl _)
  have hl := fun hmem => hissued (h.listeners_issued _ hmem)
  have ht := fun hmem => hissued (h.transports_issued _ hmem)
  apply Runtime.entry_eq_empty hl ht
  rw [h.sources]
  rintro (hw | hmem | hmem)
  · have hcounter := h.counter
    have hzero : rt.poller.idGen.counter = 0 := congrArg ResourceId.raw hw
    omega
  · exact hl hmem
  · exact ht hmem

section

variable [Handler H L T C EL ET] [Resource L EL] [Resource T ET]
variable {rt rt' : Runtime H Poller L T C EL ET}

/-- A registration fills the entry of a new id and touches no other. -/
theorem Runtime.Acted.registered {prof : Profile} (hreg : Registry rt) {time : ℕ}
    {action : Action L T} {result : Except (Error L T) Unit}
    (h : Runtime.Acted prof rt time action result rt') (hregisters : action.registers = true) :
    ∃ id, rt.entry id = .empty ∧ rt'.entry id = action.registered ∧
      ∀ id', id' ≠ id → rt'.entry id' = rt.entry id' := by
  have hempty := hreg.entry_counter
  have hl : rt.listeners.lookup ⟨rt.poller.idGen.counter⟩ = none := congrArg Entry.listener hempty
  have ht : rt.transports.lookup ⟨rt.poller.idGen.counter⟩ = none :=
    congrArg Entry.transport hempty
  cases h with
  | registerListener listener id poller hr =>
      obtain ⟨rfl, -, hpoll⟩ := Poller.register_eq hr
      refine ⟨_, hempty, Entry.ext (AList.lookup_insert _) ht ?_, ?_⟩
      · show poller.poll.lookup _ = _
        rw [hpoll]
        exact AList.lookup_insert _
      · intro id' hne
        refine Runtime.entry_congr (AList.lookup_insert_ne hne) rfl ?_
        show poller.poll.lookup id' = _
        rw [hpoll]
        exact AList.lookup_insert_ne hne
  | registerTransport transport id poller hr =>
      obtain ⟨rfl, -, hpoll⟩ := Poller.register_eq hr
      refine ⟨_, hempty, Entry.ext hl (AList.lookup_insert _) ?_, ?_⟩
      · show poller.poll.lookup _ = _
        rw [hpoll]
        exact AList.lookup_insert _
      · intro id' hne
        refine Runtime.entry_congr rfl (AList.lookup_insert_ne hne) ?_
        show poller.poll.lookup id' = _
        rw [hpoll]
        exact AList.lookup_insert_ne hne
  | ignored action hno =>
      cases action with
      | registerListener listener => exact hno.elim
      | registerTransport transport => exact hno.elim
      | unregisterListener id => cases hregisters
      | unregisterTransport id => cases hregisters
      | send id data => cases hregisters
      | setTimer duration => cases hregisters
  | _ => cases hregisters

/-- Looking for an id that is not there changes nothing. -/
theorem Runtime.handleAction_of_ignores (prof : Profile) (time : ℕ)
    {action : Action L T} (h : rt.Ignores action) :
    rt.handleAction prof action time = .ok (.ok (), rt) := by
  cases action with
  | registerListener listener => exact h.elim
  | registerTransport transport => exact h.elim
  | unregisterListener id =>
      have hnone : rt.listeners.lookup id = none := h
      simp [handleAction, unregisterListener, takeResource, hnone]
  | unregisterTransport id =>
      have hnone : rt.transports.lookup id = none := h
      simp [handleAction, unregisterTransport, takeResource, hnone]
  | send id data =>
      have hnone : rt.transports.lookup id = none := h
      simp [handleAction, hnone]
  | setTimer duration => exact h.elim

/-! ## Ids that name nothing -/

/-- The id names no resource of the kind: it is the waker's, or was never issued, or its
resource was given back, or is of the other kind. -/
def Runtime.Foreign (rt : Runtime H Poller L T C EL ET) (id : ResourceId) (ty : ResourceType) :
    Prop :=
  id = ResourceId.WAKER ∨ id ∉ issued rt.trace ∨ id ∈ (givenBack rt.trace).map Prod.fst ∨
    match ty with
    | .listener => id ∈ rt.transports
    | .transport => id ∈ rt.listeners

omit [Handler H L T C EL ET] in
/-- What was given back is in no map. -/
theorem Runtime.Owned.notMem_of_givenBack (h : rt.Owned) {id : ResourceId}
    (hid : id ∈ (givenBack rt.trace).map Prod.fst) : id ∉ rt.listeners ∧ id ∉ rt.transports := by
  obtain ⟨⟨id', res⟩, hmem, rfl⟩ := List.mem_map.mp hid
  obtain ⟨res₀, hres₀, -⟩ := h.sound.origin id' res (List.mem_append_right _ hmem)
  rw [← not_or, ← mem_keys_holdings]
  rcases h.sound.exactly_one_place hres₀ with ⟨-, -, hreturned⟩ | ⟨-, -, hheld⟩
  · exact absurd (List.mem_map_of_mem hmem) hreturned
  · exact hheld

omit [Handler H L T C EL ET] in
/-- An action about an id that names nothing is ignored. -/
theorem Runtime.Foreign.ignores {id : ResourceId} {ty : ResourceType} (hid : rt.Foreign id ty)
    (hreg : Registry rt) (howned : rt.Owned) {action : Action L T}
    (habout : action.about = some (id, ty)) : rt.Ignores action := by
  -- the id is not in the map of its kind
  have hno : match ty with
      | .listener => id ∉ rt.listeners
      | .transport => id ∉ rt.transports := by
    rcases hid with rfl | hnew | hback | hother
    · cases ty with
      | listener => exact hreg.waker_notMem.1
      | transport => exact hreg.waker_notMem.2
    · cases ty with
      | listener => exact fun hmem => hnew (hreg.listeners_issued _ hmem)
      | transport => exact fun hmem => hnew (hreg.transports_issued _ hmem)
    · obtain ⟨hl, ht⟩ := howned.notMem_of_givenBack hback
      cases ty with
      | listener => exact hl
      | transport => exact ht
    · cases ty with
      | listener => exact fun hmem => hreg.disjoint id hmem hother
      | transport => exact hreg.disjoint id hother
  cases action with
  | registerListener listener => cases habout
  | registerTransport transport => cases habout
  | unregisterListener id' =>
      cases habout
      exact AList.lookup_eq_none.mpr hno
  | unregisterTransport id' =>
      cases habout
      exact AList.lookup_eq_none.mpr hno
  | send id' data =>
      cases habout
      exact AList.lookup_eq_none.mpr hno
  | setTimer duration => cases habout

/-! ## The action phase -/

/-- The run handles actions only, while the other threads go on. -/
abbrev ActionPhase (s : System H Poller L T C EL ET) (label : Label Popol.Answer C) : Prop :=
  FewIds s label ∧ (label.atTurn.isSome → label.atAction.isSome)

/-- One turn of the action loop leaves what is registered, and not named, as it was. -/
theorem entry_of_actionPhase {prof : Profile} {s s' : System H Poller L T C EL ET}
    {label : Label Popol.Answer C}
    (hs : (reactor prof Poller.new).Reachable FewIds s) (hG : ActionPhase s label)
    (hstep : System.step prof s label = some s') :
    ∃ tr, s'.runtime.trace = s.runtime.trace ++ tr ∧ ∀ id ∈ s.runtime.poller.poll,
      (∀ action ty, .next (some action) ∈ tr → action.about ≠ some (id, ty)) →
      s'.runtime.entry id = s.runtime.entry id := by
  rcases System.core_of_step hstep with ⟨input, rfl, hturned⟩ | ⟨chan, waker, hcore⟩
  · obtain ⟨hreg, -⟩ := inOrder_of_reachable hs
    generalize s'.toThread = th' at hturned ⊢
    cases hturned with
    | actionsDone now hpc service hnext => exact ⟨_, rfl, fun id _ _ => rfl⟩
    | action now hpc action service hnext result rt hact =>
        obtain ⟨-, -, tr, htrace, -⟩ := hact.frame
        refine ⟨.next (some action) :: tr, ?_, ?_⟩
        · rw [htrace]
          exact List.append_assoc _ _ _
        · intro id hid hno
          rw [Runtime.report_entry]
          cases hregisters : action.registers with
          | true =>
              -- the new id is not among the registered ones
              have hnoted : Registry
                  ({ s.runtime with service := service }.note (.next (some action))) :=
                hreg.of_tables rfl rfl rfl (issued_concat rfl)
              obtain ⟨new, hempty, -, hother⟩ := hact.registered hnoted hregisters
              rw [hother]
              · rfl
              · rintro rfl
                have hnone : s.runtime.poller.poll.lookup id = none :=
                  congrArg Entry.source hempty
                exact AList.lookup_eq_none.mp hnone hid
          | false =>
              rw [hact.entry_ne hregisters]
              · rfl
              · rintro id' ty habout rfl
                exact hno action ty List.mem_cons_self habout
    | panicked input p hp => exact ⟨[], (List.append_nil _).symm, fun id _ _ => rfl⟩
    | _ => exact absurd (hG.2 rfl) nofun
  · have hrt : s'.runtime = { s.runtime with ctlRecv := chan, waker := waker } :=
      congrArg Thread.runtime hcore
    rw [hrt]
    exact ⟨[], (List.append_nil _).symm, fun id _ _ => rfl⟩

/-- An action phase leaves what is registered at its start, and not named, as it was. -/
theorem entry_of_steps {prof : Profile} {s s' : System H Poller L T C EL ET}
    (hs : (reactor prof Poller.new).Reachable FewIds s)
    (hrun : (reactor prof Poller.new).Steps ActionPhase s s') :
    ∃ tr, s'.runtime.trace = s.runtime.trace ++ tr ∧ ∀ id ∈ s.runtime.poller.poll,
      (∀ action ty, .next (some action) ∈ tr → action.about ≠ some (id, ty)) →
      s'.runtime.entry id = s.runtime.entry id := by
  have hboth := hrun.preserves (I := fun u => (reactor prof Poller.new).Reachable FewIds u ∧
    ∃ tr, u.runtime.trace = s.runtime.trace ++ tr ∧ ∀ id ∈ s.runtime.poller.poll,
      (∀ action ty, .next (some action) ∈ tr → action.about ≠ some (id, ty)) →
      u.runtime.entry id = s.runtime.entry id) ?_
    ⟨hs, [], (List.append_nil _).symm, fun id _ _ => rfl⟩
  · exact hboth.2
  · rintro u label u' ⟨hu, tr, htrace, hframe⟩ hG hstep
    obtain ⟨tr', htrace', hframe'⟩ := entry_of_actionPhase hu hG hstep
    refine ⟨hu.step hG.1 hstep, tr ++ tr', ?_, ?_⟩
    · rw [htrace', htrace, List.append_assoc]
    · intro id hid hno
      have hbefore := hframe id hid fun action ty hmem =>
        hno action ty (List.mem_append_left _ hmem)
      -- the id is still registered
      have hid' : id ∈ u.runtime.poller.poll := by
        obtain ⟨src, hsrc⟩ := Runtime.exists_lookup hid
        have hlook : u.runtime.poller.poll.lookup id = s.runtime.poller.poll.lookup id :=
          congrArg Entry.source hbefore
        exact mem_of_lookup (hlook.trans hsrc)
      rw [← hbefore]
      exact hframe' id hid' fun action ty hmem => hno action ty (List.mem_append_right _ hmem)

/-- **Actions touch only the resource they name.**  In every reachable state an
`Unregister` or `Send` whose id names nothing returns `Ok` and leaves the runtime as it
is, any other touches the entry of its id only, a registration fills the entry of a new
id, and a `SetTimer` changes the timers; and an action phase of any length leaves what
is registered, and not named in it, as it was. -/
theorem actions_touch_named {prof : Profile} {s : System H Poller L T C EL ET}
    (hs : (reactor prof Poller.new).Reachable FewIds s) :
    (∀ time action id ty, action.about = some (id, ty) → s.runtime.Foreign id ty →
      s.runtime.handleAction prof action time = .ok (.ok (), s.runtime)) ∧
    (∀ time action id ty result rt', action.about = some (id, ty) →
      s.runtime.handleAction prof action time = .ok (result, rt') →
      rt'.timeouts = s.runtime.timeouts ∧
        ∀ id', id' ≠ id → rt'.entry id' = s.runtime.entry id') ∧
    (∀ time action result rt', action.registers = true →
      s.runtime.handleAction prof action time = .ok (result, rt') →
      result = .ok () ∧ rt'.timeouts = s.runtime.timeouts ∧
        ∃ id, s.runtime.entry id = .empty ∧ rt'.entry id = action.registered ∧
          ∀ id', id' ≠ id → rt'.entry id' = s.runtime.entry id') ∧
    (∀ time duration result rt',
      s.runtime.handleAction prof (.setTimer duration) time = .ok (result, rt') →
      result = .ok () ∧ rt' = { s.runtime with timeouts := rt'.timeouts }) ∧
    (∀ s', (reactor prof Poller.new).Steps ActionPhase s s' →
      ∃ tr, s'.runtime.trace = s.runtime.trace ++ tr ∧ ∀ id ∈ s.runtime.poller.poll,
        (∀ action ty, .next (some action) ∈ tr → action.about ≠ some (id, ty)) →
        s'.runtime.entry id = s.runtime.entry id) := by
  obtain ⟨hreg, -⟩ := inOrder_of_reachable hs
  have howned := owned_of_reachable (freshIds_of_fewIds hs)
  refine ⟨?_, ?_, ?_, ?_, fun s' hrun => entry_of_steps hs hrun⟩
  · intro time action id ty habout hforeign
    exact Runtime.handleAction_of_ignores prof time (hforeign.ignores hreg howned habout)
  · intro time action id ty result rt' habout hact
    have hacted := Runtime.acted_of_handleAction hact
    have hno : action.registers = false := by
      cases action <;> first | rfl | cases habout
    refine ⟨hacted.timeouts_eq_of_ne ?_, fun id' hne => hacted.entry_ne hno ?_⟩
    · rintro duration rfl
      cases habout
    · intro id₁ ty₁ habout₁
      rw [habout] at habout₁
      cases habout₁
      exact hne
  · intro time action result rt' hregisters hact
    have hacted := Runtime.acted_of_handleAction hact
    refine ⟨?_, hacted.timeouts_eq_of_ne ?_, hacted.registered hreg hregisters⟩
    · cases hacted <;> first | rfl | cases hregisters
    · rintro duration rfl
      cases hregisters
  · intro time duration result rt' hact
    cases Runtime.acted_of_handleAction hact with
    | setTimer duration' timeouts hset => exact ⟨rfl, rfl⟩
    | ignored action hno => exact hno.elim

end

/-- A transport is registered, and an action yielded later names an id that is not in use. -/
theorem actions_touch_named_unused : ∃ s : Errands.Sys,
    (reactor .release Poller.new).Reachable FewIds s ∧
    s.runtime.transports.keys = [⟨1⟩] ∧ s.runtime.Foreign ⟨1⟩ .listener ∧
    s.runtime.handleAction .release (.unregisterListener ⟨1⟩) 1000 = .ok (.ok (), s.runtime) := by
  have hrun : Lts.exec (System.step .release) FewIds Errands.boot
      [.controller 0 (.wake true),
        .controller 0 (.send (.cmd (.registerTransport Errands.pipe)) true),
        .controller 0 (.wake true), .turn (.start [] []),
        .turn (.poll (.ready [Errands.wakerEvent])), .turn .event, .turn .event, .turn .command,
        .turn .command, .turn .action] = some _ := rfl
  obtain ⟨s, hs, hkeys⟩ : ∃ s : Errands.Sys,
      (reactor .release Poller.new).Reachable FewIds s ∧
      s.runtime.transports.keys = [⟨1⟩] := ⟨_, Errands.reachable_of_exec hrun, rfl⟩
  have hmem : (⟨1⟩ : ResourceId) ∈ s.runtime.transports := by
    rw [AList.mem_keys, hkeys]
    exact List.mem_singleton.mpr rfl
  have hforeign : s.runtime.Foreign ⟨1⟩ .listener := Or.inr (Or.inr (Or.inr hmem))
  exact ⟨s, hs, hkeys, hforeign, (actions_touch_named hs).1 1000 _ _ _ rfl hforeign⟩

end IoReactor
