/-
# Poll engines that are interchangeable

The reactor uses its poll engine through the `Poll` trait only.  `EngineSim Room S R` says
that two engines related by `R` do the same in every method and stay related: polls are
given answers of the system that `S` relates, the interests of a map are pushed in any order
of its keys, and a registration needs `Room`.  Systems on such engines that are `Alike`,
with the same entries in their maps and equal in all other parts, then take the same steps,
whatever the iteration orders, and stay alike (`Alike.step`).
-/
import IoReactor.Agreement
import IoReactor.Batches

namespace IoReactor

variable {H P Q A B L T C EL ET : Type}

/-! ## Maps with the same entries -/

/-- The maps have the same entries. -/
def SameMap {V : Type} (map map' : HashMap ResourceId V) : Prop :=
  ∀ id, map.lookup id = map'.lookup id

namespace SameMap

variable {V : Type} {map map' : HashMap ResourceId V}

/-- Maps with the same entries have the same keys. -/
theorem mem_iff (h : SameMap map map') {id : ResourceId} : id ∈ map ↔ id ∈ map' := by
  rw [← AList.lookup_isSome, ← AList.lookup_isSome, h id]

/-- Maps with the same entries keep them when an entry is added or replaced. -/
theorem insert (h : SameMap map map') (id : ResourceId) (v : V) :
    SameMap (map.insert id v) (map'.insert id v) := by
  intro id'
  by_cases hid : id' = id
  · rw [hid, AList.lookup_insert, AList.lookup_insert]
  · rw [AList.lookup_insert_ne hid, AList.lookup_insert_ne hid, h id']

/-- Maps with the same entries keep them when an entry is removed. -/
theorem erase (h : SameMap map map') (id : ResourceId) :
    SameMap (map.erase id) (map'.erase id) := by
  intro id'
  by_cases hid : id' = id
  · rw [hid, AList.lookup_erase, AList.lookup_erase]
  · rw [AList.lookup_erase_ne hid, AList.lookup_erase_ne hid, h id']

/-- Maps with the same entries have the same keys, up to their order. -/
theorem keys_perm (h : SameMap map map') : map.keys.Perm map'.keys :=
  (List.perm_ext_iff_of_nodup map.nodupKeys map'.nodupKeys).mpr fun _ => h.mem_iff

end SameMap

/-! ## Engines that simulate each other -/

/-- Engines that `R` relates do the same in every method and stay related. -/
structure EngineSim [Poll P A] [Poll Q B] (Room : P → Prop) (S : A → B → Prop)
    (R : P → Q → Prop) : Prop where
  register : ∀ {p q}, R p q → Room p → ∀ prof fd io,
    Except.Agree (fun a b => a.1 = b.1 ∧ R a.2 b.2) (Poll.register prof p fd io)
      (Poll.register prof q fd io)
  unregister : ∀ {p q}, R p q → ∀ id, R (Poll.unregister p id) (Poll.unregister q id)
  /-- the interests of all resources of a map are pushed, in any order -/
  setInterests : ∀ {V E : Type} [Resource V E] {map map' : HashMap ResourceId V} {p q ids ids'},
    SameMap map map' → R p q → ids.Perm map.keys → ids'.Perm map'.keys →
      R (Runtime.setInterests map p ids) (Runtime.setInterests map' q ids')
  poll : ∀ {p q}, R p q → ∀ timeout {answer answer'}, S answer answer' →
    (Poll.poll p timeout answer).1 = (Poll.poll q timeout answer').1 ∧
      R (Poll.poll p timeout answer).2 (Poll.poll q timeout answer').2
  next : ∀ {p q}, R p q →
    Option.Rel (fun a b => a.1 = b.1 ∧ R a.2 b.2) (Poll.next p) (Poll.next q)

/-! ## Runtimes and systems that are alike -/

/-- The runtimes have related engines and the same entries in their maps, and are equal in
everything else. -/
structure Runtime.Alike (R : P → Q → Prop) (rt : Runtime H P L T C EL ET)
    (rt' : Runtime H Q L T C EL ET) : Prop where
  service : rt.service = rt'.service
  poller : R rt.poller rt'.poller
  ctlRecv : rt.ctlRecv = rt'.ctlRecv
  listeners : SameMap rt.listeners rt'.listeners
  transports : SameMap rt.transports rt'.transports
  waker : rt.waker = rt'.waker
  timeouts : rt.timeouts = rt'.timeouts
  trace : rt.trace = rt'.trace

/-- The threads are at the same point, with runtimes that are alike. -/
structure Thread.Alike (R : P → Q → Prop) (th : Thread H P L T C EL ET)
    (th' : Thread H Q L T C EL ET) : Prop where
  pc : th.pc = th'.pc
  runtime : th.runtime.Alike R th'.runtime

/-- The systems have threads that are alike, and are equal in everything else. -/
structure System.Alike (R : P → Q → Prop) (s : System H P L T C EL ET)
    (t : System H Q L T C EL ET) : Prop where
  thread : s.toThread.Alike R t.toThread
  clock : s.clock = t.clock
  controllers : s.controllers = t.controllers
  sent : s.sent = t.sent
  returned : s.returned = t.returned

/-- A system is like itself. -/
theorem System.Alike.refl {R : P → P → Prop} (hR : ∀ p, R p p) (s : System H P L T C EL ET) :
    s.Alike R s :=
  ⟨⟨rfl, rfl, hR _, rfl, fun _ => rfl, fun _ => rfl, rfl, rfl, rfl⟩, rfl, rfl, rfl, rfl⟩

/-- The inputs are equal, but for the iteration orders and for answers that `S` relates. -/
inductive Input.SameBut (S : A → B → Prop) : Input A → Input B → Prop
  | start {ls ts ls' ts' : List ResourceId} (hls : ls.Perm ls') (hts : ts.Perm ts') :
      SameBut S (.start ls ts) (.start ls' ts')
  | poll {answer : A} {answer' : B} (h : S answer answer') :
      SameBut S (.poll answer) (.poll answer')
  | event : SameBut S .event .event
  | command : SameBut S .command .command
  | action : SameBut S .action .action
  | exit : SameBut S .exit .exit

/-- The labels are equal, but for the iteration orders and for answers that `S` relates. -/
inductive Label.SameBut (S : A → B → Prop) : Label A C → Label B C → Prop
  | clock (reading : SystemTime) : SameBut S (.clock reading) (.clock reading)
  | breakWaker (broken : Bool) : SameBut S (.breakWaker broken) (.breakWaker broken)
  | controller (i : ℕ) (move : Move C) : SameBut S (.controller i move) (.controller i move)
  | turn {input : Input A} {input' : Input B} (h : input.SameBut S input') :
      SameBut S (.turn input) (.turn input')

/-- A label is the same as itself. -/
theorem Label.SameBut.refl {S : A → A → Prop} (hS : ∀ answer, S answer answer)
    (label : Label A C) : label.SameBut S label := by
  cases label with
  | clock reading => exact .clock reading
  | breakWaker broken => exact .breakWaker broken
  | controller i move => exact .controller i move
  | turn input =>
      cases input with
      | start ls ts => exact .turn (.start (.refl ls) (.refl ts))
      | poll answer => exact .turn (.poll (hS answer))
      | event => exact .turn .event
      | command => exact .turn .command
      | action => exact .turn .action
      | exit => exact .turn .exit

namespace Runtime

variable {Room : P → Prop} {S : A → B → Prop} {R : P → Q → Prop}
variable {rt : Runtime H P L T C EL ET} {rt' : Runtime H Q L T C EL ET}

/-! ## Callbacks, notes and the maps -/

/-- Runtimes stay alike when an entry is added to the trace. -/
theorem Alike.note (h : rt.Alike R rt') (obs : Observation L T C EL ET) :
    (rt.note obs).Alike R (rt'.note obs) :=
  { h with trace := congrArg (· ++ [obs]) h.trace }

/-- Runtimes stay alike when the service changes. -/
theorem Alike.withService (h : rt.Alike R rt') (service : H) :
    Alike R { rt with service := service } { rt' with service := service } :=
  { h with service := rfl }

/-- Runtimes stay alike when the timer changes. -/
theorem Alike.withTimeouts (h : rt.Alike R rt') (timeouts : Timer) :
    Alike R { rt with timeouts := timeouts } { rt' with timeouts := timeouts } :=
  { h with timeouts := rfl }

/-- Runtimes stay alike when a listener is put into the map. -/
theorem Alike.insertListener (h : rt.Alike R rt') (id : ResourceId) (listener : L) :
    Alike R { rt with listeners := rt.listeners.insert id listener }
      { rt' with listeners := rt'.listeners.insert id listener } :=
  { h with listeners := h.listeners.insert id listener }

/-- Runtimes stay alike when a transport is put into the map. -/
theorem Alike.insertTransport (h : rt.Alike R rt') (id : ResourceId) (transport : T) :
    Alike R { rt with transports := rt.transports.insert id transport }
      { rt' with transports := rt'.transports.insert id transport } :=
  { h with transports := h.transports.insert id transport }

section

variable [Poll P A] [Poll Q B]

/-- Runtimes stay alike when a listener is taken out. -/
theorem Alike.dropListener (h : rt.Alike R rt') (hsim : EngineSim Room S R) (id : ResourceId) :
    (rt.dropListener id).Alike R (rt'.dropListener id) :=
  { h with
    listeners := h.listeners.erase id
    poller := hsim.unregister h.poller id }

/-- Runtimes stay alike when a transport is taken out. -/
theorem Alike.dropTransport (h : rt.Alike R rt') (hsim : EngineSim Room S R) (id : ResourceId) :
    (rt.dropTransport id).Alike R (rt'.dropTransport id) :=
  { h with
    transports := h.transports.erase id
    poller := hsim.unregister h.poller id }

/-- Unregistering a listener has the same outcome on runtimes that are alike. -/
theorem Alike.unregisterListener (h : rt.Alike R rt') (hsim : EngineSim Room S R)
    (id : ResourceId) :
    ∃ res ra rb, rt.unregisterListener id = (res, ra) ∧ rt'.unregisterListener id = (res, rb) ∧
      Alike R ra rb := by
  unfold Runtime.unregisterListener takeResource
  rw [← h.listeners id]
  cases rt.listeners.lookup id with
  | none => exact ⟨none, rt, rt', rfl, rfl, h⟩
  | some listener => exact ⟨some listener, _, _, rfl, rfl, h.dropListener hsim id⟩

/-- Unregistering a transport has the same outcome on runtimes that are alike. -/
theorem Alike.unregisterTransport (h : rt.Alike R rt') (hsim : EngineSim Room S R)
    (id : ResourceId) :
    ∃ res ra rb, rt.unregisterTransport id = (res, ra) ∧ rt'.unregisterTransport id = (res, rb) ∧
      Alike R ra rb := by
  unfold Runtime.unregisterTransport takeResource
  rw [← h.transports id]
  cases rt.transports.lookup id with
  | none => exact ⟨none, rt, rt', rfl, rfl, h⟩
  | some transport => exact ⟨some transport, _, _, rfl, rfl, h.dropTransport hsim id⟩

/-- The way to the poll has the same outcome on runtimes that are alike, whatever the
iteration orders of the maps. -/
theorem Alike.beforePoll [Resource L EL] [Resource T ET] (h : rt.Alike R rt')
    (hsim : EngineSim Room S R) (prof : Profile) (clock : SystemTime)
    {ls ts ls' ts' : List ResourceId}
    (hls : ls.Perm rt.listeners.keys) (hts : ts.Perm rt.transports.keys)
    (hls' : ls'.Perm rt'.listeners.keys) (hts' : ts'.Perm rt'.transports.keys) :
    Except.Agree (fun a b => a.1 = b.1 ∧ a.2.Alike R b.2) (rt.beforePoll prof clock ls ts)
      (rt'.beforePoll prof clock ls' ts') := by
  unfold Runtime.beforePoll
  refine Except.Agree.bind (Except.Agree.refl (fun _ => rfl) _) ?_
  rintro time _ rfl
  simp only [h.timeouts]
  refine Except.Agree.bind (Except.Agree.refl (fun _ => rfl) _) ?_
  rintro expiring _ rfl
  have hfirst := hsim.setInterests h.listeners h.poller hls hls'
  exact .ok ⟨rfl, { h with
    poller := hsim.setInterests h.transports hfirst hts hts'
    timeouts := rfl }⟩

variable [Handler H L T C EL ET]

omit [Poll P A] [Poll Q B] in
/-- Runtimes stay alike when the service is called back. -/
theorem Alike.call (h : rt.Alike R rt') (c : Call L T C EL ET) :
    (rt.call c).Alike R (rt'.call c) := by
  have hservice : Handler.react rt.service c = Handler.react rt'.service c := by
    rw [h.service]
  unfold Runtime.call
  rw [hservice]
  exact (h.withService _).note _

/-! ## Events -/

omit [Poll P A] [Poll Q B] in
/-- Runtimes stay alike when the I/O flags of a listener are handled. -/
theorem Alike.listenerIo [Resource L EL] (h : rt.Alike R rt') (id : ResourceId) (listener : L)
    (io : IoType) (time : ℕ) :
    (rt.listenerIo id listener io time).Alike R (rt'.listenerIo id listener io time) := by
  unfold Runtime.listenerIo
  simp only [ioLoop_eq, ioLoop_snd, h.service, h.trace]
  exact { h with
    service := rfl
    trace := rfl
    listeners := h.listeners.insert id _ }

omit [Poll P A] [Poll Q B] in
/-- Runtimes stay alike when the I/O flags of a transport are handled. -/
theorem Alike.transportIo [Resource T ET] (h : rt.Alike R rt') (id : ResourceId) (transport : T)
    (io : IoType) (time : ℕ) :
    (rt.transportIo id transport io time).Alike R (rt'.transportIo id transport io time) := by
  unfold Runtime.transportIo
  simp only [ioLoop_eq, ioLoop_snd, h.service, h.trace]
  exact { h with
    service := rfl
    trace := rfl
    transports := h.transports.insert id _ }

variable [Resource L EL] [Resource T ET]

/-- An event has the same outcome on runtimes that are alike. -/
theorem Alike.handleEvent (h : rt.Alike R rt') (hsim : EngineSim Room S R) (id : ResourceId)
    (res : Except IoFail IoType) (time : ℕ) :
    Except.Agree (fun a b => a.1 = b.1 ∧ a.2.Alike R b.2) (rt.handleEvent id res time)
      (rt'.handleEvent id res time) := by
  unfold Runtime.handleEvent
  by_cases hid : id = .WAKER
  · rw [if_pos hid, if_pos hid]
    cases res with
    | error err => exact .error _
    | ok io =>
        simp only [h.waker]
        refine Except.Agree.bind (Except.Agree.refl (fun _ => rfl) _) fun waker waker' hwaker => ?_
        rw [hwaker]
        exact .ok ⟨rfl, { h with waker := rfl }⟩
  rw [if_neg hid, if_neg hid]
  by_cases hl : id ∈ rt.listeners
  · obtain ⟨listener, hlook⟩ := exists_lookup hl
    have hlook' : rt'.listeners.lookup id = some listener := (h.listeners id).symm.trans hlook
    rw [if_pos hl, if_pos (h.listeners.mem_iff.mp hl)]
    cases res with
    | ok io =>
        simp only [hlook, hlook', IoType.flags_eq_toList]
        exact .ok ⟨rfl, h.listenerIo id listener io time⟩
    | error err =>
        simp only [unregisterListener_of_lookup hlook, unregisterListener_of_lookup hlook']
        exact .ok ⟨rfl, (h.dropListener hsim id).call _⟩
  rw [if_neg hl, if_neg fun hl' => hl (h.listeners.mem_iff.mpr hl')]
  by_cases ht : id ∈ rt.transports
  · obtain ⟨transport, hlook⟩ := exists_lookup ht
    have hlook' : rt'.transports.lookup id = some transport := (h.transports id).symm.trans hlook
    rw [if_pos ht, if_pos (h.transports.mem_iff.mp ht)]
    cases res with
    | ok io =>
        simp only [hlook, hlook', IoType.flags_eq_toList]
        exact .ok ⟨rfl, h.transportIo id transport io time⟩
    | error err =>
        simp only [unregisterTransport_of_lookup hlook, unregisterTransport_of_lookup hlook']
        exact .ok ⟨rfl, (h.dropTransport hsim id).call _⟩
  · rw [if_neg ht, if_neg fun ht' => ht (h.transports.mem_iff.mpr ht')]
    exact .error _

/-! ## Actions -/

/-- An action has the same outcome on runtimes that are alike. -/
theorem Alike.handleAction (h : rt.Alike R rt') (hsim : EngineSim Room S R) (prof : Profile)
    {action : Action L T} (hroom : action.registers = true → Room rt.poller) (time : ℕ) :
    Except.Agree (fun a b => a.1 = b.1 ∧ a.2.Alike R b.2) (rt.handleAction prof action time)
      (rt'.handleAction prof action time) := by
  cases action with
  | registerListener listener =>
      refine Except.Agree.bind (hsim.register h.poller (hroom rfl) prof _ _) ?_
      rintro ⟨id, poller⟩ ⟨_, poller'⟩ ⟨rfl, hpoller⟩
      have halike : Alike R { rt with poller := poller } { rt' with poller := poller' } :=
        { h with poller := hpoller }
      exact .ok ⟨rfl, (halike.insertListener id listener).call _⟩
  | registerTransport transport =>
      refine Except.Agree.bind (hsim.register h.poller (hroom rfl) prof _ _) ?_
      rintro ⟨id, poller⟩ ⟨_, poller'⟩ ⟨rfl, hpoller⟩
      have halike : Alike R { rt with poller := poller } { rt' with poller := poller' } :=
        { h with poller := hpoller }
      exact .ok ⟨rfl, (halike.insertTransport id transport).call _⟩
  | unregisterListener id =>
      obtain ⟨res, ra, rb, hra, hrb, halike⟩ := h.unregisterListener hsim id
      simp only [Runtime.handleAction, hra, hrb]
      cases res with
      | none => exact .ok ⟨rfl, halike⟩
      | some listener => exact .ok ⟨rfl, halike.call _⟩
  | unregisterTransport id =>
      obtain ⟨res, ra, rb, hra, hrb, halike⟩ := h.unregisterTransport hsim id
      simp only [Runtime.handleAction, hra, hrb]
      cases res with
      | none => exact .ok ⟨rfl, halike⟩
      | some transport => exact .ok ⟨rfl, halike.call _⟩
  | send id data =>
      simp only [Runtime.handleAction]
      rw [← h.transports id]
      cases rt.transports.lookup id with
      | none => exact .ok ⟨rfl, h⟩
      | some transport =>
          refine Except.Agree.bind (Except.Agree.refl (fun _ => rfl) _) ?_
          rintro ⟨result, transport'⟩ _ rfl
          have halike := (h.insertTransport id transport').note (.writeAtomic id data result)
          cases result with
          | ok u => exact .ok ⟨rfl, halike⟩
          | error werr =>
              cases werr with
              | notReady => exact .error _
              | io err =>
                  obtain ⟨res, ra, rb, hra, hrb, halike'⟩ := halike.unregisterTransport hsim id
                  simp only [hra, hrb]
                  cases res with
                  | none => exact .ok ⟨rfl, halike'⟩
                  | some transport => exact .ok ⟨rfl, halike'⟩
  | setTimer duration =>
      simp only [Runtime.handleAction, h.timeouts]
      refine Except.Agree.bind (Except.Agree.refl (fun _ => rfl) _) ?_
      rintro timeouts _ rfl
      exact .ok ⟨rfl, h.withTimeouts timeouts⟩

/-- A turn of the loop of `handle_actions` has the same outcome on runtimes that are alike. -/
theorem Alike.handleNext (h : rt.Alike R rt') (hsim : EngineSim Room S R) (prof : Profile)
    (hroom : (Handler.next rt.service).1.any Action.registers = true → Room rt.poller)
    (time : ℕ) :
    Except.Agree (fun a b => a.1 = b.1 ∧ a.2.Alike R b.2) (rt.handleNext prof time)
      (rt'.handleNext prof time) := by
  unfold Runtime.handleNext
  rw [← h.service]
  generalize Handler.next rt.service = out at hroom ⊢
  cases out with
  | mk answer service =>
      cases answer with
      | none => exact .ok ⟨rfl, (h.withService service).note _⟩
      | some action =>
          have halike := (h.withService service).note (.next (some action))
          refine Except.Agree.bind (halike.handleAction hsim prof hroom time) ?_
          rintro ⟨result, ra⟩ ⟨_, rb⟩ ⟨rfl, halike'⟩
          cases result with
          | ok u => exact .ok ⟨rfl, halike'⟩
          | error err => exact .ok ⟨rfl, halike'.call _⟩

/-! ## Around the poll and in the command loop -/

omit [Resource L EL] [Resource T ET] in
/-- The poll has the same outcome on runtimes that are alike. -/
theorem Alike.afterPoll (h : rt.Alike R rt') (hsim : EngineSim Room S R) (prof : Profile)
    (clock : SystemTime) (timeout : Duration) {answer : A} {answer' : B}
    (hanswer : S answer answer') :
    Except.Agree (fun a b => a.1 = b.1 ∧ a.2.Alike R b.2)
      (rt.afterPoll prof clock timeout answer) (rt'.afterPoll prof clock timeout answer') := by
  obtain ⟨hres, hpoller⟩ := hsim.poll h.poller (some timeout) hanswer
  unfold Runtime.afterPoll
  generalize Poll.poll rt.poller (some timeout) answer = out at hres hpoller ⊢
  generalize Poll.poll rt'.poller (some timeout) answer' = out' at hres hpoller ⊢
  obtain ⟨res, poller⟩ := out
  obtain ⟨_, poller'⟩ := out'
  cases hres
  have halike : Alike R { rt with poller := poller } { rt' with poller := poller' } :=
    { h with poller := hpoller }
  refine Except.Agree.bind (Except.Agree.refl (fun _ => rfl) _) ?_
  rintro now _ rfl
  have hticked := halike.call (.tick now)
  rw [show rt'.timeouts = rt.timeouts from h.timeouts.symm]
  refine Except.Agree.bind (Except.Agree.refl (fun _ => rfl) _) ?_
  rintro ⟨fired, timeouts⟩ _ rfl
  have hreset := hticked.withTimeouts timeouts
  by_cases hfired : 0 < fired
  · simp only [if_pos hfired]
    cases res with
    | ok n => exact .ok ⟨rfl, hreset.call _⟩
    | error err => exact .ok ⟨rfl, (hreset.call _).call _⟩
  · simp only [if_neg hfired]
    cases res with
    | ok n => exact .ok ⟨rfl, hreset⟩
    | error err => exact .ok ⟨rfl, hreset.call _⟩

omit [Resource L EL] [Resource T ET] [Poll P A] [Poll Q B] in
/-- A turn of the command loop has the same outcome on runtimes that are alike. -/
theorem Alike.receive (h : rt.Alike R rt') :
    Except.Agree (fun a b => a.1 = b.1 ∧ a.2.Alike R b.2) rt.receive rt'.receive := by
  unfold Runtime.receive
  rw [← h.ctlRecv]
  cases rt.ctlRecv.tryRecv with
  | error err =>
      cases err with
      | empty => exact .ok ⟨rfl, h⟩
      | disconnected => exact .error _
  | ok out =>
      obtain ⟨msg, chan⟩ := out
      have halike : Alike R { rt with ctlRecv := chan } { rt' with ctlRecv := chan } :=
        { h with ctlRecv := rfl }
      cases msg with
      | shutdown => exact .ok ⟨rfl, halike⟩
      | cmd c => exact .ok ⟨rfl, halike.call _⟩

end

end Runtime

/-! ## Turns -/

namespace Thread

variable {Room : P → Prop} {S : A → B → Prop} {R : P → Q → Prop}
variable {th : Thread H P L T C EL ET} {th' : Thread H Q L T C EL ET}

/-- Threads stay alike when they go on with computations that agree. -/
theorem Alike.resume (h : th.Alike R th')
    {x : Except Panic (Pc × Runtime H P L T C EL ET)}
    {y : Except Panic (Pc × Runtime H Q L T C EL ET)}
    (hxy : Except.Agree (fun a b => a.1 = b.1 ∧ a.2.Alike R b.2) x y) :
    (th.resume x).Alike R (th'.resume y) := by
  cases hxy with
  | ok h => exact ⟨h.1, h.2⟩
  | error p =>
      refine ⟨rfl, { h.runtime with ctlRecv := ?_ }⟩
      exact congrArg Channel.close h.runtime.ctlRecv

/-- Threads go the same way when a computation with the same outcome advances them. -/
theorem Alike.advance (h : th.Alike R th') {α : Type}
    {x : Except Panic (α × Runtime H P L T C EL ET)}
    {y : Except Panic (α × Runtime H Q L T C EL ET)}
    (hxy : Except.Agree (fun a b => a.1 = b.1 ∧ a.2.Alike R b.2) x y) (goes : α → Pc) :
    (th.resume (x >>= fun a => pure (goes a.1, a.2))).Alike R
      (th'.resume (y >>= fun b => pure (goes b.1, b.2))) := by
  refine h.resume (Except.Agree.bind hxy ?_)
  rintro ⟨outcome, ra⟩ ⟨_, rb⟩ ⟨rfl, halike⟩
  exact .ok ⟨rfl, halike⟩

variable [Handler H L T C EL ET] [Resource L EL] [Resource T ET] [Poll P A] [Poll Q B]

/-- Threads go the same way to the poll, whatever the iteration orders. -/
theorem Alike.turn_start (h : th.Alike R th') (hsim : EngineSim Room S R) (prof : Profile)
    (clock : SystemTime) {ls ts ls' ts' : List ResourceId} (hls : ls.Perm ls')
    (hts : ts.Perm ts') :
    Option.Rel (Alike R) (th.turn prof clock (.start ls ts))
      (th'.turn prof clock (.start ls' ts')) := by
  simp only [turn, ← h.pc]
  -- the orders fit the maps of both threads, or of neither
  have hlisteners := h.runtime.listeners.keys_perm
  have htransports := h.runtime.transports.keys_perm
  have hiff : (ls.Perm th.runtime.listeners.keys ∧ ts.Perm th.runtime.transports.keys) ↔
      (ls'.Perm th'.runtime.listeners.keys ∧ ts'.Perm th'.runtime.transports.keys) :=
    ⟨fun hperm => ⟨(hls.symm.trans hperm.1).trans hlisteners,
      (hts.symm.trans hperm.2).trans htransports⟩,
      fun hperm => ⟨(hls.trans hperm.1).trans hlisteners.symm,
        (hts.trans hperm.2).trans htransports.symm⟩⟩
  cases th.pc with
  | start =>
      by_cases hperm : ls.Perm th.runtime.listeners.keys ∧ ts.Perm th.runtime.transports.keys
      · have hperm' := hiff.mp hperm
        simp only [if_pos hperm, if_pos hperm']
        have hbefore := h.runtime.beforePoll hsim prof clock hperm.1 hperm.2 hperm'.1 hperm'.2
        exact .some (h.advance hbefore .poll)
      · simp only [if_neg hperm, if_neg fun hperm' => hperm (hiff.mpr hperm')]
        exact .none
  | _ => exact .none

/-- Threads that are alike take the same turns, whatever the iteration orders, and stay
alike. -/
theorem Alike.turn (h : th.Alike R th') (hsim : EngineSim Room S R) (prof : Profile)
    (clock : SystemTime) {input : Input A} {input' : Input B} (hin : input.SameBut S input')
    (hroom : input = .action →
      (Handler.next th.runtime.service).1.any Action.registers = true → Room th.runtime.poller) :
    Option.Rel (Alike R) (th.turn prof clock input) (th'.turn prof clock input') := by
  cases hin with
  | start hls hts => exact h.turn_start hsim prof clock hls hts
  | poll hanswer =>
      simp only [Thread.turn, ← h.pc]
      cases th.pc with
      | poll timeout =>
          have hafter := h.runtime.afterPoll hsim prof clock timeout hanswer
          exact .some (h.advance hafter fun now => .events now false)
      | _ => exact .none
  | event =>
      simp only [Thread.turn, ← h.pc]
      cases th.pc with
      | events now awoken =>
          have hnext := hsim.next h.runtime.poller
          simp only
          generalize Poll.next th.runtime.poller = x, Poll.next th'.runtime.poller = y
            at hnext ⊢
          cases hnext with
          | none => exact .some ⟨rfl, h.runtime⟩
          | @some a b hab =>
              obtain ⟨⟨id, res⟩, poller⟩ := a
              obtain ⟨_, poller'⟩ := b
              obtain ⟨rfl, hpoller⟩ := hab
              have halike : Runtime.Alike R { th.runtime with poller := poller }
                  { th'.runtime with poller := poller' } :=
                { h.runtime with poller := hpoller }
              have hhandled := halike.handleEvent hsim id res now
              exact .some (h.advance hhandled fun woken => .events now (awoken || woken))
      | _ => exact .none
  | command =>
      simp only [Thread.turn, ← h.pc]
      cases th.pc with
      | commands now =>
          exact .some (h.advance h.runtime.receive (afterCommand now))
      | _ => exact .none
  | action =>
      simp only [Thread.turn, ← h.pc]
      cases th.pc with
      | actions now =>
          have hnext := h.runtime.handleNext hsim prof (hroom rfl) now
          exact .some (h.advance hnext fun more => if more then .actions now else .start)
      | _ => exact .none
  | exit =>
      simp only [Thread.turn, ← h.pc]
      cases th.pc with
      | shutdown =>
          refine .some ⟨rfl, { h.runtime with ctlRecv := ?_ }⟩
          exact congrArg Channel.close h.runtime.ctlRecv
      | _ => exact .none

end Thread

/-! ## Steps of the system -/

namespace System

variable {Room : P → Prop} {S : A → B → Prop} {R : P → Q → Prop}
variable {s : System H P L T C EL ET} {t : System H Q L T C EL ET}

/-- Systems that are alike have the same channel. -/
theorem Alike.channel (h : s.Alike R t) : s.channel = t.channel := h.thread.runtime.ctlRecv

/-- Systems stay alike when the channel changes. -/
theorem Alike.setChannel (h : s.Alike R t) (chan : Channel C) :
    (s.setChannel chan).Alike R (t.setChannel chan) :=
  { h with thread := ⟨h.thread.pc, { h.thread.runtime with ctlRecv := rfl }⟩ }

/-- Systems stay alike when the waker changes. -/
theorem Alike.setWaker (h : s.Alike R t) (waker : Waker) :
    (s.setWaker waker).Alike R (t.setWaker waker) :=
  { h with thread := ⟨h.thread.pc, { h.thread.runtime with waker := rfl }⟩ }

/-- Systems stay alike when a clone changes. -/
theorem Alike.setController (h : s.Alike R t) (i : ℕ) (ctl : Controller C) :
    (s.setController i ctl).Alike R (t.setController i ctl) :=
  { h with controllers := congrArg (fun cs => List.set cs i ctl) h.controllers }

/-- Systems stay alike when a call returns. -/
theorem Alike.record (h : s.Alike R t) (ret : Return C) :
    (s.record ret).Alike R (t.record ret) :=
  { h with returned := congrArg (· ++ [ret]) h.returned }

/-- Systems stay alike when a sender is released. -/
theorem Alike.release (h : s.Alike R t) (ctl : Controller C) :
    (s.release ctl).Alike R (t.release ctl) := by
  rw [release_eq, release_eq, h.channel]
  exact h.setChannel _

/-- Systems that are alike send alike. -/
theorem Alike.sendStep (h : s.Alike R t) (i : ℕ) (op : Op C) (ok : Bool) :
    Option.Rel (Alike R) (s.sendStep i op ok) (t.sendStep i op ok) := by
  unfold System.sendStep
  cases op.message with
  | none => exact .none
  | some msg =>
      cases ok with
      | true =>
          simp only [if_true, ← h.channel, ← h.sent]
          by_cases hrecv : s.channel.receiver = true
          · simp only [if_pos hrecv]
            exact .some { (h.setChannel (s.channel.push msg)).setController i
              (.waking op (some s.sent.length)) with sent := rfl }
          · simp only [if_neg hrecv]
            exact .none
      | false =>
          simp only [Bool.false_eq_true, if_false]
          cases op with
          | shutdown => exact .some (h.setController _ _)
          | _ => exact .some (h.record _)

/-- Systems that are alike wake alike. -/
theorem Alike.wakeStep (h : s.Alike R t) (i : ℕ) (op : Op C) (slot : Option ℕ) (ok : Bool) :
    (s.wakeStep i op slot ok).Alike R (t.wakeStep i op slot ok) := by
  unfold System.wakeStep
  cases ok with
  | true =>
      simp only [if_true, h.thread.runtime.waker]
      exact (((h.setWaker _).record _).setController _ _).release _
  | false =>
      simp only [Bool.false_eq_true, if_false]
      exact ((h.record _).setController _ _).release _

/-- The controllers of systems that are alike move alike. -/
theorem Alike.controllerStep (h : s.Alike R t) (i : ℕ) (move : Move C) :
    Option.Rel (Alike R) (s.controllerStep i move) (t.controllerStep i move) := by
  -- a clone is idle, waking or dropped in both systems
  cases move with
  | clone =>
      simp only [System.controllerStep, ← h.controllers, ← h.channel]
      split
      · exact .some { h.setChannel { s.channel with senders := s.channel.senders + 1 } with
          controllers := rfl }
      · exact .none
  | drop =>
      simp only [System.controllerStep, ← h.controllers]
      split
      · exact .some ((h.setController _ _).release _)
      · exact .none
  | send op ok =>
      simp only [System.controllerStep, ← h.controllers]
      split
      · exact h.sendStep i op ok
      · exact .none
  | wake ok =>
      simp only [System.controllerStep, ← h.controllers]
      split
      · exact .some (h.wakeStep i _ _ ok)
      · exact .none

section

variable [Handler H L T C EL ET] [Resource L EL] [Resource T ET] [Poll P A] [Poll Q B]

/-- A turn that registers a resource finds room for it in the engine. -/
abbrev HasRoom (Room : P → Prop) : System H P L T C EL ET → Label A C → Prop :=
  Lts.demand Label.atAction fun s _ =>
    (Handler.next s.runtime.service).1.any Action.registers = true → Room s.runtime.poller

/-- A turn of the threads of systems that are alike. -/
theorem Alike.turn (h : s.Alike R t) (hsim : EngineSim Room S R) (prof : Profile)
    {input : Input A} {input' : Input B} (hin : input.SameBut S input')
    (hroom : HasRoom Room s (.turn input)) :
    Option.Rel (Alike R) (s.step prof (.turn input)) (t.step prof (.turn input')) := by
  have hturn := h.thread.turn hsim prof s.clock hin (by rintro rfl; exact hroom)
  simp only [System.step, ← h.clock]
  generalize s.toThread.turn prof s.clock input = x, t.toThread.turn prof s.clock input' = y
    at hturn ⊢
  cases hturn with
  | none => exact .none
  | some hthread => exact .some { h with thread := hthread, clock := rfl }

/-- Systems that are alike take the same steps, whatever the iteration orders, and stay
alike. -/
theorem Alike.step (h : s.Alike R t) (hsim : EngineSim Room S R) (prof : Profile)
    {label : Label A C} {label' : Label B C} (hlabel : label.SameBut S label')
    (hroom : HasRoom Room s label) :
    Option.Rel (Alike R) (s.step prof label) (t.step prof label') := by
  cases hlabel with
  | clock reading => exact .some { h with clock := rfl }
  | breakWaker broken =>
      simp only [System.step, ← h.thread.runtime.waker]
      exact .some (h.setWaker _)
  | controller i move => exact h.controllerStep i move
  | turn hin => exact h.turn hsim prof hin hroom

end

end System

end IoReactor
