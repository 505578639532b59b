/-
# What the resources are polled for

Before each poll the reactor pushes the interests of all resources to the poll engine, one
key at a time: the bits that are not wanted are cleared and then the others are set.
Whatever the source was polled for before, and in whatever order the keys come, each
resource ends with exactly its interests (`lookup_setInterests`), so `Subscribed` holds at
every poll.  An iteration then hands a resource only flags it was subscribed for.
-/
import IoReactor.Batches

namespace IoReactor

variable {H L T C EL ET : Type}

/-! ## One push -/

/-- The mask of some flags has the same bits. -/
theorem IoType.toInterest_eq (io : IoType) : io.toInterest = ⟨io.read, io.write⟩ := by
  obtain ⟨read, write⟩ := io
  cases read <;> cases write <;> rfl

/-- Clearing the unwanted bits and setting the wanted ones leaves exactly the wanted ones. -/
theorem Popol.Interest.union_diff_not (interest : Popol.Interest) (io : IoType) :
    (interest.diff io.not.toInterest).union io.toInterest = io.toInterest := by
  rw [IoType.toInterest_eq, IoType.toInterest_eq]
  obtain ⟨r, w⟩ := interest
  obtain ⟨read, write⟩ := io
  cases read <;> cases write <;> simp [diff, union, IoType.not]

/-- A change of the interest of a key is seen under that key only. -/
theorem Popol.Sources.lookup_modify (sources : Popol.Sources) (key key' : ResourceId)
    (f : Popol.Interest → Popol.Interest) :
    (sources.modify key f).2.lookup key' = if key' = key
      then (sources.lookup key').map fun src => { src with interest := f src.interest }
      else sources.lookup key' := by
  unfold modify
  cases hlook : sources.lookup key with
  | none =>
      by_cases hkey : key' = key
      · rw [if_pos hkey, hkey, hlook]
        rfl
      · rw [if_neg hkey]
  | some src =>
      by_cases hkey : key' = key
      · rw [if_pos hkey, hkey, hlook]
        exact AList.lookup_insert _
      · rw [if_neg hkey]
        exact AList.lookup_insert_ne hkey

/-- After `set_interest` a known key is polled for exactly the flags given. -/
theorem Poller.lookup_setInterest (self : Poller) (id id' : ResourceId) (io : IoType) :
    (Poll.setInterest self id io).2.poll.lookup id' = if id' = id
      then (self.poll.lookup id').map fun src => { src with interest := io.toInterest }
      else self.poll.lookup id' := by
  show ((Popol.Sources.unset self.poll id io.not.toInterest).2.modify id
    fun interest => interest.union io.toInterest).2.lookup id' = _
  rw [Popol.Sources.lookup_modify, Popol.Sources.unset, Popol.Sources.lookup_modify]
  by_cases hid : id' = id
  · rw [if_pos hid, if_pos hid, if_pos hid, Option.map_map]
    congr 1
    funext src
    simp only [Function.comp]
    rw [Popol.Interest.union_diff_not]
  · rw [if_neg hid, if_neg hid, if_neg hid]

/-! ## All pushes -/

/-- The source of a key that is polled for the interests of the resource `res`. -/
def subscribe {R E : Type} [Resource R E] (res : R) (src : Popol.Source) : Popol.Source :=
  { src with interest := (Resource.interests res).toInterest }

/-- Pushing the interests of a map, in any order of its keys. -/
theorem lookup_setInterests {R E : Type} [Resource R E] (map : HashMap ResourceId R)
    (poller : Poller) (ids : List ResourceId) (id : ResourceId) :
    (Runtime.setInterests map poller ids).poll.lookup id =
      match map.lookup id with
      | some res => if id ∈ ids then (poller.poll.lookup id).map (subscribe res)
          else poller.poll.lookup id
      | none => poller.poll.lookup id := by
  unfold Runtime.setInterests
  induction ids generalizing poller with
  | nil =>
      cases map.lookup id with
      | none => rfl
      | some res => rfl
  | cons id' ids ih =>
      rw [List.foldl_cons, ih]
      cases hlook : map.lookup id with
      | none =>
          cases hlook' : map.lookup id' with
          | none => rfl
          | some res' =>
              -- the key pushed has an entry, so it is another one
              have hne : id ≠ id' := by
                rintro rfl
                rw [hlook] at hlook'
                cases hlook'
              simp only [Poller.lookup_setInterest, if_neg hne]
      | some res =>
          by_cases hid : id = id'
          · subst hid
            rw [hlook]
            simp only [Poller.lookup_setInterest, List.mem_cons, true_or, if_true]
            -- a second push of the same interests changes nothing
            split
            · rw [Option.map_map]
              rfl
            · rfl
          · simp only [List.mem_cons, hid, false_or]
            -- the push is about another key
            cases hlook' : map.lookup id' with
            | none => rfl
            | some res' => simp only [Poller.lookup_setInterest, if_neg hid]

/-! ## What the sources are polled for -/

namespace Runtime

/-- Every source is polled for exactly what its owner wants, bit by bit. -/
structure Subscribed [Resource L EL] [Resource T ET] (rt : Runtime H Poller L T C EL ET) :
    Prop where
  waker : (rt.poller.poll.lookup .WAKER).map Popol.Source.interest = some ⟨true, false⟩
  listeners : ∀ id listener, rt.listeners.lookup id = some listener →
    (rt.poller.poll.lookup id).map Popol.Source.interest =
      some ⟨(Resource.interests listener).read, (Resource.interests listener).write⟩
  transports : ∀ id transport, rt.transports.lookup id = some transport →
    (rt.poller.poll.lookup id).map Popol.Source.interest =
      some ⟨(Resource.interests transport).read, (Resource.interests transport).write⟩
  others : ∀ id, id ≠ .WAKER → id ∉ rt.listeners → id ∉ rt.transports → id ∉ rt.poller.poll

/-- The resource under the id wants the flag. -/
def Wants [Resource L EL] [Resource T ET] (rt : Runtime H Poller L T C EL ET) (id : ResourceId)
    (io : Io) : Prop :=
  (∃ listener, rt.listeners.lookup id = some listener ∧
      (Resource.interests listener).has io = true) ∨
    ∃ transport, rt.transports.lookup id = some transport ∧
      (Resource.interests transport).has io = true

variable {rt rt' : Runtime H Poller L T C EL ET}

/-- A source whose interest is known. -/
theorem interest_subscribe {R E : Type} [Resource R E] {map : HashMap ResourceId R}
    {poller : Poller} {ids : List ResourceId} {id : ResourceId} {res : R}
    (hlook : map.lookup id = some res) (hids : id ∈ ids) (hkey : id ∈ poller.poll) :
    ((setInterests map poller ids).poll.lookup id).map Popol.Source.interest =
      some ⟨(Resource.interests res).read, (Resource.interests res).write⟩ := by
  obtain ⟨src, hsrc⟩ := exists_lookup hkey
  rw [lookup_setInterests, hlook, ← IoType.toInterest_eq]
  simp only [if_pos hids, hsrc]
  rfl

/-- A key that is not in the map keeps its source. -/
theorem lookup_setInterests_of_notMem {R E : Type} [Resource R E] {map : HashMap ResourceId R}
    (poller : Poller) (ids : List ResourceId) {id : ResourceId} (hid : id ∉ map) :
    (setInterests map poller ids).poll.lookup id = poller.poll.lookup id := by
  rw [lookup_setInterests, AList.lookup_eq_none.mpr hid]

section

variable [Handler H L T C EL ET] [Resource L EL] [Resource T ET]

omit [Handler H L T C EL ET] in
/-- After the interests of both maps are pushed, in any order of their keys, every source
is polled for what its owner wants. -/
theorem Subscribed.of_push (hreg : Registry rt)
    (hwaker : (rt.poller.poll.lookup .WAKER).map Popol.Source.interest = some ⟨true, false⟩)
    {ls ts : List ResourceId} (hls : ls.Perm rt.listeners.keys)
    (hts : ts.Perm rt.transports.keys) (hrt' : rt' = { rt with
      poller := setInterests rt.transports (setInterests rt.listeners rt.poller ls) ts }) :
    rt'.Subscribed := by
  subst hrt'
  have hfirst := (setInterests_frame rt.listeners rt.poller ls).1
  have hsecond := (setInterests_frame rt.transports (setInterests rt.listeners rt.poller ls) ts).1
  refine ⟨?_, ?_, ?_, ?_⟩
  · show ((setInterests rt.transports (setInterests rt.listeners rt.poller ls) ts).poll.lookup
      .WAKER).map _ = _
    rw [lookup_setInterests_of_notMem, lookup_setInterests_of_notMem]
    · exact hwaker
    · exact hreg.waker_notMem.1
    · exact hreg.waker_notMem.2
  · intro id listener hlook
    have hmem : id ∈ rt.listeners := mem_of_lookup hlook
    show ((setInterests rt.transports (setInterests rt.listeners rt.poller ls) ts).poll.lookup
      id).map _ = _
    -- the second push leaves the listeners alone
    rw [lookup_setInterests_of_notMem _ _ (hreg.disjoint id hmem)]
    apply interest_subscribe hlook
    · exact hls.mem_iff.mpr (AList.mem_keys.mp hmem)
    · exact (hreg.sources id).mpr (Or.inr (Or.inl hmem))
  · intro id transport hlook
    have hmem : id ∈ rt.transports := mem_of_lookup hlook
    apply interest_subscribe hlook
    · exact hts.mem_iff.mpr (AList.mem_keys.mp hmem)
    · exact (hfirst id).mpr ((hreg.sources id).mpr (Or.inr (Or.inr hmem)))
  · intro id hid hl ht hmem
    rcases (hreg.sources id).mp ((hfirst id).mp ((hsecond id).mp hmem)) with hw | hw | hw
    · exact hid hw
    · exact hl hw
    · exact ht hw

/-- An event leaves the entry of the waker alone. -/
theorem Handled.entry_waker {id : ResourceId} {res : Except IoFail IoType} {time : ℕ}
    {woken : Bool} (h : Handled rt id res time woken rt') :
    rt'.entry .WAKER = rt.entry .WAKER := by
  by_cases hid : id = .WAKER
  · cases h with
    | waker hid' io hres => rfl
    | _ hne => exact absurd hid hne
  · exact h.entry_ne (Ne.symm hid)

/-- So does an action. -/
theorem Acted.entry_waker (hreg : Registry rt) {prof : Profile} {time : ℕ}
    {action : Action L T} {result : Except (Error L T) Unit}
    (h : Acted prof rt time action result rt') : rt'.entry .WAKER = rt.entry .WAKER := by
  obtain ⟨hl, ht⟩ := hreg.waker_notMem
  cases hregisters : action.registers with
  | true =>
      obtain ⟨id, hempty, -, hother⟩ := h.registered hreg hregisters
      apply hother
      -- the new id has no source yet
      rintro rfl
      have hnone : rt.poller.poll.lookup .WAKER = none := congrArg Entry.source hempty
      exact AList.lookup_eq_none.mp hnone ((hreg.sources _).mpr (Or.inl rfl))
  | false =>
      by_cases hignored : rt' = rt
      · rw [hignored]
      · apply h.entry_ne hregisters
        rintro id ty habout rfl
        cases h with
        | unregisterListener id listener hlook =>
            cases habout
            exact hl (mem_of_lookup hlook)
        | unregisterTransport id transport hlook =>
            cases habout
            exact ht (mem_of_lookup hlook)
        | sent id data transport transport' hlook hwrite =>
            cases habout
            exact ht (mem_of_lookup hlook)
        | sendFailed id data transport transport' err hlook hwrite =>
            cases habout
            exact ht (mem_of_lookup hlook)
        | ignored action hno => exact hignored rfl
        | _ => cases habout

/-- The waker is polled for reading, and at a poll every source for what its owner wants. -/
structure InTune (th : Thread H Poller L T C EL ET) : Prop where
  waker : (th.runtime.poller.poll.lookup .WAKER).map Popol.Source.interest = some ⟨true, false⟩
  subscribed : ∀ timeout, th.pc = .poll timeout → th.runtime.Subscribed

/-- Every turn keeps the waker polled for reading; the turn before a poll pushes the
interests. -/
theorem inTune_of_turned {prof : Profile} {clock : SystemTime}
    {th th' : Thread H Poller L T C EL ET} {input : Input Popol.Answer}
    (hreg : Registry th.runtime) (hI : InTune th) (h : Thread.Turned prof clock th input th') :
    InTune th' := by
  obtain ⟨hwaker, -⟩ := hI
  -- the entry of the waker is all that matters, except before a poll
  have hkept : ∀ rt' : Runtime H Poller L T C EL ET,
      rt'.entry .WAKER = th.runtime.entry .WAKER →
      (rt'.poller.poll.lookup .WAKER).map Popol.Source.interest = some ⟨true, false⟩ := by
    intro rt' hentry
    have hsource : rt'.poller.poll.lookup .WAKER = th.runtime.poller.poll.lookup .WAKER :=
      congrArg Entry.source hentry
    rw [hsource]
    exact hwaker
  cases h with
  | started hpc ls ts hls hts time hclock expiring hexp =>
      have hsub := Subscribed.of_push hreg hwaker hls hts rfl
      exact ⟨hsub.waker, fun _ _ => hsub⟩
  | polled timeout hpc answer now hclock fired hfired service rt hrt =>
      refine ⟨hkept _ ?_, nofun⟩
      rw [hrt]
      refine entry_congr rfl rfl ?_
      show (Poll.poll th.runtime.poller (some timeout) answer).2.poll.lookup _ = _
      rw [poll_snd]
  | batchDone now awoken hpc hnext =>
      refine ⟨hwaker, ?_⟩
      cases awoken <;> exact nofun
  | event now awoken hpc id res poller hnext woken rt hev =>
      obtain ⟨event, events, -, -, -, rfl⟩ := Poller.exists_of_next hnext
      refine ⟨hkept _ ?_, nofun⟩
      rw [hev.entry_waker]
      rfl
  | drained now hpc hqueue => exact ⟨hwaker, nofun⟩
  | command now hpc cmd queue hqueue => exact ⟨hwaker, nofun⟩
  | shutdown now hpc queue hqueue => exact ⟨hwaker, nofun⟩
  | actionsDone now hpc service hnext => exact ⟨hwaker, nofun⟩
  | action now hpc action service hnext result rt hact =>
      have hnoted : Registry
          ({ th.runtime with service := service }.note (.next (some action))) :=
        hreg.of_tables rfl rfl rfl (issued_concat rfl)
      refine ⟨hkept _ ?_, nofun⟩
      rw [report_entry, hact.entry_waker hnoted]
      rfl
  | exited hpc => exact ⟨hwaker, nofun⟩
  | panicked input p hp => exact ⟨hwaker, nofun⟩

/-- In every reachable state the waker is polled for reading, and at a poll every source
for what its owner wants. -/
theorem inTune_of_reachable {prof : Profile} {s : System H Poller L T C EL ET}
    (hs : (reactor prof Poller.new).Reachable FewIds s) : InTune s.toThread := by
  refine core_invariant (I := InTune) (fun th chan waker hI => ⟨hI.waker, ?_⟩) ?_ ?_ hs
  · intro timeout hpc
    obtain ⟨hw, hl, ht, ho⟩ := hI.subscribed timeout hpc
    exact ⟨hw, hl, ht, ho⟩
  · intro service poller fd hregister
    cases hregister
    exact ⟨rfl, nofun⟩
  · intro s input th' hreach hI hG hturned
    exact inTune_of_turned (inOrder_of_reachable hreach).registry hI hturned

/-! ## One iteration -/

omit [Handler H L T C EL ET] in
/-- A flag in the piece of the trace for an event is a flag of the event. -/
theorem flag_of_mem_dispatch {entry : Entry L T} {time : ℕ} {id id' : ResourceId}
    {res : Except IoFail IoType} {io : Io}
    (h : .handleIo id' io ∈ (entry.dispatch time id res : List (Observation L T C EL ET))) :
    ∃ ios, res = .ok ios ∧ io ∈ ios.toList := by
  unfold Entry.dispatch at h
  split at h
  · rcases mem_ioTrace h with ⟨flag, hflag, heq⟩ | ⟨event, heq⟩ <;> cases heq
    exact ⟨_, rfl, hflag⟩
  · cases List.mem_singleton.mp h
  · rcases mem_ioTrace h with ⟨flag, hflag, heq⟩ | ⟨event, heq⟩ <;> cases heq
    exact ⟨_, rfl, hflag⟩
  · cases List.mem_singleton.mp h
  · cases h

end

end Runtime

/-- The event reports a flag only if its source is polled for it. -/
def Poller.Allows (self : Poller) (event : Popol.Event) : Prop :=
  (event.isReadable = true →
      (self.poll.lookup event.key).any (fun src => src.interest.read) = true) ∧
    (event.isWritable = true →
      (self.poll.lookup event.key).any (fun src => src.interest.write) = true)

instance (self : Poller) (event : Popol.Event) : Decidable (self.Allows event) :=
  inferInstanceAs (Decidable (_ ∧ _))

section

variable [Handler H L T C EL ET] [Resource L EL] [Resource T ET]

/-- The run stays in one iteration, and the system reports only what a source is polled
for. -/
abbrev WithinIteration (s : System H Poller L T C EL ET) (label : Label Popol.Answer C) : Prop :=
  FewIds s label ∧ label.atStart = none ∧ Lts.demand Label.atPoll
    (fun s answer => ∀ event ∈ answer.events, s.runtime.poller.Allows event) s label

namespace Runtime

variable {rt : Runtime H Poller L T C EL ET}

/-- All flags handed out in the piece of the trace are wanted. -/
def Heeds (rt : Runtime H Poller L T C EL ET) (tr : List (Observation L T C EL ET)) : Prop :=
  ∀ id io, .handleIo id io ∈ tr → rt.Wants id io

/-- The thread in the iteration whose poll is called in the state `rt`. -/
structure During (rt : Runtime H Poller L T C EL ET) (th : Thread H Poller L T C EL ET) :
    Prop where
  trace : ∃ tr, th.runtime.trace = rt.trace ++ tr ∧ rt.Heeds tr
  poll : ∀ timeout, th.pc = .poll timeout → th.runtime.poller = rt.poller
  events : ∀ now awoken, th.pc = .events now awoken → ∀ event ∈ th.runtime.poller.events,
    event.key ≠ .WAKER → ∀ ios, Poller.resultOf event = .ok ios →
      ∀ io ∈ ios.toList, rt.Wants event.key io

omit [Handler H L T C EL ET] in
/-- Wanted flags are handed out after wanted flags. -/
theorem During.append {th : Thread H Poller L T C EL ET} (h : rt.During th)
    {tr tr' : List (Observation L T C EL ET)} (htr : tr' = th.runtime.trace ++ tr)
    (hheeds : rt.Heeds tr) : ∃ tr, tr' = rt.trace ++ tr ∧ rt.Heeds tr := by
  obtain ⟨tr₀, htrace, hheeds₀⟩ := h.trace
  refine ⟨tr₀ ++ tr, ?_, ?_⟩
  · rw [htr, htrace, List.append_assoc]
  · intro id io hmem
    rcases List.mem_append.mp hmem with hmem | hmem
    · exact hheeds₀ id io hmem
    · exact hheeds id io hmem

omit [Handler H L T C EL ET] in
/-- What a poll may report of a source is wanted by its owner. -/
theorem Subscribed.wants (hreg : Registry rt) (hsub : rt.Subscribed) {event : Popol.Event}
    (hallows : rt.poller.Allows event) (hid : event.key ≠ .WAKER) {ios : IoType}
    (hres : Poller.resultOf event = .ok ios) {io : Io} (hio : io ∈ ios.toList) :
    rt.Wants event.key io := by
  -- the flags are those of the event
  have hfailed : event.failed = false := by
    by_contra hne
    obtain ⟨err, herr⟩ := Poller.resultOf_of_failed (eq_true_of_ne_false hne)
    rw [hres] at herr
    cases herr
  rw [Poller.resultOf_of_not_failed hfailed] at hres
  cases hres
  -- so its source is polled for the flag
  obtain ⟨src, hsrc, hflag⟩ : ∃ src, rt.poller.poll.lookup event.key = some src ∧
      (match io with | .read => src.interest.read | .write => src.interest.write) = true := by
    rw [IoType.mem_toList] at hio
    cases io with
    | read => exact (Option.any_eq_true _ _).mp (hallows.1 hio)
    | write => exact (Option.any_eq_true _ _).mp (hallows.2 hio)
  -- and its interest is that of its owner
  have howner : ∀ {R E : Type} [Resource R E] (res : R),
      (rt.poller.poll.lookup event.key).map Popol.Source.interest =
        some ⟨(Resource.interests res).read, (Resource.interests res).write⟩ →
        (Resource.interests res).has io = true := by
    intro R E _ res hinterest
    rw [hsrc, Option.map_some, Option.some.injEq] at hinterest
    rw [hinterest] at hflag
    cases io with
    | read => exact hflag
    | write => exact hflag
  rcases (hreg.sources event.key).mp (mem_of_lookup hsrc) with hw | hl | ht
  · exact absurd hw hid
  · obtain ⟨listener, hlook⟩ := exists_lookup hl
    exact Or.inl ⟨listener, hlook, howner listener (hsub.listeners _ listener hlook)⟩
  · obtain ⟨transport, hlook⟩ := exists_lookup ht
    exact Or.inr ⟨transport, hlook, howner transport (hsub.transports _ transport hlook)⟩

omit [Handler H L T C EL ET] in
/-- An event of the batch hands out wanted flags only. -/
theorem Heeds.of_event {rt₀ : Runtime H Poller L T C EL ET} (hreg : Registry rt₀)
    {event : Popol.Event} (hwants : event.key ≠ .WAKER → ∀ ios,
      Poller.resultOf event = .ok ios → ∀ io ∈ ios.toList, rt.Wants event.key io) (time : ℕ) :
    rt.Heeds ((rt₀.entry event.key).dispatch time event.key (Poller.resultOf event)) := by
  intro id io hmem
  have hid := id_of_mem_dispatch hmem
  cases hid
  obtain ⟨ios, hres, hio⟩ := flag_of_mem_dispatch hmem
  refine hwants ?_ ios hres io hio
  -- nothing is handed to the waker
  intro hw
  rw [hw, entry_waker hreg] at hmem
  cases hmem

/-- A turn of the iteration hands out only flags that were wanted at its poll. -/
theorem During.turned {prof : Profile} {s : System H Poller L T C EL ET}
    {th' : Thread H Poller L T C EL ET} {input : Input Popol.Answer}
    (hreg : Registry rt) (hsub : rt.Subscribed) (hstep : InOrder s.toThread)
    (hI : rt.During s.toThread) (hG : WithinIteration s (.turn input))
    (h : Thread.Turned prof s.clock s.toThread input th') : rt.During th' := by
  obtain ⟨hreg₁, hquiet⟩ := hstep
  cases h with
  | started hpc ls ts hls hts time hclock expiring hexp => cases hG.2.1
  | polled timeout hpc answer now hclock fired hfired service rt₁ hrt =>
      have hpoller : rt₁.poller = { rt.poller with events := answer.events } := by
        have hempty : s.runtime.poller.events = [] := hquiet (by rw [hpc]; trivial)
        rw [hrt]
        show (Poll.poll s.runtime.poller (some timeout) answer).2 = _
        rw [poll_snd, hempty, List.nil_append, hI.poll timeout hpc]
      refine ⟨hI.append (by rw [hrt]) ?_, nofun, ?_⟩
      · intro id io hmem
        obtain ⟨c, -, heq⟩ := List.mem_map.mp hmem
        cases heq
      · intro now' awoken _ event hmem hid ios hres io hio
        rw [hpoller] at hmem
        have hallows := hG.2.2 event hmem
        rw [hI.poll timeout hpc] at hallows
        exact hsub.wants hreg hallows hid hres hio
  | batchDone now awoken hpc hnext =>
      refine ⟨hI.trace, ?_, ?_⟩
      · cases awoken <;> exact nofun
      · cases awoken <;> exact nofun
  | event now awoken hpc id res poller hnext woken rt₁ hev =>
      obtain ⟨event, events, hevents, rfl, rfl, rfl⟩ := Poller.exists_of_next hnext
      have hpending := hI.events now awoken hpc
      rw [hevents] at hpending
      obtain ⟨hhead, hrest⟩ := List.forall_mem_cons.mp hpending
      have hpopped : Registry { s.runtime with
          poller := { s.runtime.poller with events := events } } :=
        hreg₁.of_keys (fun _ => Iff.rfl) (fun _ => Iff.rfl) (fun _ => Iff.rfl) rfl rfl
      obtain ⟨-, hqueue, -, -, htrace, -⟩ := hev.effect hpopped
      refine ⟨hI.append htrace (Heeds.of_event hpopped hhead now), nofun, ?_⟩
      intro now' awoken' _ event' hmem
      rw [hqueue] at hmem
      exact hrest event' hmem
  | drained now hpc hqueue => exact ⟨hI.trace, nofun, nofun⟩
  | command now hpc cmd queue hqueue =>
      refine ⟨hI.append rfl ?_, nofun, nofun⟩
      intro id io hmem
      cases List.mem_singleton.mp hmem
  | shutdown now hpc queue hqueue => exact ⟨hI.trace, nofun, nofun⟩
  | actionsDone now hpc service hnext =>
      refine ⟨hI.append rfl ?_, nofun, nofun⟩
      intro id io hmem
      cases List.mem_singleton.mp hmem
  | action now hpc action service hnext result rt₁ hact =>
      obtain ⟨-, -, tr, htrace, hof⟩ := hact.frame
      have hall : (rt₁.report result).trace =
          s.runtime.trace ++ (.next (some action) :: tr) := by
        rw [htrace]
        exact List.append_assoc _ _ _
      refine ⟨hI.append hall ?_, nofun, nofun⟩
      intro id io hmem
      rcases List.mem_cons.mp hmem with heq | hmem
      · cases heq
      · exact (hof _ hmem).elim
  | exited hpc => exact ⟨hI.trace, nofun, nofun⟩
  | panicked input p hp => exact ⟨hI.trace, nofun, nofun⟩

/-- In the whole iteration only flags are handed out that were wanted at its poll. -/
theorem During.of_steps {prof : Profile} {s s' : System H Poller L T C EL ET}
    (hs : (reactor prof Poller.new).Reachable FewIds s) (hsub : s.runtime.Subscribed)
    (hI : s.runtime.During s.toThread)
    (hrun : (reactor prof Poller.new).Steps WithinIteration s s') :
    s.runtime.During s'.toThread := by
  have hreg := (inOrder_of_reachable hs).registry
  refine (hrun.preserves (I := fun u => (reactor prof Poller.new).Reachable FewIds u ∧
    s.runtime.During u.toThread) ?_ ⟨hs, hI⟩).2
  rintro u label u' ⟨hu, hduring⟩ hG hstep
  refine ⟨hu.step hG.1 hstep, ?_⟩
  rcases System.core_of_step hstep with ⟨input, rfl, hturned⟩ | ⟨chan, waker, hcore⟩
  · exact hduring.turned hreg hsub (inOrder_of_reachable hu) hG hturned
  · rw [hcore]
    exact ⟨hduring.trace, hduring.poll, hduring.events⟩

end Runtime

/-- **Interests are exact at every poll.**  In every state at a poll that a run on the popol
engine reaches, the waker is polled for reading, each resource for its interests, and
nothing else is polled; and the iteration of this poll hands a resource only flags that
were among its interests then, whatever the other threads do. -/
theorem interests_exact_at_poll {prof : Profile} {s : System H Poller L T C EL ET}
    (hs : (reactor prof Poller.new).Reachable FewIds s) {timeout : Duration}
    (hpc : s.pc = .poll timeout) :
    s.runtime.Subscribed ∧ ∀ s', (reactor prof Poller.new).Steps WithinIteration s s' →
      ∃ tr, s'.runtime.trace = s.runtime.trace ++ tr ∧
        ∀ id io, .handleIo id io ∈ tr → s.runtime.Wants id io := by
  have hsub := (Runtime.inTune_of_reachable hs).subscribed timeout hpc
  refine ⟨hsub, fun s' hrun => ?_⟩
  have hstart : s.runtime.During s.toThread := by
    refine ⟨⟨[], (List.append_nil _).symm, nofun⟩, fun _ _ => rfl, ?_⟩
    intro now awoken hevents
    rw [hpc] at hevents
    cases hevents
  exact (Runtime.During.of_steps hs hsub hstart hrun).trace

end

/-- A transport that was registered for reading wants to read and to write; the poll finds
it writable. -/
theorem interests_exact_at_poll_writable : ∃ s s' : Errands.Sys,
    (reactor .release Poller.new).Reachable FewIds s ∧
    (reactor .release Poller.new).Steps WithinIteration s s' ∧ s.runtime.Subscribed ∧
    s.runtime.poller.poll.lookup ⟨1⟩ = some ⟨7, ⟨true, true⟩⟩ ∧
    .handleIo ⟨1⟩ .write ∈ s'.runtime.trace ∧ s.runtime.Wants ⟨1⟩ .write := by
  have hrun : Lts.exec (System.step .release) FewIds Errands.boot
      [.controller 0 (.wake true),
        .controller 0 (.send (.cmd (.registerTransport
          { Errands.pipe with interests := ⟨true, true⟩ })) true),
        .controller 0 (.wake true), .turn (.start [] []),
        .turn (.poll (.ready [Errands.wakerEvent])), .turn .event, .turn .event, .turn .command,
        .turn .command, .turn .action, .turn .action, .turn (.start [] [⟨1⟩])] = some _ := rfl
  obtain ⟨s, s', hs, hpc, hsource, htrace, hsteps, hio⟩ : ∃ s s' : Errands.Sys,
      (reactor .release Poller.new).Reachable FewIds s ∧
      s.pc = .poll WAIT_TIMEOUT ∧
      s.runtime.poller.poll.lookup ⟨1⟩ = some ⟨7, ⟨true, true⟩⟩ ∧
      s.runtime.trace.length = 5 ∧
      (reactor .release Poller.new).Steps WithinIteration s s' ∧
      s'.runtime.trace.drop 5 = [.call (.tick 1000), .handleIo ⟨1⟩ .write,
        .call (.handleTransportEvent ⟨1⟩ .write 1000)] := by
    exact ⟨_, _, Errands.reachable_of_exec hrun, rfl, rfl, rfl,
      Lts.steps_of_exec (by exact rfl : Lts.exec (System.step .release) WithinIteration _
        [.turn (.poll (.ready [⟨⟨1⟩, 4, false, true, false, false, false⟩])), .turn .event] =
          some _), rfl⟩
  obtain ⟨hsub, hiter⟩ := interests_exact_at_poll hs hpc
  obtain ⟨tr, htr, hwants⟩ := hiter s' hsteps
  have hdrop : tr = s'.runtime.trace.drop 5 := by
    rw [htr, ← htrace, List.drop_left]
  have hmem : .handleIo ⟨1⟩ .write ∈ tr := by
    rw [hdrop, hio]
    simp
  refine ⟨s, s', hs, hsteps, hsub, hsource, ?_, hwants _ _ hmem⟩
  rw [htr]
  exact List.mem_append_right _ hmem

end IoReactor
