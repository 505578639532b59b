/-
# What a transport is sent

The output of a transport is a log that only `write_or_buf` adds to.  `Runtime.Streamed`
compares it with the trace: it is what the service sent to the id of the transport, in
order, from its registration up to its first failing `Send` or its removal.  Every turn
keeps this for all transports at once, whichever of them it is about.
-/
import IoReactor.Frames

namespace IoReactor

variable {H T L C EL ET : Type}

/-! ## Sends in the trace -/

/-- The payload of an entry of the trace that yields a `Send` to the id. -/
def Observation.payload (id : ResourceId) : Observation L T C EL ET → Option (List UInt8)
  | .next (some (.send id' data)) => if id' = id then some data else none
  | _ => none

/-- The bytes that the service has sent to the id, in the order of its `Send`s. -/
def sentTo (id : ResourceId) (tr : List (Observation L T C EL ET)) : List UInt8 :=
  (tr.filterMap (Observation.payload id)).flatten

/-- The entry ends the stream of the transport: a failed write, or its return. -/
def Observation.Ends (id : ResourceId) : Observation L T C EL ET → Prop
  | .writeAtomic id' _ (.error _) => id' = id
  | .call (.handoverTransport id' _) => id' = id
  | .call (.handleError (.transportDisconnect id' _)) => id' = id
  | _ => False

/-- The entry is about the stream of no transport. -/
def Observation.Plain : Observation L T C EL ET → Prop
  | .writeAtomic _ _ _ => False
  | .next (some (.send _ _)) => False
  | .call (.handleRegistered _ _ .transport) => False
  | .call (.handoverTransport _ _) => False
  | .call (.handleError (.transportDisconnect _ _)) => False
  | _ => True

/-- The pieces of a trace send their bytes one after the other. -/
theorem sentTo_append (id : ResourceId) (tr tr' : List (Observation L T C EL ET)) :
    sentTo id (tr ++ tr') = sentTo id tr ++ sentTo id tr' := by
  rw [sentTo, List.filterMap_append, List.flatten_append]
  rfl

/-- Plain entries send nothing and end no stream. -/
theorem Observation.Plain.payload_ends {obs : Observation L T C EL ET} (h : obs.Plain)
    (id : ResourceId) : obs.payload id = none ∧ ¬ obs.Ends id := by
  unfold Observation.Plain at h
  split at h
  · exact h.elim
  · exact h.elim
  · exact h.elim
  · exact h.elim
  · exact h.elim
  · rename_i hwrite hsend hreg hover hgone
    constructor
    · unfold Observation.payload
      split
      · exact absurd rfl (hsend _ _)
      · rfl
    · unfold Observation.Ends
      split
      · exact absurd rfl (hwrite _ _ _)
      · exact absurd rfl (hover _ _)
      · exact absurd rfl (hgone _ _)
      · exact not_false

/-- Entries that no event and no action makes are plain. -/
theorem plain_of_idle {obs : Observation L T C EL ET} (h : obs.Idle) : obs.Plain := by
  unfold Observation.Idle at h
  split at h
  · trivial
  · trivial
  · trivial
  · trivial
  · trivial
  · exact h.elim

/-- Plain entries send nothing. -/
theorem sentTo_of_plain {tr : List (Observation L T C EL ET)} (h : ∀ obs ∈ tr, obs.Plain)
    (id : ResourceId) : sentTo id tr = [] := by
  rw [sentTo, List.filterMap_eq_nil_iff.mpr fun obs hobs => ((h obs hobs).payload_ends id).1]
  rfl

/-- The output of a transport, as a log of what `write_or_buf` has accepted: the whole
buffer when it returns `Ok` and nothing otherwise. -/
structure Appends [Resource T ET] (output : T → List UInt8) : Prop where
  ok : ∀ transport buf transport', Resource.writeOrBuf transport buf = (.ok (), transport') →
    output transport' = output transport ++ buf
  error : ∀ transport buf err transport',
    Resource.writeOrBuf transport buf = (.error err, transport') →
    output transport' = output transport
  io : ∀ transport io, output (Resource.handleIo transport io).2 = output transport

/-- Handling I/O flags accepts nothing. -/
theorem Appends.afterIo [Resource T ET] {output : T → List UInt8} (h : Appends output)
    (transport : T) (ios : List Io) :
    output (Runtime.afterIo transport ios) = output transport := by
  unfold Runtime.afterIo
  induction ios generalizing transport with
  | nil => rfl
  | cons io ios ih => rw [List.foldl_cons, ih, h.io]

/-! ## Streams -/

/-- The two entries that begin the stream of a transport. -/
def opening (transport : T) (fd : RawFd) (id : ResourceId) : List (Observation L T C EL ET) :=
  [.next (some (.registerTransport transport)), .call (.handleRegistered fd id .transport)]

/-- The three entries for a `Send` that fails. -/
def failing (id : ResourceId) (data : List UInt8) (err : IoError) (transport : T) :
    List (Observation L T C EL ET) :=
  [.next (some (.send id data)), .writeAtomic id data (.error (.io err)),
    .call (.handleError (.transportDisconnect id transport))]

namespace Runtime

variable {P A : Type}

/-- The output of the transport that was registered under the id is what it was at first
and then all that was sent to it while it was registered: until now, until its first
failing `Send`, or until its removal. -/
inductive Streamed (output : T → List UInt8) (rt : Runtime H P L T C EL ET) (id : ResourceId) :
    Prop
  | live (pre mid : List (Observation L T C EL ET)) (transport₀ : T) (fd : RawFd)
      (transport : T) (htrace : rt.trace = pre ++ opening transport₀ fd id ++ mid)
      (hmid : ∀ obs ∈ mid, ¬ obs.Ends id) (hlook : rt.transports.lookup id = some transport)
      (hout : output transport = output transport₀ ++ sentTo id mid) : Streamed output rt id
  | failed (pre mid post : List (Observation L T C EL ET)) (transport₀ : T) (fd : RawFd)
      (transport : T) (data : List UInt8) (err : IoError)
      (htrace : rt.trace = pre ++ opening transport₀ fd id ++ mid ++
        failing id data err transport ++ post)
      (hmid : ∀ obs ∈ mid, ¬ obs.Ends id)
      (hout : output transport = output transport₀ ++ sentTo id mid) : Streamed output rt id
  | removed (pre mid post : List (Observation L T C EL ET)) (transport₀ : T) (fd : RawFd)
      (transport : T) (obs : Observation L T C EL ET)
      (htrace : rt.trace = pre ++ opening transport₀ fd id ++ mid ++ [obs] ++ post)
      (hobs : obs.givenBack = some (id, .inr transport))
      (hmid : ∀ obs ∈ mid, ¬ obs.Ends id)
      (hout : output transport = output transport₀ ++ sentTo id mid) : Streamed output rt id

/-- Every transport is one that was registered, and its output is what it was sent. -/
structure Streams (output : T → List UInt8) (rt : Runtime H P L T C EL ET) : Prop where
  streamed : ∀ fd id, .call (.handleRegistered fd id .transport) ∈ rt.trace →
    rt.Streamed output id
  announced : ∀ id ∈ rt.transports,
    ∃ fd, .call (.handleRegistered fd id .transport) ∈ rt.trace
  failures : ∀ id data err, .writeAtomic id data (.error err) ∈ rt.trace →
    ∃ transport, .call (.handleError (.transportDisconnect id transport)) ∈ rt.trace

variable {output : T → List UInt8} {rt rt' : Runtime H P L T C EL ET}

/-- A stream is still live, or it has ended and what comes later does not matter to it. -/
theorem Streamed.live_or_ended {id : ResourceId} (h : rt.Streamed output id) :
    (∃ pre mid transport₀ fd transport, rt.trace = pre ++ opening transport₀ fd id ++ mid ∧
      (∀ obs ∈ mid, ¬ obs.Ends id) ∧ rt.transports.lookup id = some transport ∧
      output transport = output transport₀ ++ sentTo id mid) ∨
    ∀ (rt' : Runtime H P L T C EL ET) (tr : List (Observation L T C EL ET)),
      rt'.trace = rt.trace ++ tr → rt'.Streamed output id := by
  cases h with
  | live pre mid transport₀ fd transport htr hmid hlook hout =>
      exact Or.inl ⟨pre, mid, transport₀, fd, transport, htr, hmid, hlook, hout⟩
  | failed pre mid post transport₀ fd transport data err htr hmid hout =>
      refine Or.inr fun rt' tr htrace => ?_
      refine .failed pre mid (post ++ tr) transport₀ fd transport data err ?_ hmid hout
      rw [htrace, htr, List.append_assoc]
  | removed pre mid post transport₀ fd transport obs htr hobs hmid hout =>
      refine Or.inr fun rt' tr htrace => ?_
      refine .removed pre mid (post ++ tr) transport₀ fd transport obs ?_ hobs hmid hout
      rw [htrace, htr, List.append_assoc]

/-- A piece of the trace that does not end the stream: the output grows by what was sent. -/
theorem Streamed.keep {id : ResourceId} (h : rt.Streamed output id)
    {tr : List (Observation L T C EL ET)} (htrace : rt'.trace = rt.trace ++ tr)
    (hends : ∀ obs ∈ tr, ¬ obs.Ends id)
    (hgrow : ∀ transport, rt.transports.lookup id = some transport →
      ∃ transport', rt'.transports.lookup id = some transport' ∧
        output transport' = output transport ++ sentTo id tr) : rt'.Streamed output id := by
  rcases h.live_or_ended with
    ⟨pre, mid, transport₀, fd, transport, htr, hmid, hlook, hout⟩ | hended
  · obtain ⟨transport', hlook', hout'⟩ := hgrow transport hlook
    refine .live pre (mid ++ tr) transport₀ fd transport' ?_ ?_ hlook' ?_
    · rw [htrace, htr, List.append_assoc]
    · intro obs hobs
      rcases List.mem_append.mp hobs with hobs | hobs
      · exact hmid obs hobs
      · exact hends obs hobs
    · rw [hout', hout, sentTo_append, List.append_assoc]
  · exact hended rt' tr htrace

/-- A `Send` that fails ends the stream; the output has not changed. -/
theorem Streamed.fail {id : ResourceId} (h : rt.Streamed output id) {transport transport' : T}
    (hlook : rt.transports.lookup id = some transport) {data : List UInt8} {err : IoError}
    (htrace : rt'.trace = rt.trace ++ failing id data err transport')
    (hout' : output transport' = output transport) : rt'.Streamed output id := by
  rcases h.live_or_ended with
    ⟨pre, mid, transport₀, fd, transport₁, htr, hmid, hlook₁, hout⟩ | hended
  · rw [hlook, Option.some.injEq] at hlook₁
    subst hlook₁
    refine .failed pre mid [] transport₀ fd transport' data err ?_ hmid (hout'.trans hout)
    rw [htrace, htr, List.append_nil]
  · exact hended rt' _ htrace

/-- The removal of the transport ends the stream. -/
theorem Streamed.remove {id : ResourceId} (h : rt.Streamed output id) {transport : T}
    (hlook : rt.transports.lookup id = some transport) {tr : List (Observation L T C EL ET)}
    (hplain : ∀ obs ∈ tr, obs.Plain) {obs : Observation L T C EL ET}
    (htrace : rt'.trace = rt.trace ++ (tr ++ [obs]))
    (hobs : obs.givenBack = some (id, .inr transport)) : rt'.Streamed output id := by
  rcases h.live_or_ended with
    ⟨pre, mid, transport₀, fd, transport₁, htr, hmid, hlook₁, hout⟩ | hended
  · rw [hlook, Option.some.injEq] at hlook₁
    subst hlook₁
    refine .removed pre (mid ++ tr) [] transport₀ fd transport obs ?_ hobs ?_ ?_
    · rw [htrace, htr, List.append_nil, ← List.append_assoc, List.append_assoc _ mid]
    · intro obs hobs
      rcases List.mem_append.mp hobs with hobs | hobs
      · exact hmid obs hobs
      · exact ((hplain obs hobs).payload_ends id).2
    · rw [hout, sentTo_append, sentTo_of_plain hplain, List.append_nil]
  · exact hended rt' _ htrace

/-! ## What keeps the streams -/

/-- The streams go on if each one registered before does, and each new one begins. -/
theorem Streams.append (h : rt.Streams output) {tr : List (Observation L T C EL ET)}
    (htrace : rt'.trace = rt.trace ++ tr)
    (hold : ∀ fd id, .call (.handleRegistered fd id .transport) ∈ rt.trace →
      rt.Streamed output id → rt'.Streamed output id)
    (hnew : ∀ fd id, .call (.handleRegistered fd id .transport) ∈ tr → rt'.Streamed output id)
    (hkeys : ∀ id ∈ rt'.transports, id ∈ rt.transports ∨
      ∃ fd, .call (.handleRegistered fd id .transport) ∈ tr)
    (hfail : ∀ id data err, .writeAtomic id data (.error err) ∈ tr →
      ∃ transport, .call (.handleError (.transportDisconnect id transport)) ∈ tr) :
    rt'.Streams output where
  streamed fd id hmem := by
    rw [htrace] at hmem
    rcases List.mem_append.mp hmem with hmem | hmem
    · exact hold fd id hmem (h.streamed fd id hmem)
    · exact hnew fd id hmem
  announced id hid := by
    rw [htrace]
    rcases hkeys id hid with hid | ⟨fd, hfd⟩
    · obtain ⟨fd, hfd⟩ := h.announced id hid
      exact ⟨fd, List.mem_append_left _ hfd⟩
    · exact ⟨fd, List.mem_append_right _ hfd⟩
  failures id data err hmem := by
    rw [htrace] at hmem ⊢
    rcases List.mem_append.mp hmem with hmem | hmem
    · obtain ⟨transport, hgone⟩ := h.failures id data err hmem
      exact ⟨transport, List.mem_append_left _ hgone⟩
    · obtain ⟨transport, hgone⟩ := hfail id data err hmem
      exact ⟨transport, List.mem_append_right _ hgone⟩

/-- A piece of the trace about no registration and no failure, with a change of the
transports that keeps each stream. -/
theorem Streams.of_keep (h : rt.Streams output) {tr : List (Observation L T C EL ET)}
    (htrace : rt'.trace = rt.trace ++ tr)
    (htr : ∀ obs ∈ tr, (∀ fd id, obs ≠ .call (.handleRegistered fd id .transport)) ∧
      ∀ id data err, obs ≠ .writeAtomic id data (.error err))
    (hkeys : ∀ id ∈ rt'.transports, id ∈ rt.transports)
    (hold : ∀ id, rt.Streamed output id → rt'.Streamed output id) : rt'.Streams output := by
  apply h.append htrace
  · exact fun fd id _ => hold id
  · exact fun fd id hmem => absurd rfl ((htr _ hmem).1 fd id)
  · exact fun id hid => Or.inl (hkeys id hid)
  · exact fun id data err hmem => absurd rfl ((htr _ hmem).2 id data err)

/-- A plain entry registers no transport and is no failed write. -/
theorem ne_of_plain {obs : Observation L T C EL ET} (h : obs.Plain) :
    (∀ fd id, obs ≠ .call (.handleRegistered fd id .transport)) ∧
      ∀ id data err, obs ≠ .writeAtomic id data (.error err) := by
  constructor
  · rintro fd id rfl
    exact h
  · rintro id data err rfl
    exact h

/-- Plain entries of the trace, and transports whose output stays what it was. -/
theorem Streams.plain (h : rt.Streams output) {tr : List (Observation L T C EL ET)}
    (htrace : rt'.trace = rt.trace ++ tr) (htr : ∀ obs ∈ tr, obs.Plain)
    (hkeys : ∀ id ∈ rt'.transports, id ∈ rt.transports)
    (hgrow : ∀ id transport, rt.transports.lookup id = some transport →
      ∃ transport', rt'.transports.lookup id = some transport' ∧
        output transport' = output transport) : rt'.Streams output := by
  refine h.of_keep htrace (fun obs hobs => ne_of_plain (htr obs hobs)) hkeys fun id hs => ?_
  refine hs.keep htrace (fun obs hobs => ((htr obs hobs).payload_ends id).2) ?_
  intro transport hlook
  rw [sentTo_of_plain htr, List.append_nil]
  exact hgrow id transport hlook

/-- Plain entries of the trace, and the same transports. -/
theorem Streams.quiet (h : rt.Streams output) {tr : List (Observation L T C EL ET)}
    (htrace : rt'.trace = rt.trace ++ tr) (htr : ∀ obs ∈ tr, obs.Plain)
    (ht : rt'.transports = rt.transports) : rt'.Streams output := by
  refine h.plain htrace htr ?_ fun id transport hlook => ⟨transport, ?_, rfl⟩
  · rw [ht]
    exact fun id hid => hid
  · rw [ht]
    exact hlook

/-- A transport is given back by its handover or with a disconnect. -/
theorem eq_of_givenBack {obs : Observation L T C EL ET} {id : ResourceId} {transport : T}
    (h : obs.givenBack = some (id, .inr transport)) :
    obs = .call (.handoverTransport id transport) ∨
      obs = .call (.handleError (.transportDisconnect id transport)) := by
  unfold Observation.givenBack at h
  split at h
  · cases h
  · cases h
    exact Or.inl rfl
  · cases h
  · cases h
    exact Or.inr rfl
  · cases h

/-- A transport is removed and given back, after plain entries of the trace. -/
theorem Streams.remove (h : rt.Streams output) {id : ResourceId} {transport : T}
    (hlook : rt.transports.lookup id = some transport) {tr : List (Observation L T C EL ET)}
    (hplain : ∀ obs ∈ tr, obs.Plain) {obs : Observation L T C EL ET}
    (htrace : rt'.trace = rt.trace ++ (tr ++ [obs]))
    (hobs : obs.givenBack = some (id, .inr transport))
    (ht : rt'.transports = rt.transports.erase id) : rt'.Streams output := by
  have hother : ∀ id', id' ≠ id → ¬ obs.Ends id' := by
    intro id' hne hends
    rcases eq_of_givenBack hobs with rfl | rfl
    · exact hne hends.symm
    · exact hne hends.symm
  apply h.of_keep htrace
  · intro obs' hobs'
    rcases List.mem_append.mp hobs' with hobs' | hobs'
    · exact ne_of_plain (hplain obs' hobs')
    · rw [List.mem_singleton.mp hobs']
      rcases eq_of_givenBack hobs with rfl | rfl
      · exact ⟨nofun, nofun⟩
      · exact ⟨nofun, nofun⟩
  · intro id' hid'
    rw [ht] at hid'
    exact (AList.mem_erase.mp hid').2
  · intro id' hs
    by_cases hid : id' = id
    · subst hid
      exact hs.remove hlook hplain htrace hobs
    · -- nothing is sent to the others
      have hnone : sentTo id' (tr ++ [obs]) = [] := by
        rw [sentTo_append, sentTo_of_plain hplain]
        rcases eq_of_givenBack hobs with rfl | rfl
        · rfl
        · rfl
      refine hs.keep htrace (fun obs' hobs' => ?_) fun transport' hlook' => ?_
      · rcases List.mem_append.mp hobs' with hobs' | hobs'
        · exact ((hplain obs' hobs').payload_ends id').2
        · rw [List.mem_singleton.mp hobs']
          exact hother id' hid
      · refine ⟨transport', ?_, ?_⟩
        · rw [ht, AList.lookup_erase_ne hid]
          exact hlook'
        · rw [hnone, List.append_nil]

/-- A transport is registered under a new id. -/
theorem Streams.register (h : rt.Streams output) {id : ResourceId} {fd : RawFd} {transport : T}
    (htrace : rt'.trace = rt.trace ++ opening transport fd id)
    (hnew : ∀ fd', .call (.handleRegistered fd' id .transport) ∉ rt.trace)
    (ht : rt'.transports = rt.transports.insert id transport) : rt'.Streams output := by
  apply h.append htrace
  · -- the streams registered before have other ids
    intro fd' id' hmem hs
    have hne : id' ≠ id := fun heq => hnew fd' (heq ▸ hmem)
    refine hs.keep htrace (fun obs hobs => ?_) fun transport₁ hlook₁ => ?_
    · rcases List.mem_cons.mp hobs with rfl | hobs
      · exact not_false
      · rw [List.mem_singleton.mp hobs]
        exact not_false
    · refine ⟨transport₁, ?_, (List.append_nil _).symm⟩
      rw [ht, AList.lookup_insert_ne hne]
      exact hlook₁
  · intro fd' id' hmem
    rcases List.mem_cons.mp hmem with heq | hmem
    · cases heq
    · cases List.mem_singleton.mp hmem
      refine .live rt.trace [] transport fd transport (htrace.trans (List.append_nil _).symm) nofun
        ?_ (List.append_nil _).symm
      rw [ht]
      exact AList.lookup_insert _
  · intro id' hmem
    rw [ht] at hmem
    rcases (AList.mem_insert _).mp hmem with rfl | hmem
    · exact Or.inr ⟨fd, List.mem_cons_of_mem _ (List.mem_singleton.mpr rfl)⟩
    · exact Or.inl hmem
  · intro id' data err hmem
    rcases List.mem_cons.mp hmem with heq | hmem
    · cases heq
    · cases List.mem_singleton.mp hmem

/-- A transport accepts the payload of a `Send`. -/
theorem Streams.send (h : rt.Streams output) {id : ResourceId} {transport transport' : T}
    (hlook : rt.transports.lookup id = some transport) {data : List UInt8}
    (htrace : rt'.trace = rt.trace ++
      [.next (some (.send id data)), .writeAtomic id data (.ok ())])
    (hout : output transport' = output transport ++ data)
    (ht : rt'.transports = rt.transports.insert id transport') : rt'.Streams output := by
  have hmem : ∀ obs ∈ [(.next (some (.send id data)) : Observation L T C EL ET),
      .writeAtomic id data (.ok ())], (∀ id', ¬ obs.Ends id') ∧
      (∀ fd id', obs ≠ .call (.handleRegistered fd id' .transport)) ∧
      ∀ id' data err, obs ≠ .writeAtomic id' data (.error err) := by
    intro obs hobs
    rcases List.mem_cons.mp hobs with rfl | hobs
    · exact ⟨fun _ => not_false, nofun, nofun⟩
    · rw [List.mem_singleton.mp hobs]
      exact ⟨fun _ => not_false, nofun, nofun⟩
  apply h.of_keep htrace
  · exact fun obs hobs => (hmem obs hobs).2
  · rw [ht]
    exact fun id' => (mem_insert_of_lookup hlook id').mp
  · intro id' hs
    refine hs.keep htrace (fun obs hobs => (hmem obs hobs).1 id') fun transport₁ hlook₁ => ?_
    rw [ht]
    by_cases hne : id' = id
    · -- the whole payload is accepted
      subst hne
      rw [hlook, Option.some.injEq] at hlook₁
      subst hlook₁
      refine ⟨transport', AList.lookup_insert _, ?_⟩
      simp [hout, sentTo, Observation.payload]
    · refine ⟨transport₁, (AList.lookup_insert_ne hne).trans hlook₁, ?_⟩
      simp [sentTo, Observation.payload, Ne.symm hne]

/-- A `Send` fails, and its transport is taken out. -/
theorem Streams.fail (h : rt.Streams output) {id : ResourceId} {transport transport' : T}
    (hlook : rt.transports.lookup id = some transport) {data : List UInt8} {err : IoError}
    (htrace : rt'.trace = rt.trace ++ failing id data err transport')
    (hout : output transport' = output transport)
    (ht : rt'.transports = (rt.transports.insert id transport').erase id) :
    rt'.Streams output := by
  have hmem : ∀ obs ∈ (failing id data err transport' : List (Observation L T C EL ET)),
      obs = .next (some (.send id data)) ∨ obs = .writeAtomic id data (.error (.io err)) ∨
      obs = .call (.handleError (.transportDisconnect id transport')) := by
    intro obs hobs
    simpa [failing] using hobs
  apply h.append htrace
  · intro fd id' _ hs
    by_cases hne : id' = id
    · subst hne
      exact hs.fail hlook htrace hout
    · refine hs.keep htrace (fun obs hobs hends => ?_) fun transport₁ hlook₁ => ?_
      · rcases hmem obs hobs with rfl | rfl | rfl
        · exact hends
        · exact hne hends.symm
        · exact hne hends.symm
      · refine ⟨transport₁, ?_, ?_⟩
        · rw [ht, AList.lookup_erase_ne hne, AList.lookup_insert_ne hne]
          exact hlook₁
        · simp [failing, sentTo, Observation.payload, Ne.symm hne]
  · intro fd id' hreg
    rcases hmem _ hreg with heq | heq | heq <;> cases heq
  · intro id' hid'
    rw [ht] at hid'
    exact Or.inl ((mem_insert_of_lookup hlook id').mp (AList.mem_erase.mp hid').2)
  · intro id' data' err' hfail
    rcases hmem _ hfail with heq | heq | heq
    · cases heq
    · cases heq
      exact ⟨transport', by simp [failing]⟩
    · cases heq

/-- A `Send` to an id that names no transport goes nowhere. -/
theorem Streams.ignore (h : rt.Streams output) {id : ResourceId}
    (hnone : rt.transports.lookup id = none) {data : List UInt8}
    (htrace : rt'.trace = rt.trace ++ [.next (some (.send id data))])
    (ht : rt'.transports = rt.transports) : rt'.Streams output := by
  apply h.of_keep htrace
  · intro obs hobs
    rw [List.mem_singleton.mp hobs]
    exact ⟨nofun, nofun⟩
  · rw [ht]
    exact fun id' hid' => hid'
  · intro id' hs
    refine hs.keep htrace (fun obs hobs => ?_) fun transport₁ hlook₁ => ?_
    · rw [List.mem_singleton.mp hobs]
      exact not_false
    · have hne : ¬ id = id' := by
        rintro rfl
        rw [hnone] at hlook₁
        cases hlook₁
      refine ⟨transport₁, ?_, ?_⟩
      · rw [ht]
        exact hlook₁
      · simp [sentTo, Observation.payload, hne]

section

variable [Handler H L T C EL ET] [Resource L EL] [Resource T ET] [Poll P A]

omit [Resource L EL] [Resource T ET] [Poll P A] in
/-- The entries that the inner loop of `handle_events` makes are plain. -/
theorem plain_of_ioObservation {E : Type} {id : ResourceId} {onEvent : E → Call L T C EL ET}
    (hevent : ∀ event, (Observation.call (onEvent event)).Plain)
    {obs : Observation L T C EL ET} (h : IoObservation id onEvent obs) : obs.Plain := by
  cases obs with
  | call c =>
      obtain ⟨event, rfl⟩ := h
      exact hevent event
  | handleIo id' io => trivial
  | next answer => exact h.elim
  | writeAtomic id' data result => exact h.elim

/-- An event adds to no stream. -/
theorem streams_of_handled (hout : Appends output) (h : rt.Streams output) {id : ResourceId}
    {res : Except IoFail IoType} {time : ℕ} {woken : Bool}
    (hev : Handled rt id res time woken rt') : rt'.Streams output := by
  cases hev with
  | waker hid io hres => exact h.quiet (List.append_nil _).symm nofun rfl
  | listenerIo hid io hres listener hlook =>
      obtain ⟨service, tr, heq, htr⟩ := rt.listenerIo_eq id listener io time
      rw [heq]
      have hevent : ∀ event, (Observation.call
          (.handleListenerEvent id event time : Call L T C EL ET)).Plain := fun _ => trivial
      exact h.quiet rfl (fun obs hobs => plain_of_ioObservation hevent (htr obs hobs)) rfl
  | listenerGone hid err hres listener hlook =>
      exact h.quiet rfl (List.forall_mem_singleton.mpr trivial) rfl
  | transportIo hid hno io hres transport hlook =>
      obtain ⟨service, tr, heq, htr⟩ := rt.transportIo_eq id transport io time
      rw [heq]
      have hevent : ∀ event, (Observation.call
          (.handleTransportEvent id event time : Call L T C EL ET)).Plain := fun _ => trivial
      refine h.plain rfl (fun obs hobs => plain_of_ioObservation hevent (htr obs hobs))
        (fun id' => (mem_insert_of_lookup hlook id').mp) ?_
      intro id' transport₁ hlook₁
      by_cases hne : id' = id
      · -- the transport has seen the flags, and accepted nothing
        subst hne
        rw [hlook, Option.some.injEq] at hlook₁
        subst hlook₁
        exact ⟨_, AList.lookup_insert _, hout.afterIo transport _⟩
      · exact ⟨transport₁, (AList.lookup_insert_ne hne).trans hlook₁, rfl⟩
  | transportGone hid hno err hres transport hlook =>
      exact h.remove hlook (List.forall_mem_nil _) rfl rfl rfl

/-- An action adds to the stream of the transport it names, if it is a `Send`. -/
theorem streams_of_acted {prof : Profile} (hout : Appends output) (h : rt.Streams output)
    {service : H} {time : ℕ} {action : Action L T} {result : Except (Error L T) Unit}
    (hfresh : ∀ fd id poller, Poll.register prof rt.poller fd .readOnly = .ok (id, poller) →
      ∀ fd', .call (.handleRegistered fd' id .transport) ∉ rt.trace)
    (hact : Acted prof ({ rt with service := service }.note (.next (some action))) time
      action result rt') : (rt'.report result).Streams output := by
  cases hact with
  | registerListener listener id poller hreg =>
      refine h.quiet (List.append_assoc _ _ _) ?_ rfl
      exact List.forall_mem_cons.mpr ⟨trivial, List.forall_mem_singleton.mpr trivial⟩
  | registerTransport transport id poller hreg =>
      exact h.register (List.append_assoc _ _ _) (hfresh _ _ _ hreg) rfl
  | unregisterListener id listener hlook =>
      refine h.quiet (List.append_assoc _ _ _) ?_ rfl
      exact List.forall_mem_cons.mpr ⟨trivial, List.forall_mem_singleton.mpr trivial⟩
  | unregisterTransport id transport hlook =>
      refine h.remove hlook ?_ (List.append_assoc _ _ _) rfl rfl
      exact List.forall_mem_singleton.mpr trivial
  | sent id data transport transport' hlook hwrite =>
      refine h.send hlook (List.append_assoc _ _ _) ?_ rfl
      rcases writeAtomic_ok hwrite with ⟨heq, -, -⟩ | ⟨-, hw⟩ | ⟨err, heq, -⟩
      · cases heq
      · exact hout.ok _ _ _ hw
      · cases heq
  | sendFailed id data transport transport' err hlook hwrite =>
      have htrace : rt.trace ++ [.next (some (.send id data))] ++
          [.writeAtomic id data (.error (.io err))] ++
          [.call (.handleError (.transportDisconnect id transport'))] =
          rt.trace ++ failing id data err transport' := by simp [failing]
      refine h.fail hlook htrace ?_ rfl
      rcases writeAtomic_ok hwrite with ⟨heq, -, -⟩ | ⟨heq, -⟩ | ⟨err', -, hw⟩
      · cases heq
      · cases heq
      · exact hout.error _ _ _ _ hw
  | setTimer duration timeouts hset =>
      refine h.quiet rfl ?_ rfl
      exact List.forall_mem_singleton.mpr trivial
  | ignored action hno =>
      cases action with
      | registerListener listener => exact hno.elim
      | registerTransport transport => exact hno.elim
      | unregisterListener id =>
          refine h.quiet rfl ?_ rfl
          exact List.forall_mem_singleton.mpr trivial
      | unregisterTransport id =>
          refine h.quiet rfl ?_ rfl
          exact List.forall_mem_singleton.mpr trivial
      | send id data => exact h.ignore hno rfl rfl
      | setTimer duration => exact hno.elim

/-- Every stream is as it should be in every reachable state. -/
theorem streams_of_reachable {prof : Profile} {engine : P} {s : System H P L T C EL ET}
    (hout : Appends output) (hs : (reactor prof engine).Reachable (FreshIds prof) s) :
    s.runtime.Streams output := by
  refine runtime_invariant (I := Streams output) ?_ ?_ ?_ ?_ hs
  · exact fun service poller fd hreg => ⟨nofun, nofun, nofun⟩
  · intro rt rt' tr h htrace hidle hl ht
    exact h.quiet htrace (fun obs hobs => plain_of_idle (hidle obs hobs)) ht
  · exact fun rt id res time woken rt' h hev => streams_of_handled hout h hev
  · intro s now action service result rt' h hfresh hact
    refine streams_of_acted hout h (fun fd id poller hreg fd' hmem => ?_) hact
    -- the new id was not announced before
    apply hfresh fd id poller hreg
    exact List.mem_map.mpr ⟨(id, .transport), List.mem_filterMap.mpr ⟨_, hmem, rfl⟩, rfl⟩

omit [Handler H L T C EL ET] [Resource L EL] [Poll P A] in
/-- An atomic write to a transport that is ready, and that buffers what it cannot write,
does not panic. -/
theorem exists_writeAtomic {prof : Profile} {transport : T} {data : List UInt8}
    (hready : Resource.isReadyToWrite transport = true)
    (hbuffer : ∀ err transport', Resource.writeOrBuf transport data = (.error err, transport') →
      err.kind.mustBuffer = false) :
    (∃ transport', writeAtomic prof transport data = .ok (.ok (), transport')) ∨
      ∃ err transport', writeAtomic prof transport data = .ok (.error (.io err), transport') := by
  unfold writeAtomic
  rw [if_pos hready]
  rcases hwrite : Resource.writeOrBuf transport data with ⟨result, transport'⟩
  cases result with
  | ok u => exact Or.inl ⟨transport', rfl⟩
  | error err =>
      have hkind := hbuffer err transport' hwrite
      refine Or.inr ⟨err, transport', ?_⟩
      simp [hkind]

/-- So a `Send` does not panic, whether it fails or not and whether there is a transport
at all. -/
theorem handleAction_send_ne_error {prof : Profile} {id : ResourceId} {data : List UInt8}
    (hready : ∀ transport, rt.transports.lookup id = some transport →
      Resource.isReadyToWrite transport = true ∧ ∀ err transport',
        Resource.writeOrBuf transport data = (.error err, transport') →
        err.kind.mustBuffer = false) (time : ℕ) (p : Panic) :
    rt.handleAction prof (.send id data) time ≠ .error p := by
  intro h
  simp only [handleAction] at h
  split at h
  · cases h
  · rename_i transport hlook
    obtain ⟨hok, hbuffer⟩ := hready transport hlook
    have hwrite := @exists_writeAtomic T ET _ prof transport data hok hbuffer
    rcases error_of_bind_eq_error h with herr | ⟨⟨outcome, transport'⟩, hres, hret⟩
    · rcases hwrite with ⟨t', hw⟩ | ⟨err, t', hw⟩ <;> rw [hw] at herr <;> cases herr
    · rcases hwrite with ⟨t', hw⟩ | ⟨err, t', hw⟩
      · rw [hw] at hres
        cases hres
        cases hret
      · rw [hw] at hres
        cases hres
        simp only at hret
        split at hret <;> cases hret

/-- The thread stays in the loop of `handle_actions` after an action that does not panic. -/
theorem pc_of_action {prof : Profile} {clock : SystemTime} {th : Thread H P L T C EL ET}
    {now : ℕ} (hpc : th.pc = .actions now) {action : Action L T} {service : H}
    (hnext : Handler.next th.runtime.service = (some action, service))
    (hno : ∀ p, ({ th.runtime with service := service }.note (.next (some action))).handleAction
      prof action now ≠ .error p) :
    ∃ th', th.turn prof clock .action = some th' ∧ th'.pc = .actions now := by
  cases hact : ({ th.runtime with service := service }.note (.next (some action))).handleAction
      prof action now with
  | error p => exact absurd hact (hno p)
  | ok out =>
      obtain ⟨result, rt'⟩ := out
      have hturn : th.turn prof clock .action = some (th.resume do
          let (more, runtime) ← th.runtime.handleNext prof now
          return (if more then .actions now else .start, runtime)) := by
        simp only [Thread.turn, hpc]
      have hloop : ∃ rt'', th.runtime.handleNext prof now = .ok (true, rt'') := by
        unfold handleNext
        rw [hnext]
        simp only [hact]
        cases result with
        | ok u => exact ⟨_, rfl⟩
        | error err => exact ⟨_, rfl⟩
      obtain ⟨rt'', hhandle⟩ := hloop
      refine ⟨_, hturn, ?_⟩
      rw [hhandle]
      rfl

end

end Runtime

/-! ## Whole runs -/

section

variable [Handler H L T C EL ET] [Resource L EL] [Resource T ET]
variable {prof : Profile} {output : T → List UInt8} {s : System H Poller L T C EL ET}

/-- A transport whose write failed is gone for good, and was given back once. -/
theorem gone_of_failure (hout : Appends output)
    (hs : (reactor prof Poller.new).Reachable FewIds s) {id : ResourceId} {data : List UInt8}
    {err : WriteError} (hfail : .writeAtomic id data (.error err) ∈ s.runtime.trace) :
    id ∉ s.runtime.transports ∧ id ∉ s.runtime.poller.poll ∧
      (∃ transport, .call (.handleError (.transportDisconnect id transport)) ∈ s.runtime.trace) ∧
      ((givenBack s.runtime.trace).map Prod.fst).count id = 1 := by
  obtain ⟨hreg, -⟩ := inOrder_of_reachable hs
  have howned := owned_of_reachable (freshIds_of_fewIds hs)
  obtain ⟨transport, hgone⟩ :=
    (Runtime.streams_of_reachable hout (freshIds_of_fewIds hs)).failures id data err hfail
  have hback : (id, .inr transport) ∈ givenBack s.runtime.trace :=
    List.mem_filterMap.mpr ⟨_, hgone, rfl⟩
  obtain ⟨hl, ht⟩ := howned.notMem_of_givenBack (List.mem_map_of_mem hback)
  obtain ⟨res, hres, -⟩ := howned.sound.origin id _ (List.mem_append_right _ hback)
  -- the id was issued, so it is not the waker's
  have hissued : id ∈ issued s.runtime.trace := by
    rw [← howned.keys_deposited]
    exact List.mem_map_of_mem hres
  refine ⟨ht, ?_, ⟨transport, hgone⟩, ?_⟩
  · rw [hreg.sources]
    rintro (hw | hmem | hmem)
    · exact hreg.ne_waker hissued hw
    · exact hl hmem
    · exact ht hmem
  · rcases howned.sound.exactly_one_place hres with ⟨-, -, hno⟩ | ⟨-, hcount, -⟩
    · exact absurd (List.mem_map_of_mem hback) hno
    · exact hcount

/-- **Sends are ordered, isolated and all or nothing.**  In every reachable state each
transport that was registered has the output `Runtime.Streamed` says, and the map holds no
other; a transport whose write failed is in neither the map nor the poll engine, was given
back once, with a disconnect, and a later `Send` to its id changes nothing; and a `Send`
that meets the conditions on transports leaves the thread among the actions. -/
theorem sends_ordered_isolated (hout : Appends output)
    (hs : (reactor prof Poller.new).Reachable FewIds s) :
    (∀ fd id, .call (.handleRegistered fd id .transport) ∈ s.runtime.trace →
      s.runtime.Streamed output id) ∧
    (∀ id ∈ s.runtime.transports,
      ∃ fd, .call (.handleRegistered fd id .transport) ∈ s.runtime.trace) ∧
    (issued s.runtime.trace).Nodup ∧
    (∀ id data err, .writeAtomic id data (.error err) ∈ s.runtime.trace →
      id ∉ s.runtime.transports ∧ id ∉ s.runtime.poller.poll ∧
      (∃ transport, .call (.handleError (.transportDisconnect id transport)) ∈ s.runtime.trace) ∧
      ((givenBack s.runtime.trace).map Prod.fst).count id = 1 ∧
      ∀ data' time, s.runtime.handleAction prof (.send id data') time =
        .ok (.ok (), s.runtime)) ∧
    (∀ now id data service, s.pc = .actions now →
      Handler.next s.runtime.service = (some (.send id data), service) →
      (∀ transport, s.runtime.transports.lookup id = some transport →
        Resource.isReadyToWrite transport = true ∧ ∀ err transport',
          Resource.writeOrBuf transport data = (.error err, transport') →
          err.kind.mustBuffer = false) →
      ∃ s', System.step prof s (.turn .action) = some s' ∧ s'.pc = .actions now) := by
  obtain ⟨hstreamed, hannounced, -⟩ :=
    Runtime.streams_of_reachable hout (freshIds_of_fewIds hs)
  refine ⟨hstreamed, hannounced, (inOrder_of_reachable hs).registry.nodup, ?_, ?_⟩
  · intro id data err hfail
    obtain ⟨ht, hp, hgone, hcount⟩ := gone_of_failure hout hs hfail
    refine ⟨ht, hp, hgone, hcount, fun data' time => ?_⟩
    exact Runtime.handleAction_of_ignores prof time (AList.lookup_eq_none.mpr ht)
  · intro now id data service hpc hnext hready
    have hno : ∀ p, ({ s.runtime with service := service }.note
        (.next (some (.send id data)))).handleAction prof (.send id data) now ≠ .error p := by
      apply Runtime.handleAction_send_ne_error
      exact hready
    obtain ⟨th', hturn, hpc'⟩ : ∃ th', s.toThread.turn prof s.clock .action = some th' ∧
        th'.pc = .actions now := Runtime.pc_of_action hpc hnext hno
    refine ⟨{ s with toThread := th' }, ?_, hpc'⟩
    show (s.toThread.turn prof s.clock .action).map _ = _
    rw [hturn]
    rfl

end

/-- The output of a pipe only grows by what it accepts. -/
theorem appends_pipe : Appends Pipe.output where
  ok pipe buf pipe' h := by
    simp only [Resource.writeOrBuf] at h
    split at h
    · cases h
      rfl
    · cases h
  error pipe buf err pipe' h := by
    simp only [Resource.writeOrBuf] at h
    split at h
    · cases h
    · cases h
      rfl
  io _ _ := rfl

/-- Two transports, one of which fails at its first `Send`; the other is sent to before and
after that. -/
theorem sends_ordered_isolated_two : ∃ s : Errands.Sys,
    (reactor .release Poller.new).Reachable FewIds s ∧
    s.runtime.transports.lookup ⟨1⟩ = some { Errands.pipe with output := [1, 2, 4] } ∧
    s.runtime.Streamed Pipe.output ⟨1⟩ ∧ ⟨2⟩ ∉ s.runtime.transports ∧
    s.runtime.handleAction .release (.send ⟨2⟩ [5]) 1000 = .ok (.ok (), s.runtime) := by
  have hrun : Lts.exec (System.step .release) FewIds Errands.boot
      [.controller 0 (.wake true),
        .controller 0 (.send (.cmd (.registerTransport Errands.pipe)) true),
        .controller 0 (.wake true),
        .controller 0 (.send (.cmd (.registerTransport
          { Errands.pipe with failure := some ⟨.other 32⟩ })) true),
        .controller 0 (.wake true), .controller 0 (.send (.cmd (.send ⟨1⟩ [1, 2])) true),
        .controller 0 (.wake true), .controller 0 (.send (.cmd (.send ⟨2⟩ [3])) true),
        .controller 0 (.wake true), .controller 0 (.send (.cmd (.send ⟨1⟩ [4])) true),
        .controller 0 (.wake true), .turn (.start [] []),
        .turn (.poll (.ready [Errands.wakerEvent])), .turn .event, .turn .event, .turn .command,
        .turn .command, .turn .command, .turn .command, .turn .command, .turn .command,
        .turn .action, .turn .action, .turn .action, .turn .action, .turn .action] =
          some _ := rfl
  obtain ⟨s, hs, hlook, hreg, hfail⟩ : ∃ s : Errands.Sys,
      (reactor .release Poller.new).Reachable FewIds s ∧
      s.runtime.transports.lookup ⟨1⟩ = some { Errands.pipe with output := [1, 2, 4] } ∧
      s.runtime.trace[7]? = some (.call (.handleRegistered 7 ⟨1⟩ .transport)) ∧
      s.runtime.trace[13]? = some (.writeAtomic ⟨2⟩ [3] (.error (.io ⟨.other 32⟩))) :=
    ⟨_, Errands.reachable_of_exec hrun, rfl, rfl, rfl⟩
  obtain ⟨hstreamed, -, -, hfailed, -⟩ := sends_ordered_isolated appends_pipe hs
  obtain ⟨hgone, -, -, -, hlater⟩ := hfailed ⟨2⟩ [3] _ (List.mem_of_getElem? hfail)
  exact ⟨s, hs, hlook, hstreamed 7 ⟨1⟩ (List.mem_of_getElem? hreg), hgone, hlater [5] 1000⟩

end IoReactor
