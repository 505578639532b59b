/-
# What the reactor needs of its poll engine

An `InterestTable` says what a poll engine is for: it knows which descriptors are
registered under which ids and what each is polled for, counts the ids it hands out, and
passes on the reports of its polls, first in first out.  The popol engine keeps bit masks
instead, which `set_interest` changes in two steps, has ids of 64 bits, and decodes the
events when they are taken from its queue.  As long as the ids last, `Poller.table` is what
it implements (`engineSim_table`), so a reactor on popol behaves as the same reactor on the
table, whose polls report what the events say (`popol_refines_table`).
-/
import IoReactor.Orders

namespace IoReactor

variable {H L T C EL ET : Type}

/-! ## The table -/

/-- What is said of a resource: it is ready for some flags, or it has failed. -/
abbrev Report := ResourceId × Except IoFail IoType

/-- The registered descriptors and what they are polled for, the reports that are pending,
and the next id. -/
structure InterestTable where
  wanted : ResourceId → Option (RawFd × IoType)
  reports : List Report
  nextId : ℕ

/-- What a poll of the table comes to: its reports and its result. -/
structure Findings where
  reports : List Report
  result : Except IoError ℕ

namespace InterestTable

/-- The empty table. -/
def new : InterestTable := ⟨fun _ => none, [], 1⟩

/-- The waker is polled for reading. -/
def registerWaker (self : InterestTable) (fd : RawFd) : Except Panic InterestTable :=
  if (self.wanted ResourceId.WAKER).isSome then .error .wakerAlreadyRegistered
  else .ok { self with wanted := Function.update self.wanted .WAKER (some (fd, .readOnly)) }

/-- A descriptor is registered under the next id, of which there is always one. -/
def register (self : InterestTable) (fd : RawFd) (io : IoType) : ResourceId × InterestTable :=
  (⟨self.nextId⟩, { self with
    wanted := Function.update self.wanted ⟨self.nextId⟩ (some (fd, io))
    nextId := self.nextId + 1 })

/-- A descriptor is forgotten. -/
def unregister (self : InterestTable) (id : ResourceId) : InterestTable :=
  { self with wanted := Function.update self.wanted id none }

/-- A registered descriptor is polled for `io` and nothing else from now on. -/
def setInterest (self : InterestTable) (id : ResourceId) (io : IoType) : Bool × InterestTable :=
  ((self.wanted id).isSome, { self with
    wanted := Function.update self.wanted id ((self.wanted id).map fun entry => (entry.1, io)) })

/-- The findings are passed on. -/
def poll (self : InterestTable) (findings : Findings) : Except IoError ℕ × InterestTable :=
  (findings.result, { self with reports := self.reports ++ findings.reports })

/-- The oldest report. -/
def next (self : InterestTable) : Option (Report × InterestTable) :=
  match self.reports with
  | [] => none
  | report :: reports => some (report, { self with reports := reports })

instance : Poll InterestTable Findings where
  registerWaker := registerWaker
  register _ self fd io := .ok (self.register fd io)
  unregister := unregister
  setInterest := setInterest
  poll self _ := self.poll
  next := next

end InterestTable

/-! ## What popol says in terms of the table -/

namespace Popol

/-- What a source is polled for. -/
def Source.wanted (src : Source) : RawFd × IoType :=
  (src.fd, ⟨src.interest.read, src.interest.write⟩)

/-- What an event says of its source: it has hung up or failed, and then nothing else
counts, or it is ready. -/
def Event.report (event : Event) : Report :=
  (event.key,
    if event.failed then
      .error (if event.isHangup then .connectivity event.rawEvents else .os event.rawEvents)
    else .ok ⟨event.isReadable, event.isWritable⟩)

/-- What an answer of the system says of the sources; a poll that has timed out is one that
has found nothing. -/
def Answer.findings (answer : Answer) : Findings where
  reports := answer.events.map Event.report
  result :=
    match answer.result with
    | .ok count => .ok count
    | .error err => if err.kind = .timedOut then .ok 0 else .error err

end Popol

/-! ## The popol engine implements the table -/

namespace Poller

/-- The table that a popol engine implements. -/
def table (self : Poller) : InterestTable where
  wanted := fun id => (self.poll.lookup id).map Popol.Source.wanted
  reports := self.events.map Popol.Event.report
  nextId := self.idGen.counter

/-- There is another id, which is new to the source table. -/
def Room (self : Poller) : Prop :=
  self.idGen.counter + 1 < 2 ^ 64 ∧ ⟨self.idGen.counter⟩ ∉ self.poll

/-- Engines with the same sources implement the same table. -/
theorem SameSources.table_eq {p q : Poller} (h : p.SameSources q) : p.table = q.table := by
  unfold table
  simp only [h.poll _, h.events, h.idGen]

/-- The engine decodes an event as what it says. -/
theorem report_eq (event : Popol.Event) : event.report = (event.key, resultOf event) := by
  unfold Popol.Event.report resultOf Popol.Event.failed
  cases event.isHangup <;> rfl

/-- The source of a new registration is polled for what it asks for. -/
theorem wanted_toInterest (fd : RawFd) (io : IoType) :
    Popol.Source.wanted ⟨fd, io.toInterest⟩ = (fd, io) := by
  rw [IoType.toInterest_eq]
  rfl

/-- The wanted entries after a source is put in. -/
theorem wanted_insert (sources : Popol.Sources) (id : ResourceId) (src : Popol.Source) :
    (fun id' => ((sources.insert id src).lookup id').map Popol.Source.wanted) =
      Function.update (fun id' => (sources.lookup id').map Popol.Source.wanted) id
        (some src.wanted) := by
  funext id'
  by_cases hid : id' = id
  · subst hid
    rw [Function.update_self, AList.lookup_insert]
    rfl
  · rw [Function.update_of_ne hid, AList.lookup_insert_ne hid]

/-- The wanted entries after a source is taken out. -/
theorem wanted_erase (sources : Popol.Sources) (id : ResourceId) :
    (fun id' => ((sources.erase id).lookup id').map Popol.Source.wanted) =
      Function.update (fun id' => (sources.lookup id').map Popol.Source.wanted) id none := by
  funext id'
  by_cases hid : id' = id
  · subst hid
    rw [Function.update_self, AList.lookup_erase]
    rfl
  · rw [Function.update_of_ne hid, AList.lookup_erase_ne hid]

/-- The waker is registered with the table. -/
theorem registerWaker_table (self : Poller) (fd : RawFd) :
    Except.Agree (fun p t => p.table = t) (registerWaker self fd)
      (InterestTable.registerWaker self.table fd) := by
  unfold registerWaker InterestTable.registerWaker
  have hsome : (self.table.wanted ResourceId.WAKER).isSome =
      (self.poll.lookup ResourceId.WAKER).isSome := Option.isSome_map
  rw [hsome]
  split
  · exact .error _
  · refine .ok ?_
    unfold table Popol.Sources.register
    simp only [wanted_insert]
    rfl

/-- A registration is one with the table, if there is room for it. -/
theorem register_table {self : Poller} (hroom : self.Room) (prof : Profile) (fd : RawFd)
    (io : IoType) : ∃ poller, register prof self fd io = .ok (⟨self.idGen.counter⟩, poller) ∧
      self.table.register fd io = (⟨self.idGen.counter⟩, poller.table) := by
  unfold register
  rw [ResourceIdGenerator.next_eq hroom.1]
  refine ⟨_, rfl, ?_⟩
  unfold InterestTable.register table Popol.Sources.register
  simp only [wanted_insert, wanted_toInterest]

/-- A change of the interest says whether the key is known. -/
theorem modify_fst (sources : Popol.Sources) (key : ResourceId)
    (f : Popol.Interest → Popol.Interest) :
    (sources.modify key f).1 = (sources.lookup key).isSome := by
  unfold Popol.Sources.modify
  cases sources.lookup key with
  | none => rfl
  | some src => rfl

/-- The two masks of `set_interest` make one interest, which is the one in the table. -/
theorem setInterest_table (self : Poller) (id : ResourceId) (io : IoType) :
    (setInterest self id io).1 = (InterestTable.setInterest self.table id io).1 ∧
      (setInterest self id io).2.table = (InterestTable.setInterest self.table id io).2 := by
  have hwanted : ∀ id', ((setInterest self id io).2.poll.lookup id').map Popol.Source.wanted =
      (InterestTable.setInterest self.table id io).2.wanted id' := by
    intro id'
    have hlook := lookup_setInterest self id id' io
    change (setInterest self id io).2.poll.lookup id' = _ at hlook
    show _ = Function.update self.table.wanted id _ id'
    rw [hlook]
    by_cases hid : id' = id
    · subst hid
      rw [if_pos rfl, Function.update_self]
      show Option.map _ (Option.map _ _) = Option.map _ (Option.map _ _)
      rw [Option.map_map, Option.map_map]
      congr 1
      funext src
      exact wanted_toInterest src.fd io
    · rw [if_neg hid, Function.update_of_ne hid]
      rfl
  refine ⟨?_, ?_⟩
  · show ((Popol.Sources.unset self.poll id io.not.toInterest).2.modify id fun interest =>
      interest.union io.toInterest).1 =
        ((self.poll.lookup id).map Popol.Source.wanted).isSome
    rw [modify_fst, Popol.Sources.unset, Popol.Sources.lookup_modify, if_pos rfl,
      Option.isSome_map, Option.isSome_map]
  · unfold table
    simp only [hwanted]
    rfl

/-- Pushing the interests of a map, one after the other. -/
theorem setInterests_table {R E : Type} [Resource R E] (map : HashMap ResourceId R)
    (self : Poller) (ids : List ResourceId) :
    (Runtime.setInterests map self ids).table = Runtime.setInterests map self.table ids := by
  unfold Runtime.setInterests
  induction ids generalizing self with
  | nil => rfl
  | cons id ids ih =>
      rw [List.foldl_cons, List.foldl_cons, ih]
      cases map.lookup id with
      | none => rfl
      | some res =>
          show List.foldl _ (setInterest self id _).2.table ids = _
          rw [(setInterest_table self id _).2]
          rfl

/-- A poll passes on what its answer says. -/
theorem poll_table (self : Poller) (timeout : Option Duration) (answer : Popol.Answer) :
    (pollSources self timeout answer).1 = (self.table.poll answer.findings).1 ∧
      (pollSources self timeout answer).2.table = (self.table.poll answer.findings).2 := by
  constructor
  · unfold pollSources InterestTable.poll Popol.Answer.findings
    cases answer.result with
    | ok count => rfl
    | error err => by_cases htimeout : err.kind = .timedOut <;> simp [htimeout]
  · rw [show (pollSources self timeout answer).2 = _ from poll_snd self timeout answer]
    unfold table InterestTable.poll Popol.Answer.findings
    simp only [List.map_append]

/-- The next report is made of the event at the head of the queue. -/
theorem next_table (self : Poller) :
    Option.Rel (fun a b => a.1 = b.1 ∧ table a.2 = b.2) (next self) self.table.next := by
  unfold next InterestTable.next table
  cases self.events with
  | nil => exact .none
  | cons event events => exact .some ⟨(report_eq event).symm, rfl⟩

end Poller

/-- The popol engine and the table that it implements simulate each other, as long as there
is room in the engine. -/
theorem engineSim_table : EngineSim Poller.Room
    (fun (answer : Popol.Answer) findings => answer.findings = findings)
    fun (p : Poller) (t : InterestTable) => p.table = t where
  register := by
    rintro p _ rfl hroom prof fd io
    obtain ⟨poller, hregister, htable⟩ := p.register_table hroom prof fd io
    show Except.Agree _ (Poller.register prof p fd io) (.ok (p.table.register fd io))
    rw [hregister, htable]
    exact .ok ⟨rfl, rfl⟩
  unregister := by
    rintro p _ rfl id
    show Poller.table { p with poll := p.poll.erase id } = _
    unfold Poller.table
    simp only [Poller.wanted_erase]
    rfl
  setInterests := by
    rintro V E _ map map' p _ ids ids' hmap rfl hids hids'
    rw [← Poller.setInterests_table]
    exact ((Poller.SameSources.refl p).setInterests hmap hids hids').table_eq
  poll := by
    rintro p _ rfl timeout answer _ rfl
    exact p.poll_table timeout answer
  next := by
    rintro p _ rfl
    exact p.next_table

/-! ## The reactor on either engine -/

/-- As long as the service registers few resources, a registration finds room in the engine. -/
theorem hasRoom_of_fewIds [Handler H L T C EL ET] [Resource L EL] [Resource T ET]
    {prof : Profile} {s : System H Poller L T C EL ET} {label : Label Popol.Answer C}
    (hs : (reactor prof Poller.new).Reachable FewIds s) (hfew : FewIds s label) :
    System.HasRoom Poller.Room s label := by
  have hreg := (inOrder_of_reachable hs).registry
  have hcounter := hreg.counter
  refine Lts.demand_iff.mpr fun _ haction hregisters => ?_
  have hlt := Lts.demand_iff.mp hfew _ haction hregisters
  have hnone : s.runtime.poller.poll.lookup ⟨s.runtime.poller.idGen.counter⟩ = none :=
    congrArg Entry.source hreg.entry_counter
  exact ⟨by omega, AList.lookup_eq_none.mp hnone⟩

/-- The guard is about what systems that are alike have in common. -/
theorem System.Alike.fewIds_iff [Handler H L T C EL ET] [Resource L EL] [Resource T ET]
    {P Q A B : Type} {S : A → B → Prop} {R : P → Q → Prop}
    {s : System H P L T C EL ET} {t : System H Q L T C EL ET} (h : s.Alike R t)
    {label : Label A C} {label' : Label B C} (hlabel : label.SameBut S label') :
    FewIds s label ↔ FewIds t label' := by
  have hservice := h.thread.runtime.service
  have htrace := h.thread.runtime.trace
  cases hlabel with
  | turn hin =>
      cases hin with
      | action =>
          simp only [Lts.demand, Option.elim, hservice, htrace]
      | _ => exact Iff.rfl
  | _ => exact Iff.rfl

/-- **The popol engine refines the interest table.**  A reactor that starts on the popol
engine has its like on the table.  As long as the service registers fewer than `2 ^ 64 - 1`
resources, the two execute the same labels, whatever the iteration orders, the polls of the
table finding what the answers of the system say.  They end with equal services, timers,
channels and traces, the same resources, and the table that the popol engine implements;
neither executes labels that the other does not. -/
theorem popol_refines_table [Handler H L T C EL ET] [Resource L EL] [Resource T ET]
    {prof : Profile} {s₀ : System H Poller L T C EL ET}
    (hinit : (reactor prof Poller.new).init s₀) :
    ∃ t₀ : System H InterestTable L T C EL ET, (reactor prof InterestTable.new).init t₀ ∧
      s₀.Alike (fun p t => p.table = t) t₀ ∧
      ∀ (labels : List (Label Popol.Answer C)) (labels' : List (Label Findings C)),
        List.Forall₂ (Label.SameBut fun answer findings => answer.findings = findings)
          labels labels' →
        Option.Rel (System.Alike fun p t => p.table = t)
          (Lts.exec (System.step prof) FewIds s₀ labels)
          (Lts.exec (System.step prof) FewIds t₀ labels') := by
  obtain ⟨service, fd, clock, poller, hreg, rfl⟩ := hinit
  have hnew : Poller.new.table = InterestTable.new := rfl
  have hagree := Poller.new.registerWaker_table fd
  rw [hnew] at hagree
  change Poller.registerWaker Poller.new fd = .ok poller at hreg
  rw [hreg] at hagree
  generalize hreg' : InterestTable.registerWaker .new fd = out at hagree
  cases hagree with
  | @ok _ table htable =>
      have halike : (System.boot service poller clock : System H Poller L T C EL ET).Alike
          (fun p t => p.table = t) (System.boot service table clock) :=
        ⟨⟨rfl, rfl, htable, rfl, fun _ => rfl, fun _ => rfl, rfl, rfl, rfl⟩, rfl, rfl, rfl, rfl⟩
      refine ⟨_, ⟨service, fd, clock, table, hreg', rfl⟩, halike, fun labels labels' hlabels => ?_⟩
      -- the popol side stays reachable, which gives the room for the registrations
      refine Lts.exec_lockstep (I := (reactor prof Poller.new).Reachable FewIds)
        (fun s label s' hs hfew hstep => hs.step hfew hstep) ?_
        (fun s t label label' halike hlabel => halike.fewIds_iff hlabel) hlabels ?_ halike
      · intro s t label label' hs halike hlabel hfew
        exact halike.step engineSim_table prof hlabel (hasRoom_of_fewIds hs hfew)
      · exact ⟨_, ⟨service, fd, clock, poller, hreg, rfl⟩, .refl⟩

/-- The service of the examples on both engines. -/
theorem popol_refines_table_errands :
    ∃ t₀ : System Errands InterestTable Pipe Pipe (Action Pipe Pipe) Io Io,
      (reactor .debug InterestTable.new).init t₀ ∧
      Errands.boot.Alike (fun p t => p.table = t) t₀ ∧
      ∀ (labels : List Errands.Lab) (labels' : List (Label Findings (Action Pipe Pipe))),
        List.Forall₂ (Label.SameBut fun answer findings => answer.findings = findings)
          labels labels' →
        Option.Rel (System.Alike fun p t => p.table = t)
          (Lts.exec (System.step .debug) FewIds Errands.boot labels)
          (Lts.exec (System.step .debug) FewIds t₀ labels') :=
  popol_refines_table (Errands.init_boot .debug)

end IoReactor
