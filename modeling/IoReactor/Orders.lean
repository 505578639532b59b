/-
# The orders of the hash maps do not show

`run` pushes the interests of the resources in the iteration orders of two hash maps,
which are arbitrary.  Two runs that differ only in these orders, and more generally in
how the three maps are laid out, agree in everything else: popol engines with the same
sources simulate each other (`engineSim_sameSources`), so systems on them that are alike
move in lockstep (`orders_unobservable`).
-/
import IoReactor.Engines
import IoReactor.Interests

namespace IoReactor

variable {H L T C EL ET : Type}

/-- The engines have the same sources, and are equal in everything else. -/
structure Poller.SameSources (p q : Poller) : Prop where
  poll : SameMap p.poll q.poll
  events : p.events = q.events
  idGen : p.idGen = q.idGen

namespace Poller.SameSources

variable {p q : Poller}

/-- An engine has the same sources as itself. -/
theorem refl (p : Poller) : p.SameSources p := ⟨fun _ => rfl, rfl, rfl⟩

/-- Pushing the interests of a map, in any order of its keys, gives the same sources. -/
theorem setInterests {R E : Type} [Resource R E] {map map' : HashMap ResourceId R}
    {ids ids' : List ResourceId} (h : p.SameSources q) (hmap : SameMap map map')
    (hids : ids.Perm map.keys) (hids' : ids'.Perm map'.keys) :
    (Runtime.setInterests map p ids).SameSources (Runtime.setInterests map' q ids') := by
  obtain ⟨-, hevents, hgen⟩ := setInterests_frame map p ids
  obtain ⟨-, hevents', hgen'⟩ := setInterests_frame map' q ids'
  refine ⟨fun id => ?_, hevents.trans (h.events.trans hevents'.symm),
    hgen.trans (h.idGen.trans hgen'.symm)⟩
  rw [lookup_setInterests, lookup_setInterests, ← hmap id, ← h.poll id]
  cases hlook : map.lookup id with
  | none => rfl
  | some res =>
      -- the key of an entry is in both orders
      have hmem : id ∈ map := mem_of_lookup hlook
      have hin : id ∈ ids := hids.mem_iff.mpr hmem
      have hin' : id ∈ ids' := hids'.mem_iff.mpr (hmap.mem_iff.mp hmem)
      simp only [if_pos hin, if_pos hin']

/-- Registering takes the next id of both engines. -/
theorem register (h : p.SameSources q) (prof : Profile) (fd : RawFd) (io : IoType) :
    Except.Agree (fun a b => a.1 = b.1 ∧ SameSources a.2 b.2) (Poller.register prof p fd io)
      (Poller.register prof q fd io) := by
  unfold Poller.register
  rw [← h.idGen]
  refine Except.Agree.bind (Except.Agree.refl (fun _ => rfl) _) ?_
  rintro ⟨id, idGen⟩ _ rfl
  exact .ok ⟨rfl, h.poll.insert id _, h.events, rfl⟩

/-- The answer to the poll syscall is all that a poll depends on. -/
theorem poll_eq (p q : Poller) (timeout : Option Duration) (answer : Popol.Answer) :
    (Poll.poll p timeout answer).1 = (Poll.poll q timeout answer).1 := by
  show (Poller.pollSources p timeout answer).1 = (Poller.pollSources q timeout answer).1
  unfold Poller.pollSources
  cases answer.result with
  | ok count => rfl
  | error err => by_cases htimeout : err.kind = .timedOut <;> simp [htimeout]

/-- The head of the queue is the same event. -/
theorem next (h : p.SameSources q) :
    Option.Rel (fun a b => a.1 = b.1 ∧ SameSources a.2 b.2) (Poller.next p)
      (Poller.next q) := by
  unfold Poller.next
  rw [← h.events]
  cases p.events with
  | nil => exact .none
  | cons event events => exact .some ⟨rfl, h.poll, rfl, h.idGen⟩

end Poller.SameSources

/-- Popol engines with the same sources simulate each other. -/
theorem engineSim_sameSources : EngineSim (fun _ => True) Eq Poller.SameSources where
  register h _ := h.register
  unregister h id := ⟨h.poll.erase id, h.events, h.idGen⟩
  setInterests hmap h hids hids' := h.setInterests hmap hids hids'
  poll := by
    rintro p q h timeout answer _ rfl
    refine ⟨Poller.SameSources.poll_eq _ _ timeout answer, ?_⟩
    rw [poll_snd, poll_snd]
    exact ⟨h.poll, congrArg (· ++ answer.events) h.events, h.idGen⟩
  next h := h.next

/-- **The iteration orders of the hash maps do not show.**  From states on the popol engine
that are alike, labels that are equal but for the iteration orders either execute both or do
not, and they lead to states with equal services, timers, channels, wake signals, pending
events and traces, and with the same entries in all maps. -/
theorem orders_unobservable [Handler H L T C EL ET] [Resource L EL] [Resource T ET]
    (prof : Profile) {s₀ t₀ : System H Poller L T C EL ET}
    (h₀ : s₀.Alike Poller.SameSources t₀)
    {labels labels' : List (Label Popol.Answer C)}
    (hlabels : List.Forall₂ (Label.SameBut Eq) labels labels') :
    Option.Rel (System.Alike Poller.SameSources)
      (Lts.exec (System.step prof) Lts.anyLabel s₀ labels)
      (Lts.exec (System.step prof) Lts.anyLabel t₀ labels') := by
  refine Lts.exec_lockstep (I := fun _ => True) (fun _ _ _ _ _ _ => trivial) ?_
    (fun _ _ _ _ _ _ => Iff.rfl) hlabels trivial h₀
  intro s t label label' _ halike hlabel _
  exact halike.step engineSim_sameSources prof hlabel (Lts.demand_iff.mpr fun _ _ _ => trivial)

/-- The labels of a run in which two commands register a transport each. -/
def Errands.registerTwo : List Errands.Lab :=
  [.controller 0 (.wake true), .controller 0 (.send (.cmd (.registerTransport pipe)) true),
    .controller 0 (.wake true), .controller 0 (.send (.cmd (.registerTransport pipe)) true),
    .controller 0 (.wake true), .turn (.start [] []), .turn (.poll (.ready [wakerEvent])),
    .turn .event, .turn .event, .turn .command, .turn .command, .turn .command, .turn .action,
    .turn .action, .turn .action]

/-- Two transports are registered, and their interests are pushed in either order. -/
theorem orders_unobservable_two :
    (Lts.exec (System.step .release) Lts.anyLabel Errands.boot
      (Errands.registerTwo ++ [.turn (.start [] [⟨1⟩, ⟨2⟩])])).isSome ∧
    Option.Rel (System.Alike Poller.SameSources)
      (Lts.exec (System.step .release) Lts.anyLabel Errands.boot
        (Errands.registerTwo ++ [.turn (.start [] [⟨1⟩, ⟨2⟩])]))
      (Lts.exec (System.step .release) Lts.anyLabel Errands.boot
        (Errands.registerTwo ++ [.turn (.start [] [⟨2⟩, ⟨1⟩])])) := by
  have hlabels : List.Forall₂ (Label.SameBut Eq)
      (Errands.registerTwo ++ [.turn (.start [] [⟨1⟩, ⟨2⟩])])
      (Errands.registerTwo ++ [.turn (.start [] [⟨2⟩, ⟨1⟩])]) :=
    List.rel_append (List.forall₂_same.mpr fun label _ => .refl (fun _ => rfl) label)
      (.cons (.turn (.start (.refl _) (.swap _ _ _))) .nil)
  exact ⟨rfl, orders_unobservable .release (System.Alike.refl Poller.SameSources.refl _) hlabels⟩

end IoReactor
