/-
# How long a command waits

Once the event of the waker waits in the batch, a message of the channel is taken after as
many turns of the thread as there are events in the batch and messages ahead of it, and one
more, whatever the other threads do in between (`served_in_turns`): later messages do not
overtake it, and no turn is lost.
-/
import IoReactor.Recording
import IoReactor.Lifetime

namespace IoReactor

variable {H P A L T C EL ET : Type}

/-! ## The bound -/

/-- How many turns of the thread a label stands for. -/
def Label.turns : Label A C → ℕ
  | .turn _ => 1
  | _ => 0

/-- A reactor with its turns counted. -/
def counted [Handler H L T C EL ET] [Resource L EL] [Resource T ET] [Poll P A]
    (prof : Profile) (engine : P) : Lts (System H P L T C EL ET × ℕ) (Label A C) :=
  Lts.recording (reactor prof engine).init (System.step prof) 0 fun _ label n => n + label.turns

/-- The thread is about to dispatch the event of the waker, or has done so and has not found
the channel empty since. -/
def Thread.Summoned (th : Thread H Poller L T C EL ET) : Prop :=
  (∃ now awoken, th.pc = .events now awoken ∧
    (awoken = true ∨ ∃ event ∈ th.runtime.poller.events, event.key = .WAKER)) ∨
    th.pc.InCommands

/-- The turns to the command loop. -/
def Thread.turnsAhead (th : Thread H Poller L T C EL ET) : ℕ :=
  match th.pc with
  | .events _ _ => th.runtime.poller.events.length + 1
  | _ => 0

/-- The turns after which message number `k` is taken. -/
def System.turnsTo (s : System H Poller L T C EL ET) (k : ℕ) : ℕ :=
  s.turnsAhead + (k + 1 - s.handled.length)

/-! ## One step -/

section

variable [Handler H L T C EL ET] [Resource L EL] [Resource T ET]
variable {prof : Profile}

/-- A turn in the loop of `handle_events` brings a thread that is summoned nearer to the
command loop. -/
theorem Thread.Turned.nearer {clock : SystemTime} {th th' : Thread H Poller L T C EL ET}
    {input : Input Popol.Answer} (h : Turned prof clock th input th')
    {now : ℕ} {awoken : Bool} (hpc : th.pc = .events now awoken)
    (hcalled : awoken = true ∨ ∃ event ∈ th.runtime.poller.events, event.key = .WAKER) :
    th'.pc.Panicked ∨ (th'.Summoned ∧ th'.turnsAhead + 1 = th.turnsAhead) := by
  have hahead : th.turnsAhead = th.runtime.poller.events.length + 1 := by
    unfold turnsAhead
    rw [hpc]
  rw [hahead]
  rcases h.of_events hpc with hp | ⟨hempty, hpc'⟩ | ⟨event, events, hevents, hrest, hpc'⟩
  · exact Or.inl hp
  · -- the event of the waker has been dispatched by now
    have hawoken : awoken = true := by
      rcases hcalled with hawoken | ⟨event, hmem, -⟩
      · exact hawoken
      · rw [hempty] at hmem
        cases hmem
    rw [hawoken, if_pos rfl] at hpc'
    refine Or.inr ⟨Or.inr ⟨now, hpc'⟩, ?_⟩
    unfold turnsAhead
    rw [hpc', hempty]
    rfl
  · right
    rw [hevents, List.length_cons]
    rcases hpc' with hpc' | ⟨hne, hpc'⟩
    · refine ⟨Or.inl ⟨now, true, hpc', Or.inl rfl⟩, ?_⟩
      unfold turnsAhead
      rw [hpc', hrest]
    · refine ⟨Or.inl ⟨now, awoken, hpc', ?_⟩, ?_⟩
      · rcases hcalled with hawoken | ⟨waker, hmem, hkey⟩
        · exact Or.inl hawoken
        · rw [hevents] at hmem
          rcases List.mem_cons.mp hmem with rfl | hmem
          · exact absurd hkey hne
          · exact Or.inr ⟨waker, hrest ▸ hmem, hkey⟩
      · unfold turnsAhead
        rw [hpc', hrest]

variable {engine : Poller}

/-- The commands handled only become more. -/
theorem System.handled_of_step {s s' : System H Poller L T C EL ET}
    {label : Label Popol.Answer C} (h : s.step prof label = some s') :
    s.handled.length ≤ s'.handled.length := by
  obtain ⟨tr, htrace⟩ := exists_trace_of_step h
  rw [handled, handled, htrace, List.filterMap_append, List.length_append]
  exact Nat.le_add_right _ _

/-- What is served stays served. -/
theorem System.Served.step {s s' : System H Poller L T C EL ET} {k : ℕ}
    {label : Label Popol.Answer C} (h : s.Served k)
    (hstep : s.step prof label = some s') : s'.Served k := by
  rcases h with hstop | hlt
  · exact Or.inl (System.stopped_of_step hstop hstep)
  · exact Or.inr (hlt.trans_le (System.handled_of_step hstep))

/-- While the thread is summoned, each of its turns brings message number `k` nearer, and no
step of another thread puts it off. -/
theorem System.nearer_of_step {s s' : System H Poller L T C EL ET} {k : ℕ}
    {label : Label Popol.Answer C}
    (hs : (reactor prof engine).Reachable Lts.anyLabel s) (hsent : k < s.sent.length)
    (hcalled : s.Summoned) (hno : ¬ s.Served k) (hstep : s.step prof label = some s') :
    s'.Served k ∨ (s'.Summoned ∧ s'.turnsTo k + label.turns ≤ s.turnsTo k) := by
  have hhandled := handled_of_step hstep
  have hle : s.handled.length ≤ k := Nat.le_of_not_lt fun hlt => hno (Or.inr hlt)
  by_cases hturn : label.IsTurn
  · obtain ⟨input, rfl⟩ := hturn
    obtain ⟨th, hth, rfl⟩ := Option.map_eq_some_iff.mp hstep
    have hturned := Thread.turned_of_turn hth
    rcases hcalled with ⟨now, awoken, hpc, hcalled⟩ | hpc
    · rcases hturned.nearer hpc hcalled with ⟨p, hp⟩ | ⟨hcalled', hahead⟩
      · exact Or.inl (Or.inl fun hrun => hrun.2.2 (congrArg Pc.phase hp))
      · refine Or.inr ⟨hcalled', ?_⟩
        unfold turnsTo
        show th.turnsAhead + _ + 1 ≤ _
        omega
    · have hahead : s.turnsAhead = 0 := by
        obtain ⟨now, hnow⟩ := hpc
        unfold Thread.turnsAhead
        rw [hnow]
      rcases hturned.of_commands hpc with ⟨p, hp⟩ | hshut | ⟨hempty, -⟩ | ⟨hpc', c, htrace⟩
      · exact Or.inl (Or.inl fun hrun => hrun.2.2 (congrArg Pc.phase hp))
      · exact Or.inl (Or.inl fun hrun => hrun.1 (congrArg Pc.phase hshut))
      · -- the message is still queued
        have hrun : s.pc.Running := Decidable.not_not.mp fun hstop => hno (Or.inl hstop)
        have hsplit := length_sent hs hrun
        have hqueue : s.channel.queue = [] := hempty
        rw [hqueue, List.length_nil] at hsplit
        omega
      · have hmore : (handled { s with toThread := th }).length = s.handled.length + 1 := by
          show (th.runtime.trace.filterMap Observation.command).length = _
          rw [htrace, List.filterMap_append, List.length_append]
          rfl
        have hahead' : th.turnsAhead = 0 := by
          obtain ⟨now, hnow⟩ := hpc'
          unfold Thread.turnsAhead
          rw [hnow]
        refine Or.inr ⟨Or.inr hpc', ?_⟩
        unfold turnsTo
        show th.turnsAhead + _ + 1 ≤ _
        omega
  · obtain ⟨chan, waker, hcore⟩ := core_of_other hstep hturn
    have hcost : label.turns = 0 := by
      cases label with
      | turn input => exact absurd ⟨input, rfl⟩ hturn
      | _ => rfl
    right
    unfold turnsTo
    rw [hcore, hcost]
    refine ⟨hcalled, ?_⟩
    show s.turnsAhead + _ + 0 ≤ _
    omega

/-- **A command waits for what is ahead of it, and no longer.**  Let message number `k` be
sent, and let the event of the waker wait in the batch or the command loop run.  In every
run from there, whatever the other threads and the clock do, and whatever the service and
the resources do in the callbacks: after as many turns of the thread as there are events in
the batch, and one, and messages up to number `k`, the message has been handled as the
command of its place, unless the loop has ended. -/
theorem served_in_turns {s s' : System H Poller L T C EL ET} {k n : ℕ}
    (hs : (reactor prof engine).Reachable Lts.anyLabel s) (hsent : k < s.sent.length)
    (hcalled : s.Summoned)
    (hrun : (counted prof engine).Steps Lts.anyLabel (s, 0) (s', n)) (hn : s.turnsTo k ≤ n) :
    (∃ c, s.sent[k]? = some (.cmd c) ∧ s'.handled[k]? = some c) ∨ ¬ s'.pc.Running := by
  have hsteps : (reactor prof engine).Steps Lts.anyLabel s s' := Lts.Steps.of_recording hrun
  have hnearer : ∀ (u : System H Poller L T C EL ET)
      (label : Label Popol.Answer C) (u' : System H Poller L T C EL ET),
      (reactor prof engine).Reachable Lts.anyLabel u → k < u.sent.length ∧ u.Summoned →
      u.step prof label = some u' → u'.Served k ∨
        ((k < u'.sent.length ∧ u'.Summoned) ∧ u'.turnsTo k + label.turns ≤ u.turnsTo k) := by
    rintro u label u' hu ⟨hsent, hcalled⟩ hstep
    by_cases hno : u.Served k
    · exact Or.inl (hno.step hstep)
    · rcases System.nearer_of_step hu hsent hcalled hno hstep with hserved | ⟨hcalled', hle⟩
      · exact Or.inl hserved
      · have hgrown := (System.history_of_step hstep).1.length_le
        exact Or.inr ⟨⟨hsent.trans_le hgrown, hcalled'⟩, hle⟩
  have hserved : s'.Served k := by
    rcases Lts.bound_of_rank (fun u => u.turnsTo k) hnearer (fun _ _ _ h => h.step) hs
      ⟨hsent, hcalled⟩ hrun with hserved | ⟨-, hle⟩
    · exact hserved
    · -- no turns are left, so the message is among those handled
      unfold System.turnsTo at hle hn
      exact Or.inr (by omega)
  rcases hserved with hstop | hlt
  · exact Or.inr hstop
  · have hhandled := List.getElem?_eq_getElem hlt
    have hmsg := System.sent_of_handled (hs.steps hsteps) hhandled
    obtain ⟨rest, hrest⟩ := (System.history_of_steps hsteps).1
    rw [← hrest, List.getElem?_append_left hsent] at hmsg
    exact Or.inl ⟨_, hmsg, hhandled⟩

end

/-- Two commands wait behind the event of the waker, and four turns later the second has
been handled. -/
theorem served_in_turns_second : ∃ s s' : Errands.Sys,
    s.turnsTo 1 = 4 ∧ (counted .release Poller.new).Steps Lts.anyLabel (s, 0) (s', 4) ∧
    ((∃ c, s.sent[1]? = some (.cmd c) ∧ s'.handled[1]? = some c) ∨ ¬ s'.pc.Running) := by
  obtain ⟨s, hexec, hsent, now, hpc, hevents, hturns, s', hexec'⟩ : ∃ s : Errands.Sys,
      Lts.exec (System.step .release) Lts.anyLabel Errands.boot
        ([.controller 0 (.wake true), .controller 0 (.send (.cmd (.send ⟨1⟩ [])) true),
          .controller 0 (.wake true), .controller 0 (.send (.cmd (.send ⟨2⟩ [])) true),
          .turn (.start [] []), .turn (.poll (.ready [Errands.wakerEvent]))] : List Errands.Lab) =
        some s ∧ 1 < s.sent.length ∧ ∃ now, s.pc = .events now false ∧
      s.runtime.poller.events = [Errands.wakerEvent] ∧ s.turnsTo 1 = 4 ∧ ∃ s' : Errands.Sys,
      Lts.exec (fun (x : Errands.Sys × ℕ) (label : Errands.Lab) =>
          (System.step .release x.1 label).map fun s => (s, x.2 + label.turns)) Lts.anyLabel
        (s, 0) [.turn .event, .controller 0 (.wake true), .turn .event, .turn .command,
          .controller 0 (.send (.cmd (.send ⟨3⟩ [])) true), .turn .command] = some (s', 4) :=
    ⟨_, rfl, by decide, 1000, rfl, rfl, rfl, _, rfl⟩
  have hrun : (counted .release Poller.new).Steps Lts.anyLabel (s, 0) (s', 4) :=
    Lts.steps_of_exec hexec'
  have hcalled : s.Summoned :=
    Or.inl ⟨now, false, hpc, Or.inr ⟨Errands.wakerEvent, by rw [hevents]; exact .head _, rfl⟩⟩
  exact ⟨s, s', hturns, hrun, served_in_turns (Errands.reachable_of_exec hexec) hsent hcalled hrun
    hturns.le⟩

end IoReactor
