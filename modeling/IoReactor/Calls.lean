/-
# The calls of the controllers

The ledger of the calls: each message ever sent belongs to exactly one call, which has
returned or is about to raise the wake signal, and a call returns `Ok` according to
the outcomes of its two steps.  From it follow what a failed `cmd` and a successful
`shutdown` tell the caller.
-/
import IoReactor.Commands

namespace IoReactor

variable {H P A L T C EL ET : Type}

/-! ## The ledger -/

/-- The slots of the messages of all calls, returned or under way. -/
def slots (controllers : List (Controller C)) (returned : List (Return C)) : List ℕ :=
  returned.filterMap Return.slot ++ controllers.filterMap Controller.owes

/-- The ledger is in order: every message is of exactly one call, it is the message of
that call, and every call has returned what its two steps gave. -/
structure Ledger (controllers : List (Controller C)) (sent : List (Ctl C))
    (returned : List (Return C)) : Prop where
  perm : (slots controllers returned).Perm (List.range sent.length)
  pending : ∀ (i : ℕ) (op : Op C) (k : ℕ), controllers[i]? = some (.waking op (some k)) →
    sent[k]? = op.message
  done : ∀ ret ∈ returned, ∀ k, ret.slot = some k → sent[k]? = ret.op.message
  result : ∀ ret ∈ returned, ret.ok = ret.op.result ret.slot.isSome ret.woken

/-- Replacing a clone replaces its debt among the debts. -/
theorem filterMap_owes_set {cs : List (Controller C)} {i : ℕ} {ctl : Controller C}
    (hi : cs[i]? = some ctl) (ctl' : Controller C) :
    (ctl.owes.toList ++ (cs.set i ctl').filterMap Controller.owes).Perm
      (ctl'.owes.toList ++ cs.filterMap Controller.owes) := by
  obtain ⟨before, after, hsplit, hset⟩ := exists_split_at hi ctl'
  have hcons : ∀ (x : Controller C) (l : List (Controller C)),
      (x :: l).filterMap Controller.owes = x.owes.toList ++ l.filterMap Controller.owes := by
    intro x l
    cases hx : x.owes with
    | none => rw [List.filterMap_cons_none hx]; rfl
    | some k => rw [List.filterMap_cons_some hx]; rfl
  rw [hset, List.filterMap_append, hcons]
  conv_rhs => rw [hsplit, List.filterMap_append, hcons]
  -- both sides hold the debts of the others and those of the two clones
  apply List.perm_iff_count.mpr
  intro k
  simp only [List.count_append]
  omega

/-- Replacing a clone replaces its slot among the slots. -/
theorem slots_set {cs : List (Controller C)} {i : ℕ} {ctl : Controller C}
    (hi : cs[i]? = some ctl) (ctl' : Controller C) (rets : List (Return C)) :
    (ctl.owes.toList ++ slots (cs.set i ctl') rets).Perm
      (ctl'.owes.toList ++ slots cs rets) := by
  have h := filterMap_owes_set hi ctl'
  apply List.perm_iff_count.mpr
  intro k
  have hk := h.count_eq k
  simp only [slots, List.count_append] at hk ⊢
  omega

/-- A call that returns adds its slot to the slots. -/
theorem slots_record (cs : List (Controller C)) (rets : List (Return C)) (ret : Return C) :
    (slots cs (rets ++ [ret])).Perm (ret.slot.toList ++ slots cs rets) := by
  have hcons : [ret].filterMap Return.slot = ret.slot.toList := by
    cases hslot : ret.slot with
    | none => rw [List.filterMap_cons_none hslot]; rfl
    | some k => rw [List.filterMap_cons_some hslot]; rfl
  apply List.perm_iff_count.mpr
  intro k
  simp only [slots, List.filterMap_append, hcons, List.count_append]
  omega

/-- A clone of a list in which one clone was replaced. -/
theorem getElem?_set_cases {cs : List (Controller C)} {i j : ℕ} {ctl x : Controller C}
    (h : (cs.set i ctl)[j]? = some x) : x = ctl ∨ cs[j]? = some x := by
  by_cases hj : i = j
  · subst hj
    rw [List.getElem?_set_self'] at h
    cases hi : cs[i]? with
    | none => rw [hi] at h; cases h
    | some y => rw [hi] at h; exact Or.inl (Option.some.inj h).symm
  · rw [List.getElem?_set_ne hj] at h
    exact Or.inr h

namespace Ledger

variable {cs : List (Controller C)} {sent : List (Ctl C)} {rets : List (Return C)}

/-- The slots of the ledger are those of the messages sent. -/
theorem lt_of_done (hl : Ledger cs sent rets) {ret : Return C} (hret : ret ∈ rets) {k : ℕ}
    (hk : ret.slot = some k) : k < sent.length := by
  have hmem : k ∈ slots cs rets :=
    List.mem_append_left _ (List.mem_filterMap.mpr ⟨ret, hret, hk⟩)
  exact List.mem_range.mp (hl.perm.mem_iff.mp hmem)

/-- The slots of the ledger are those of the messages sent. -/
theorem lt_of_pending (hl : Ledger cs sent rets) {i : ℕ} {op : Op C} {k : ℕ}
    (hi : cs[i]? = some (.waking op (some k))) : k < sent.length := by
  have hmem : k ∈ slots cs rets :=
    List.mem_append_right _ (List.mem_filterMap.mpr ⟨_, List.mem_of_getElem? hi, rfl⟩)
  exact List.mem_range.mp (hl.perm.mem_iff.mp hmem)

/-- Replacing a clone by one that owes nothing, and had nothing to pay, keeps the
ledger in order. -/
theorem set (hl : Ledger cs sent rets) {i : ℕ} {ctl ctl' : Controller C}
    (hi : cs[i]? = some ctl) (hfree : ctl.owes = none) (hfree' : ctl'.owes = none) :
    Ledger (cs.set i ctl') sent rets := by
  refine ⟨?_, ?_, hl.done, hl.result⟩
  · have h := slots_set hi ctl' rets
    rw [hfree, hfree'] at h
    exact h.trans hl.perm
  · intro j op k hj
    rcases getElem?_set_cases hj with hj | hj
    · rw [← hj] at hfree'
      cases hfree'
    · exact hl.pending j op k hj

/-- A call that returns with the slot its clone held keeps the ledger in order. -/
theorem record (hl : Ledger cs sent rets) {ret : Return C}
    (hslot : ∀ k, ret.slot = some k → sent[k]? = ret.op.message)
    (hresult : ret.ok = ret.op.result ret.slot.isSome ret.woken) {i : ℕ}
    {ctl ctl' : Controller C} (hi : cs[i]? = some ctl) (howes : ctl.owes = ret.slot)
    (hfree : ctl'.owes = none) : Ledger (cs.set i ctl') sent (rets ++ [ret]) := by
  refine ⟨?_, ?_, ?_, ?_⟩
  · have hset := slots_set hi ctl' rets
    have hrec := slots_record (cs.set i ctl') rets ret
    rw [howes, hfree] at hset
    exact hrec.trans (hset.trans hl.perm)
  · intro j op k hj
    rcases getElem?_set_cases hj with hj | hj
    · rw [← hj] at hfree
      cases hfree
    · exact hl.pending j op k hj
  · intro r hr k hk
    rcases List.mem_append.mp hr with hr | hr
    · exact hl.done r hr k hk
    · rw [List.mem_singleton.mp hr] at hk ⊢
      exact hslot k hk
  · intro r hr
    rcases List.mem_append.mp hr with hr | hr
    · exact hl.result r hr
    · rw [List.mem_singleton.mp hr]
      exact hresult

end Ledger

namespace System

/-- The ledger of a system. -/
def InOrder (s : System H P L T C EL ET) : Prop := Ledger s.controllers s.sent s.returned

/-- Every step of a controller keeps the ledger in order. -/
theorem inOrder_of_moved {s s' : System H P L T C EL ET} {i : ℕ} {move : Move C}
    (hl : s.InOrder) (h : Moved s i move s') : s'.InOrder := by
  cases h with
  | clone hi =>
      refine ⟨?_, ?_, hl.done, hl.result⟩
      · show (slots (s.controllers ++ [.idle]) s.returned).Perm _
        rw [slots, List.filterMap_append, List.filterMap_cons_none rfl, List.filterMap_nil,
          List.append_nil]
        exact hl.perm
      · intro j op k hj
        apply hl.pending j op k
        by_cases hlt : j < s.controllers.length
        · rwa [List.getElem?_append_left hlt] at hj
        · rw [List.getElem?_append_right (Nat.le_of_not_lt hlt),
            List.getElem?_singleton] at hj
          split at hj <;> cases hj
  | drop hi => exact Ledger.set hl hi rfl rfl
  | sent hi op msg hmsg hrecv =>
      -- the message gets the next place, and the places of the others stay
      have hold : ∀ k < s.sent.length, (s.sent ++ [msg])[k]? = s.sent[k]? :=
        fun k hk => List.getElem?_append_left hk
      refine ⟨?_, ?_, ?_, hl.result⟩
      · have hset := slots_set hi (.waking op (some s.sent.length)) s.returned
        show (slots (s.controllers.set i _) s.returned).Perm (List.range (s.sent ++ [msg]).length)
        rw [List.length_append, List.length_singleton, List.range_succ]
        exact (hset.trans (hl.perm.cons _)).trans (List.perm_append_singleton _ _).symm
      · intro j op' k hj
        show (s.sent ++ [msg])[k]? = op'.message
        rcases getElem?_set_cases hj with hj | hj
        · cases hj
          rw [List.getElem?_concat_length, hmsg]
        · rw [hold k (Ledger.lt_of_pending hl hj)]
          exact hl.pending j op' k hj
      · intro ret hret k hk
        show (s.sent ++ [msg])[k]? = ret.op.message
        rw [hold k (Ledger.lt_of_done hl hret hk)]
        exact hl.done ret hret k hk
  | lost hi => exact Ledger.set hl hi rfl rfl
  | refused hi c =>
      have h : Ledger (s.controllers.set i .idle) s.sent
          (s.returned ++ [⟨.cmd c, none, false, false⟩]) :=
        Ledger.record hl (fun k hk => by cases hk) rfl hi rfl rfl
      -- the clone stays idle
      obtain ⟨hlt, hget⟩ := List.getElem?_eq_some_iff.mp hi
      rw [← hget, List.set_getElem_self] at h
      exact h
  | woke op slot hi ok =>
      rw [wakeStep_eq]
      refine Ledger.record hl ?_ rfl hi rfl (owes_leaves op _)
      intro k hk
      exact hl.pending i op k (by rw [hi, show slot = some k from hk])

variable [Handler H L T C EL ET] [Resource L EL] [Resource T ET] [Poll P A]

/-- Every step keeps the ledger in order. -/
theorem inOrder_of_step {prof : Profile} {s s' : System H P L T C EL ET} {label : Label A C}
    (hl : s.InOrder) (h : s.step prof label = some s') : s'.InOrder := by
  cases label with
  | clock reading =>
      cases h
      exact hl
  | breakWaker broken =>
      cases h
      exact hl
  | controller i move => exact inOrder_of_moved hl (moved_of_controllerStep h)
  | turn input =>
      obtain ⟨th, hturn, rfl⟩ := Option.map_eq_some_iff.mp h
      exact hl

/-- The ledger is in order in every reachable state. -/
theorem inOrder_of_reachable {prof : Profile} {engine : P}
    {G : System H P L T C EL ET → Label A C → Prop} {s : System H P L T C EL ET}
    (hs : (reactor prof engine).Reachable G s) : s.InOrder := by
  refine hs.invariant (I := InOrder) ?_ (fun _ _ _ hI _ hstep => inOrder_of_step hI hstep)
  rintro s ⟨service, fd, clock, poller, hreg, rfl⟩
  refine ⟨List.Perm.refl [], ?_, nofun, nofun⟩
  rintro (_ | i) op k hi <;> cases hi

/-- The message that a clone or a returned call holds has no other holder. -/
theorem count_slots {prof : Profile} {engine : P}
    {G : System H P L T C EL ET → Label A C → Prop} {s : System H P L T C EL ET}
    (hs : (reactor prof engine).Reachable G s) {k : ℕ} (hk : k < s.sent.length) :
    (slots s.controllers s.returned).count k = 1 := by
  rw [(inOrder_of_reachable hs).perm.count_eq k]
  exact List.count_eq_one_of_mem List.nodup_range (List.mem_range.mpr hk)

/-- Commands are handled by their place in the channel: the one handled as number `k` is
the message sent as number `k`. -/
theorem sent_of_handled {prof : Profile} {engine : P}
    {G : System H P L T C EL ET → Label A C → Prop} {s : System H P L T C EL ET}
    (hs : (reactor prof engine).Reachable G s) {k : ℕ} {c : C}
    (hk : s.handled[k]? = some c) : s.sent[k]? = some (.cmd c) := by
  obtain ⟨rest, hrest⟩ :=
    Mailbox.exists_rest_of_delivered (Mailbox.delivery (System.mailbox_reachable hs))
  rw [show Mailbox.taken s.mailbox.deeds = s.handled from taken_filterMap _] at hrest
  -- the commands handled are the first messages
  have hlt : k < (s.handled.map Letter.work).length := by
    rw [List.length_map]
    exact (List.getElem?_eq_some_iff.mp hk).1
  have hletter : (s.sent.map Ctl.letter)[k]? = some (.work c) := by
    rw [show s.sent.map Ctl.letter = _ from hrest, List.getElem?_append_left hlt,
      List.getElem?_map, hk]
    rfl
  rw [List.getElem?_map] at hletter
  obtain ⟨msg, hmsg, hwork⟩ := Option.map_eq_some_iff.mp hletter
  cases msg with
  | cmd c' =>
      cases hwork
      exact hmsg
  | shutdown => cases hwork

/-- While the loop runs, what was sent is what was handled and then what is queued. -/
theorem sent_of_running {prof : Profile} {engine : P}
    {G : System H P L T C EL ET → Label A C → Prop} {s : System H P L T C EL ET}
    (hs : (reactor prof engine).Reachable G s) (hrun : s.pc.Running) :
    s.sent = s.handled.map .cmd ++ s.channel.queue := by
  have hposted := Mailbox.posted_of_active (mailbox_reachable hs) hrun
  rw [show Mailbox.taken s.mailbox.deeds = s.handled from taken_filterMap _] at hposted
  -- different messages are different letters
  have hletter : Function.Injective (Ctl.letter (C := C)) := by
    rintro (c | _) (c' | _) heq <;> cases heq <;> rfl
  apply List.map_injective_iff.mpr hletter
  rw [List.map_append, List.map_map]
  exact hposted

omit [Handler H L T C EL ET] [Resource L EL] [Resource T ET] [Poll P A] in
/-- A message among those handled and those queued has its place in one of the two. -/
theorem handled_or_queued {s : System H P L T C EL ET} {k : ℕ} {c : C}
    (hk : (s.handled.map .cmd ++ s.channel.queue)[k]? = some (.cmd c)) :
    s.handled[k]? = some c ∨
      s.handled.length ≤ k ∧ s.channel.queue[k - s.handled.length]? = some (.cmd c) := by
  rcases Nat.lt_or_ge k s.handled.length with hlt | hge
  · rw [List.getElem?_append_left (by rwa [List.length_map]), List.getElem?_map] at hk
    obtain ⟨c', hc', heq⟩ := Option.map_eq_some_iff.mp hk
    cases heq
    exact Or.inl hc'
  · rw [List.getElem?_append_right (by rwa [List.length_map]), List.length_map] at hk
    exact Or.inr ⟨hge, hk⟩

end System

/-! ## A `cmd` that fails -/

/-- The message of a call has been passed to `handle_command`: its place in the channel is
among the commands handled. -/
def System.Executed (s : System H P L T C EL ET) (ret : Return C) : Prop :=
  ∃ k < s.handled.length, ret.slot = some k

section

variable [Handler H L T C EL ET] [Resource L EL] [Resource T ET] [Poll P A]
variable {prof : Profile} {engine : P}

/-- **What a failed `cmd` leaves behind.**  The commands handled are messages of the
channel by their place, and each message belongs to exactly one call, so no
submission is handled twice.  A `cmd` that returned an error because the send failed
has no message, and is never handled; if its wake failed after a successful send, its
message keeps its place all the same: while the loop runs, it was handled as the command of
that place or is still queued there. -/
theorem failed_cmd {s : System H P L T C EL ET}
    (hs : (reactor prof engine).Reachable Lts.anyLabel s) :
    (∀ (k : ℕ) (c : C), s.handled[k]? = some c →
      s.sent[k]? = some (.cmd c) ∧ (slots s.controllers s.returned).count k = 1) ∧
    (∀ ret ∈ s.returned, ∀ c, ret.op = .cmd c → ret.ok = false →
      (ret.slot = none ∧ ¬ s.Executed ret) ∨
      (ret.woken = false ∧ ∃ k, ret.slot = some k ∧ s.sent[k]? = some (.cmd c) ∧
        (s.pc.Running → s.handled[k]? = some c ∨ s.handled.length ≤ k ∧
          s.channel.queue[k - s.handled.length]? = some (.cmd c)))) := by
  have hl := System.inOrder_of_reachable hs
  constructor
  · intro k c hk
    have hsent := System.sent_of_handled hs hk
    exact ⟨hsent, System.count_slots hs (List.getElem?_eq_some_iff.mp hsent).1⟩
  · intro ret hret c hop herr
    cases hslot : ret.slot with
    | none =>
        refine Or.inl ⟨rfl, ?_⟩
        rintro ⟨k, -, hk⟩
        rw [hslot] at hk
        cases hk
    | some k =>
        have hresult := hl.result ret hret
        rw [herr, hop, hslot] at hresult
        have hsent : s.sent[k]? = some (.cmd c) := by
          rw [hl.done ret hret k hslot, hop]
          rfl
        refine Or.inr ⟨?_, k, rfl, hsent, fun hrun => ?_⟩
        · cases hwoken : ret.woken with
          | true => rw [hwoken] at hresult; cases hresult
          | false => rfl
        · rw [System.sent_of_running hs hrun] at hsent
          exact System.handled_or_queued hsent

end

/-- One call fails at its send, another at its wake; only the second is handled. -/
theorem failed_cmd_twice : ∃ s : Errands.Sys,
    (reactor .release Poller.new).Reachable Lts.anyLabel s ∧ s.handled.length = 1 ∧
    ((∀ (k : ℕ) (c : Action Pipe Pipe), s.handled[k]? = some c →
      s.sent[k]? = some (.cmd c) ∧ (slots s.controllers s.returned).count k = 1) ∧
    (∀ ret ∈ s.returned, ∀ c, ret.op = .cmd c → ret.ok = false →
      (ret.slot = none ∧ ¬ s.Executed ret) ∨
      (ret.woken = false ∧ ∃ k, ret.slot = some k ∧ s.sent[k]? = some (.cmd c) ∧
        (s.pc.Running → s.handled[k]? = some c ∨ s.handled.length ≤ k ∧
          s.channel.queue[k - s.handled.length]? = some (.cmd c))))) := by
  have hrun : Lts.exec (System.step .release) Lts.anyLabel Errands.boot
      [.controller 0 (.wake true), .controller 0 (.send (.cmd (.send ⟨1⟩ [])) false),
        .controller 0 (.send (.cmd (.send ⟨2⟩ [])) true), .controller 0 (.wake false),
        .turn (.start [] []), .turn (.poll (.ready [Errands.wakerEvent])), .turn .event,
        .turn .event, .turn .command] = some _ := rfl
  have hs := Errands.reachable_of_exec hrun
  exact ⟨_, hs, rfl, failed_cmd hs⟩

/-- A `cmd` whose wake fails returns an error and is handled all the same, here because of
the wake of the caller's second attempt: the service executes the command twice. -/
theorem failed_cmd_executed : ∃ s : Errands.Sys,
    (reactor .release Poller.new).Reachable Lts.anyLabel s ∧
    (∃ ret ∈ s.returned, ret.op = .cmd (.send ⟨1⟩ []) ∧ ret.ok = false ∧ s.Executed ret) ∧
    s.handled = [.send ⟨1⟩ [], .send ⟨1⟩ []] := by
  have hrun : Lts.exec (System.step .release) Lts.anyLabel Errands.boot
      [.controller 0 (.wake true), .controller 0 (.send (.cmd (.send ⟨1⟩ [])) true),
        .controller 0 (.wake false), .controller 0 (.send (.cmd (.send ⟨1⟩ [])) true),
        .controller 0 (.wake true), .turn (.start [] []),
        .turn (.poll (.ready [Errands.wakerEvent])), .turn .event, .turn .event, .turn .command,
        .turn .command] = some _ := rfl
  refine ⟨_, Errands.reachable_of_exec hrun, ⟨⟨.cmd (.send ⟨1⟩ []), some 0, false, false⟩, ?_⟩,
    rfl⟩
  exact ⟨List.mem_cons_of_mem _ List.mem_cons_self, rfl, rfl, 0, by decide, rfl⟩

/-! ## A `shutdown` that succeeds -/

/-- The message sent as number `k` is still in the channel, which is first in first out. -/
def System.Queued (s : System H P L T C EL ET) (k : ℕ) : Prop :=
  s.sent.length ≤ k + s.channel.queue.length ∧ k < s.sent.length

/-- A successful `shutdown` has no effect: its message is queued, the thread sleeps in the
poll, the wake signal is not raised and nobody is about to raise it. -/
def System.Stranded (s : System H P L T C EL ET) : Prop :=
  (∃ ret ∈ s.returned, ret.op = .shutdown ∧ ret.ok = true ∧
    ∃ k, ret.slot = some k ∧ s.Queued k) ∧
  (∃ timeout, s.pc = .poll timeout) ∧ s.runtime.waker.signal = false ∧ ¬ s.WakePending

/-- The two steps of a `shutdown` that a clone is in have the same outcome. -/
def Controller.agrees (ok : Bool) : Controller C → Bool
  | .waking .shutdown slot => ok == slot.isSome
  | _ => true

/-- The condition that the send and the wake of a `shutdown` succeed or fail together. -/
abbrev ShutdownStepsAgree : System H P L T C EL ET → Label A C → Prop :=
  Lts.demand Label.atWake fun s wake =>
    ∀ ctl ∈ s.controllers[wake.1]?, ctl.agrees wake.2 = true

section

variable [Handler H L T C EL ET] [Resource L EL] [Resource T ET] [Poll P A]
variable {prof : Profile} {engine : P}

/-- In runs in which the steps of each `shutdown` agree, a returned `shutdown` has raised
the wake signal if and only if it has sent its message. -/
theorem woken_eq_of_shutdown {s : System H P L T C EL ET}
    (hs : (reactor prof engine).Reachable ShutdownStepsAgree s) {ret : Return C}
    (hret : ret ∈ s.returned) (hop : ret.op = .shutdown) : ret.woken = ret.slot.isSome := by
  refine hs.invariant (I := fun s => ∀ ret ∈ s.returned, ret.op = .shutdown →
    ret.woken = ret.slot.isSome) ?_ ?_ ret hret hop
  · rintro s ⟨service, fd, clock, poller, hreg, rfl⟩
    exact nofun
  · intro s label s' hI hG hstep
    cases label with
    | clock reading =>
        cases hstep
        exact hI
    | breakWaker broken =>
        cases hstep
        exact hI
    | turn input =>
        obtain ⟨th, hturn, rfl⟩ := Option.map_eq_some_iff.mp hstep
        exact hI
    | controller i move =>
        cases System.moved_of_controllerStep hstep with
        | clone hi => exact hI
        | drop hi => exact hI
        | sent hi op msg hmsg hrecv => exact hI
        | lost hi => exact hI
        | refused hi c =>
            intro r hr hr'
            rcases List.mem_append.mp hr with hr | hr
            · exact hI r hr hr'
            · rw [List.mem_singleton.mp hr] at hr'
              cases hr'
        | woke op slot hi ok =>
            rw [System.wakeStep_eq]
            -- the new entry is the only one the guard speaks about
            intro r hr hr'
            rcases List.mem_append.mp hr with hr | hr
            · exact hI r hr hr'
            · rw [List.mem_singleton.mp hr] at hr' ⊢
              have hagree := hG (.waking op slot) hi
              rw [show op = .shutdown from hr'] at hagree
              exact beq_iff_eq.mp hagree

/-- In any run, a call that has sent its message and raised the wake signal does not leave
its message in front of a sleeping thread. -/
theorem signal_of_queued {G : System H P L T C EL ET → Label A C → Prop}
    {s : System H P L T C EL ET} (hs : (reactor prof engine).Reachable G s) {ret : Return C}
    (hret : ret ∈ s.returned) (hwoken : ret.woken = true) {k : ℕ} (hslot : ret.slot = some k)
    (hqueued : s.Queued k) {timeout : Duration} (hpc : s.pc = .poll timeout) :
    s.runtime.waker.signal = true := by
  -- a collector that is away is called by the bell or not at all
  have hph : s.mailbox.phase = .away := congrArg Pc.phase hpc
  have hact : s.mailbox.phase.Active := by
    rw [hph]
    decide
  have hrung : k ∈ s.mailbox.rung := ⟨ret, hret, hslot, hwoken⟩
  have hwaiting : s.mailbox.Waiting k := by
    show (s.sent.map Ctl.letter).length ≤ k + (s.channel.queue.map Ctl.letter).length ∧
      k < (s.sent.map Ctl.letter).length
    rw [List.length_map, List.length_map]
    exact hqueued
  rcases Mailbox.rung_not_stranded (System.mailbox_reachable hs) hact hrung hwaiting with
    hbell | hsummoned | hdraining
  · exact hbell
  · rw [hph] at hsummoned
    cases hsummoned
  · rw [hph] at hdraining
    cases hdraining

/-- **When a successful `shutdown` is not stranded.**  In every run in which the send and
the wake of each `shutdown` succeed or fail together, a `shutdown` returns `Ok` if and
only if its message was sent and the wake signal raised after it, and no state is
reachable in which a successful `shutdown` is stranded.  The condition is exact: a
`shutdown` with outcomes `slot` and `ok` of its two steps returns what it should if
and only if the outcomes agree; when it returns an error the caller keeps the
controller. -/
theorem shutdown_not_stranded_iff :
    (∀ s : System H P L T C EL ET, (reactor prof engine).Reachable ShutdownStepsAgree s →
      (∀ ret ∈ s.returned, ret.op = .shutdown →
        (ret.ok = true ↔
          (∃ k, ret.slot = some k ∧ s.sent[k]? = some .shutdown) ∧ ret.woken = true)) ∧
      ¬ s.Stranded) ∧
    (∀ (s s' : System H P L T C EL ET) (i : ℕ) (slot : Option ℕ) (ok : Bool),
      (reactor prof engine).Reachable Lts.anyLabel s →
      s.controllers[i]? = some (.waking .shutdown slot) →
      s.step prof (.controller i (.wake ok)) = some s' →
      ∃ ret, s'.returned = s.returned ++ [ret] ∧ ret.op = .shutdown ∧
        (ret.ok = false → s'.controllers[i]? = some .idle) ∧
        ((ret.ok = true ↔ slot.isSome = true ∧ ok = true) ↔ ok = slot.isSome)) := by
  constructor
  · intro s hs
    have hl := System.inOrder_of_reachable hs
    constructor
    · intro ret hret hop
      have hagree := woken_eq_of_shutdown hs hret hop
      have hresult := hl.result ret hret
      have hsent := hl.done ret hret
      rw [hop] at hresult hsent
      rw [hresult, hagree]
      cases hslot : ret.slot with
      | none => simp [Op.result]
      | some k => simp [Op.result, hsent k hslot, Op.message]
    · rintro ⟨⟨ret, hret, hop, hok, k, hslot, hqueued⟩, ⟨timeout, hpc⟩, hsignal, -⟩
      have hwoken : ret.woken = true := by
        rw [woken_eq_of_shutdown hs hret hop, hslot]
        rfl
      -- the thread does not sleep while the signal is raised
      have hraised := signal_of_queued hs hret hwoken hslot hqueued hpc
      rw [hraised] at hsignal
      cases hsignal
  · intro s s' i slot ok hs hi hstep
    have hmove : s.controllerStep i (.wake ok) = some s' := hstep
    cases System.moved_of_controllerStep hmove with
    | woke op slot' hi' ok =>
        rw [hi] at hi'
        cases hi'
        obtain ⟨hlt, -⟩ := List.getElem?_eq_some_iff.mp hi
        rw [System.wakeStep_eq]
        refine ⟨_, rfl, rfl, ?_, ?_⟩
        · intro herr
          show (s.controllers.set i _)[i]? = some .idle
          rw [List.getElem?_set_self hlt, show Op.shutdown.result slot.isSome ok = false from herr]
          rfl
        · cases slot <;> cases ok <;> simp [Op.result]

end

/-- A `shutdown` whose two steps succeed. -/
theorem shutdown_not_stranded_sent : ∃ s : Errands.Sys,
    (reactor .release Poller.new).Reachable ShutdownStepsAgree s ∧ s.returned.length = 2 ∧
    (∀ ret ∈ s.returned, ret.op = .shutdown →
      (ret.ok = true ↔
        (∃ k, ret.slot = some k ∧ s.sent[k]? = some .shutdown) ∧ ret.woken = true)) ∧
    ¬ s.Stranded := by
  have hrun : Lts.exec (System.step .release) ShutdownStepsAgree Errands.boot
      [.controller 0 (.wake true), .controller 0 (.send .shutdown true),
        .controller 0 (.wake true), .turn (.start [] [])] = some _ := rfl
  have hs := Errands.reachable_of_exec hrun
  exact ⟨_, hs, rfl, shutdown_not_stranded_iff.1 _ hs⟩

/-- A `shutdown` whose wake fails after its send returns `Ok`, and the thread sleeps on. -/
theorem shutdown_stranded : ∃ s : Errands.Sys,
    (reactor .release Poller.new).Reachable Lts.anyLabel s ∧
    (∃ ret ∈ s.returned, ret.op = .shutdown ∧ ret.ok = true ∧ ret.woken = false) ∧
    s.Stranded := by
  have hrun : Lts.exec (System.step .release) Lts.anyLabel Errands.boot
      [.controller 0 (.wake true), .turn (.start [] []),
        .turn (.poll (.ready [Errands.wakerEvent])), .turn .event, .turn .event, .turn .command,
        .turn .action, .controller 0 (.send .shutdown true), .controller 0 (.wake false),
        .turn (.start [] [])] = some _ := rfl
  have hmem : (⟨.shutdown, some 0, false, true⟩ : Return (Action Pipe Pipe)) ∈
      [⟨.launch, none, true, true⟩, ⟨.shutdown, some 0, false, true⟩] :=
    List.mem_cons_of_mem _ List.mem_cons_self
  refine ⟨_, Errands.reachable_of_exec hrun, ⟨_, hmem, rfl, rfl, rfl⟩,
    ⟨_, hmem, rfl, rfl, 0, rfl, ?_⟩, ⟨WAIT_TIMEOUT, rfl⟩, rfl, ?_⟩
  · exact ⟨by decide, by decide⟩
  · rintro ⟨_ | i, op, slot, hi⟩ <;> cases hi

end IoReactor
