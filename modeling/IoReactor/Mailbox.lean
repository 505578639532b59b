/-
# A mailbox with a bell

The protocol by which many posters hand letters to one collector that sleeps until
a bell rings.  A poster puts its letter into the queue and then rings; the collector
first silences the bell, then takes letters until it finds the queue empty, then
settles what the letters asked for.  The bell is one bit, so any number of rings
coalesce.  A stop letter makes the collector leave at once.

The results are about all interleavings of posters and collector:

* `rung_not_stranded`: while the letter of a poster that has rung is in the queue, the
  bell rings or the collector is on its way through the queue;
* `heeded_or_owing`: if every poster rings, so it is for every letter whose poster is
  not just about to ring;
* `delivery`: letters are taken in the order they were posted, each once, up to the
  first stop;
* `allSettled_of_away`: outside its way through the queue the collector has settled
  all it has taken.
-/
import Mathlib.Data.Set.Insert
import Mathlib.Data.List.Infix
import Mathlib.Logic.Function.Basic
import IoReactor.Transition

/-- A letter: something to do, or the order to stop. -/
inductive Letter (M : Type*)
  | work (m : M)
  | stop
  deriving DecidableEq

/-- What the collector is doing. -/
inductive Phase
  /-- it is elsewhere, and goes to sleep unless the bell rings -/
  | away
  /-- it has silenced the bell and will go through the queue -/
  | summoned
  /-- it is going through the queue -/
  | draining
  /-- it is settling what it has taken -/
  | settling
  /-- it has taken a stop letter -/
  | stopping
  /-- it has left for good because of a stop letter -/
  | stopped
  /-- it has left for good for another reason -/
  | crashed
  deriving DecidableEq

/-- Whether the collector is still at work. -/
def Phase.Active (ph : Phase) : Prop :=
  ph ≠ .stopping ∧ ph ≠ .stopped ∧ ph ≠ .crashed

instance : DecidablePred Phase.Active := fun ph =>
  inferInstanceAs (Decidable (ph ≠ .stopping ∧ ph ≠ .stopped ∧ ph ≠ .crashed))

/-- What the collector has done, as far as it concerns the posters. -/
inductive Deed (M : Type*)
  | took (m : M)
  | settled
  deriving DecidableEq

/-- A mailbox with posters `ι`: the queue, the bell, the collector, the slot in the order
of posting for which each poster still owes a ring, the slots for which a ring was
given and those for which it was not, all letters ever posted, and the deeds of
the collector. -/
@[ext]
structure Mailbox (ι M : Type*) where
  queue : List (Letter M)
  bell : Bool
  phase : Phase
  owing : ι → Option ℕ
  rung : Set ℕ
  reneged : Set ℕ
  posted : List (Letter M)
  deeds : List (Deed M)

namespace Mailbox

variable {ι M : Type*}

/-! ## Slots -/

/-- Nothing is posted yet; some posters may be about to ring all the same. -/
structure Fresh (mb : Mailbox ι M) : Prop where
  queue : mb.queue = []
  phase : mb.phase = .away
  owing : ∀ i, mb.owing i = none
  rung : mb.rung = ∅
  reneged : mb.reneged = ∅
  posted : mb.posted = []
  deeds : mb.deeds = []

/-- The letter posted as number `k` is still in the queue. -/
def Waiting (mb : Mailbox ι M) (k : ℕ) : Prop :=
  mb.posted.length ≤ k + mb.queue.length ∧ k < mb.posted.length

/-- The collector will see whatever is in the queue: it is called, or on its way. -/
def Heeded (mb : Mailbox ι M) : Prop :=
  mb.bell = true ∨ mb.phase = .summoned ∨ mb.phase = .draining

/-- The bookkeeping of slots: the queue is the end of what was posted, every ring
owed or given is for a posted letter, and a letter that waits and was rung for is
heeded. -/
structure Booked (mb : Mailbox ι M) : Prop where
  queue_le : mb.queue.length ≤ mb.posted.length
  owing_lt : ∀ i k, mb.owing i = some k → k < mb.posted.length
  rung_lt : ∀ k ∈ mb.rung, k < mb.posted.length
  heeded : mb.phase.Active → ∀ k ∈ mb.rung, mb.Waiting k → mb.Heeded

/-- The bookkeeping is right in a fresh mailbox. -/
theorem booked_of_fresh {mb : Mailbox ι M} (h : mb.Fresh) : mb.Booked := by
  refine ⟨?_, ?_, ?_, ?_⟩
  · rw [h.queue, h.posted]
  · intro i k hk
    rw [h.owing i] at hk
    cases hk
  · intro k hk
    rw [h.rung] at hk
    exact absurd hk (Set.notMem_empty k)
  · intro _ k hk
    rw [h.rung] at hk
    exact absurd hk (Set.notMem_empty k)

/-! ## The protocol -/

/-- The steps of the protocol. -/
inductive Event (ι M : Type*)
  | post (i : ι) (l : Letter M)
  | ring (i : ι)
  | renege (i : ι)
  | answer
  | enter
  | skip
  | take
  | settle
  | leave

/-- The slots for which the poster `i` owes a ring. -/
def debt (mb : Mailbox ι M) (i : ι) : Set ℕ := {k | mb.owing i = some k}

variable [DecidableEq ι]

/-- The step relation of the protocol. -/
inductive Step : Mailbox ι M → Event ι M → Mailbox ι M → Prop
  | post (mb : Mailbox ι M) (i : ι) (l : Letter M) (hfree : mb.owing i = none)
      (hstop : mb.phase ≠ .stopped) (hcrash : mb.phase ≠ .crashed) :
      Step mb (.post i l) { mb with
        queue := mb.queue ++ [l]
        posted := mb.posted ++ [l]
        owing := Function.update mb.owing i (some mb.posted.length) }
  | ring (mb : Mailbox ι M) (i : ι) :
      Step mb (.ring i) { mb with
        bell := true
        rung := mb.rung ∪ mb.debt i
        owing := Function.update mb.owing i none }
  | renege (mb : Mailbox ι M) (i : ι) :
      Step mb (.renege i) { mb with
        reneged := mb.reneged ∪ mb.debt i
        owing := Function.update mb.owing i none }
  | answer (mb : Mailbox ι M) (hph : mb.phase = .away ∨ mb.phase = .summoned) :
      Step mb .answer { mb with bell := false, phase := .summoned }
  | enter (mb : Mailbox ι M) (hph : mb.phase = .summoned) :
      Step mb .enter { mb with phase := .draining }
  | skip (mb : Mailbox ι M) (hph : mb.phase = .away) :
      Step mb .skip { mb with phase := .settling }
  | takeWork (mb : Mailbox ι M) (hph : mb.phase = .draining) (m : M) (rest : List (Letter M))
      (hqueue : mb.queue = .work m :: rest) :
      Step mb .take { mb with queue := rest, deeds := mb.deeds ++ [.took m] }
  | takeStop (mb : Mailbox ι M) (hph : mb.phase = .draining) (rest : List (Letter M))
      (hqueue : mb.queue = .stop :: rest) :
      Step mb .take { mb with queue := rest, phase := .stopping }
  | takeNothing (mb : Mailbox ι M) (hph : mb.phase = .draining) (hqueue : mb.queue = []) :
      Step mb .take { mb with phase := .settling }
  | settle (mb : Mailbox ι M) (hph : mb.phase = .settling) :
      Step mb .settle { mb with phase := .away, deeds := mb.deeds ++ [.settled] }
  | stopped (mb : Mailbox ι M) (hph : mb.phase = .stopping) :
      Step mb .leave { mb with queue := [], phase := .stopped }
  | crashed (mb : Mailbox ι M) : Step mb .leave { mb with queue := [], phase := .crashed }

/-- The protocol as a transition system. -/
def lts (ι M : Type*) [DecidableEq ι] : Lts (Mailbox ι M) (Event ι M) where
  init := Fresh
  step := Step

/-- The guard that every poster rings after it has posted. -/
def EveryoneRings (_ : Mailbox ι M) : Event ι M → Prop
  | .renege _ => False
  | _ => True

/-! ## A letter that was rung for is heeded -/

/-- A letter that waits after another was posted has waited before, or is the new one. -/
theorem waiting_of_post {mb : Mailbox ι M} {i : ι} {l : Letter M} {k : ℕ}
    (hlt : k < mb.posted.length)
    (h : Waiting { mb with
      queue := mb.queue ++ [l]
      posted := mb.posted ++ [l]
      owing := Function.update mb.owing i (some mb.posted.length) } k) : mb.Waiting k := by
  obtain ⟨h1, -⟩ := h
  simp only [List.length_append, List.length_singleton] at h1
  exact ⟨by omega, hlt⟩

omit [DecidableEq ι] in
/-- A collector that is heeded without being on its way is called by the bell. -/
theorem Heeded.bell {mb : Mailbox ι M} (h : mb.Heeded) (hsummoned : mb.phase ≠ .summoned)
    (hdraining : mb.phase ≠ .draining) : mb.bell = true := by
  rcases h with hbell | hph | hph
  · exact hbell
  · exact absurd hph hsummoned
  · exact absurd hph hdraining

/-- What is owed after the debt of one poster has changed. -/
theorem owing_of_update {owing : ι → Option ℕ} {i j : ι} {o : Option ℕ} {k : ℕ}
    (h : Function.update owing i o j = some k) : o = some k ∨ owing j = some k := by
  by_cases hj : j = i
  · subst hj
    rw [Function.update_self] at h
    exact Or.inl h
  · rw [Function.update_of_ne hj] at h
    exact Or.inr h

/-- Every step of the protocol keeps the bookkeeping right. -/
theorem booked_of_step {mb mb' : Mailbox ι M} {e : Event ι M} (hb : mb.Booked)
    (h : Step mb e mb') : mb'.Booked := by
  obtain ⟨hq, hown, hrung, hheed⟩ := hb
  cases h with
  | post i l hfree hstop hcrash =>
      refine ⟨?_, ?_, ?_, ?_⟩
      · simp only [List.length_append]
        omega
      · intro j k hk
        simp only [List.length_append, List.length_singleton]
        rcases owing_of_update hk with hnew | hold
        · rw [Option.some.injEq] at hnew
          omega
        · have := hown j k hold
          omega
      · intro k hk
        have := hrung k hk
        simp only [List.length_append, List.length_singleton]
        omega
      · intro hact k hk hw
        exact hheed hact k hk (waiting_of_post (hrung k hk) hw)
  | ring i =>
      refine ⟨hq, ?_, ?_, fun _ _ _ _ => Or.inl rfl⟩
      · intro j k hk
        rcases owing_of_update hk with hnew | hold
        · cases hnew
        · exact hown j k hold
      · -- the slots rung for now are those the poster owed
        rintro k (hk | hk)
        · exact hrung k hk
        · exact hown i k hk
  | renege i =>
      refine ⟨hq, ?_, hrung, hheed⟩
      intro j k hk
      rcases owing_of_update hk with hnew | hold
      · cases hnew
      · exact hown j k hold
  | answer hph => exact ⟨hq, hown, hrung, fun _ _ _ _ => Or.inr (Or.inl rfl)⟩
  | enter hph => exact ⟨hq, hown, hrung, fun _ _ _ _ => Or.inr (Or.inr rfl)⟩
  | skip hph =>
      refine ⟨hq, hown, hrung, fun _ k hk hw => ?_⟩
      -- away, the collector can only have been called by the bell
      have hact : mb.phase.Active := by rw [hph]; decide
      exact Or.inl ((hheed hact k hk hw).bell (by rw [hph]; decide) (by rw [hph]; decide))
  | takeWork hph m rest hqueue =>
      refine ⟨?_, hown, hrung, fun _ _ _ _ => Or.inr (Or.inr hph)⟩
      rw [hqueue, List.length_cons] at hq
      exact Nat.le_of_succ_le hq
  | takeStop hph rest hqueue =>
      refine ⟨?_, hown, hrung, fun hact => absurd rfl hact.1⟩
      rw [hqueue, List.length_cons] at hq
      exact Nat.le_of_succ_le hq
  | takeNothing hph hqueue =>
      refine ⟨hq, hown, hrung, fun _ k hk hw => ?_⟩
      -- nothing waits in an empty queue
      obtain ⟨h1, h2⟩ := hw
      simp only [hqueue, List.length_nil, Nat.add_zero] at h1 h2
      exact absurd h2 (Nat.not_lt.mpr h1)
  | settle hph =>
      refine ⟨hq, hown, hrung, fun _ k hk hw => ?_⟩
      have hact : mb.phase.Active := by rw [hph]; decide
      exact Or.inl ((hheed hact k hk hw).bell (by rw [hph]; decide) (by rw [hph]; decide))
  | stopped hph => exact ⟨Nat.zero_le _, hown, hrung, fun hact => absurd rfl hact.2.1⟩
  | crashed => exact ⟨Nat.zero_le _, hown, hrung, fun hact => absurd rfl hact.2.2⟩

/-- The bookkeeping is right in every reachable mailbox. -/
theorem booked_of_reachable {G : Mailbox ι M → Event ι M → Prop} {mb : Mailbox ι M}
    (h : (lts ι M).Reachable G mb) : mb.Booked :=
  h.invariant (I := Booked) (fun _ h₀ => booked_of_fresh h₀)
    (fun _ _ _ hI _ hstep => booked_of_step hI hstep)

/-- **A letter that was rung for is never stranded.** -/
theorem rung_not_stranded {G : Mailbox ι M → Event ι M → Prop} {mb : Mailbox ι M}
    (h : (lts ι M).Reachable G mb) (hact : mb.phase.Active) {k : ℕ} (hk : k ∈ mb.rung)
    (hw : mb.Waiting k) : mb.Heeded :=
  (booked_of_reachable h).heeded hact k hk hw

/-- Every posted letter was rung for, or its poster owes the ring or did not give it. -/
def Accounted (mb : Mailbox ι M) : Prop :=
  ∀ k < mb.posted.length, k ∈ mb.rung ∨ k ∈ mb.reneged ∨ ∃ i, mb.owing i = some k

/-- Every step of the protocol accounts for every letter. -/
theorem accounted_of_step {mb mb' : Mailbox ι M} {e : Event ι M} (ha : mb.Accounted)
    (h : Step mb e mb') : mb'.Accounted := by
  cases h with
  | post i l hfree hstop hcrash =>
      intro k hk
      simp only [List.length_append, List.length_singleton] at hk
      by_cases hlt : k < mb.posted.length
      · rcases ha k hlt with hr | hn | ⟨j, hj⟩
        · exact Or.inl hr
        · exact Or.inr (Or.inl hn)
        · have hji : j ≠ i := by
            rintro rfl
            rw [hfree] at hj
            cases hj
          exact Or.inr (Or.inr ⟨j, by simp only [Function.update_of_ne hji]; exact hj⟩)
      · -- the new letter is owed by its poster
        have hk' : k = mb.posted.length := by omega
        exact Or.inr (Or.inr ⟨i, by simp only [Function.update_self, hk']⟩)
  | ring i =>
      intro k hk
      rcases ha k hk with hr | hn | ⟨j, hj⟩
      · exact Or.inl (Or.inl hr)
      · exact Or.inr (Or.inl hn)
      · by_cases hji : j = i
        · subst hji
          exact Or.inl (Or.inr hj)
        · exact Or.inr (Or.inr ⟨j, by simp only [Function.update_of_ne hji]; exact hj⟩)
  | renege i =>
      intro k hk
      rcases ha k hk with hr | hn | ⟨j, hj⟩
      · exact Or.inl hr
      · exact Or.inr (Or.inl (Or.inl hn))
      · by_cases hji : j = i
        · subst hji
          exact Or.inr (Or.inl (Or.inr hj))
        · exact Or.inr (Or.inr ⟨j, by simp only [Function.update_of_ne hji]; exact hj⟩)
  | answer hph => exact ha
  | enter hph => exact ha
  | skip hph => exact ha
  | takeWork hph m rest hqueue => exact ha
  | takeStop hph rest hqueue => exact ha
  | takeNothing hph hqueue => exact ha
  | settle hph => exact ha
  | stopped hph => exact ha
  | crashed => exact ha

/-- If everyone rings, nobody has reneged. -/
theorem reneged_eq_empty {mb : Mailbox ι M} (h : (lts ι M).Reachable EveryoneRings mb) :
    mb.reneged = ∅ := by
  refine h.invariant (I := fun mb => mb.reneged = ∅) (fun _ h₀ => Fresh.reneged h₀) ?_
  intro mb e mb' hI hG hstep
  cases hstep with
  | renege i => exact absurd hG id
  | _ => exact hI

/-- **No lost wakeup.**  If everyone rings, then while the queue is not empty the
collector is called or on its way, or some poster is just about to ring. -/
theorem heeded_or_owing {mb : Mailbox ι M} (h : (lts ι M).Reachable EveryoneRings mb)
    (hact : mb.phase.Active) (hqueue : mb.queue ≠ []) :
    mb.Heeded ∨ ∃ i k, mb.owing i = some k := by
  have hb : mb.Booked := booked_of_reachable h
  have ha : mb.Accounted := h.invariant (I := Accounted)
    (fun _ h₀ k hk => by rw [Fresh.posted h₀] at hk; cases hk)
    (fun _ _ _ hI _ hstep => accounted_of_step hI hstep)
  -- the letter at the head of the queue
  have hpos : 0 < mb.queue.length := List.length_pos_iff.mpr hqueue
  have hle := hb.queue_le
  have hw : mb.Waiting (mb.posted.length - mb.queue.length) := ⟨by omega, by omega⟩
  rcases ha _ hw.2 with hrung | hreneged | ⟨i, hi⟩
  · exact Or.inl (hb.heeded hact _ hrung hw)
  · rw [reneged_eq_empty h] at hreneged
    exact absurd hreneged (Set.notMem_empty _)
  · exact Or.inr ⟨i, _, hi⟩

/-! ## Delivery -/

/-- The things to do that come before the first stop letter. -/
def worksBeforeStop : List (Letter M) → List M
  | [] => []
  | .work m :: ls => m :: worksBeforeStop ls
  | .stop :: _ => []

/-- The things to do that have been taken. -/
def taken : List (Deed M) → List M
  | [] => []
  | .took m :: ds => m :: taken ds
  | .settled :: ds => taken ds

omit [DecidableEq ι] in
/-- What was taken, in pieces. -/
@[simp] theorem taken_append (ds es : List (Deed M)) : taken (ds ++ es) = taken ds ++ taken es := by
  induction ds with
  | nil => rfl
  | cons d ds ih =>
      cases d with
      | took m => simp [taken, ih]
      | settled => simp [taken, ih]

omit [DecidableEq ι] in
/-- Letters without a stop in front of others. -/
@[simp] theorem worksBeforeStop_map_append (ms : List M) (ls : List (Letter M)) :
    worksBeforeStop (ms.map .work ++ ls) = ms ++ worksBeforeStop ls := by
  induction ms with
  | nil => rfl
  | cons m ms ih => simp [worksBeforeStop, ih]

/-- How the letters posted split into those taken and the others. -/
def Delivered (mb : Mailbox ι M) : Prop :=
  match mb.phase with
  | .stopping => ∃ rest, mb.posted = (taken mb.deeds).map .work ++ .stop :: rest
  | .stopped => ∃ rest, mb.posted = (taken mb.deeds).map .work ++ .stop :: rest
  | .crashed => ∃ rest, mb.posted = (taken mb.deeds).map .work ++ rest
  | _ => mb.posted = (taken mb.deeds).map .work ++ mb.queue

omit [DecidableEq ι] in
/-- The letters posted always consist of those taken and some others. -/
theorem exists_rest_of_delivered {mb : Mailbox ι M} (h : mb.Delivered) :
    ∃ rest, mb.posted = (taken mb.deeds).map .work ++ rest := by
  unfold Delivered at h
  split at h
  · obtain ⟨rest, hrest⟩ := h
    exact ⟨_, hrest⟩
  · obtain ⟨rest, hrest⟩ := h
    exact ⟨_, hrest⟩
  · exact h
  · exact ⟨_, h⟩

/-- Every step of the protocol delivers in order. -/
theorem delivered_of_step {mb mb' : Mailbox ι M} {e : Event ι M} (hd : mb.Delivered)
    (h : Step mb e mb') : mb'.Delivered := by
  cases h with
  | post i l hfree hstop hcrash =>
      unfold Delivered at hd ⊢
      cases hph : mb.phase with
      | stopping =>
          -- a letter posted behind the stop joins the rest
          simp only [hph] at hd ⊢
          obtain ⟨rest, hrest⟩ := hd
          exact ⟨rest ++ [l], by rw [hrest]; simp⟩
      | stopped => exact absurd hph hstop
      | crashed => exact absurd hph hcrash
      | _ =>
          simp only [hph] at hd ⊢
          rw [hd, List.append_assoc]
  | ring i => exact hd
  | renege i => exact hd
  | answer hph =>
      unfold Delivered at hd ⊢
      rcases hph with hph | hph <;> simpa only [hph] using hd
  | enter hph =>
      unfold Delivered at hd ⊢
      simpa only [hph] using hd
  | skip hph =>
      unfold Delivered at hd ⊢
      simpa only [hph] using hd
  | takeWork hph m rest hqueue =>
      unfold Delivered at hd ⊢
      simp only [hph] at hd ⊢
      rw [hd, hqueue]
      simp [taken]
  | takeStop hph rest hqueue =>
      unfold Delivered at hd ⊢
      simp only [hph] at hd ⊢
      exact ⟨rest, by rw [hd, hqueue]⟩
  | takeNothing hph hqueue =>
      unfold Delivered at hd ⊢
      simpa only [hph] using hd
  | settle hph =>
      unfold Delivered at hd ⊢
      simp only [hph] at hd ⊢
      rw [hd]
      simp [taken]
  | stopped hph =>
      unfold Delivered at hd ⊢
      simpa only [hph] using hd
  | crashed =>
      show ∃ rest, mb.posted = (taken mb.deeds).map .work ++ rest
      exact exists_rest_of_delivered hd

/-- **Delivery.**  What was posted splits, in order, into what was taken and what
waits, or into what was taken, the stop letter and the rest. -/
theorem delivery {G : Mailbox ι M → Event ι M → Prop} {mb : Mailbox ι M}
    (h : (lts ι M).Reachable G mb) : mb.Delivered := by
  refine h.invariant (I := Delivered) ?_ (fun _ _ _ hI _ hstep => delivered_of_step hI hstep)
  intro mb₀ h₀
  unfold Delivered
  rw [Fresh.phase h₀, Fresh.posted h₀, Fresh.deeds h₀, Fresh.queue h₀]
  rfl

/-- Before a stop is taken, what was posted is what was taken and what waits. -/
theorem posted_of_active {G : Mailbox ι M → Event ι M → Prop} {mb : Mailbox ι M}
    (h : (lts ι M).Reachable G mb) (hact : mb.phase.Active) :
    mb.posted = (taken mb.deeds).map .work ++ mb.queue := by
  have hd := delivery h
  obtain ⟨h1, h2, h3⟩ := hact
  unfold Delivered at hd
  cases hph : mb.phase with
  | stopping => exact absurd hph h1
  | stopped => exact absurd hph h2
  | crashed => exact absurd hph h3
  | _ => simpa only [hph] using hd

/-- Before a stop is taken, what was taken and what waits before the first stop is
what was posted before the first stop. -/
theorem taken_append_of_active {G : Mailbox ι M → Event ι M → Prop} {mb : Mailbox ι M}
    (h : (lts ι M).Reachable G mb) (hact : mb.phase.Active) :
    taken mb.deeds ++ worksBeforeStop mb.queue = worksBeforeStop mb.posted := by
  rw [posted_of_active h hact, worksBeforeStop_map_append]

/-- Once a stop is taken, what was taken is what was posted before the first stop. -/
theorem taken_of_stopping {G : Mailbox ι M → Event ι M → Prop} {mb : Mailbox ι M}
    (h : (lts ι M).Reachable G mb) (hph : mb.phase = .stopping ∨ mb.phase = .stopped) :
    taken mb.deeds = worksBeforeStop mb.posted := by
  have hd := delivery h
  unfold Delivered at hd
  rcases hph with hph | hph <;> simp only [hph] at hd <;> obtain ⟨rest, hrest⟩ := hd <;>
    rw [hrest, worksBeforeStop_map_append, worksBeforeStop, List.append_nil]

/-- A stop is taken only if one was posted. -/
theorem stop_mem_posted {G : Mailbox ι M → Event ι M → Prop} {mb : Mailbox ι M}
    (h : (lts ι M).Reachable G mb) (hph : mb.phase = .stopping ∨ mb.phase = .stopped) :
    .stop ∈ mb.posted := by
  have hd := delivery h
  unfold Delivered at hd
  rcases hph with hph | hph <;> simp only [hph] at hd <;> obtain ⟨rest, hrest⟩ := hd <;>
    exact hrest ▸ List.mem_append_right _ List.mem_cons_self

/-- When the collector is gone the queue is empty, and stays so. -/
theorem queue_of_gone {G : Mailbox ι M → Event ι M → Prop} {mb : Mailbox ι M}
    (h : (lts ι M).Reachable G mb) (hph : mb.phase = .stopped ∨ mb.phase = .crashed) :
    mb.queue = [] := by
  refine h.invariant (I := fun mb => mb.phase = .stopped ∨ mb.phase = .crashed → mb.queue = [])
    ?_ ?_ hph
  · intro mb₀ h₀ _
    exact Fresh.queue h₀
  · intro mb e mb' hI _ hstep hgone
    cases hstep with
    | post i l hfree hstop hcrash =>
        rcases hgone with hgone | hgone
        · exact absurd hgone hstop
        · exact absurd hgone hcrash
    | ring i => exact hI hgone
    | renege i => exact hI hgone
    | takeWork hph m rest hqueue =>
        change mb.phase = _ ∨ mb.phase = _ at hgone
        rw [hph] at hgone
        rcases hgone with hgone | hgone <;> cases hgone
    | stopped hph => rfl
    | crashed => rfl
    | _ => rcases hgone with hgone | hgone <;> cases hgone

/-! ## Settling -/

/-- Everything taken was settled afterwards. -/
def AllSettled (ds : List (Deed M)) : Prop :=
  ∀ pre m post, ds = pre ++ .took m :: post → .settled ∈ post

/-- The last deed was to take something. -/
def LastTook (ds : List (Deed M)) : Prop := ∃ m, ds.getLast? = some (.took m)

omit [DecidableEq ι] in
/-- Everything taken was settled if and only if the last deed was not to take. -/
theorem allSettled_iff {ds : List (Deed M)} : AllSettled ds ↔ ¬ LastTook ds := by
  constructor
  · rintro h ⟨m, hlast⟩
    obtain ⟨pre, rfl⟩ := List.getLast?_eq_some_iff.mp hlast
    exact absurd (h pre m [] rfl) List.not_mem_nil
  · -- either nothing comes behind the deed of taking, or the last deed does
    rintro h pre m post rfl
    rcases List.eq_nil_or_concat post with rfl | ⟨init, d, rfl⟩
    · exact absurd ⟨m, by simp⟩ h
    · cases d with
      | took m' =>
          refine absurd ⟨m', ?_⟩ h
          rw [List.concat_eq_append, ← List.cons_append, ← List.append_assoc,
            List.getLast?_concat]
      | settled => simp

/-- Every step of the protocol leaves nothing unsettled outside the way through the
queue. -/
theorem settled_of_step {mb mb' : Mailbox ι M} {e : Event ι M}
    (hs : mb.phase = .away ∨ mb.phase = .summoned → ¬ LastTook mb.deeds)
    (h : Step mb e mb') :
    mb'.phase = .away ∨ mb'.phase = .summoned → ¬ LastTook mb'.deeds := by
  cases h with
  | post i l hfree hstop hcrash => exact hs
  | ring i => exact hs
  | renege i => exact hs
  | answer hph => exact fun _ => hs hph
  | enter hph => rintro (hc | hc) <;> cases hc
  | skip hph => rintro (hc | hc) <;> cases hc
  | takeWork hph m rest hqueue =>
      rintro (hc | hc) <;> rw [hph] at hc <;> cases hc
  | takeStop hph rest hqueue => rintro (hc | hc) <;> cases hc
  | takeNothing hph hqueue => rintro (hc | hc) <;> cases hc
  | settle hph =>
      rintro - ⟨m, hlast⟩
      rw [List.getLast?_concat, Option.some.injEq] at hlast
      cases hlast
  | stopped hph => rintro (hc | hc) <;> cases hc
  | crashed => rintro (hc | hc) <;> cases hc

/-- **Settling.**  Outside its way through the queue the collector has settled all it
has taken. -/
theorem allSettled_of_away {G : Mailbox ι M → Event ι M → Prop} {mb : Mailbox ι M}
    (h : (lts ι M).Reachable G mb) (hph : mb.phase = .away ∨ mb.phase = .summoned) :
    AllSettled mb.deeds := by
  rw [allSettled_iff]
  refine h.invariant
    (I := fun mb => mb.phase = .away ∨ mb.phase = .summoned → ¬ LastTook mb.deeds)
    ?_ (fun _ _ _ hI _ hstep => settled_of_step hI hstep) hph
  rintro mb₀ h₀ - ⟨m, hlast⟩
  rw [Fresh.deeds h₀] at hlast
  cases hlast

end Mailbox
