/-
# Infinite runs and leads-to

A liveness property says that something happens sooner or later in an infinite run.  It
rests on fairness, the assumption that helpful labels keep coming, and on a rank that a
helpful step brings down and that no other step brings up.

* `Run` is an infinite guarded run;
* `Run.exists_helpful` finds a helpful label up to which a property is kept;
* `Run.leadsTo_of_rank` is the rule for leads-to;
* `Run.exists_crossing` finds the step that leaves a property;
* `Run.ofExec` is the run that executes a list of labels and then stays where it is;
* `Run.exists_through` finds a run that goes on for ever.
-/
import Mathlib.Data.Nat.Find
import Mathlib.Order.Nat
import IoReactor.Transition

namespace Lts

variable {S A : Type*}

/-- An infinite guarded run of `M`, from a reachable state on. -/
structure Run (M : Lts S A) (G : S → A → Prop) where
  state : ℕ → S
  label : ℕ → A
  start : M.Reachable G (state 0)
  guard : ∀ n, G (state n) (label n)
  step : ∀ n, M.step (state n) (label n) (state (n + 1))

namespace Run

variable {M : Lts S A} {G : S → A → Prop} (r : M.Run G)

/-- Every state of a run is reachable. -/
theorem reachable (n : ℕ) : M.Reachable G (r.state n) := by
  induction n with
  | zero => exact r.start
  | succ n ih => exact ih.step (r.guard n) (r.step n)

/-- A later state is reached by a guarded run. -/
theorem steps {n m : ℕ} (h : n ≤ m) : M.Steps G (r.state n) (r.state m) := by
  induction m, h using Nat.le_induction with
  | base => exact Relation.ReflTransGen.refl
  | succ m _ ih => exact ih.tail ⟨r.label m, r.guard m, r.step m⟩

/-! ## Leads-to -/

/-- Whenever `P` holds, `Q` holds then or later. -/
def LeadsTo (P Q : S → Prop) : Prop :=
  ∀ n, P (r.state n) → ∃ m, n ≤ m ∧ Q (r.state m)

/-- A property that the labels that do not help keep holds at the first one that does. -/
theorem exists_helpful {P : S → Prop} {helpful : A → Prop} {n : ℕ}
    (hkeep : ∀ m, n ≤ m → P (r.state m) → ¬ helpful (r.label m) → P (r.state (m + 1)))
    (hfair : ∃ m, n ≤ m ∧ helpful (r.label m)) (hP : P (r.state n)) :
    ∃ m, n ≤ m ∧ helpful (r.label m) ∧ P (r.state m) := by
  classical
  obtain ⟨hle, hhelp⟩ := Nat.find_spec hfair
  refine ⟨Nat.find hfair, hle, hhelp, ?_⟩
  -- the property is carried from time `n` to the first helpful label
  have hcarry : ∀ m, n ≤ m → m ≤ Nat.find hfair → P (r.state m) := by
    intro m hnm
    induction m, hnm using Nat.le_induction with
    | base => exact fun _ => hP
    | succ m hnm ih =>
        intro hm
        have hlt : m < Nat.find hfair := hm
        exact hkeep m hnm (ih hlt.le) fun h => Nat.find_min hfair hlt ⟨hnm, h⟩
  exact hcarry _ hle le_rfl

/-- **The rule for leads-to.**  If helpful labels keep coming while `P` holds, every helpful
step reaches `Q` or brings the rank down, and the other steps reach `Q` or do not bring it
up, then `P` leads to `Q`. -/
theorem leadsTo_of_rank {P Q : S → Prop} (helpful : A → Prop) (rank : S → ℕ)
    (hkeep : ∀ s a s', M.Reachable G s → P s → G s a → ¬ helpful a → M.step s a s' →
      Q s' ∨ (P s' ∧ rank s' ≤ rank s))
    (hhelp : ∀ s a s', M.Reachable G s → P s → G s a → helpful a → M.step s a s' →
      Q s' ∨ (P s' ∧ rank s' < rank s))
    (hfair : ∀ n, P (r.state n) → ∃ m, n ≤ m ∧ helpful (r.label m)) : r.LeadsTo P Q := by
  intro n
  generalize hk : rank (r.state n) = k
  induction k using Nat.strong_induction_on generalizing n with
  | _ k ih =>
    intro hP
    by_contra hno
    have hnever : ∀ m, n ≤ m → ¬ Q (r.state m) := fun m hnm hQ => hno ⟨m, hnm, hQ⟩
    -- until the next helpful label the rank does not go up
    obtain ⟨m, hnm, hm, hPm, hle⟩ := r.exists_helpful
      (P := fun s => P s ∧ rank s ≤ k) (n := n)
      (fun m hnm ⟨hPm, hle⟩ hm => by
        rcases hkeep _ _ _ (r.reachable m) hPm (r.guard m) hm (r.step m) with hQ | ⟨hP', hle'⟩
        · exact absurd hQ (hnever (m + 1) (Nat.le_succ_of_le hnm))
        · exact ⟨hP', hle'.trans hle⟩)
      (hfair n hP) ⟨hP, hk.le⟩
    rcases hhelp _ _ _ (r.reachable m) hPm (r.guard m) hm (r.step m) with hQ | ⟨hP', hlt⟩
    · exact hnever (m + 1) (Nat.le_succ_of_le hnm) hQ
    · obtain ⟨l, hml, hQ⟩ := ih _ (hlt.trans_le hle) (m + 1) rfl hP'
      exact hnever l ((Nat.le_succ_of_le hnm).trans hml) hQ

/-- A property that holds at some time and fails later is left by some step in between. -/
theorem exists_crossing {P : S → Prop} {n m : ℕ} (hnm : n ≤ m) (hP : P (r.state n))
    (hno : ¬ P (r.state m)) :
    ∃ i, n ≤ i ∧ i < m ∧ P (r.state i) ∧ ¬ P (r.state (i + 1)) := by
  induction m, hnm using Nat.le_induction with
  | base => exact absurd hP hno
  | succ m hnm ih =>
      by_cases hm : P (r.state m)
      · exact ⟨m, hnm, m.lt_succ_self, hm, hno⟩
      · obtain ⟨i, hni, him, hi⟩ := ih hm
        exact ⟨i, hni, Nat.lt_succ_of_lt him, hi⟩

/-! ## Runs that come to rest -/

/-- The state after `n` of the labels, or after all of them. -/
def stateAt (f : S → A → Option S) : S → List A → ℕ → S
  | s, _, 0 => s
  | s, [], _ + 1 => s
  | s, a :: as, n + 1 => stateAt f ((f s a).getD s) as n

/-- After all labels the state is the result of their execution. -/
theorem stateAt_of_exec {f : S → A → Option S} {G : S → A → Prop} [∀ s a, Decidable (G s a)]
    {as : List A} {s s' : S} (h : exec f G s as = some s') {n : ℕ} (hn : as.length ≤ n) :
    stateAt f s as n = s' := by
  induction as generalizing s n with
  | nil =>
      cases h
      cases n <;> rfl
  | cons a as ih =>
      rw [exec] at h
      split at h
      · obtain ⟨u, hu, hrest⟩ := Option.bind_eq_some_iff.mp h
        cases n with
        | zero => cases hn
        | succ n =>
            rw [stateAt, hu]
            exact ih hrest (Nat.le_of_succ_le_succ hn)
      · cases h

/-- While the labels last, each is a guarded step. -/
theorem stateAt_succ {f : S → A → Option S} {G : S → A → Prop} [∀ s a, Decidable (G s a)]
    {as : List A} {s s' : S} (h : exec f G s as = some s') {n : ℕ} {a : A}
    (ha : as[n]? = some a) :
    G (stateAt f s as n) a ∧ f (stateAt f s as n) a = some (stateAt f s as (n + 1)) := by
  induction as generalizing s n with
  | nil => cases ha
  | cons b as ih =>
      rw [exec] at h
      split at h
      · rename_i hG
        obtain ⟨u, hu, hrest⟩ := Option.bind_eq_some_iff.mp h
        cases n with
        | zero =>
            cases ha
            refine ⟨hG, ?_⟩
            rw [stateAt, stateAt, hu]
            cases as <;> rfl
        | succ n =>
            rw [stateAt, stateAt, hu]
            exact ih hrest ha
      · cases h

/-- The run that executes a list of labels and then takes the label `b`, which leaves the
state as it is, for ever. -/
def ofExec {init : S → Prop} {f : S → A → Option S} {G : S → A → Prop}
    [∀ s a, Decidable (G s a)] {as : List A} {b : A} {s s' : S} (h₀ : init s)
    (h : exec f G s as = some s') (hG : G s' b) (hrest : f s' b = some s') :
    (ofFun init f).Run G where
  state := stateAt f s as
  label n := as[n]?.getD b
  start := ⟨s, h₀, by rw [stateAt]; exact Relation.ReflTransGen.refl⟩
  guard n := by
    cases ha : as[n]? with
    | none =>
        rw [stateAt_of_exec h (List.getElem?_eq_none_iff.mp ha)]
        exact hG
    | some a => exact (stateAt_succ h ha).1
  step n := by
    cases ha : as[n]? with
    | none =>
        have hn := List.getElem?_eq_none_iff.mp ha
        rw [stateAt_of_exec h hn, stateAt_of_exec h (Nat.le_succ_of_le hn)]
        exact hrest
    | some a => exact (stateAt_succ h ha).2

/-! ## Runs that never rest -/

/-- If every state at time `n` has a step to one at time `n + 1`, there is a run through
all times. -/
theorem exists_through {M : Lts S A} {G : S → A → Prop} (At : ℕ → S → Prop) (label : ℕ → A)
    {s₀ : S} (hs : M.Reachable G s₀) (h₀ : At 0 s₀)
    (hnext : ∀ n s, At n s → G s (label n) ∧ ∃ s', M.step s (label n) s' ∧ At (n + 1) s') :
    ∃ r : M.Run G, r.state 0 = s₀ ∧ r.label = label ∧ ∀ n, At n (r.state n) := by
  choose next hstep hat using fun n (s : {s // At n s}) => (hnext n s.1 s.2).2
  let states : (n : ℕ) → {s // At n s} :=
    Nat.rec ⟨s₀, h₀⟩ fun n s => ⟨next n s, hat n s⟩
  refine ⟨⟨fun n => (states n).1, label, hs, fun n => ?_, fun n => ?_⟩, rfl, rfl,
    fun n => (states n).2⟩
  · exact (hnext n _ (states n).2).1
  · exact hstep n (states n)

end Run

end Lts
