/-
# Labelled transition systems, guarded runs and invariants

The vocabulary in which a concurrent program is verified: a system is a set of
initial states and a labelled step relation, a *guard* says which labels the
surroundings are assumed to offer in a state, and a run is a chain of guarded
steps.  The file provides

* the run relation `Steps` and the reachable states `Reachable`, relative to a guard;
* the invariant rule `Reachable.invariant` and its relative form;
* the simulation rule `Reachable.map`, which carries reachability to an
  abstract system along an abstraction function;
* `exec`, which evaluates a list of labels for systems given by a function.
-/
import Mathlib.Logic.Relation
import Mathlib.Data.List.Basic

/-- A labelled transition system: its initial states and its steps. -/
structure Lts (S A : Type*) where
  init : S → Prop
  step : S → A → S → Prop

namespace Lts

variable {S A T B : Type*} (M : Lts S A)

/-! ## Guarded steps and runs -/

/-- One step of `M` whose label the guard `G` admits in the state it starts from. -/
def StepUnder (G : S → A → Prop) (s s' : S) : Prop :=
  ∃ a, G s a ∧ M.step s a s'

/-- The runs of `M`: any number of guarded steps. -/
def Steps (G : S → A → Prop) : S → S → Prop :=
  Relation.ReflTransGen (M.StepUnder G)

/-- The states that a guarded run reaches from an initial state. -/
def Reachable (G : S → A → Prop) (s : S) : Prop :=
  ∃ s₀, M.init s₀ ∧ M.Steps G s₀ s

/-- The guard that admits every label. -/
def anyLabel (_ : S) (_ : A) : Prop := True

instance (s : S) (a : A) : Decidable (anyLabel s a) := isTrue trivial

/-- The guard that demands `D` of what `pick` finds in a label, and admits the labels in which
it finds nothing. -/
def demand {X : Type*} (pick : A → Option X) (D : S → X → Prop) (s : S) (a : A) : Prop :=
  (pick a).elim True (D s)

instance {X : Type*} (pick : A → Option X) (D : S → X → Prop) [∀ s x, Decidable (D s x)] (s : S)
    (a : A) : Decidable (demand pick D s a) :=
  match h : pick a with
  | none => isTrue (by rw [demand, h]; trivial)
  | some x => decidable_of_iff (D s x) (by rw [demand, h]; rfl)

/-- A demand is met if all that is found in the label meets it. -/
theorem demand_iff {X : Type*} {pick : A → Option X} {D : S → X → Prop} {s : S} {a : A} :
    demand pick D s a ↔ ∀ x ∈ pick a, D s x := by
  unfold demand
  cases pick a with
  | none => simp
  | some x => simp

variable {M}

/-- A weaker guard admits at least the same steps. -/
theorem StepUnder.mono {G G' : S → A → Prop} (h : ∀ s a, G s a → G' s a) {s s' : S}
    (hs : M.StepUnder G s s') : M.StepUnder G' s s' := by
  obtain ⟨a, hG, hstep⟩ := hs
  exact ⟨a, h s a hG, hstep⟩

/-- A weaker guard admits at least the same runs. -/
theorem Steps.mono {G G' : S → A → Prop} (h : ∀ s a, G s a → G' s a) {s s' : S}
    (hs : M.Steps G s s') : M.Steps G' s s' :=
  Relation.ReflTransGen.mono (fun _ _ hstep => StepUnder.mono h hstep) _ _ hs

/-- A weaker guard reaches at least the same states. -/
theorem Reachable.mono {G G' : S → A → Prop} (h : ∀ s a, G s a → G' s a) {s : S}
    (hs : M.Reachable G s) : M.Reachable G' s := by
  obtain ⟨s₀, h₀, hrun⟩ := hs
  exact ⟨s₀, h₀, hrun.mono h⟩

/-- A guarded step leads from a reachable state to a reachable state. -/
theorem Reachable.step {G : S → A → Prop} {s s' : S} {a : A} (hs : M.Reachable G s)
    (hG : G s a) (hstep : M.step s a s') : M.Reachable G s' := by
  obtain ⟨s₀, h₀, hrun⟩ := hs
  exact ⟨s₀, h₀, hrun.tail ⟨a, hG, hstep⟩⟩

/-- A guarded run leads from a reachable state to a reachable state. -/
theorem Reachable.steps {G : S → A → Prop} {s s' : S} (hs : M.Reachable G s)
    (hrun : M.Steps G s s') : M.Reachable G s' := by
  obtain ⟨s₀, h₀, hrun₀⟩ := hs
  exact ⟨s₀, h₀, hrun₀.trans hrun⟩

/-! ## Invariants -/

/-- **The run rule.**  A property that every guarded step keeps is kept by a
guarded run. -/
theorem Steps.preserves {G : S → A → Prop} {I : S → Prop}
    (hstep : ∀ s a s', I s → G s a → M.step s a s' → I s') {s s' : S}
    (hrun : M.Steps G s s') (hs : I s) : I s' := by
  induction hrun with
  | refl => exact hs
  | tail _ hlast ih =>
      obtain ⟨a, hG, hst⟩ := hlast
      exact hstep _ a _ ih hG hst

/-- **The invariant rule.**  A property of the initial states that every guarded
step keeps holds of every reachable state. -/
theorem Reachable.invariant {G : S → A → Prop} {I : S → Prop}
    (hinit : ∀ s, M.init s → I s)
    (hstep : ∀ s a s', I s → G s a → M.step s a s' → I s') {s : S}
    (hs : M.Reachable G s) : I s := by
  obtain ⟨s₀, h₀, hrun⟩ := hs
  exact hrun.preserves hstep (hinit s₀ h₀)

/-- The invariant rule relative to a property `J` that is already known to hold
of every reachable state. -/
theorem Reachable.invariant_of {G : S → A → Prop} {I J : S → Prop}
    (hJ : ∀ s, M.Reachable G s → J s)
    (hinit : ∀ s, M.init s → I s)
    (hstep : ∀ s a s', J s → I s → G s a → M.step s a s' → I s') {s : S}
    (hs : M.Reachable G s) : I s := by
  obtain ⟨s₀, h₀, hrun⟩ := hs
  induction hrun with
  | refl => exact hinit s₀ h₀
  | tail hpre hlast ih =>
      obtain ⟨a, hG, hst⟩ := hlast
      exact hstep _ a _ (hJ _ ⟨s₀, h₀, hpre⟩) ih hG hst

/-! ## Simulation -/

/-- **The simulation rule.**  If an abstraction function sends initial states to
initial states and every guarded step to a run of the abstract system, then it
sends reachable states to reachable states. -/
theorem Reachable.map {N : Lts T B} {G : S → A → Prop} {G' : T → B → Prop} (f : S → T)
    (hinit : ∀ s, M.init s → N.init (f s))
    (hstep : ∀ s a s', M.Reachable G s → G s a → M.step s a s' → N.Steps G' (f s) (f s'))
    {s : S} (hs : M.Reachable G s) : N.Reachable G' (f s) := by
  obtain ⟨s₀, h₀, hrun⟩ := hs
  refine ⟨f s₀, hinit s₀ h₀, ?_⟩
  induction hrun with
  | refl => exact Relation.ReflTransGen.refl
  | tail hpre hlast ih =>
      obtain ⟨a, hG, hst⟩ := hlast
      exact ih.trans (hstep _ a _ ⟨s₀, h₀, hpre⟩ hG hst)

/-! ## Systems given by a function -/

/-- The system whose steps are computed by `f`. -/
def ofFun (init : S → Prop) (f : S → A → Option S) : Lts S A where
  init := init
  step := fun s a s' => f s a = some s'

/-- Run a list of labels, checking the guard before every step. -/
def exec (f : S → A → Option S) (G : S → A → Prop) [∀ s a, Decidable (G s a)] :
    S → List A → Option S
  | s, [] => some s
  | s, a :: as => if G s a then (f s a).bind fun s' => exec f G s' as else none

/-- A list of labels that executes is a guarded run. -/
theorem steps_of_exec {init : S → Prop} {f : S → A → Option S} {G : S → A → Prop}
    [∀ s a, Decidable (G s a)] {as : List A} {s s' : S} (h : exec f G s as = some s') :
    (ofFun init f).Steps G s s' := by
  induction as generalizing s with
  | nil =>
      rw [exec, Option.some.injEq] at h
      rw [h]
      exact Relation.ReflTransGen.refl
  | cons a as ih =>
      rw [exec] at h
      split at h
      · rename_i hG
        obtain ⟨u, hu, hrest⟩ := Option.bind_eq_some_iff.mp h
        exact Relation.ReflTransGen.head ⟨a, hG, hu⟩ (ih hrest)
      · cases h

/-- A list of labels that executes from an initial state reaches its result. -/
theorem reachable_of_exec {init : S → Prop} {f : S → A → Option S} {G : S → A → Prop}
    [∀ s a, Decidable (G s a)] {as : List A} {s s' : S} (h₀ : init s)
    (h : exec f G s as = some s') : (ofFun init f).Reachable G s' :=
  ⟨s, h₀, steps_of_exec h⟩

end Lts
