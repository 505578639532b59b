/-
# Systems that are watched

A recording keeps a history variable beside the state of a system: each step notes down in
it what an observer saw.  It restricts nothing, so what holds of the reachable states of the
system holds of those of the recording (`Lts.Reachable.of_recording`), and guards on its
labels can speak of what was noted.  Counting the steps of one kind gives a rule for how
many of them a run can take before something happens (`Lts.bound_of_rank`).
-/
import IoReactor.Transition

namespace Lts

variable {S A B : Type*}

/-- The system whose steps are computed by `f`, watched: `note` says what is recorded of a
step, from the state before it. -/
def recording (init : S → Prop) (f : S → A → Option S) (b₀ : B) (note : S → A → B → B) :
    Lts (S × B) A :=
  ofFun (fun x => init x.1 ∧ x.2 = b₀)
    fun x a => (f x.1 a).map fun s => (s, note x.1 a x.2)

variable {init : S → Prop} {f : S → A → Option S} {b₀ : B} {note : S → A → B → B}

/-- A step that is watched is a step. -/
theorem step_of_recording {x y : S × B} {a : A} (h : (recording init f b₀ note).step x a y) :
    f x.1 a = some y.1 ∧ y.2 = note x.1 a x.2 := by
  obtain ⟨s, hs, rfl⟩ := Option.map_eq_some_iff.mp h
  exact ⟨hs, rfl⟩

/-- A run that is watched is a run. -/
theorem Steps.of_recording {G : S × B → A → Prop} {x y : S × B}
    (h : (recording init f b₀ note).Steps G x y) : (ofFun init f).Steps anyLabel x.1 y.1 := by
  have hrefl : (ofFun init f).Steps anyLabel x.1 x.1 := Relation.ReflTransGen.refl
  refine h.preserves (I := fun z => (ofFun init f).Steps anyLabel x.1 z.1) ?_ hrefl
  intro z a z' hz _ hstep
  exact hz.tail ⟨a, trivial, (step_of_recording hstep).1⟩

/-- What is reached while it is watched is reached. -/
theorem Reachable.of_recording {G : S × B → A → Prop} {x : S × B}
    (h : (recording init f b₀ note).Reachable G x) :
    (ofFun init f).Reachable anyLabel x.1 := by
  obtain ⟨x₀, hinit, hrun⟩ := h
  exact ⟨x₀.1, hinit.1, Steps.of_recording hrun⟩

/-- **The rule for bounds.**  Labels have costs.  If every step reaches `Q` or brings the rank
down by its cost at least, and `Q` is kept, then a run whose costs add up to more than the
rank at its start reaches `Q`. -/
theorem bound_of_rank {cost : A → ℕ} {P Q : S → Prop} (rank : S → ℕ)
    (hstep : ∀ s a s', (ofFun init f).Reachable anyLabel s → P s → f s a = some s' →
      Q s' ∨ (P s' ∧ rank s' + cost a ≤ rank s))
    (hkeep : ∀ s a s', Q s → f s a = some s' → Q s') {s s' : S} {n : ℕ}
    (hs : (ofFun init f).Reachable anyLabel s) (hP : P s)
    (hrun : (recording init f 0 fun _ a n => n + cost a).Steps anyLabel (s, 0) (s', n)) :
    Q s' ∨ (P s' ∧ rank s' + n ≤ rank s) := by
  refine (hrun.preserves (I := fun x => (ofFun init f).Reachable anyLabel x.1 ∧
    (Q x.1 ∨ (P x.1 ∧ rank x.1 + x.2 ≤ rank s))) ?_ ⟨hs, Or.inr ⟨hP, Nat.le_refl _⟩⟩).2
  rintro ⟨u, m⟩ a ⟨u', m'⟩ ⟨hu, h⟩ - hnext
  obtain ⟨hf, hm⟩ := step_of_recording hnext
  refine ⟨hu.step trivial hf, ?_⟩
  rcases h with hQ | ⟨hPu, hle⟩
  · exact Or.inl (hkeep u a u' hQ hf)
  · rcases hstep u a u' hu hPu hf with hQ | ⟨hP', hle'⟩
    · exact Or.inl hQ
    · refine Or.inr ⟨hP', ?_⟩
      change rank u + m ≤ rank s at hle
      change m' = m + cost a at hm
      show rank u' + m' ≤ rank s
      omega

end Lts
