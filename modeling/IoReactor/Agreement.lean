/-
# Computations that agree

Two runs of one program from related states.  `Except.Agree R x y` says that `x` and `y`
both succeed, with results that `R` relates, or both fail with the same error; its rules
follow the program.  `Lts.exec_lockstep` carries a relation along two executions whose
labels are related one by one.
-/
import Mathlib.Data.List.Forall2
import IoReactor.Transition

/-- Both computations succeed with related results, or both fail with the same error. -/
inductive Except.Agree {ε α β : Type*} (R : α → β → Prop) : Except ε α → Except ε β → Prop
  | ok {a : α} {b : β} (h : R a b) : Agree R (.ok a) (.ok b)
  | error (e : ε) : Agree R (.error e) (.error e)

namespace Except.Agree

variable {ε : Type*} {α β γ δ : Type _} {R : α → β → Prop} {S : γ → δ → Prop}

/-- A computation agrees with itself. -/
theorem refl {R : α → α → Prop} (hR : ∀ a, R a a) (x : Except ε α) : Agree R x x := by
  cases x with
  | ok a => exact .ok (hR a)
  | error e => exact .error e

/-- Computations that agree go on in agreement. -/
theorem bind {x : Except ε α} {y : Except ε β} {f : α → Except ε γ} {g : β → Except ε δ}
    (hx : Agree R x y) (hf : ∀ a b, R a b → Agree S (f a) (g b)) :
    Agree S (x >>= f) (y >>= g) := by
  cases hx with
  | ok h => exact hf _ _ h
  | error e => exact .error e

end Except.Agree

namespace Lts

variable {S A T B : Type*}

/-- **The lockstep rule.**  If steps under related labels take related states to related
states, or neither is possible, then so do executions of lists of labels that are related
one by one.  A step may use an invariant of the first system and the guard. -/
theorem exec_lockstep {f : S → A → Option S} {g : T → B → Option T} {G : S → A → Prop}
    {G' : T → B → Prop} [∀ s a, Decidable (G s a)] [∀ t b, Decidable (G' t b)]
    {I : S → Prop} {R : S → T → Prop} {L : A → B → Prop}
    (hinv : ∀ s a s', I s → G s a → f s a = some s' → I s')
    (hstep : ∀ s t a b, I s → R s t → L a b → G s a → Option.Rel R (f s a) (g t b))
    (hguard : ∀ s t a b, R s t → L a b → (G s a ↔ G' t b))
    {as : List A} {bs : List B} (hlabels : List.Forall₂ L as bs) {s : S} {t : T} (hs : I s)
    (h : R s t) : Option.Rel R (exec f G s as) (exec g G' t bs) := by
  induction hlabels generalizing s t with
  | nil => exact .some h
  | @cons a b as bs hab _ ih =>
      rw [exec, exec]
      by_cases hG : G s a
      · rw [if_pos hG, if_pos ((hguard s t a b h hab).mp hG)]
        have hnext := hstep s t a b hs h hab hG
        have hs' := hinv s a
        generalize f s a = x, g t b = y at hnext hs' ⊢
        cases hnext with
        | some h' => exact ih (hs' _ hs hG rfl) h'
        | none => exact .none
      · rw [if_neg hG, if_neg fun hG' => hG ((hguard s t a b h hab).mpr hG')]
        exact .none

end Lts
