/-
# Lifecycles

A thing of some kind is born once, is used any number of times and is gone once, all of it
under that one kind.  What happens to the thing is a word over any alphabet whose letters
have a stage; `Life.run` follows the life of the thing along the word, or rejects the word.
The words it accepts are those of the shape `IsLife`, and after the last stage it accepts
nothing more.
-/
import Mathlib.Data.List.Basic

/-- The stages in the life of a thing, each with the kind the thing is taken for. -/
inductive Stage (K : Type*)
  | born (kind : K)
  | used (kind : K)
  | gone (kind : K)
  deriving DecidableEq

/-- How far the life of a thing has come. -/
inductive Life (K : Type*)
  | unborn
  | alive (kind : K)
  | dead (kind : K)
  deriving DecidableEq

/-- A word of the life of one thing: its birth, uses and perhaps its end, of one kind. -/
def IsLife {α K : Type*} (stage : α → Option (Stage K)) (w : List α) : Prop :=
  w = [] ∨ ∃ kind birth uses ends, w = birth :: (uses ++ ends) ∧
    stage birth = some (.born kind) ∧ (∀ use ∈ uses, stage use = some (.used kind)) ∧
    (ends = [] ∨ ∃ last, ends = [last] ∧ stage last = some (.gone kind))

namespace Life

variable {α K : Type*} [DecidableEq K]

/-- The life after one more stage. -/
def step : Life K → Stage K → Option (Life K)
  | .unborn, .born kind => some (.alive kind)
  | .alive kind, .used kind' => if kind' = kind then some (.alive kind) else none
  | .alive kind, .gone kind' => if kind' = kind then some (.dead kind) else none
  | _, _ => none

variable (stage : α → Option (Stage K))

/-- The life after a word; a letter without a stage is rejected. -/
def run : Life K → List α → Option (Life K)
  | life, [] => some life
  | life, a :: w => ((stage a).bind life.step).bind fun life => run life w

variable {stage}

/-- Words one after the other. -/
theorem run_append (life : Life K) (w v : List α) :
    run stage life (w ++ v) = (run stage life w).bind fun life => run stage life v := by
  induction w generalizing life with
  | nil => rfl
  | cons a w ih =>
      rw [List.cons_append, run, run]
      cases (stage a).bind life.step with
      | none => rfl
      | some life' => exact ih life'

/-- A word of one letter. -/
theorem run_singleton {life life' : Life K} {a : α} {s : Stage K} (ha : stage a = some s)
    (hstep : life.step s = some life') : run stage life [a] = some life' := by
  simp [run, ha, hstep]

/-- Uses keep the thing alive. -/
theorem run_uses {kind : K} {w : List α} (h : ∀ a ∈ w, stage a = some (.used kind)) :
    run stage (.alive kind) w = some (.alive kind) := by
  induction w with
  | nil => rfl
  | cons a w ih =>
      obtain ⟨ha, hw⟩ := List.forall_mem_cons.mp h
      simp [run, ha, step, ih hw]

/-- Nothing happens to a thing that is gone. -/
theorem eq_nil_of_run_dead {kind : K} {w : List α} {life : Life K}
    (h : run stage (.dead kind) w = some life) : w = [] := by
  cases w with
  | nil => rfl
  | cons a w =>
      obtain ⟨life', hlife', -⟩ := Option.bind_eq_some_iff.mp h
      obtain ⟨s, -, hstep⟩ := Option.bind_eq_some_iff.mp hlife'
      cases s <;> cases hstep

/-- What can happen to a thing that is alive: uses, and perhaps its end. -/
theorem of_run_alive {kind : K} {w : List α} {life : Life K}
    (h : run stage (.alive kind) w = some life) :
    ∃ uses ends, w = uses ++ ends ∧ (∀ use ∈ uses, stage use = some (.used kind)) ∧
      ((ends = [] ∧ life = .alive kind) ∨
        ∃ last, ends = [last] ∧ stage last = some (.gone kind) ∧ life = .dead kind) := by
  induction w with
  | nil =>
      cases h
      exact ⟨[], [], rfl, nofun, Or.inl ⟨rfl, rfl⟩⟩
  | cons a w ih =>
      obtain ⟨life', hlife', hrest⟩ := Option.bind_eq_some_iff.mp h
      obtain ⟨s, ha, hstep⟩ := Option.bind_eq_some_iff.mp hlife'
      cases s with
      | born kind' => cases hstep
      | used kind' =>
          by_cases hkind : kind' = kind
          · subst hkind
            simp only [step, if_true, Option.some.injEq] at hstep
            subst hstep
            obtain ⟨uses, ends, rfl, huses, hends⟩ := ih hrest
            exact ⟨a :: uses, ends, rfl, List.forall_mem_cons.mpr ⟨ha, huses⟩, hends⟩
          · rw [step, if_neg hkind] at hstep
            cases hstep
      | gone kind' =>
          by_cases hkind : kind' = kind
          · subst hkind
            simp only [step, if_true, Option.some.injEq] at hstep
            subst hstep
            -- the word ends here
            have hnil := eq_nil_of_run_dead hrest
            subst hnil
            cases hrest
            exact ⟨[], [a], rfl, nofun, Or.inr ⟨a, rfl, ha, rfl⟩⟩
          · rw [step, if_neg hkind] at hstep
            cases hstep

/-- The words of a life have the shape of one. -/
theorem isLife_of_run {w : List α} {life : Life K} (h : run stage .unborn w = some life) :
    IsLife stage w := by
  cases w with
  | nil => exact Or.inl rfl
  | cons a w =>
      obtain ⟨life', hlife', hrest⟩ := Option.bind_eq_some_iff.mp h
      obtain ⟨s, ha, hstep⟩ := Option.bind_eq_some_iff.mp hlife'
      cases s with
      | born kind =>
          cases hstep
          obtain ⟨uses, ends, rfl, huses, hends⟩ := of_run_alive hrest
          refine Or.inr ⟨kind, a, uses, ends, rfl, ha, huses, ?_⟩
          rcases hends with ⟨hnil, -⟩ | ⟨last, hlast, hgone, -⟩
          · exact Or.inl hnil
          · exact Or.inr ⟨last, hlast, hgone⟩
      | used kind => cases hstep
      | gone kind => cases hstep

/-- After the end of a thing its word is complete. -/
theorem eq_nil_of_gone {w v : List α} {life : Life K} (h : run stage .unborn (w ++ v) = some life)
    {a : α} (ha : a ∈ w) {kind : K} (hgone : stage a = some (.gone kind)) : v = [] := by
  obtain ⟨w₁, w₂, rfl⟩ := List.append_of_mem ha
  rw [List.append_assoc, run_append] at h
  obtain ⟨life₁, -, hrest⟩ := Option.bind_eq_some_iff.mp h
  obtain ⟨life₂, hlife₂, hafter⟩ := Option.bind_eq_some_iff.mp hrest
  rw [hgone] at hlife₂
  cases life₁ with
  | unborn => cases hlife₂
  | dead kind' => cases hlife₂
  | alive kind' =>
      by_cases hkind : kind = kind'
      · simp only [step, Option.bind_some, if_pos hkind, Option.some.injEq] at hlife₂
        subst hlife₂
        exact (List.append_eq_nil_iff.mp (eq_nil_of_run_dead hafter)).2
      · simp [step, hkind] at hlife₂

end Life
