/-
# Backlogs

A backlog is a finite set of items of a linear order.  Items are added one at a time, an
item that is already there being added to no effect, and now and then everything up to
a horizon is cleared.

* `mem_run` says which items a sequence of operations leaves;
* `card_run` is the balance of what came in and what was cleared;
* `run_adds` and `run_clears` give consecutive operations of one kind in closed form, so
  additions may come in any order (`run_adds_perm`) and a clearing may be preceded by
  any others up to earlier horizons (`run_clears_last`, `cleared_clears_last`).
-/
import Mathlib.Data.Finset.Card
import Mathlib.Data.Finset.Filter
import Mathlib.Data.Finset.Insert
import Mathlib.Order.Basic
import Mathlib.Tactic.Common

namespace Backlog

/-- The operations on a backlog. -/
inductive Op (α : Type*)
  | add (x : α)
  | clear (t : α)

variable {α : Type*} [LinearOrder α]

/-- The backlog after an operation. -/
def Op.apply (s : Finset α) : Op α → Finset α
  | .add x => insert x s
  | .clear t => s.filter (t < ·)

/-- How many new items an operation brings in. -/
def Op.added (s : Finset α) : Op α → ℕ
  | .add x => if x ∈ s then 0 else 1
  | .clear _ => 0

/-- How many items an operation clears. -/
def Op.cleared (s : Finset α) : Op α → ℕ
  | .add _ => 0
  | .clear t => (s.filter (· ≤ t)).card

/-- The backlog after a sequence of operations. -/
def run : Finset α → List (Op α) → Finset α
  | s, [] => s
  | s, op :: ops => run (op.apply s) ops

/-- How many new items a sequence of operations brings in. -/
def added : Finset α → List (Op α) → ℕ
  | _, [] => 0
  | s, op :: ops => op.added s + added (op.apply s) ops

/-- How many items a sequence of operations clears. -/
def cleared : Finset α → List (Op α) → ℕ
  | _, [] => 0
  | s, op :: ops => op.cleared s + cleared (op.apply s) ops

/-- A sequence of operations runs in two parts. -/
theorem run_append (s : Finset α) (ops ops' : List (Op α)) :
    run s (ops ++ ops') = run (run s ops) ops' := by
  induction ops generalizing s with
  | nil => rfl
  | cons op ops ih => exact ih (op.apply s)

/-! ## Which items are left -/

/-- An item is left by a sequence of operations if it was there or was added, and no
horizon has reached it since. -/
theorem mem_run {s : Finset α} {ops : List (Op α)} {x : α} :
    x ∈ run s ops ↔ (x ∈ s ∧ ∀ t, .clear t ∈ ops → t < x) ∨
      ∃ before after, ops = before ++ .add x :: after ∧ ∀ t, .clear t ∈ after → t < x := by
  induction ops generalizing s with
  | nil => simp [run]
  | cons op ops ih =>
      rw [run, ih]
      -- the first operation is the addition meant, or the addition is among the others
      have hsplit : (∃ before after, op :: ops = before ++ .add x :: after ∧
          ∀ t, .clear t ∈ after → t < x) ↔
          (op = .add x ∧ ∀ t, .clear t ∈ ops → t < x) ∨
            ∃ before after, ops = before ++ .add x :: after ∧ ∀ t, .clear t ∈ after → t < x := by
        constructor
        · rintro ⟨before, after, heq, hafter⟩
          cases before with
          | nil =>
              cases heq
              exact Or.inl ⟨rfl, hafter⟩
          | cons op' before =>
              cases heq
              exact Or.inr ⟨before, after, rfl, hafter⟩
        · rintro (⟨rfl, hafter⟩ | ⟨before, after, rfl, hafter⟩)
          · exact ⟨[], ops, rfl, hafter⟩
          · exact ⟨op :: before, after, rfl, hafter⟩
      rw [hsplit]
      cases op with
      | add y =>
          simp only [Op.apply, Finset.mem_insert, List.mem_cons, reduceCtorEq, false_or,
            Op.add.injEq]
          constructor
          · rintro (⟨rfl | hx, hops⟩ | hlater)
            · exact Or.inr (Or.inl ⟨rfl, hops⟩)
            · exact Or.inl ⟨hx, hops⟩
            · exact Or.inr (Or.inr hlater)
          · rintro (⟨hx, hops⟩ | ⟨rfl, hops⟩ | hlater)
            · exact Or.inl ⟨Or.inr hx, hops⟩
            · exact Or.inl ⟨Or.inl rfl, hops⟩
            · exact Or.inr hlater
      | clear t =>
          simp only [Op.apply, Finset.mem_filter, List.mem_cons, reduceCtorEq, false_and,
            false_or, Op.clear.injEq]
          constructor
          · rintro (⟨⟨hx, ht⟩, hops⟩ | hlater)
            · refine Or.inl ⟨hx, ?_⟩
              rintro t' (rfl | ht')
              · exact ht
              · exact hops t' ht'
            · exact Or.inr hlater
          · rintro (⟨hx, hops⟩ | hlater)
            · exact Or.inl ⟨⟨hx, hops t (Or.inl rfl)⟩, fun t' ht' => hops t' (Or.inr ht')⟩
            · exact Or.inr hlater

/-! ## The balance -/

/-- What one operation brings in and clears. -/
theorem Op.card_apply (s : Finset α) (op : Op α) :
    (op.apply s).card + op.cleared s = s.card + op.added s := by
  cases op with
  | add x =>
      by_cases hx : x ∈ s
      · simp [Op.apply, Op.added, Op.cleared, hx]
      · simp [Op.apply, Op.added, Op.cleared, hx]
  | clear t =>
      have hcard := s.card_filter_add_card_filter_not (· ≤ t)
      simp only [not_le] at hcard
      simp only [Op.apply, Op.added, Op.cleared]
      omega

/-- **The balance.**  What was there and what came in is what is left and what was
cleared. -/
theorem card_run (s : Finset α) (ops : List (Op α)) :
    (run s ops).card + cleared s ops = s.card + added s ops := by
  induction ops generalizing s with
  | nil => rfl
  | cons op ops ih =>
      have hstep := op.card_apply s
      have hrest := ih (op.apply s)
      simp only [run, cleared, added]
      omega

/-! ## Consecutive operations of one kind -/

/-- Consecutive additions. -/
theorem mem_run_adds {s : Finset α} {xs : List α} {x : α} :
    x ∈ run s (xs.map .add) ↔ x ∈ s ∨ x ∈ xs := by
  induction xs generalizing s with
  | nil => simp [run]
  | cons y xs ih =>
      rw [List.map_cons, run, ih, Op.apply, Finset.mem_insert, List.mem_cons]
      tauto

/-- Additions may come in any order. -/
theorem run_adds_perm (s : Finset α) {xs ys : List α} (h : xs.Perm ys) :
    run s (xs.map .add) = run s (ys.map .add) := by
  ext x
  rw [mem_run_adds, mem_run_adds, h.mem_iff]

/-- Consecutive clearings keep what is past all horizons. -/
theorem run_clears (s : Finset α) (ts : List α) :
    run s (ts.map .clear) = s.filter fun x => ∀ t ∈ ts, t < x := by
  induction ts generalizing s with
  | nil => simp [run]
  | cons t ts ih =>
      rw [List.map_cons, run, ih, Op.apply, Finset.filter_filter]
      apply Finset.filter_congr
      intro x _
      rw [List.forall_mem_cons]

/-- A clearing makes earlier ones up to earlier horizons superfluous. -/
theorem run_clears_last (s : Finset α) {ts : List α} {t : α} (h : ∀ t' ∈ ts, t' ≤ t) :
    run s ((ts ++ [t]).map .clear) = s.filter (t < ·) := by
  rw [run_clears]
  apply Finset.filter_congr
  intro x _
  constructor
  · intro hall
    exact hall t (List.mem_append_right _ (List.mem_singleton.mpr rfl))
  · intro ht t' ht'
    rcases List.mem_append.mp ht' with ht' | ht'
    · exact lt_of_le_of_lt (h t' ht') ht
    · rwa [List.mem_singleton.mp ht']

/-- The clearings together clear as much as the last one alone would have. -/
theorem cleared_clears_last (s : Finset α) {ts : List α} {t : α} (h : ∀ t' ∈ ts, t' ≤ t) :
    cleared s ((ts ++ [t]).map .clear) = (s.filter (· ≤ t)).card := by
  -- nothing is added, so the balance determines what is cleared
  have hnone : ∀ (s : Finset α) (ts : List α), added s (ts.map .clear) = 0 := by
    intro s ts
    induction ts generalizing s with
    | nil => rfl
    | cons t ts ih => rw [List.map_cons, added, ih, Op.added]
  have hrun := card_run s ((ts ++ [t]).map .clear)
  rw [hnone, run_clears_last s h] at hrun
  have hcard := s.card_filter_add_card_filter_not (· ≤ t)
  simp only [not_le] at hcard
  omega

end Backlog
