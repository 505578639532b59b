/-
# An agenda of deadlines

A clock is read once a round.  A round first strikes the deadlines at or before its
reading from the agenda, and then enters new deadlines.  Nothing is assumed about the
order of the readings.

`mem_pending_iff` says which deadlines are on the agenda after a number of rounds, and
`due_iff` which rounds strike something, both in terms of the rounds alone.
-/
import Mathlib.Data.Finset.Filter
import Mathlib.Data.Finset.Lattice.Lemmas
import Mathlib.Data.Finset.Dedup
import Mathlib.Data.List.Induction
import Mathlib.Order.Defs.LinearOrder

/-- A round: the reading of the clock, and the deadlines entered afterwards. -/
structure Round (α : Type*) where
  now : α
  entered : List α

namespace Agenda

variable {α : Type*} [LinearOrder α]

/-- The agenda after a round. -/
def advance (pending : Finset α) (r : Round α) : Finset α :=
  pending.filter (r.now < ·) ∪ r.entered.toFinset

/-- The agenda after a number of rounds. -/
def pending (rounds : List (Round α)) : Finset α := rounds.foldl advance ∅

/-- A round that strikes something from the agenda that the rounds before it leave. -/
def Due (before : List (Round α)) (now : α) : Prop := ∃ t ∈ pending before, t ≤ now

/-- The agenda after one more round. -/
theorem pending_concat (rounds : List (Round α)) (r : Round α) :
    pending (rounds ++ [r]) = advance (pending rounds) r := by
  rw [pending, pending, List.foldl_append, List.foldl_cons, List.foldl_nil]

/-- A round that has not entered anything yet leaves what lies behind its reading. -/
theorem pending_check (rounds : List (Round α)) (now : α) :
    pending (rounds ++ [⟨now, []⟩]) = (pending rounds).filter (now < ·) := by
  rw [pending_concat, advance, List.toFinset_nil, Finset.union_empty]

/-- Entering a deadline in the last round inserts it. -/
theorem pending_enter (rounds : List (Round α)) (r : Round α) (t : α) :
    pending (rounds ++ [⟨r.now, r.entered ++ [t]⟩]) = insert t (pending (rounds ++ [r])) := by
  rw [pending_concat, pending_concat, advance, advance]
  ext u
  simp only [Finset.mem_union, Finset.mem_filter, List.mem_toFinset, List.mem_append,
    List.mem_singleton, Finset.mem_insert]
  tauto

omit [LinearOrder α] in
/-- An entry of a list with one more entry at its end. -/
theorem getElem?_concat_eq_some {xs : List α} {x y : α} {k : ℕ} :
    (xs ++ [x])[k]? = some y ↔ xs[k]? = some y ∨ (k = xs.length ∧ y = x) := by
  constructor
  · intro h
    rcases Nat.lt_or_ge k xs.length with hlt | hge
    · rw [List.getElem?_append_left hlt] at h
      exact Or.inl h
    · have hk : k = xs.length := by
        have := (List.getElem?_eq_some_iff.mp h).1
        rw [List.length_append, List.length_singleton] at this
        omega
      rw [hk, List.getElem?_concat_length, Option.some.injEq] at h
      exact Or.inr ⟨hk, h.symm⟩
  · rintro (h | ⟨rfl, rfl⟩)
    · have hlt : k < xs.length := (List.getElem?_eq_some_iff.mp h).1
      rw [List.getElem?_append_left hlt]
      exact h
    · exact List.getElem?_concat_length

/-- **What is on the agenda.**  A deadline is on the agenda if and only if it was entered in
some round and every later round was read before it. -/
theorem mem_pending_iff {rounds : List (Round α)} {t : α} :
    t ∈ pending rounds ↔ ∃ (j : ℕ) (r : Round α), rounds[j]? = some r ∧ t ∈ r.entered ∧
      ∀ (i : ℕ) (r' : Round α), j < i → rounds[i]? = some r' → r'.now < t := by
  induction rounds using List.reverseRecOn with
  | nil =>
      constructor
      · intro h
        cases h
      · rintro ⟨j, r, hr, -⟩
        cases hr
  | append_singleton rounds r ih =>
      rw [pending_concat, advance, Finset.mem_union, Finset.mem_filter, List.mem_toFinset, ih]
      constructor
      · rintro (⟨⟨j, r', hr', ht, hlater⟩, hnow⟩ | ht)
        · -- entered before the last round, which is read before it
          refine ⟨j, r', getElem?_concat_eq_some.mpr (Or.inl hr'), ht, ?_⟩
          intro i r'' hi hr''
          rcases getElem?_concat_eq_some.mp hr'' with hold | ⟨-, rfl⟩
          · exact hlater i r'' hi hold
          · exact hnow
        · -- entered in the last round
          refine ⟨rounds.length, r, List.getElem?_concat_length, ht, ?_⟩
          intro i r'' hi hr''
          rcases getElem?_concat_eq_some.mp hr'' with hold | ⟨rfl, -⟩
          · exact absurd (List.getElem?_eq_some_iff.mp hold).1 (Nat.lt_asymm hi)
          · exact absurd hi (Nat.lt_irrefl _)
      · rintro ⟨j, r', hr', ht, hlater⟩
        rcases getElem?_concat_eq_some.mp hr' with hold | ⟨-, rfl⟩
        · have hj : j < rounds.length := (List.getElem?_eq_some_iff.mp hold).1
          refine Or.inl ⟨⟨j, r', hold, ht, ?_⟩,
            hlater rounds.length r hj List.getElem?_concat_length⟩
          intro i r'' hi hr''
          exact hlater i r'' hi (getElem?_concat_eq_some.mpr (Or.inl hr''))
        · exact Or.inr ht

omit [LinearOrder α] in
/-- The rounds before round `k`. -/
theorem getElem?_take_eq_some {rounds : List (Round α)} {k i : ℕ} {r : Round α} :
    (rounds.take k)[i]? = some r ↔ i < k ∧ rounds[i]? = some r := by
  rw [List.getElem?_take]
  split
  · rename_i hlt
    exact ⟨fun h => ⟨hlt, h⟩, fun h => h.2⟩
  · rename_i hge
    exact ⟨nofun, fun h => absurd h.1 hge⟩

/-- **Which rounds strike something.**  The round number `k` strikes something if and only if a
deadline at or before its reading was entered in an earlier round and every round
strictly between the two was read before it. -/
theorem due_iff {rounds : List (Round α)} {k : ℕ} {now : α} :
    Due (rounds.take k) now ↔ ∃ j < k, ∃ r, rounds[j]? = some r ∧ ∃ t ∈ r.entered, t ≤ now ∧
      ∀ (i : ℕ) (r' : Round α), j < i → i < k → rounds[i]? = some r' → r'.now < t := by
  constructor
  · rintro ⟨t, ht, hle⟩
    obtain ⟨j, r, hr, hmem, hlater⟩ := mem_pending_iff.mp ht
    obtain ⟨hj, hr'⟩ := getElem?_take_eq_some.mp hr
    refine ⟨j, hj, r, hr', t, hmem, hle, fun i r' hi hik hr'' => ?_⟩
    exact hlater i r' hi (getElem?_take_eq_some.mpr ⟨hik, hr''⟩)
  · rintro ⟨j, hj, r, hr, t, hmem, hle, hlater⟩
    refine ⟨t, mem_pending_iff.mpr ⟨j, r, getElem?_take_eq_some.mpr ⟨hj, hr⟩, hmem, ?_⟩,
      hle⟩
    intro i r' hi hr'
    obtain ⟨hik, hr''⟩ := getElem?_take_eq_some.mp hr'
    exact hlater i r' hi hik hr''

end Agenda
