/-
# Custody of deposited items

A depositary takes items under keys that it never uses twice, may change an item while
it holds it, and gives items back.  The accounts are sound when the keys deposited are
distinct, the keys held and given back are together those deposited, and each item
held or given back has become of the one deposited under its key, in the sense of a
relation `R` that says how items may change.

Deposits, changes and returns keep the accounts sound; in sound accounts every deposit is in
exactly one place (`Sound.exactly_one_place`) and nothing else is in any
(`Sound.origin`).
-/
import Mathlib.Data.List.Basic
import Mathlib.Data.List.Nodup
import Mathlib.Data.List.Count
import Mathlib.Data.List.Perm.Basic

/-- The accounts of a depositary: what was ever deposited, what it holds, and what it
has given back. -/
structure Custody (K V : Type*) where
  deposited : List (K × V)
  held : List (K × V)
  returned : List (K × V)

namespace Custody

variable {K V : Type*} {R : V → V → Prop} {c : Custody K V}

/-- The keys of a list of items. -/
abbrev keys (items : List (K × V)) : List K := items.map Prod.fst

/-- The accounts are sound. -/
structure Sound (R : V → V → Prop) (c : Custody K V) : Prop where
  nodup : (keys c.deposited).Nodup
  perm : (keys (c.held ++ c.returned)).Perm (keys c.deposited)
  origin : ∀ k v, (k, v) ∈ c.held ++ c.returned → ∃ v₀, (k, v₀) ∈ c.deposited ∧ R v₀ v

namespace Sound

/-- Empty accounts are sound. -/
theorem empty : Sound R (⟨[], [], []⟩ : Custody K V) :=
  ⟨List.nodup_nil, List.Perm.refl _, nofun⟩

/-- Items that only change places, or order, leave the accounts sound. -/
theorem of_perm (h : c.Sound R) {held returned : List (K × V)}
    (hperm : (held ++ returned).Perm (c.held ++ c.returned)) :
    Sound R ⟨c.deposited, held, returned⟩ where
  nodup := h.nodup
  perm := (hperm.map Prod.fst).trans h.perm
  origin k v hmem := h.origin k v (hperm.mem_iff.mp hmem)

/-- A deposit under a new key. -/
theorem deposit (h : c.Sound R) {k : K} {v : V} (hnew : k ∉ keys c.deposited) (hrefl : R v v)
    {held : List (K × V)} (hheld : held.Perm ((k, v) :: c.held)) :
    Sound R ⟨c.deposited ++ [(k, v)], held, c.returned⟩ where
  nodup := by
    show (keys (c.deposited ++ [(k, v)])).Nodup
    rw [keys, List.map_append]
    refine List.Nodup.append h.nodup (List.nodup_singleton _) ?_
    intro k' hk' hmem
    rw [List.map_singleton, List.mem_singleton] at hmem
    subst hmem
    exact hnew hk'
  perm := by
    have hall : (held ++ c.returned).Perm ((k, v) :: (c.held ++ c.returned)) :=
      hheld.append_right c.returned
    apply (hall.map Prod.fst).trans
    have hkeys : keys (c.deposited ++ [(k, v)]) = keys c.deposited ++ [k] := List.map_append
    show (k :: keys (c.held ++ c.returned)).Perm (keys (c.deposited ++ [(k, v)]))
    rw [hkeys]
    exact (h.perm.cons k).trans (List.perm_append_singleton _ _).symm
  origin k' v' hmem := by
    have hall : (held ++ c.returned).Perm ((k, v) :: (c.held ++ c.returned)) :=
      hheld.append_right c.returned
    rcases List.mem_cons.mp (hall.mem_iff.mp hmem) with heq | hmem
    · cases heq
      exact ⟨v, List.mem_append_right _ (List.mem_singleton.mpr rfl), hrefl⟩
    · obtain ⟨v₀, hv₀, hR⟩ := h.origin k' v' hmem
      exact ⟨v₀, List.mem_append_left _ hv₀, hR⟩

/-- A change of an item that is held. -/
theorem update (h : c.Sound R) {k : K} {v v' : V} (hR : ∀ u, R u v → R u v')
    {rest held : List (K × V)} (hbefore : c.held.Perm ((k, v) :: rest))
    (hafter : held.Perm ((k, v') :: rest)) : Sound R ⟨c.deposited, held, c.returned⟩ where
  nodup := h.nodup
  perm := by
    have hkeys : (keys held).Perm (keys c.held) :=
      (hafter.map Prod.fst).trans (hbefore.map Prod.fst).symm
    refine List.Perm.trans ?_ h.perm
    rw [keys, keys, List.map_append, List.map_append]
    exact hkeys.append_right _
  origin k₁ v₁ hmem := by
    rcases List.mem_append.mp hmem with hmem | hmem
    · rcases List.mem_cons.mp (hafter.mem_iff.mp hmem) with heq | hmem
      · cases heq
        have hheld : (k, v) ∈ c.held := hbefore.mem_iff.mpr List.mem_cons_self
        obtain ⟨v₀, hv₀, hR₀⟩ := h.origin k v (List.mem_append_left _ hheld)
        exact ⟨v₀, hv₀, hR v₀ hR₀⟩
      · have hheld : (k₁, v₁) ∈ c.held := hbefore.mem_iff.mpr (List.mem_cons_of_mem _ hmem)
        exact h.origin k₁ v₁ (List.mem_append_left _ hheld)
    · exact h.origin k₁ v₁ (List.mem_append_right _ hmem)

/-- An item that is held is given back. -/
theorem giveBack (h : c.Sound R) {k : K} {v : V} {held : List (K × V)}
    (hbefore : c.held.Perm ((k, v) :: held)) :
    Sound R ⟨c.deposited, held, c.returned ++ [(k, v)]⟩ := by
  apply h.of_perm
  have hend : (held ++ (c.returned ++ [(k, v)])).Perm ((k, v) :: (held ++ c.returned)) := by
    rw [← List.append_assoc]
    exact List.perm_append_singleton _ _
  exact hend.trans (hbefore.append_right c.returned).symm

/-- Two deposits under one key are one. -/
theorem deposit_unique (h : c.Sound R) {k : K} {v v' : V} (hv : (k, v) ∈ c.deposited)
    (hv' : (k, v') ∈ c.deposited) : v = v' := by
  have heq := List.inj_on_of_nodup_map h.nodup hv hv' rfl
  exact congrArg Prod.snd heq

variable [DecidableEq K]

/-- The key of a deposit occurs once among the items held and given back. -/
theorem count_keys (h : c.Sound R) {k : K} {v : V} (hk : (k, v) ∈ c.deposited) :
    (keys c.held).count k + (keys c.returned).count k = 1 := by
  rw [← List.count_append, ← List.map_append, h.perm.count_eq k]
  exact List.count_eq_one_of_mem h.nodup (List.mem_map_of_mem hk)

/-- **Exactly one place.**  Every deposit is held, and then not given back, or given back
once, and then not held; what is held or given back has become of it. -/
theorem exactly_one_place (h : c.Sound R) {k : K} {v : V} (hk : (k, v) ∈ c.deposited) :
    ((∃ v', (k, v') ∈ c.held ∧ R v v') ∧ (keys c.held).count k = 1 ∧ k ∉ keys c.returned) ∨
    ((∃ v', (k, v') ∈ c.returned ∧ R v v') ∧ (keys c.returned).count k = 1 ∧
      k ∉ keys c.held) := by
  have hcount := h.count_keys hk
  -- the item under the key has become of the deposit
  have hitem : ∀ v', (k, v') ∈ c.held ++ c.returned → R v v' := by
    intro v' hv'
    obtain ⟨v₀, hv₀, hR⟩ := h.origin k v' hv'
    rwa [h.deposit_unique hk hv₀]
  by_cases hheld : k ∈ keys c.held
  · obtain ⟨⟨k', v'⟩, hv', rfl⟩ := List.mem_map.mp hheld
    have hpos := List.count_pos_iff.mpr hheld
    refine Or.inl ⟨⟨v', hv', hitem v' (List.mem_append_left _ hv')⟩, by omega, ?_⟩
    exact List.count_eq_zero.mp (by omega)
  · have hzero := List.count_eq_zero.mpr hheld
    have hreturned : k ∈ keys c.returned := List.count_pos_iff.mp (by omega)
    obtain ⟨⟨k', v'⟩, hv', rfl⟩ := List.mem_map.mp hreturned
    exact Or.inr ⟨⟨v', hv', hitem v' (List.mem_append_right _ hv')⟩, by omega, hheld⟩

end Sound

end Custody
