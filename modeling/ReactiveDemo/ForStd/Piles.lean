import Mathlib

/-!
# Jobs in piles

The jobs `0, …, n - 1` are kept in several piles. `Piles n piles` says that each of them
lies in exactly one pile, exactly once: no job is lost and none is there twice. A new job
may be put on any pile, and a job may be moved from one pile to another.

## Key results

- `piles_iff_count`: the piles in terms of counts, in which moves are arithmetic
- `Piles.length_le`: no choice of piles has more entries than there are jobs
-/

/-- Every job below `n` lies in exactly one of the piles, once, and nothing else does. -/
def Piles (n : Nat) (piles : List (List Nat)) : Prop := piles.flatten.Perm (List.range n)

/-- The piles are right iff every job is counted once. -/
theorem piles_iff_count {n : Nat} {piles : List (List Nat)} :
    Piles n piles ↔ ∀ k, piles.flatten.count k = if k < n then 1 else 0 := by
  rw [Piles, List.perm_iff_count]
  simp only [List.count_range]

/-- Some of the piles have no more entries than there are jobs. -/
theorem Piles.length_le {n : Nat} (some rest : List (List Nat)) (h : Piles n (some ++ rest)) :
    some.flatten.length ≤ n := by
  have hlen := h.length_eq
  rw [List.flatten_append, List.length_append, List.length_range] at hlen
  omega
