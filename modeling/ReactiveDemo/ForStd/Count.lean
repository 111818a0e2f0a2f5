import ReactiveDemo.ForStd.List

/-!
# Counting the indices that are left

`Nat.count p n` counts the indices below `n` at which `p` holds. With `p` "is not removed"
it is where the element at `n` comes to stand once the others are gone.

## Key results

- `Nat.count_count`: removing in two rounds is removing at once
- `List.getElem?_withoutIdx`: where an element stands in `withoutIdx`
-/

namespace Nat

variable {p q r : ℕ → Prop} [DecidablePred p] [DecidablePred q] [DecidablePred r]

/-- What `r` keeps is what `q` keeps of the numbering that `p` leaves. -/
theorem count_count (h : ∀ k, r k ↔ p k ∧ q (count p k)) (n : ℕ) :
    count r n = count q (count p n) := by
  induction n with
  | zero => rw [count_zero, count_zero, count_zero]
  | succ n ih =>
    by_cases hp : p n
    · have hr : r n ↔ q (count p n) := by rw [h, and_iff_right hp]
      rw [count_succ, count_succ, if_pos hp, count_succ, ih]
      simp only [hr]
    · have hr : ¬r n := fun hr => hp ((h n).mp hr).1
      rw [count_succ, count_succ, if_neg hp, if_neg hr, ih, Nat.add_zero, Nat.add_zero]

/-- Below an index are those where `p` holds and the others. -/
theorem count_add_count_not (n : ℕ) : count p n + count (fun k => ¬p k) n = n := by
  induction n with
  | zero => rw [count_zero, count_zero]
  | succ n ih =>
    by_cases hp : p n
    · rw [count_succ, count_succ, if_pos hp, if_neg (not_not_intro hp)]
      omega
    · rw [count_succ, count_succ, if_neg hp, if_pos hp]
      omega

end Nat

namespace List

variable {α : Type*} {l : List α} {idx : List ℕ}

theorem withoutIdx_concat (l : List α) (a : α) (idx : List ℕ) :
    (l ++ [a]).withoutIdx idx = l.withoutIdx idx ++ if l.length ∈ idx then [] else [a] := by
  unfold withoutIdx
  rw [zipIdx_append, filter_append, map_append]
  by_cases h : l.length ∈ idx
  · simp [h]
  · simp [h]

/-- As many are left as there are indices in range that are not listed. -/
theorem length_withoutIdx_eq_count (l : List α) (idx : List ℕ) :
    (l.withoutIdx idx).length = Nat.count (· ∉ idx) l.length := by
  induction l using List.reverseRecOn with
  | nil => rfl
  | append_singleton l a ih =>
    rw [withoutIdx_concat, length_append, ih, length_append, length_singleton, Nat.count_succ]
    -- the last element is left or not
    by_cases h : l.length ∈ idx
    · simp [h]
    · simp [h]

/-- An element that is left stands behind as many as were left before it. -/
theorem getElem?_withoutIdx {i : ℕ} (hi : i ∉ idx) :
    (l.withoutIdx idx)[Nat.count (· ∉ idx) i]? = l[i]? := by
  induction l using List.reverseRecOn with
  | nil => rfl
  | append_singleton l a ih =>
    rw [withoutIdx_concat]
    by_cases hlt : i < l.length
    · have hcount := Nat.count_strict_mono (p := (· ∉ idx)) hi hlt
      rw [getElem?_append_left hlt, ← ih, getElem?_append_left]
      rwa [length_withoutIdx_eq_count]
    · by_cases heq : i = l.length
      -- the last element itself
      · subst heq
        rw [if_neg hi, ← length_withoutIdx_eq_count, getElem?_concat_length,
          getElem?_concat_length]
      · -- behind the end, in both lists
        have hgt : l.length < i := by omega
        -- before the end of `l`: the last element does not matter
        have hcount : Nat.count (· ∉ idx) (l.length + 1) ≤ Nat.count (· ∉ idx) i :=
          Nat.count_monotone _ hgt
        have hlen := length_withoutIdx_eq_count (l ++ [a]) idx
        rw [length_append, length_singleton] at hlen
        rw [← withoutIdx_concat, getElem?_eq_none (by omega), getElem?_eq_none]
        rw [length_append, length_singleton]
        omega

end List
