import Mathlib

/-!
# Sliding windows over a growing list

Someone looks at a growing list now and then, and sees its last `n` entries each time. A
mark is the length of the list at such a look. When marks that follow one another are at
most `n` apart, the looks together have seen every entry between the first and the last
mark, in whatever order they took place.

## Key results

- `Overlapping.exists_window`: every index between two marks lies in a window
- `mem_take_reverse`: the window as a page, newest entries first
-/

/-- In ascending order, marks that follow one another are at most `n` apart. -/
def Overlapping (n : Nat) (marks : List Nat) : Prop :=
  (marks.insertionSort (· ≤ ·)).IsChain fun a b => b ≤ a + n

instance (n : Nat) (marks : List Nat) : Decidable (Overlapping n marks) :=
  inferInstanceAs (Decidable (List.IsChain _ _))

/-- A chain that starts at or below `k` and gets beyond it has a window that holds `k`. -/
theorem exists_window_of_isChain {n k a : Nat} {l : List Nat}
    (h : (a :: l).IsChain fun a b => b ≤ a + n) (ha : a ≤ k) (hlast : ∃ m ∈ l, k < m) :
    ∃ m ∈ l, k < m ∧ m ≤ k + n := by
  induction l generalizing a with
  | nil =>
    obtain ⟨m, hm, -⟩ := hlast
    cases hm
  | cons b l ih =>
    obtain ⟨hab, hchain⟩ := List.isChain_cons_cons.mp h
    by_cases hb : k < b
    -- `b` is the first beyond `k`, and close to the one before
    · exact ⟨b, List.mem_cons_self, hb, by omega⟩
    · -- the chain goes on from `b`, still at or below `k`
      have hlast' : ∃ m ∈ l, k < m := by
        obtain ⟨m, hm, hlt⟩ := hlast
        rcases List.mem_cons.mp hm with rfl | hm
        · exact absurd hlt hb
        · exact ⟨m, hm, hlt⟩
      obtain ⟨m, hm, hwindow⟩ := ih hchain (by omega) hlast'
      exact ⟨m, List.mem_cons_of_mem _ hm, hwindow⟩

/-- Overlapping windows leave no gap between the first mark and the last. -/
theorem Overlapping.exists_window {n k : Nat} {marks : List Nat} (h : Overlapping n marks)
    (hfirst : ∃ m ∈ marks, m ≤ k) (hlast : ∃ m ∈ marks, k < m) :
    ∃ m ∈ marks, k < m ∧ m ≤ k + n := by
  have hmem : ∀ m, m ∈ marks.insertionSort (· ≤ ·) ↔ m ∈ marks :=
    fun m => List.mem_insertionSort (· ≤ ·)
  have hsorted := List.pairwise_insertionSort (· ≤ ·) marks
  simp only [← hmem] at hfirst hlast ⊢
  unfold Overlapping at h
  cases hsort : marks.insertionSort (· ≤ ·) with
  | nil =>
    obtain ⟨m, hm, -⟩ := hfirst
    rw [hsort] at hm
    cases hm
  | cons a l =>
    rw [hsort] at h hfirst hlast hsorted
    -- the chain starts at the least mark, and some later mark is beyond `k`
    have ha : a ≤ k := by
      obtain ⟨m, hm, hle⟩ := hfirst
      rcases List.mem_cons.mp hm with rfl | hm
      · exact hle
      · have ham := List.rel_of_pairwise_cons hsorted hm
        omega
    have hlast' : ∃ m ∈ l, k < m := by
      obtain ⟨m, hm, hlt⟩ := hlast
      rcases List.mem_cons.mp hm with rfl | hm
      · omega
      · exact ⟨m, hm, hlt⟩
    obtain ⟨m, hm, hwindow⟩ := exists_window_of_isChain h ha hlast'
    exact ⟨m, List.mem_cons_of_mem _ hm, hwindow⟩

/-- The last `n` entries are the first `n` of the reversed list. -/
theorem mem_take_reverse {α : Type*} {n k : Nat} {l : List α} {x : α} (hx : l[k]? = some x)
    (hwindow : l.length ≤ k + n) : x ∈ l.reverse.take n := by
  obtain ⟨hk, -⟩ := List.getElem?_eq_some_iff.mp hx
  apply List.mem_of_getElem? (i := l.length - 1 - k)
  have hindex : l.length - 1 - (l.length - 1 - k) = k := by omega
  rw [List.getElem?_take, if_pos (by omega), List.getElem?_reverse (by omega), hindex, hx]
