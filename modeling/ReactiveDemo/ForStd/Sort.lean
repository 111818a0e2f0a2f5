import Mathlib

/-!
# Sorting and cutting

Two orders on the same entries, and a page of the first `n`: the page under one order is the
page under the other iff it is in order under both, and precedes the remaining entries.
Sorting by a key leaves the order of entries with one key open: two sorted lists are the
same up to such ties iff one is an arrangement of the other.

## Key results

- `take_insertionSort_eq_iff`: when an arrangement starts with the sorted page
- `getElem?_insertionSort_eq_some_iff`: the place of an entry in the sorted list
- `insertionSort_eq_reverse`: sorting entries that were added in order
- `sameUpToTies_insertionSort_iff`: when two lists sort alike up to ties
-/

namespace List

variable {α : Type*} {r : α → α → Prop}

section Order

variable [DecidableRel r] [Std.Total r] [IsTrans α r]

/-- An arrangement of a list is its sorted list, when it is in order itself. -/
theorem insertionSort_eq_of_pairwise {l m : List α} (hperm : l.Perm m) (hl : l.Pairwise r)
    (hanti : ∀ a ∈ m, ∀ b ∈ m, r a b → r b a → a = b) : m.insertionSort r = l := by
  have hsorted : (m.insertionSort r).Perm m := perm_insertionSort r m
  refine Perm.eq_of_pairwise ?_ (pairwise_insertionSort r m) hl (hsorted.trans hperm.symm)
  intro a b ha hb hab hba
  exact hanti a (hsorted.subset ha) b (hperm.subset hb) hab hba

/-- An arrangement starts with the first `n` of the sorted list iff its own first `n` are in
    order and precede the others. -/
theorem take_insertionSort_eq_iff {l m : List α} (hperm : l.Perm m)
    (hanti : ∀ a ∈ m, ∀ b ∈ m, r a b → r b a → a = b) (n : Nat) :
    (m.insertionSort r).take n = l.take n ↔
      (l.take n).Pairwise r ∧ ∀ a ∈ l.take n, ∀ b ∈ l.drop n, r a b := by
  constructor
  · intro htake
    have hsorted := pairwise_insertionSort r m
    rw [← take_append_drop n (m.insertionSort r), pairwise_append, htake] at hsorted
    refine ⟨hsorted.1, ?_⟩
    intro a ha b hb
    -- the entries behind the page are the same ones
    have hrest : ((m.insertionSort r).drop n).Perm (l.drop n) := by
      have hall : (m.insertionSort r).Perm l := (perm_insertionSort r m).trans hperm.symm
      rw [← take_append_drop n (m.insertionSort r), htake] at hall
      refine (perm_append_left_iff (l.take n)).mp (hall.trans ?_)
      rw [take_append_drop]
    exact hsorted.2.2 a ha b (hrest.symm.subset hb)
  · rintro ⟨hpage, hbefore⟩
    -- sort the rest: the page in front of it is the sorted list
    have hrest : ((l.drop n).insertionSort r).Perm (l.drop n) := perm_insertionSort r _
    have hall : (l.take n ++ (l.drop n).insertionSort r).Perm m := by
      refine (hrest.append_left (l.take n)).trans ?_
      rw [take_append_drop]
      exact hperm
    have hsorted : (l.take n ++ (l.drop n).insertionSort r).Pairwise r := by
      rw [pairwise_append]
      exact ⟨hpage, pairwise_insertionSort r _, fun a ha b hb => hbefore a ha b (hrest.subset hb)⟩
    rw [insertionSort_eq_of_pairwise hall hsorted hanti]
    by_cases hn : n ≤ l.length
    · exact take_left' (length_take_of_le hn)
    · have hlen : l.length ≤ n := by omega
      simp [drop_of_length_le hlen, take_of_length_le hlen]

/-- In a sorted list an entry stands behind the entries that precede it. -/
theorem getElem?_insertionSort_eq_some_iff [DecidableEq α] {m : List α} (hnodup : m.Nodup)
    (hanti : ∀ a ∈ m, ∀ b ∈ m, r a b → r b a → a = b) {i : Nat} {b : α} :
    (m.insertionSort r)[i]? = some b ↔
      b ∈ m ∧ m.countP (fun c => decide (c ≠ b ∧ r c b)) = i := by
  have hperm : (m.insertionSort r).Perm m := perm_insertionSort r m
  have hsorted := pairwise_insertionSort r m
  -- at every place, those before it are counted, and no others
  have hcount : ∀ {j : Nat} {c : α}, (m.insertionSort r)[j]? = some c →
      m.countP (fun d => decide (d ≠ c ∧ r d c)) = j := by
    intro j c hj
    obtain ⟨hlt, rfl⟩ := getElem?_eq_some_iff.mp hj
    have hsplit := take_append_drop j (m.insertionSort r)
    rw [drop_eq_getElem_cons hlt] at hsplit
    -- cut the sorted list at `c`
    generalize (m.insertionSort r)[j] = c at hsplit ⊢
    have hnodup' : (m.insertionSort r).Nodup := hperm.nodup_iff.mpr hnodup
    rw [← hsplit] at hsorted hnodup' hperm
    rw [← hperm.countP_eq, countP_append, countP_cons]
    rw [pairwise_append, pairwise_cons] at hsorted
    rw [nodup_append, nodup_cons] at hnodup'
    -- all that stand before it precede it
    have hbefore : (take j (m.insertionSort r)).countP (fun d => decide (d ≠ c ∧ r d c)) =
        (take j (m.insertionSort r)).length := by
      refine countP_eq_length.mpr fun d hd => decide_eq_true ?_
      exact ⟨hnodup'.2.2 d hd c mem_cons_self, hsorted.2.2 d hd c mem_cons_self⟩
    -- what stands behind it precedes it only if it is the same entry
    have hafter : (drop (j + 1) (m.insertionSort r)).countP (fun d => decide (d ≠ c ∧ r d c)) =
        0 := by
      refine countP_eq_zero.mpr fun d hd => ?_
      rw [decide_eq_true_eq]
      rintro ⟨hne, hdc⟩
      have hmem : ∀ e, e ∈ c :: drop (j + 1) (m.insertionSort r) → e ∈ m :=
        fun e he => hperm.subset (mem_append_right _ he)
      exact hne (hanti d (hmem d (mem_cons_of_mem _ hd)) c (hmem c mem_cons_self) hdc
        (hsorted.2.1.1 d hd))
    rw [hbefore, hafter, length_take_of_le (by omega)]
    simp
  constructor
  · intro h
    exact ⟨hperm.subset (mem_of_getElem? h), hcount h⟩
  · rintro ⟨hmem, rfl⟩
    obtain ⟨j, hj⟩ := mem_iff_getElem?.mp (hperm.symm.subset hmem)
    rw [hcount hj, hj]

end Order

/-! ## Ties -/

/-- The same keys in the same order, and for every key the same entries in any order. -/
def SameUpToTies {β : Type*} [DecidableEq β] (key : α → β) (l m : List α) : Prop :=
  l.map key = m.map key ∧
    ∀ k, (l.filter fun a => key a = k).Perm (m.filter fun a => key a = k)

/-- Lists that are the same up to ties have the same entries. -/
theorem SameUpToTies.perm [DecidableEq α] {β : Type*} [DecidableEq β] {key : α → β} {l m : List α}
    (h : SameUpToTies key l m) : l.Perm m := by
  rw [perm_iff_count]
  intro a
  have hcount := (h.2 (key a)).count_eq a
  rwa [count_filter (by simp), count_filter (by simp)] at hcount

/-! ## Sorting by a key -/

section Key

variable {β : Type*} [LinearOrder β] {key : α → β}

/-- Comparing keys is total. -/
theorem total_of_key (hr : ∀ a b, r a b ↔ key b ≤ key a) : Std.Total r :=
  ⟨fun a b => by simpa only [hr] using le_total (key b) (key a)⟩

/-- Comparing keys is transitive. -/
theorem isTrans_of_key (hr : ∀ a b, r a b ↔ key b ≤ key a) : IsTrans α r :=
  ⟨fun a b c => by simpa only [hr] using fun hab hbc => le_trans hbc hab⟩

variable [DecidableRel r]

/-- Sorting largest key first, entries whose keys increase come in reverse. -/
theorem insertionSort_eq_reverse (hr : ∀ a b, r a b ↔ key b ≤ key a) {l m : List α}
    (hl : l.Pairwise fun a b => key a < key b) (hperm : m.Perm l) :
    m.insertionSort r = l.reverse := by
  have htotal := total_of_key hr
  have htrans := isTrans_of_key hr
  have hreverse : l.reverse.Pairwise r :=
    (pairwise_reverse.mpr hl).imp fun hlt => (hr _ _).mpr (le_of_lt hlt)
  refine insertionSort_eq_of_pairwise ((reverse_perm l).trans hperm.symm) hreverse ?_
  -- two entries with one key are one entry
  intro a ha b hb hab hba
  have hnodup : (l.map key).Nodup := (pairwise_map.mpr hl).imp ne_of_lt
  have hkey : key a = key b := le_antisymm ((hr b a).mp hba) ((hr a b).mp hab)
  exact inj_on_of_nodup_map hnodup (hperm.subset ha) (hperm.subset hb) hkey

/-- Sorted by a key, lists are the same up to ties iff they have the same entries. -/
theorem sameUpToTies_insertionSort_iff [DecidableEq α] (hr : ∀ a b, r a b ↔ key b ≤ key a)
    {l m : List α} :
    SameUpToTies key (l.insertionSort r) (m.insertionSort r) ↔ l.Perm m := by
  have htotal := total_of_key hr
  have htrans := isTrans_of_key hr
  constructor
  · intro h
    exact (perm_insertionSort r l).symm.trans (h.perm.trans (perm_insertionSort r m))
  · intro hperm
    have hsorted : (l.insertionSort r).Perm (m.insertionSort r) :=
      (perm_insertionSort r l).trans (hperm.trans (perm_insertionSort r m).symm)
    refine ⟨?_, fun k => hsorted.filter _⟩
    -- both sequences of keys decrease
    have hkeys : ∀ n : List α, ((n.insertionSort r).map key).Pairwise (· ≥ ·) := by
      intro n
      exact pairwise_map.mpr ((pairwise_insertionSort r n).imp fun hab => (hr _ _).mp hab)
    exact (hsorted.map key).eq_of_pairwise (fun a b _ _ hab hba => le_antisymm hba hab)
      (hkeys l) (hkeys m)

end Key

end List
