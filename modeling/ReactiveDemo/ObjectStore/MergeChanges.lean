import ReactiveDemo.ObjectStore.ChangeSet

/-!
# Merging changes

`merge` turns the changes from one collection to a second, and from that to a third, into
those from the first to the third. The indices that it works with are of three collections:
the new deletions are indices of the collection between, and have to become indices of the
first; the old insertions are indices of the collection between as well, and have to become
indices of the third. The rows that neither names are paired through the collection between.

## Key results

- `pairs_merge_iff`: the merged change set pairs the rows that the two pair in turn
- `Describes.merge`: changes that describe two steps are merged into what describes both
-/

namespace CollectionChangeBuilder

/-! ## Two change sets in a row -/

section

variable {c d : CollectionChangeBuilder} {i j k : Nat}

/-- The changes of `c` and then those of `d`, where neither is empty. -/
def joined (c d : CollectionChangeBuilder) : CollectionChangeBuilder where
  deletions := c.deletions.addShiftedBy c.insertions d.deletions
  insertions := (c.insertions.eraseAtSet d.deletions).insertAtSet d.insertions
  modifications :=
    ((c.modifications.eraseAtSet d.deletions).shiftForInsertAtSet d.insertions).addSet
      d.modifications

theorem merge_eq (hd : ¬d.isEmpty) (hc : ¬c.isEmpty) : c.merge d = joined c d := by
  rw [merge, if_neg hd, if_neg hc]
  rfl

/-- A row of the first collection is deleted by `c`, or by `d` where `c` has put it. -/
theorem mem_joined_deletions : i ∈ (joined c d).deletions ↔
    i ∈ c.deletions ∨ c.insertions.shift (c.deletions.rank i) ∈ d.deletions := by
  rw [joined, IndexSet.mem_addShiftedBy, IndexSet.mem_eraseAtSet]

/-- A row of the third collection is inserted by `d`, or was by `c` where `d` has it from. -/
theorem mem_joined_insertions : k ∈ (joined c d).insertions ↔
    k ∈ d.insertions ∨ d.deletions.shift (d.insertions.rank k) ∈ c.insertions := by
  rw [joined, IndexSet.mem_insertAtSet, IndexSet.mem_eraseAtSet]

/-- It is modified by `d`, or was by `c` and is no row that `d` has inserted. -/
theorem mem_joined_modifications : k ∈ (joined c d).modifications ↔
    (k ∉ d.insertions ∧ d.deletions.shift (d.insertions.rank k) ∈ c.modifications) ∨
      k ∈ d.modifications := by
  rw [joined, IndexSet.mem_addSet, IndexSet.mem_shiftForInsertAtSet, IndexSet.mem_eraseAtSet]

theorem rank_joined_deletions (i : Nat) : (joined c d).deletions.rank i =
    (d.deletions.eraseAtSet c.insertions).rank (c.deletions.rank i) :=
  IndexSet.rank_rank (fun _ => IndexSet.mem_addShiftedBy) i

theorem rank_joined_insertions (k : Nat) : (joined c d).insertions.rank k =
    (c.insertions.eraseAtSet d.deletions).rank (d.insertions.rank k) :=
  IndexSet.rank_rank (fun _ => IndexSet.mem_insertAtSet) k

/-- In the collection between the two, the rows that the first has inserted and those that
    the second deletes may be left out in either order. -/
theorem rank_between (j : Nat) :
    (d.deletions.eraseAtSet c.insertions).rank (c.insertions.rank j) =
        Nat.count (fun k => k ∉ c.insertions ∧ k ∉ d.deletions) j ∧
      (c.insertions.eraseAtSet d.deletions).rank (d.deletions.rank j) =
        Nat.count (fun k => k ∉ c.insertions ∧ k ∉ d.deletions) j := by
  constructor
  · refine (Nat.count_count (fun k => ?_) j).symm
    refine and_congr_right fun hk => not_congr ?_
    exact (IndexSet.rank_mem_eraseAtSet hk).symm
  · refine (Nat.count_count (fun k => ?_) j).symm
    rw [and_comm]
    refine and_congr_right fun hk => not_congr ?_
    exact (IndexSet.rank_mem_eraseAtSet hk).symm

/-- The joined changes pair the rows that the two pair in turn. -/
theorem pairs_merge_iff : (joined c d).Pairs i k ↔ ∃ j, c.Pairs i j ∧ d.Pairs j k := by
  rw [Pairs, mem_joined_deletions, mem_joined_insertions, rank_joined_deletions,
    rank_joined_insertions, not_or, not_or]
  constructor
  · intro ⟨⟨hi, hdel⟩, ⟨hk, hins⟩, heq⟩
    have hnotMem := c.insertions.shift_notMem (c.deletions.rank i)
    have hnotMem' := d.deletions.shift_notMem (d.insertions.rank k)
    -- both stand for the same row of the collection between: counted without the inserted
    -- and the deleted rows, they are in the same place
    have hbetween : c.insertions.shift (c.deletions.rank i) =
        d.deletions.shift (d.insertions.rank k) := by
      refine Nat.count_injective (p := fun k => k ∉ c.insertions ∧ k ∉ d.deletions)
        ⟨hnotMem, hdel⟩ ⟨hins, hnotMem'⟩ ?_
      rw [← (rank_between _).1, ← (rank_between _).2, IndexSet.rank_shift,
        IndexSet.rank_shift, heq]
    refine ⟨_, ⟨hi, hnotMem, (IndexSet.rank_shift _ _).symm⟩, hdel, hk, ?_⟩
    rw [hbetween, IndexSet.rank_shift]
  · intro ⟨j, ⟨hi, hj, hij⟩, hj', hk, hjk⟩
    rw [hij, ← hjk, IndexSet.shift_rank hj, IndexSet.shift_rank hj']
    refine ⟨⟨hi, hj'⟩, ⟨hk, hj⟩, ?_⟩
    rw [(rank_between j).1, (rank_between j).2]

/-! ## Empty changes -/

theorem notMem_of_isEmpty (h : c.isEmpty) :
    (∀ i, i ∉ c.deletions) ∧ (∀ i, i ∉ c.insertions) ∧ (∀ i, i ∉ c.modifications) := by
  simp only [isEmpty, Bool.and_eq_true, IndexSet.isEmpty_iff] at h
  obtain ⟨⟨hdel, hins⟩, hmod⟩ := h
  rw [hdel, hins, hmod]
  exact ⟨fun _ => IndexSet.notMem_empty, fun _ => IndexSet.notMem_empty,
    fun _ => IndexSet.notMem_empty⟩

/-- With nothing changed, every row is paired with itself. -/
theorem pairs_self_of_isEmpty (h : c.isEmpty) (i : Nat) : c.Pairs i i := by
  obtain ⟨hdel, hins, -⟩ := notMem_of_isEmpty h
  refine ⟨hdel i, hins i, ?_⟩
  simp only [isEmpty, Bool.and_eq_true, IndexSet.isEmpty_iff] at h
  rw [h.1.1, h.1.2]

end

/-! ## What two change sets describe -/

section

variable {α β γ : Type*} {same kept : α → β → Prop} {same' kept' : β → γ → Prop}
  {c d : CollectionChangeBuilder} {xs : List α} {ys : List β} {zs : List γ} {i j k : Nat}

theorem Describes.length_eq_of_isEmpty (h : Describes same kept c xs ys) (hempty : c.isEmpty) :
    xs.length = ys.length := by
  have hlength := h.length_eq
  rw [(pairs_self_of_isEmpty hempty xs.length).2.2] at hlength
  obtain ⟨-, hins, -⟩ := notMem_of_isEmpty hempty
  exact IndexSet.rank_inj (hins _) (hins _) hlength

/-- A row that is paired, and paired again, is the same through the row between; it has kept
    its value if it is modified in neither step. -/
theorem Describes.comp_pairs (hc : Describes same kept c xs ys) (hd : Describes same' kept' d ys zs)
    (hij : c.Pairs i j) (hjk : d.Pairs j k) {x : α} {z : γ} (hx : x ∈ xs[i]?) (hz : z ∈ zs[k]?) :
    Relation.Comp same same' x z ∧
      (j ∉ c.modifications → k ∉ d.modifications → Relation.Comp kept kept' x z) := by
  have hi : i < xs.length := (List.getElem?_eq_some_iff.mp hx).1
  -- the row between exists, since both collections have as many rows left
  have hy := List.getElem?_eq_getElem (hc.lt_of_pairs hi hij)
  obtain ⟨hsame, hkept⟩ := hc.pairs i j hij x hx _ hy
  obtain ⟨hsame', hkept'⟩ := hd.pairs j k hjk _ hy z hz
  exact ⟨⟨_, hsame, hsame'⟩, fun hj hk => ⟨_, hkept hj, hkept' hk⟩⟩

/-- The joined changes describe both steps. -/
theorem Describes.joined (hc : Describes same kept c xs ys) (hd : Describes same' kept' d ys zs) :
    Describes (Relation.Comp same same') (Relation.Comp kept kept') (joined c d) xs zs where
  deletions_lt := by
    intro i hi
    cases mem_joined_deletions.mp hi with
    | inl hi => exact hc.deletions_lt i hi
    | inr hi => exact IndexSet.lt_of_rank_lt_rank (hc.insertion_lt_iff.mp (hd.deletions_lt _ hi))
  insertions_lt := by
    intro k hk
    cases mem_joined_insertions.mp hk with
    | inl hk => exact hd.insertions_lt k hk
    | inr hk => exact IndexSet.lt_of_rank_lt_rank (hd.deletion_lt_iff.mp (hc.insertions_lt _ hk))
  modifications_lt := by
    intro k hk
    cases mem_joined_modifications.mp hk with
    | inl hk =>
      exact IndexSet.lt_of_rank_lt_rank (hd.deletion_lt_iff.mp (hc.modifications_lt _ hk.2))
    | inr hk => exact hd.modifications_lt k hk
  -- what is left of the first and of the third is what is left of the one between
  length_eq := by
    rw [rank_joined_deletions, rank_joined_insertions, hc.length_eq, ← hd.length_eq,
      (rank_between _).1, (rank_between _).2]
  pairs := by
    intro i k hik x hx z hz
    obtain ⟨j, hij, hjk⟩ := pairs_merge_iff.mp hik
    obtain ⟨hsame, hkept⟩ := hc.comp_pairs hd hij hjk hx hz
    refine ⟨hsame, fun hk => hkept ?_ fun hmod => hk (mem_joined_modifications.mpr (.inr hmod))⟩
    -- a row modified in the first step is still marked after the second
    intro hmod
    refine hk (mem_joined_modifications.mpr (.inl ⟨hjk.2.1, ?_⟩))
    rwa [← hjk.2.2, IndexSet.shift_rank hjk.1]

/-- Changes that describe two steps are merged into what describes both. -/
theorem Describes.merge (hc : Describes same kept c xs ys) (hd : Describes same' kept' d ys zs) :
    Describes (Relation.Comp same same') (Relation.Comp kept kept') (c.merge d) xs zs := by
  by_cases hdempty : d.isEmpty
  · -- nothing new: the changes stay as they are
    have hlength := hd.length_eq_of_isEmpty hdempty
    rw [CollectionChangeBuilder.merge, if_pos hdempty]
    refine ⟨hc.deletions_lt, hlength ▸ hc.insertions_lt, hlength ▸ hc.modifications_lt,
      hlength ▸ hc.length_eq, ?_⟩
    intro i k hik x hx z hz
    obtain ⟨hsame, hkept⟩ := hc.comp_pairs hd hik (pairs_self_of_isEmpty hdempty k) hx hz
    exact ⟨hsame, fun hk => hkept hk ((notMem_of_isEmpty hdempty).2.2 k)⟩
  · by_cases hcempty : c.isEmpty
    · -- nothing before: the new changes are taken over
      have hlength := hc.length_eq_of_isEmpty hcempty
      rw [CollectionChangeBuilder.merge, if_neg hdempty, if_pos hcempty]
      refine ⟨hlength ▸ hd.deletions_lt, hd.insertions_lt, hd.modifications_lt,
        hlength ▸ hd.length_eq, ?_⟩
      intro i k hik x hx z hz
      obtain ⟨hsame, hkept⟩ := hc.comp_pairs hd (pairs_self_of_isEmpty hcempty i) hik hx hz
      exact ⟨hsame, fun hk => hkept ((notMem_of_isEmpty hcempty).2.2 i) hk⟩
    -- both name something
    · rw [merge_eq hdempty hcempty]
      exact hc.joined hd

end

end CollectionChangeBuilder
