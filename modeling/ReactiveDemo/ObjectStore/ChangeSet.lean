import ReactiveDemo.ObjectStore.IndexSet

/-!
# Changes of a collection

`CollectionChangeBuilder` with its `merge` and `finalize`. A change set says which indices
of the old collection are deleted and which of the new one are inserted; the others stand
for the same rows, in order. It `Describes` how a list became another when those rows are
the same, and when a row that is not marked as modified has kept its value.

A query with a sort reports no moves: `calculate_moves_sorted` adds a row that has moved to
the deletions and the insertions. So the change sets here have none, and what `merge` does
about moves is left out, as is the bookkeeping by column.

## Key results

- `Describes.tells`: what the finished change set tells
-/

/-- `CollectionChangeBuilder`; its `modifications_new` is empty until `finalize`. -/
structure CollectionChangeBuilder where
  deletions : IndexSet := .empty
  insertions : IndexSet := .empty
  modifications : IndexSet := .empty
deriving DecidableEq, Repr

/-- `CollectionChangeSet`. -/
structure CollectionChangeSet where
  deletions : IndexSet
  insertions : IndexSet
  /-- In the old collection. -/
  modifications : IndexSet
  /-- In the new collection. -/
  modificationsNew : IndexSet
deriving DecidableEq, Repr

namespace CollectionChangeSet

def empty : CollectionChangeSet := ⟨.empty, .empty, .empty, .empty⟩

/-- `empty()`. -/
def isEmpty (c : CollectionChangeSet) : Bool :=
  c.deletions.isEmpty && c.insertions.isEmpty && c.modifications.isEmpty &&
    c.modificationsNew.isEmpty

/-- What is delivered about the changes from `xs` to `ys`: the rows that it does not name
    are the `same` in both, and those that are not modified either are `kept`. -/
structure Tells {α β : Type*} (same kept : α → β → Prop) (c : CollectionChangeSet) (xs : List α)
    (ys : List β) : Prop where
  deletions_lt : ∀ i ∈ c.deletions, i < xs.length
  insertions_lt : ∀ j ∈ c.insertions, j < ys.length
  modifications_lt : ∀ i ∈ c.modifications, i < xs.length
  modificationsNew_lt : ∀ j ∈ c.modificationsNew, j < ys.length
  others : List.Forall₂ same (xs.withoutIdx c.deletions.indexes)
    (ys.withoutIdx c.insertions.indexes)
  unmodified : ∀ i, i ∉ c.deletions → i ∉ c.modifications → ∀ x ∈ xs[i]?,
    ∃ y ∈ ys[c.insertions.shift (c.deletions.rank i)]?, kept x y

/-- With nothing to tell, nothing has changed. -/
theorem Tells.eq_of_isEmpty {α : Type*} {same : α → α → Prop} {c : CollectionChangeSet}
    {xs ys : List α} (h : c.Tells same Eq xs ys) (hempty : c.isEmpty) : xs = ys := by
  simp only [isEmpty, Bool.and_eq_true, IndexSet.isEmpty_iff] at hempty
  obtain ⟨⟨⟨hdel, hins⟩, hmod⟩, -⟩ := hempty
  have hlength := h.others.length_eq
  -- nothing is left out of either list, so they are of one length
  have hall (xs : List α) : xs.withoutIdx IndexSet.empty.indexes = xs := by
    simp [List.withoutIdx, IndexSet.empty]
  rw [hdel, hins, hall, hall] at hlength
  refine List.ext_getElem hlength fun i hi hi' => ?_
  -- and the row at each index is kept
  obtain ⟨y, hy, heq⟩ := h.unmodified i (hdel ▸ IndexSet.notMem_empty)
    (hmod ▸ IndexSet.notMem_empty) xs[i] (List.getElem?_eq_getElem hi)
  rw [hdel, hins, IndexSet.shift_rank IndexSet.notMem_empty, List.getElem?_eq_getElem hi'] at hy
  rw [heq]
  exact (Option.some.inj hy).symm

end CollectionChangeSet

namespace CollectionChangeBuilder

/-! ## The code -/

/-- `empty()`. -/
def isEmpty (c : CollectionChangeBuilder) : Bool :=
  c.deletions.isEmpty && c.insertions.isEmpty && c.modifications.isEmpty

def merge (self c : CollectionChangeBuilder) : CollectionChangeBuilder :=
  if c.isEmpty then self
  else if self.isEmpty then c
  else
    { deletions := self.deletions.addShiftedBy self.insertions c.deletions
      -- inserted-then-deleted rows are dropped before the new insertions are merged in
      insertions := (self.insertions.eraseAtSet c.deletions).insertAtSet c.insertions
      modifications :=
        ((self.modifications.eraseAtSet c.deletions).shiftForInsertAtSet c.insertions).addSet
          c.modifications }

def finalize (c : CollectionChangeBuilder) : CollectionChangeSet where
  deletions := c.deletions
  insertions := c.insertions
  modifications := (c.modifications.eraseAtSet c.insertions).shiftForInsertAtSet c.deletions
  modificationsNew := c.modifications.removeSet c.insertions

/-! ## What a change set says -/

/-- Neither index is named, and as many of the others are before it: the row at `i` in the
    old collection is the one at `j` in the new one. -/
def Pairs (c : CollectionChangeBuilder) (i j : Nat) : Prop :=
  i ∉ c.deletions ∧ j ∉ c.insertions ∧ c.deletions.rank i = c.insertions.rank j

variable {α β γ : Type*}

/-- The changes from `xs` to `ys`: the rows that are paired are the `same`, and those not
    modified are `kept`. -/
structure Describes (same kept : α → β → Prop) (c : CollectionChangeBuilder) (xs : List α)
    (ys : List β) : Prop where
  deletions_lt : ∀ i ∈ c.deletions, i < xs.length
  insertions_lt : ∀ j ∈ c.insertions, j < ys.length
  modifications_lt : ∀ j ∈ c.modifications, j < ys.length
  /-- As many rows are left over of both. -/
  length_eq : c.deletions.rank xs.length = c.insertions.rank ys.length
  pairs : ∀ i j, c.Pairs i j → ∀ x ∈ xs[i]?, ∀ y ∈ ys[j]?,
    same x y ∧ (j ∉ c.modifications → kept x y)

instance (c : CollectionChangeBuilder) (i j : Nat) : Decidable (c.Pairs i j) :=
  inferInstanceAs (Decidable (_ ∧ _ ∧ _))

/-- Whether the pairs are as they should be is a question about indices in range. -/
theorem pairs_iff {same kept : α → β → Prop} {c : CollectionChangeBuilder} {xs : List α}
    {ys : List β} :
    (∀ i j, c.Pairs i j → ∀ x ∈ xs[i]?, ∀ y ∈ ys[j]?,
      same x y ∧ (j ∉ c.modifications → kept x y)) ↔
    ∀ (i : Fin xs.length) (j : Fin ys.length), c.Pairs i j →
      same xs[i] ys[j] ∧ (j.val ∉ c.modifications → kept xs[i] ys[j]) := by
  constructor
  · intro h i j hij
    exact h i j hij _ (List.getElem?_eq_getElem i.isLt) _ (List.getElem?_eq_getElem j.isLt)
  · intro h i j hij x hx y hy
    obtain ⟨hi, rfl⟩ := List.getElem?_eq_some_iff.mp hx
    obtain ⟨hj, rfl⟩ := List.getElem?_eq_some_iff.mp hy
    exact h ⟨i, hi⟩ ⟨j, hj⟩ hij

instance (same kept : α → β → Prop) [∀ x y, Decidable (same x y)] [∀ x y, Decidable (kept x y)]
    (c : CollectionChangeBuilder) (xs : List α) (ys : List β) :
    Decidable (c.Describes same kept xs ys) :=
  decidable_of_iff
    ((∀ i ∈ c.deletions.indexes, i < xs.length) ∧ (∀ j ∈ c.insertions.indexes, j < ys.length) ∧
      (∀ j ∈ c.modifications.indexes, j < ys.length) ∧
      c.deletions.rank xs.length = c.insertions.rank ys.length ∧
      ∀ (i : Fin xs.length) (j : Fin ys.length), c.Pairs i j →
        same xs[i] ys[j] ∧ (j.val ∉ c.modifications → kept xs[i] ys[j]))
    ⟨fun ⟨hdel, hins, hmod, hlength, hpairs⟩ =>
        ⟨hdel, hins, hmod, hlength, pairs_iff.mpr hpairs⟩,
      fun h => ⟨h.deletions_lt, h.insertions_lt, h.modifications_lt, h.length_eq,
        pairs_iff.mp h.pairs⟩⟩

section

variable {same kept : α → β → Prop} {c : CollectionChangeBuilder} {xs : List α} {ys : List β}
  {i j : Nat}

/-! ## What a description says -/

/-- A description stays one when less is asked of the rows. -/
theorem Describes.imp {same' kept' : α → β → Prop} (h : Describes same kept c xs ys)
    (hsame : ∀ x y, same x y → same' x y) (hkept : ∀ x y, kept x y → kept' x y) :
    Describes same' kept' c xs ys := by
  refine { h with pairs := fun i j hij x hx y hy => ?_ }
  obtain ⟨hxy, hxy'⟩ := h.pairs i j hij x hx y hy
  exact ⟨hsame x y hxy, fun hj => hkept x y (hxy' hj)⟩

/-- No change describes how a collection stays as it is. -/
theorem describes_empty {same kept : α → α → Prop} (hsame : ∀ x, same x x)
    (hkept : ∀ x, kept x x) (xs : List α) : Describes same kept {} xs xs := by
  constructor
  · exact fun i hi => (IndexSet.notMem_empty hi).elim
  · exact fun i hi => (IndexSet.notMem_empty hi).elim
  · exact fun i hi => (IndexSet.notMem_empty hi).elim
  · rfl
  -- without deletions and insertions an index is paired with itself
  · intro i j ⟨hi, hj, heq⟩ x hx y hy
    have hindex := IndexSet.rank_inj hi hj heq
    subst hindex
    cases Option.mem_unique hx hy
    exact ⟨hsame x, fun _ => hkept x⟩

/-- An index that stands for a row of the old collection is in range iff that row is among
    those left. -/
theorem Describes.insertion_lt_iff (h : Describes same kept c xs ys) :
    c.insertions.shift (c.deletions.rank i) < ys.length ↔
      c.deletions.rank i < c.deletions.rank xs.length := by
  rw [h.length_eq]
  constructor
  -- `rank` takes the shifted index back
  · intro hlt
    have hlt' := IndexSet.rank_lt_rank (c.insertions.shift_notMem _) hlt
    rwa [IndexSet.rank_shift] at hlt'
  · intro hlt
    apply IndexSet.lt_of_rank_lt_rank (s := c.insertions)
    rwa [IndexSet.rank_shift]

/-- The same from the new collection to the old one. -/
theorem Describes.deletion_lt_iff (h : Describes same kept c xs ys) :
    c.deletions.shift (c.insertions.rank j) < xs.length ↔
      c.insertions.rank j < c.insertions.rank ys.length := by
  rw [← h.length_eq]
  constructor
  · intro hlt
    have hlt' := IndexSet.rank_lt_rank (c.deletions.shift_notMem _) hlt
    rwa [IndexSet.rank_shift] at hlt'
  · intro hlt
    apply IndexSet.lt_of_rank_lt_rank (s := c.deletions)
    rwa [IndexSet.rank_shift]

/-- What a row of the old collection is paired with is in the new one. -/
theorem Describes.lt_of_pairs (h : Describes same kept c xs ys) (hi : i < xs.length)
    (hij : c.Pairs i j) : j < ys.length := by
  apply IndexSet.lt_of_rank_lt_rank (s := c.insertions)
  rw [← hij.2.2, ← h.length_eq]
  exact IndexSet.rank_lt_rank hij.1 hi

/-! ## The finished change set -/

/-- Without the rows that it names, both collections hold the same ones. -/
theorem Describes.forall₂_withoutIdx (h : Describes same kept c xs ys) :
    List.Forall₂ same (xs.withoutIdx c.finalize.deletions.indexes)
      (ys.withoutIdx c.finalize.insertions.indexes) := by
  -- the row at `n` of what is left is found by shifting `n`
  have hold (n : Nat) : (xs.withoutIdx c.deletions.indexes)[n]? = xs[c.deletions.shift n]? := by
    conv_lhs => rw [← c.deletions.rank_shift n]
    exact List.getElem?_withoutIdx (c.deletions.shift_notMem n)
  have hnew (n : Nat) : (ys.withoutIdx c.insertions.indexes)[n]? = ys[c.insertions.shift n]? := by
    conv_lhs => rw [← c.insertions.rank_shift n]
    exact List.getElem?_withoutIdx (c.insertions.shift_notMem n)
  have hlength : (xs.withoutIdx c.deletions.indexes).length =
      (ys.withoutIdx c.insertions.indexes).length := by
    rw [List.length_withoutIdx_eq_count, List.length_withoutIdx_eq_count]
    exact h.length_eq
  refine List.forall₂_iff_get.mpr ⟨hlength, fun n hn hn' => ?_⟩
  -- rows at one index of what is left are paired
  have hpairs : c.Pairs (c.deletions.shift n) (c.insertions.shift n) :=
    ⟨c.deletions.shift_notMem n, c.insertions.shift_notMem n, by
      rw [IndexSet.rank_shift, IndexSet.rank_shift]⟩
  refine (h.pairs _ _ hpairs _ ?_ _ ?_).1
  · rw [← hold]
    exact List.getElem?_eq_getElem hn
  · rw [← hnew]
    exact List.getElem?_eq_getElem hn'

/-- The modifications in the old collection and in the new one are of the same rows. -/
theorem mem_finalize_modifications : i ∈ c.finalize.modifications ↔
    ∃ j ∈ c.finalize.modificationsNew, c.Pairs i j := by
  refine IndexSet.mem_shiftForInsertAtSet.trans ?_
  rw [IndexSet.mem_eraseAtSet]
  constructor
  -- the modification is at the new index that `i` is paired with
  · intro ⟨hi, hmod⟩
    have hnotMem := c.insertions.shift_notMem (c.deletions.rank i)
    exact ⟨_, IndexSet.mem_removeSet.mpr ⟨hmod, hnotMem⟩, hi, hnotMem,
      (IndexSet.rank_shift _ _).symm⟩
  · intro ⟨j, hj, hi, hnotMem, heq⟩
    refine ⟨hi, ?_⟩
    rw [heq, IndexSet.shift_rank hnotMem]
    exact (IndexSet.mem_removeSet.mp hj).1

/-- The finished change set tells what the changes describe. -/
theorem Describes.tells (h : Describes same kept c xs ys) :
    c.finalize.Tells same kept xs ys where
  deletions_lt := h.deletions_lt
  insertions_lt := h.insertions_lt
  modifications_lt := by
    intro i hi
    -- its new index is in range, and so as many rows are before it
    have hmod := (IndexSet.mem_shiftForInsertAtSet.mp hi).2
    rw [IndexSet.mem_eraseAtSet] at hmod
    exact IndexSet.lt_of_rank_lt_rank (h.insertion_lt_iff.mp (h.modifications_lt _ hmod))
  modificationsNew_lt := by
    intro j hj
    exact h.modifications_lt j (IndexSet.mem_removeSet.mp hj).1
  others := h.forall₂_withoutIdx
  unmodified := by
    intro i hi hmod x hx
    have hnotMem := c.insertions.shift_notMem (c.deletions.rank i)
    have hpairs : c.Pairs i (c.insertions.shift (c.deletions.rank i)) :=
      ⟨hi, hnotMem, (IndexSet.rank_shift _ _).symm⟩
    have hy := List.getElem?_eq_getElem
      (h.lt_of_pairs (List.getElem?_eq_some_iff.mp hx).1 hpairs)
    -- a row that is modified in the new collection is modified in the old one
    refine ⟨_, hy, (h.pairs _ _ hpairs x hx _ hy).2 fun hmem => hmod ?_⟩
    exact mem_finalize_modifications.mpr
      ⟨_, IndexSet.mem_removeSet.mpr ⟨hmem, hnotMem⟩, hpairs⟩

end

end CollectionChangeBuilder
