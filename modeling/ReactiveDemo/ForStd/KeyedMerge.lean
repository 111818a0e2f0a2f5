import Mathlib

/-!
# Merging a list into a list without repeating a key

`insertNew` appends a value unless its key is already present, and `mergeNew` does so
for a list of values from left to right, each test against the list extended so far.
The list only grows, its keys are those of both lists, and which value stands for a
key is decided by the first one that had it.

## Key results

- `mem_map_mergeNew`: the keys after a merge
- `nodup_map_mergeNew`: a merge repeats no key
- `exists_mem_mergeNew`: what is known about the value standing for a key
- `filter_mergeNew`: what a merge adds to the values of a key
- `find?_mergeNew`: the value standing for a key is the first one that had it
-/

variable {β κ : Type*} [DecidableEq κ]

/-- Append `x` unless its key is there. -/
def insertNew (key : β → κ) (l : List β) (x : β) : List β :=
  if key x ∈ l.map key then l else l ++ [x]

/-- Insert the values of `xs` from left to right. -/
def mergeNew (key : β → κ) (l xs : List β) : List β := xs.foldl (insertNew key) l

variable {key : β → κ}

@[simp] theorem mergeNew_nil (l : List β) : mergeNew key l [] = l := rfl

@[simp] theorem mergeNew_cons (l : List β) (x : β) (xs : List β) :
    mergeNew key l (x :: xs) = mergeNew key (insertNew key l x) xs := rfl

theorem mergeNew_append (l xs ys : List β) :
    mergeNew key l (xs ++ ys) = mergeNew key (mergeNew key l xs) ys := by
  simp [mergeNew, List.foldl_append]

theorem prefix_insertNew (l : List β) (x : β) : l <+: insertNew key l x := by
  unfold insertNew
  split
  · exact List.prefix_refl l
  · exact List.prefix_append l [x]

/-- Merging keeps what is there, in front. -/
theorem prefix_mergeNew (l xs : List β) : l <+: mergeNew key l xs := by
  induction xs generalizing l with
  | nil => exact List.prefix_refl l
  | cons x xs ih => exact (prefix_insertNew l x).trans (ih (insertNew key l x))

/-- The keys after an insertion: those there were, and the one of the new value. -/
theorem mem_map_insertNew {l : List β} {x : β} {k : κ} :
    k ∈ (insertNew key l x).map key ↔ k ∈ l.map key ∨ k = key x := by
  unfold insertNew
  split
  -- the key is there already
  · rename_i h
    constructor
    · exact Or.inl
    · rintro (hk | rfl)
      · exact hk
      · exact h
  · simp only [List.map_append, List.mem_append, List.map_cons, List.map_nil, List.mem_singleton]

/-- The keys after a merge are the keys of both lists. -/
theorem mem_map_mergeNew {l xs : List β} {k : κ} :
    k ∈ (mergeNew key l xs).map key ↔ k ∈ l.map key ∨ k ∈ xs.map key := by
  induction xs generalizing l with
  | nil => simp
  | cons x xs ih =>
    rw [mergeNew_cons, ih, mem_map_insertNew, List.map_cons, List.mem_cons, or_assoc]

/-- A merge adds nothing but values of the merged list. -/
theorem mem_of_mem_mergeNew {l xs : List β} {y : β} (h : y ∈ mergeNew key l xs) :
    y ∈ l ∨ y ∈ xs := by
  induction xs generalizing l with
  | nil => exact Or.inl h
  | cons x xs ih =>
    cases ih h with
    | inl hy =>
      unfold insertNew at hy
      split at hy
      · exact Or.inl hy
      · rcases List.mem_append.mp hy with hy | hy
        · exact Or.inl hy
        · exact Or.inr (List.mem_cons.mpr (Or.inl (List.mem_singleton.mp hy)))
    | inr hy =>
      exact Or.inr (List.mem_cons_of_mem _ hy)

theorem nodup_map_insertNew {l : List β} (h : (l.map key).Nodup) (x : β) :
    ((insertNew key l x).map key).Nodup := by
  unfold insertNew
  split
  · exact h
  · rename_i hx
    rw [List.map_append, List.map_singleton, ← List.concat_eq_append, List.nodup_concat]
    exact ⟨hx, h⟩

/-- A merge keeps the keys distinct. -/
theorem nodup_map_mergeNew {l : List β} (h : (l.map key).Nodup) (xs : List β) :
    ((mergeNew key l xs).map key).Nodup := by
  induction xs generalizing l with
  | nil => exact h
  | cons x xs ih => exact ih (nodup_map_insertNew h x)

/-- After a merge some value stands for the key of `x`, and it has every property that
    `x` and the values with that key before `x` share. -/
theorem exists_mem_mergeNew (key : β → κ) (l pre post : List β) {x : β} {Q : β → Prop} (hx : Q x)
    (hQ : ∀ y, y ∈ l ∨ y ∈ pre → key y = key x → Q y) :
    ∃ y ∈ mergeNew key l (pre ++ x :: post), key y = key x ∧ Q y := by
  rw [mergeNew_append, mergeNew_cons]
  have hgrow : insertNew key (mergeNew key l pre) x ⊆
      mergeNew key (insertNew key (mergeNew key l pre) x) post := (prefix_mergeNew _ post).subset
  by_cases hmem : key x ∈ (mergeNew key l pre).map key
  · obtain ⟨y, hy, hkey⟩ := List.mem_map.mp hmem
    exact ⟨y, hgrow ((prefix_insertNew _ x).subset hy), hkey, hQ y (mem_of_mem_mergeNew hy) hkey⟩
  · refine ⟨x, hgrow ?_, rfl, hx⟩
    rw [insertNew, if_neg hmem]
    exact List.mem_append_right _ (List.mem_singleton_self x)

/-! ## The first value of a key -/

theorem filter_insertNew_of_ne (l : List β) {x : β} {k : κ} (h : key x ≠ k) :
    (insertNew key l x).filter (fun y => key y = k) = l.filter fun y => key y = k := by
  unfold insertNew
  split
  · rfl
  · simp [h]

/-- A merge leaves the values of a key alone when there are some, and else adds the first
    one that has the key. -/
theorem filter_mergeNew (l xs : List β) (k : κ) [Decidable (k ∈ l.map key)] :
    (mergeNew key l xs).filter (fun y => key y = k) =
      l.filter (fun y => key y = k) ++
        if k ∈ l.map key then [] else (xs.find? fun y => key y = k).toList := by
  -- by the values to be merged, from the first
  induction xs generalizing l with
  | nil => simp
  | cons x xs ih =>
    rw [mergeNew_cons, ih]
    by_cases hxk : key x = k
    · by_cases hx : key x ∈ l.map key
      -- the key is there, and goes on being there
      · have hk : k ∈ l.map key := hxk ▸ hx
        rw [insertNew, if_pos hx, if_pos hk, if_pos hk]
      · -- `x` is the first value of `k`, and the merge goes on with `k` present
        have hk : k ∉ l.map key := hxk ▸ hx
        have hk' : k ∈ (l ++ [x]).map key :=
          List.mem_map.mpr ⟨x, List.mem_append_right l (List.mem_singleton_self x), hxk⟩
        rw [insertNew, if_neg hx, if_pos hk', if_neg hk, List.append_nil, List.filter_append]
        simp [hxk]
    -- `x` has another key, and does not matter for `k`
    · have hmem : k ∈ (insertNew key l x).map key ↔ k ∈ l.map key := by
        rw [mem_map_insertNew]
        exact or_iff_left (Ne.symm hxk)
      rw [filter_insertNew_of_ne l hxk, List.find?_cons_of_neg (by simpa using hxk)]
      simp only [hmem]

/-- After a merge the value that stands for a key is the first one of both lists. -/
theorem find?_mergeNew (l xs : List β) (k : κ) :
    (mergeNew key l xs).find? (fun y => key y = k) = (l ++ xs).find? fun y => key y = k := by
  rw [← List.head?_filter, filter_mergeNew, List.head?_append, List.head?_filter, List.find?_append]
  by_cases hk : k ∈ l.map key
  · -- a value of `l` answers both searches
    obtain ⟨y, hy, hkey⟩ := List.mem_map.mp hk
    have hsome : (l.find? fun y => key y = k).isSome :=
      List.find?_isSome.mpr ⟨y, hy, decide_eq_true hkey⟩
    rw [Option.or_of_isSome hsome, Option.or_of_isSome hsome]
  · rw [if_neg hk]
    cases xs.find? (fun y => key y = k) <;> rfl

/-- In a list without repeated keys, the first value of a key is the only one. -/
theorem find?_eq_some_iff_of_nodup {l : List β} (h : (l.map key).Nodup) {k : κ} {x : β} :
    l.find? (fun y => key y = k) = some x ↔ x ∈ l ∧ key x = k := by
  have hmem : ∀ y, l.find? (fun y => key y = k) = some y → y ∈ l ∧ key y = k := by
    intro y hy
    have hkey := List.find?_some hy
    exact ⟨List.mem_of_find?_eq_some hy, of_decide_eq_true hkey⟩
  refine ⟨hmem x, fun ⟨hx, hkey⟩ => ?_⟩
  have hsome : (l.find? fun y => key y = k).isSome :=
    List.find?_isSome.mpr ⟨x, hx, decide_eq_true hkey⟩
  obtain ⟨y, hy⟩ := Option.isSome_iff_exists.mp hsome
  obtain ⟨hy', hkey'⟩ := hmem y hy
  rw [hy, List.inj_on_of_nodup_map h hy' hx (hkey'.trans hkey.symm)]

/-- Lists without repeated keys are arrangements of each other iff every key stands for the
    same value in both. -/
theorem perm_iff_find?_eq {l m : List β} (hl : (l.map key).Nodup) (hm : (m.map key).Nodup) :
    l.Perm m ↔ ∀ k, l.find? (fun y => key y = k) = m.find? fun y => key y = k := by
  constructor
  · intro hperm k
    ext x
    rw [find?_eq_some_iff_of_nodup hl, find?_eq_some_iff_of_nodup hm, hperm.mem_iff]
  · intro hfind
    rw [List.perm_ext_iff_of_nodup hl.of_map hm.of_map]
    intro x
    have hx := find?_eq_some_iff_of_nodup (x := x) hl (k := key x)
    rw [hfind, find?_eq_some_iff_of_nodup hm] at hx
    simpa using hx.symm
