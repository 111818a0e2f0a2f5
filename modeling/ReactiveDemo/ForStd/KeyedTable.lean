import Mathlib

/-!
# Tables with a primary key

A `KeyedTable` is a list of rows, in order of first insertion, whose keys are
distinct. `upsert` replaces the row with the new row's key in place, or appends the
row when its key is new; the `nodup` field is discharged here once, so a table with
two rows for one key cannot be built.
-/

variable {α κ : Type*}

/-- A list of rows whose keys are distinct, in order of first insertion. -/
structure KeyedTable (α : Type*) {κ : Type*} (key : α → κ) where
  rows : List α
  nodup : (rows.map key).Nodup

namespace KeyedTable

variable {key : α → κ}

@[ext] theorem ext {t u : KeyedTable α key} (h : t.rows = u.rows) : t = u := by
  cases t; cases u; simpa using h

instance [DecidableEq α] : DecidableEq (KeyedTable α key) := fun t u =>
  decidable_of_iff (t.rows = u.rows) ⟨ext, fun h => h ▸ rfl⟩

/-- The table without rows. -/
def empty : KeyedTable α key := ⟨[], List.nodup_nil⟩

@[simp] theorem rows_empty : (empty : KeyedTable α key).rows = [] := rfl

variable [DecidableEq κ]

/-- Replace the row with the key of `x` by `x`, or append `x`. -/
def upsertRow (key : α → κ) (x : α) : List α → List α
  | [] => [x]
  | y :: ys => if key y = key x then x :: ys else y :: upsertRow key x ys

/-- A row with a new key goes to the end. -/
theorem upsertRow_of_notMem {x : α} {l : List α} (h : key x ∉ l.map key) :
    upsertRow key x l = l ++ [x] := by
  induction l with
  | nil => rfl
  | cons y ys ih =>
    simp only [List.map_cons, List.mem_cons, not_or] at h
    rw [upsertRow, if_neg (Ne.symm h.1), ih h.2, List.cons_append]

/-- An upsert keeps the keys in place, or adds a new one at the end. -/
theorem map_upsertRow (x : α) (l : List α) :
    (upsertRow key x l).map key =
      if key x ∈ l.map key then l.map key else l.map key ++ [key x] := by
  induction l with
  | nil => simp [upsertRow]
  | cons y ys ih =>
    by_cases h : key y = key x
    · simp [upsertRow, h]
    · simp only [upsertRow, if_neg h, List.map_cons, List.mem_cons, Ne.symm h, false_or, ih]
      split <;> rfl

/-- Keys stay unique: a key that is added was not there. -/
theorem nodup_upsertRow {l : List α} (h : (l.map key).Nodup) (x : α) :
    ((upsertRow key x l).map key).Nodup := by
  rw [map_upsertRow]
  split
  · exact h
  · rename_i hx
    rw [List.nodup_append]
    refine ⟨h, List.nodup_singleton _, ?_⟩
    intro a ha b hb
    rw [List.mem_singleton] at hb
    rintro rfl
    exact hx (hb ▸ ha)

/-- The rows after an upsert: the new row, and the old rows with other keys. -/
theorem mem_upsertRow {x z : α} {l : List α} (h : (l.map key).Nodup) :
    z ∈ upsertRow key x l ↔ z = x ∨ (z ∈ l ∧ key z ≠ key x) := by
  induction l with
  | nil => simp [upsertRow]
  | cons y ys ih =>
    rw [List.map_cons, List.nodup_cons] at h
    by_cases hyx : key y = key x
    · -- `x` takes the place of `y`, and no row behind it has the key
      simp only [upsertRow, if_pos hyx, List.mem_cons]
      constructor
      · rintro (hz | hz)
        · exact Or.inl hz
        · refine Or.inr ⟨Or.inr hz, fun hzx => h.1 ?_⟩
          rw [hyx, ← hzx]
          exact List.mem_map_of_mem hz
      · rintro (hz | ⟨hz | hz, hne⟩)
        · exact Or.inl hz
        · exact absurd (hz ▸ hyx) hne
        · exact Or.inr hz
    · -- `y` stays, and `x` goes somewhere behind it
      simp only [upsertRow, if_neg hyx, List.mem_cons, ih h.2]
      constructor
      · rintro (hz | hz | ⟨hz, hne⟩)
        · exact Or.inr ⟨Or.inl hz, hz ▸ hyx⟩
        · exact Or.inl hz
        · exact Or.inr ⟨Or.inr hz, hne⟩
      · rintro (hz | ⟨hz | hz, hne⟩)
        · exact Or.inr (Or.inl hz)
        · exact Or.inl hz
        · exact Or.inr (Or.inr ⟨hz, hne⟩)

/-- Upserting a row that is already there changes nothing. -/
theorem upsertRow_of_mem {x : α} {l : List α} (h : (l.map key).Nodup) (hx : x ∈ l) :
    upsertRow key x l = l := by
  induction l with
  | nil => cases hx
  | cons y ys ih =>
    rw [List.map_cons, List.nodup_cons] at h
    rcases List.mem_cons.mp hx with rfl | hys
    · simp [upsertRow]
    · have hne : key y ≠ key x := fun hyx => h.1 (hyx ▸ List.mem_map_of_mem hys)
      rw [upsertRow, if_neg hne, ih h.2 hys]

/-- An upsert keeps the key of the first row, if there is a first row. -/
theorem head?_upsertRow (x : α) (l : List α) :
    (upsertRow key x l).head?.map key = some ((l.head?.map key).getD (key x)) := by
  cases l with
  | nil => rfl
  | cons y ys =>
    unfold upsertRow
    split
    · rename_i h
      simp [h]
    · rfl

/-- Replace the row with the key of `x`, or append `x` when its key is new. -/
def upsert (t : KeyedTable α key) (x : α) : KeyedTable α key :=
  ⟨upsertRow key x t.rows, nodup_upsertRow t.nodup x⟩

/-- The row with key `k`. -/
def find (t : KeyedTable α key) (k : κ) : Option α :=
  t.rows.find? fun x => key x = k

/-- The rows of a table after an upsert: the new row, and the old rows with other keys. -/
theorem mem_upsert {t : KeyedTable α key} {x z : α} :
    z ∈ (t.upsert x).rows ↔ z = x ∨ (z ∈ t.rows ∧ key z ≠ key x) :=
  mem_upsertRow t.nodup

theorem rows_upsert_of_notMem {t : KeyedTable α key} {x : α} (h : key x ∉ t.rows.map key) :
    (t.upsert x).rows = t.rows ++ [x] :=
  upsertRow_of_notMem h

theorem head?_upsert (t : KeyedTable α key) (x : α) :
    (t.upsert x).rows.head?.map key = some ((t.rows.head?.map key).getD (key x)) :=
  head?_upsertRow x t.rows

/-- A row whose key is above all others goes behind them. -/
theorem rows_upsert_of_lt [Preorder κ] {t : KeyedTable α key} {x : α}
    (h : ∀ y ∈ t.rows, key y < key x) : (t.upsert x).rows = t.rows ++ [x] := by
  apply rows_upsert_of_notMem
  intro hmem
  obtain ⟨y, hy, hkey⟩ := List.mem_map.mp hmem
  have hlt := h y hy
  rw [hkey] at hlt
  exact lt_irrefl _ hlt

theorem upsert_of_mem {t : KeyedTable α key} {x : α} (h : x ∈ t.rows) : t.upsert x = t :=
  ext (upsertRow_of_mem t.nodup h)

/-- The search for a key finds the row that has it. -/
theorem find?_key_eq_some {l : List α} (h : (l.map key).Nodup) {k : κ} {x : α} :
    l.find? (fun y => key y = k) = some x ↔ x ∈ l ∧ key x = k := by
  constructor
  · intro hfind
    exact ⟨List.mem_of_find?_eq_some hfind, by simpa using List.find?_some hfind⟩
  · rintro ⟨hx, rfl⟩
    cases hfind : l.find? (fun y => key y = key x) with
    | none =>
      rw [List.find?_eq_none] at hfind
      exact absurd (by simp) (hfind x hx)
    | some y =>
      have hy : y ∈ l := List.mem_of_find?_eq_some hfind
      have hkey : key y = key x := by simpa using List.find?_some hfind
      rw [List.inj_on_of_nodup_map h hy hx hkey]

/-- The lookup of a key gives the row of the table that has it. -/
theorem find_eq_some {t : KeyedTable α key} {k : κ} {x : α} :
    t.find k = some x ↔ x ∈ t.rows ∧ key x = k :=
  find?_key_eq_some t.nodup

@[simp] theorem find_empty (k : κ) : (empty : KeyedTable α key).find k = none := rfl

@[simp] theorem find_upsert_self (t : KeyedTable α key) (x : α) :
    (t.upsert x).find (key x) = some x :=
  find_eq_some.mpr ⟨mem_upsert.mpr (Or.inl rfl), rfl⟩

end KeyedTable
