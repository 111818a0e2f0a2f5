import Mathlib

/-!
# Folds that overwrite, reset and skip

`l.foldl step s` is the state of a total machine after the inputs `l`. The lemmas below
read a part of that state off the list of inputs: inputs that reset the machine cut off
what was before them, a part that inputs either overwrite or leave alone shows the last
write, and inputs that leave a part alone can be dropped for it.

## Key results

- `foldl_eq_foldl_rtakeWhile`: only the inputs after the last reset count
- `foldl_overwrite`: a part of the state shows the last write, or its first value
- `foldl_filter_eq`: a part of the state does not depend on the inputs that leave it alone
-/

namespace List

variable {σ α β γ : Type*} {step : σ → α → σ}

/-- A machine that is reset to `z` has forgotten what was before the last reset. -/
theorem foldl_eq_foldl_rtakeWhile {reset : α → Bool} {z : σ}
    (hreset : ∀ s a, reset a = true → step s a = z) (s : σ) (l : List α) :
    l.foldl step s =
      (l.rtakeWhile fun a => !reset a).foldl step (if l.any reset then z else s) := by
  induction l using List.reverseRecOn with
  | nil => rfl
  | append_singleton l a ih =>
    rw [foldl_append, foldl_cons, foldl_nil]
    by_cases ha : reset a = true
    · rw [hreset _ a ha, rtakeWhile_concat_neg _ _ _ (by simp [ha])]
      simp [ha]
    · rw [ih, rtakeWhile_concat_pos _ _ _ (by simp [ha])]
      simp [ha]

/-- A part of the state that every input overwrites with a value of its own, or leaves as it
    is, ends as the last write. -/
theorem foldl_overwrite (part : σ → β) {write : α → Option γ} {val : γ → β} {l : List α}
    (hwrite : ∀ a ∈ l, ∀ s, part (step s a) = ((write a).map val).getD (part s)) (s : σ) :
    part (l.foldl step s) = ((l.filterMap write).getLast?.map val).getD (part s) := by
  induction l generalizing s with
  | nil => rfl
  | cons a l ih =>
    rw [foldl_cons, ih (fun b hb => hwrite b (mem_cons_of_mem a hb)), hwrite a mem_cons_self]
    cases ha : write a with
    | none => simp [ha]
    | some c =>
      -- the write of `a` shows unless `l` has a later one
      rw [filterMap_cons_some ha, getLast?_cons]
      cases (l.filterMap write).getLast? <;> rfl

/-- Inputs that do not show in a part of the state may be dropped, when what the others make
    of the part depends on the part alone. -/
theorem foldl_filter_eq (part : σ → β) {keep : α → Bool}
    (hkeep : ∀ s t a, part s = part t → part (step s a) = part (step t a))
    (hdrop : ∀ s a, keep a = false → part (step s a) = part s) {s t : σ}
    (h : part s = part t) (l : List α) :
    part ((l.filter keep).foldl step s) = part (l.foldl step t) := by
  induction l generalizing s t with
  | nil => exact h
  | cons a l ih =>
    cases ha : keep a with
    | true =>
      rw [filter_cons_of_pos ha]
      exact ih (hkeep s t a h)
    | false =>
      rw [filter_cons_of_neg (by simp [ha])]
      exact ih (h.trans (hdrop t a ha).symm)

end List
