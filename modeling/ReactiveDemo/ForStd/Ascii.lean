import Mathlib

/-!
# ASCII case mapping

Lower case for the ASCII letters of a string, leaving every other character alone.

## Key results

- `Char.toNat_toLower`: what `Char.toLower` does to the code point
- `asciiLower_asciiLower`: lower case is idempotent
-/

/-- `Char.toLower` moves the capital letters and nothing else. -/
theorem Char.toNat_toLower (c : Char) :
    c.toLower.toNat = if 65 ≤ c.toNat ∧ c.toNat ≤ 90 then c.toNat + 32 else c.toNat := by
  unfold Char.toLower
  by_cases h : c.val ≥ 'A'.val ∧ c.val ≤ 'Z'.val
  · have hrange : 65 ≤ c.toNat ∧ c.toNat ≤ 90 := by simpa [UInt32.le_iff_toNat_le] using h
    rw [dif_pos h, if_pos hrange, ← Char.toNat_val, ← Char.toNat_val]
    simp
    omega
  · have hrange : ¬ (65 ≤ c.toNat ∧ c.toNat ≤ 90) := by simpa [UInt32.le_iff_toNat_le] using h
    rw [dif_neg h, if_neg hrange]

/-- Lower case for the ASCII letters. -/
def asciiLower (s : String) : String := String.ofList (s.toList.map Char.toLower)

@[simp] theorem toList_asciiLower (s : String) :
    (asciiLower s).toList = s.toList.map Char.toLower := by
  rw [asciiLower, String.toList_ofList]

/-- Lower case is lower case already. -/
@[simp] theorem asciiLower_asciiLower (s : String) : asciiLower (asciiLower s) = asciiLower s := by
  rw [asciiLower, toList_asciiLower, List.map_map]
  have hcomp : Char.toLower ∘ Char.toLower = Char.toLower := funext Char.toLower_toLower_eq_toLower
  rw [hcomp, ← asciiLower]
