import ReactiveDemo.ForStd.Count

/-!
# Sets of indices

`realm::IndexSet`, by its `as_indexes()`: the indices in ascending order. The source keeps
them as ranges in chunks; the operations that take a whole set walk over the single
indices, and are the same loops here. `count()` and `unshift()`, which sum up what the
chunks say of themselves, are left out: only moves need them. Each operation is described
by its members, in terms of `rank`: the index that an index becomes when those of a set are
deleted.

## Key results

- `rank_shift`, `shift_rank`: `shift` and `rank` undo each other
- `mem_insertAtSet`, `mem_shiftForInsertAtSet`, `mem_eraseAtSet`, `mem_addShiftedBy`
- `rank_rank`: deleting in two rounds
-/

namespace ObjectStore

/-! ## Loops -/

/-- The loop of `shift`. -/
def shiftLoop : List Nat → Nat → Nat
  | [], index => index
  | s :: ss, index => if index < s then index else shiftLoop ss (index + 1)

/-- `do_add`, from the range before which the index belongs. -/
def addLoop (index : Nat) : List Nat → List Nat
  | [] => [index]
  | s :: ss =>
    if s < index then s :: addLoop index ss
    else if s = index then s :: ss
    else index :: s :: ss

/-- The loop of `insert_at`. -/
def insertLoop (shift : Nat) : List Nat → List Nat → List Nat
  | [], bs => bs
  | as, [] => as.map (· + shift)
  | a :: as, b :: bs =>
    if a + shift < b then (a + shift) :: insertLoop shift as (b :: bs)
    else b :: insertLoop (shift + 1) (a :: as) bs
termination_by as bs => as.length + bs.length

/-- The loop of `shift_for_insert_at`. -/
def shiftForInsertLoop (shift : Nat) : List Nat → List Nat → List Nat
  | [], _ => []
  | as, [] => as.map (· + shift)
  | a :: as, b :: bs =>
    if a + shift < b then (a + shift) :: shiftForInsertLoop shift as (b :: bs)
    else shiftForInsertLoop (shift + 1) (a :: as) bs
termination_by as bs => as.length + bs.length

/-- The loop of `erase_at`. -/
def eraseLoop (shift : Nat) : List Nat → List Nat → List Nat
  | [], _ => []
  | as, [] => as.map (· - shift)
  | a :: as, b :: bs =>
    if a < b then (a - shift) :: eraseLoop shift as (b :: bs)
    else if a = b then eraseLoop (shift + 1) as bs
    else eraseLoop (shift + 1) (a :: as) bs
termination_by as bs => as.length + bs.length

/-- The first inner loop of `add_shifted_by`: the shifts up to `index` are counted, and
    `skipUntil` is where the last of them ends. -/
def passShifts (index : Nat) : List Nat → Nat → Nat → List Nat × Nat × Nat
  | [], newShift, skipUntil => ([], newShift, skipUntil)
  | t :: ts, newShift, skipUntil =>
    if t ≤ index then passShifts index ts (newShift + 1) (t + 1)
    else (t :: ts, newShift, skipUntil)

/-- The second inner loop of `add_shifted_by`: what it pushes, and the old indices and the
    shift that it leaves. -/
def passOld (index : Nat) : List Nat → Nat → List Nat × List Nat × Nat
  | [], oldShift => ([], [], oldShift)
  | s :: ss, oldShift =>
    if s ≤ index + oldShift then
      let rest := passOld index ss (oldShift + 1)
      (s :: rest.1, rest.2)
    else ([], s :: ss, oldShift)

/-- The loop of `add_shifted_by` over the values. -/
def addShiftedLoop : List Nat → List Nat × Nat × Nat → List Nat → Nat → List Nat
  | [], _, old, _ => old
  | index :: values, (shifts, newShift, skipUntil), old, oldShift =>
    let passed := passShifts index shifts newShift skipUntil
    if index < passed.2.2 then addShiftedLoop values passed old oldShift
    else
      let before := passOld (index - passed.2.1) old oldShift
      before.1 ++ (index - passed.2.1 + before.2.2) ::
        addShiftedLoop values passed before.2.1 before.2.2

/-! ## What the loops compute -/

/-- How many of the indices are below `k`. -/
def below (k : Nat) (l : List Nat) : Nat := l.countP (· < k)

@[simp] theorem below_nil (k : Nat) : below k [] = 0 := rfl

@[simp] theorem below_cons (k s : Nat) (l : List Nat) :
    below k (s :: l) = below k l + if s < k then 1 else 0 := by
  simp only [below, List.countP_cons, decide_eq_true_eq]

/-- None of them is below an index that bounds them all. -/
theorem below_eq_zero {k : Nat} {l : List Nat} (h : ∀ s ∈ l, k ≤ s) : below k l = 0 := by
  rw [below, List.countP_eq_zero]
  intro s hs
  have hle := h s hs
  simp only [decide_eq_true_eq]
  omega

/-- There are no more of them than there is room for. -/
theorem below_le {k c : Nat} {l : List Nat} (hl : l.Pairwise (· < ·)) (h : ∀ s ∈ l, c ≤ s) :
    below k l ≤ k - c := by
  induction l generalizing c with
  | nil => exact Nat.zero_le _
  | cons s l ih =>
    obtain ⟨hs, hl⟩ := List.pairwise_cons.mp hl
    have hcs := h s List.mem_cons_self
    -- the rest has room from `s + 1` on
    have hle := ih hl (c := s + 1) hs
    rw [below_cons]
    -- and `s` takes one place, if it is below `k`
    split <;> omega

/-- The lists ascend, so the head is the least. -/
theorem le_of_mem_cons {s k : Nat} {l : List Nat} (hl : (s :: l).Pairwise (· < ·))
    (hk : k ∈ s :: l) : s ≤ k := by
  cases hk with
  | head => exact Nat.le_refl _
  | tail _ hk => exact ((List.pairwise_cons.mp hl).1 k hk).le

/-- Behind an index that is before all of them, it stays where it is. -/
theorem add_below_eq_iff {m k : Nat} {l : List Nat} (hl : l.Pairwise (· < ·))
    (h : ∀ s ∈ l, m < s) : m + below k l = k ↔ m = k := by
  by_cases hk : k ≤ m + 1
  -- no index is below `k`
  · rw [below_eq_zero fun s hs => hk.trans (h s hs)]
    rfl
  -- not all that are below `k` fit between `m` and `k`
  · have hroom := below_le (k := k) hl h
    constructor <;> intro heq <;> omega

/-- What `insert_at` gives: the positions, and each index moved up by `n` and by the positions
    below where it ends. The induction follows the loop, which compares the two heads. -/
theorem mem_insertLoop {n k : Nat} {as bs : List Nat} (has : as.Pairwise (· < ·))
    (hbs : bs.Pairwise (· < ·)) :
    k ∈ insertLoop n as bs ↔ k ∈ bs ∨ ∃ a ∈ as, a + n + below k bs = k := by
  fun_induction insertLoop n as bs with
  | case1 n bs => simp
  | case2 n as => simp
  | case3 n a as b bs hlt ih =>
    -- the index comes before every position that is left, and is not moved by them
    obtain ⟨ha, has⟩ := List.pairwise_cons.mp has
    have hb : ∀ b' ∈ b :: bs, a + n < b' := fun b' hb' => hlt.trans_le (le_of_mem_cons hbs hb')
    have hhead := add_below_eq_iff (k := k) hbs hb
    rw [List.mem_cons, ih has hbs]
    simp only [List.exists_mem_cons_iff, hhead, eq_comm (a := k)]
    tauto
  | case4 n a as b bs hlt ih =>
    obtain ⟨hb, hbs'⟩ := List.pairwise_cons.mp hbs
    -- the position comes first, and moves every index that is left by one more
    have hlow : ∀ a' ∈ a :: as, b ≤ a' + n := by
      intro a' ha'
      have hle := le_of_mem_cons has ha'
      omega
    rw [List.mem_cons, ih has hbs', List.mem_cons, or_assoc]
    -- where another `k` is concerned, `b` is one more position below it
    refine or_congr_right' fun hne => or_congr_right ?_
    refine exists_congr fun a' => and_congr_right fun ha' => ?_
    have hle := hlow a' ha'
    rw [below_cons]
    split <;> omega

/-- One more is below the next index if the index itself is among them. -/
theorem below_succ {l : List Nat} (hl : l.Pairwise (· < ·)) (k : Nat) :
    below (k + 1) l = below k l + if k ∈ l then 1 else 0 := by
  induction l with
  | nil => rfl
  | cons s l ih =>
    obtain ⟨hs, hl⟩ := List.pairwise_cons.mp hl
    simp only [below_cons, ih hl, List.mem_cons]
    by_cases hk : k = s
    -- `s` itself is the one that is added, and there is no other
    · subst hk
      have hnot : k ∉ l := fun hmem => absurd (hs k hmem) (Nat.lt_irrefl k)
      simp [hnot]
    · have hlt : s < k + 1 ↔ s < k := by omega
      simp only [hlt, hk, false_or]
      omega

/-- The indices below `k` that are not among them. -/
theorem sub_below {l : List Nat} (hl : l.Pairwise (· < ·)) (k : Nat) :
    k - below k l = Nat.count (· ∉ l) k := by
  -- `below` counts what is there, and `Nat.count` of the complement the rest
  have hcount : Nat.count (· ∈ l) k = below k l := by
    induction k with
    | zero => rw [Nat.count_zero, below_eq_zero fun s _ => Nat.zero_le s]
    | succ k ih => rw [Nat.count_succ, ih, below_succ hl]
  have hsplit := Nat.count_add_count_not (p := (· ∈ l)) k
  omega

/-- What `shift_for_insert_at` gives: the same indices as `insert_at`, without the positions. -/
theorem mem_shiftForInsertLoop {n k : Nat} {as bs : List Nat} (has : as.Pairwise (· < ·))
    (hbs : bs.Pairwise (· < ·)) :
    k ∈ shiftForInsertLoop n as bs ↔ k ∉ bs ∧ ∃ a ∈ as, a + n + below k bs = k := by
  fun_induction shiftForInsertLoop n as bs with
  | case1 n bs => simp
  | case2 n as => simp
  | case3 n a as b bs hlt ih =>
    obtain ⟨ha, has⟩ := List.pairwise_cons.mp has
    have hb : ∀ b' ∈ b :: bs, a + n < b' := fun b' hb' => hlt.trans_le (le_of_mem_cons hbs hb')
    have hhead := add_below_eq_iff (k := k) hbs hb
    -- where the index ends is none of the positions
    have hnot : k = a + n → k ∉ b :: bs := by
      intro hk hmem
      have hle := hb k hmem
      omega
    rw [List.mem_cons, ih has hbs]
    simp only [List.exists_mem_cons_iff, hhead, eq_comm (a := a + n)]
    tauto
  | case4 n a as b bs hlt ih =>
    obtain ⟨hb, hbs'⟩ := List.pairwise_cons.mp hbs
    -- the position moves every index that is left by one more, past itself
    have hlow : ∀ a' ∈ a :: as, b ≤ a' + n := by
      intro a' ha'
      have hle := le_of_mem_cons has ha'
      omega
    rw [ih has hbs', List.mem_cons, not_or]
    constructor
    -- after the step, `k` is beyond `b`
    · intro ⟨hk, a', ha', heq⟩
      have hle := hlow a' ha'
      refine ⟨⟨?_, hk⟩, a', ha', ?_⟩
      · omega
      · rw [below_cons, if_pos (by omega)]
        omega
    -- before it, `k` is not `b`, so `b` counts as below
    · intro ⟨⟨hne, hk⟩, a', ha', heq⟩
      have hle := hlow a' ha'
      refine ⟨hk, a', ha', ?_⟩
      rw [below_cons] at heq
      split at heq <;> omega

/-- What `erase_at` gives: the indices that are not erased, each moved down by `n` and by the
    erased ones below it. -/
theorem mem_eraseLoop {n k : Nat} {as bs : List Nat} (has : as.Pairwise (· < ·))
    (hbs : bs.Pairwise (· < ·)) :
    k ∈ eraseLoop n as bs ↔ ∃ a ∈ as, a ∉ bs ∧ a - (n + below a bs) = k := by
  fun_induction eraseLoop n as bs with
  | case1 n bs => simp
  | case2 n as => simp
  | case3 n a as b bs hlt ih =>
    -- nothing that is erased is at `a` or below it
    obtain ⟨ha, has⟩ := List.pairwise_cons.mp has
    have hb : ∀ b' ∈ b :: bs, a < b' := fun b' hb' => hlt.trans_le (le_of_mem_cons hbs hb')
    have hnot : a ∉ b :: bs := fun hmem => absurd (hb a hmem) (Nat.lt_irrefl a)
    have hzero : below a (b :: bs) = 0 := below_eq_zero fun b' hb' => (hb b' hb').le
    rw [List.mem_cons, ih has hbs, List.exists_mem_cons_iff]
    simp only [hnot, hzero, not_false_eq_true, true_and, Nat.add_zero, eq_comm (a := k)]
  | case4 n as b bs hlt ih =>
    -- `a` is erased, and the others are all above it
    obtain ⟨ha, has⟩ := List.pairwise_cons.mp has
    rw [ih has (List.pairwise_cons.mp hbs).2, List.exists_mem_cons_iff]
    have hrest (a' : Nat) (ha' : a' ∈ as) : a' ∉ bs ∧ a' - (n + 1 + below a' bs) = k ↔
        a' ∉ b :: bs ∧ a' - (n + below a' (b :: bs)) = k := by
      have hgt := ha a' ha'
      have hne : a' ≠ b := by omega
      rw [below_cons, if_pos hgt, List.mem_cons, not_or, and_iff_right hne]
      have hsum : n + 1 + below a' bs = n + (below a' bs + 1) := by omega
      rw [hsum]
    simp only [List.mem_cons_self, not_true_eq_false, false_and, false_or]
    exact exists_congr fun a' => and_congr_right fun ha' => hrest a' ha'
  | case5 n a as b bs hlt hne ih =>
    rw [ih has (List.pairwise_cons.mp hbs).2]
    -- `b` is not among the indices, and is below all of them
    refine exists_congr fun a' => and_congr_right fun ha' => ?_
    have hle := le_of_mem_cons has ha'
    have hgt : b < a' := by omega
    have hne' : a' ≠ b := by omega
    rw [below_cons, if_pos hgt, List.mem_cons, not_or, and_iff_right hne']
    have hsum : n + 1 + below a' bs = n + (below a' bs + 1) := by omega
    rw [hsum]

/-- `add` puts the index in, wherever it belongs. -/
theorem mem_addLoop {index k : Nat} {l : List Nat} :
    k ∈ addLoop index l ↔ k = index ∨ k ∈ l := by
  induction l with
  | nil => simp [addLoop]
  | cons s l ih =>
    simp only [addLoop]
    split
    · rw [List.mem_cons, ih, List.mem_cons]
      tauto
    · split
      · next heq => simp [heq]
      · rw [List.mem_cons, List.mem_cons]

/-- `shift` moves up. -/
theorem le_shiftLoop (l : List Nat) (i : Nat) : i ≤ shiftLoop l i := by
  induction l generalizing i with
  | nil => exact Nat.le_refl i
  | cons s l ih =>
    have hrest := ih (i + 1)
    simp only [shiftLoop]
    split <;> omega

/-- The index that `shift` finds is not among them, and as many are below it as it has
    moved. -/
theorem shiftLoop_spec {l : List Nat} (hl : l.Pairwise (· < ·)) (i : Nat) :
    shiftLoop l i ∉ l ∧ i + below (shiftLoop l i) l = shiftLoop l i := by
  induction l generalizing i with
  | nil => exact ⟨List.not_mem_nil, rfl⟩
  | cons s l ih =>
    simp only [shiftLoop]
    split
    · next hlt =>
      -- the walk ends before the first index that is not passed
      have hall : ∀ s' ∈ s :: l, i < s' := fun s' hs' => hlt.trans_le (le_of_mem_cons hl hs')
      constructor
      · intro hmem
        exact absurd (hall i hmem) (Nat.lt_irrefl i)
      · rw [below_eq_zero fun s' hs' => (hall s' hs').le, Nat.add_zero]
    · next hlt =>
      -- `s` is passed, and moves the index by one
      obtain ⟨hnot, hsum⟩ := ih (List.pairwise_cons.mp hl).2 (i + 1)
      have hle := le_shiftLoop l (i + 1)
      constructor
      · rw [List.mem_cons, not_or]
        exact ⟨by omega, hnot⟩
      · rw [below_cons, if_pos (by omega)]
        omega

/-- Shifts that come later are not passed. -/
theorem passShifts_of_lt {i n u : Nat} {ts : List Nat} (h : ∀ t ∈ ts, i < t) :
    passShifts i ts n u = (ts, n, u) := by
  cases ts with
  | nil => rfl
  | cons t ts =>
    have hlt := h t List.mem_cons_self
    rw [passShifts, if_neg (by omega)]

/-- The first inner loop takes the shifts up to `i` off the front. It has added their number to
    the shift, and `skipUntil` is beyond `i` iff `i` is one of them. -/
theorem passShifts_spec {i n u : Nat} {ts : List Nat} (hts : ts.Pairwise (· < ·)) (hu : u ≤ i) :
    ∃ passed, ts = passed ++ (passShifts i ts n u).1 ∧ (∀ t ∈ passed, t ≤ i) ∧
      (∀ t ∈ (passShifts i ts n u).1, i < t) ∧ (passShifts i ts n u).2.1 = n + passed.length ∧
      (i < (passShifts i ts n u).2.2 ↔ i ∈ passed) ∧ (passShifts i ts n u).2.2 ≤ i + 1 := by
  induction ts generalizing n u with
  | nil =>
    refine ⟨[], rfl, nofun, nofun, rfl, ?_, ?_⟩
    · exact iff_of_false (Nat.not_lt.mpr hu) List.not_mem_nil
    · exact Nat.le_succ_of_le hu
  | cons t ts ih =>
    obtain ⟨ht, hts'⟩ := List.pairwise_cons.mp hts
    by_cases hlt : i < t
    -- the loop ends here
    · have hall : ∀ t' ∈ t :: ts, i < t' := fun t' ht' =>
        hlt.trans_le (le_of_mem_cons hts ht')
      rw [passShifts_of_lt hall]
      refine ⟨[], rfl, nofun, hall, rfl, ?_, ?_⟩
      · exact iff_of_false (Nat.not_lt.mpr hu) List.not_mem_nil
      · exact Nat.le_succ_of_le hu
    · rw [passShifts, if_pos (Nat.not_lt.mp hlt)]
      by_cases heq : t = i
      · -- the last shift that counts
        subst heq
        rw [passShifts_of_lt ht]
        refine ⟨[t], rfl, fun t' ht' => ?_, ht, rfl, ?_, Nat.le_refl _⟩
        · exact (List.mem_singleton.mp ht').le
        · exact iff_of_true (Nat.lt_succ_self t) List.mem_cons_self
      -- `t` is passed, and after it what the rest of the loop passes
      · obtain ⟨passed, happ, hle, hgt, hshift, hskip, hbound⟩ :=
          ih (n := n + 1) (u := t + 1) hts' (by omega)
        refine ⟨t :: passed, by rw [List.cons_append, ← happ], ?_, hgt, ?_, ?_, hbound⟩
        · intro t' ht'
          cases ht' with
          | head => exact Nat.not_lt.mp hlt
          | tail _ ht' => exact hle t' ht'
        · rw [hshift, List.length_cons]
          omega
        · rw [hskip, List.mem_cons]
          exact ⟨.inr, fun h => h.resolve_left (Ne.symm heq)⟩

theorem below_append (k : Nat) (l m : List Nat) : below k (l ++ m) = below k l + below k m :=
  List.countP_append

theorem below_eq_length {k : Nat} {l : List Nat} (h : ∀ s ∈ l, s < k) : below k l = l.length := by
  rw [below, List.countP_eq_length]
  intro s hs
  exact decide_eq_true (h s hs)

/-- What the loop says of the value it was run for: it is skipped iff it is a shift, and
    otherwise is unshifted by the shifts below it. -/
theorem passShifts_self {v n u : Nat} {ts : List Nat} (hts : ts.Pairwise (· < ·)) (hu : u ≤ v) :
    (passShifts v ts n u).1.Pairwise (· < ·) ∧ (∀ t ∈ (passShifts v ts n u).1, v < t) ∧
      (v < (passShifts v ts n u).2.2 ↔ v ∈ ts) ∧ (passShifts v ts n u).2.2 ≤ v + 1 ∧
      (v ∉ ts → n + below v ts = (passShifts v ts n u).2.1) := by
  obtain ⟨passed, happ, hle, hgt, hshift, hskip, hbound⟩ := passShifts_spec (n := n) hts hu
  have hnot : v ∉ (passShifts v ts n u).1 := fun h => absurd (hgt v h) (Nat.lt_irrefl v)
  have hmem : v ∈ ts ↔ v ∈ passed := by
    conv_lhs => rw [happ, List.mem_append, or_iff_left hnot]
  refine ⟨?_, hgt, hskip.trans hmem.symm, hbound, fun hv => ?_⟩
  · rw [happ] at hts
    exact (List.pairwise_append.mp hts).2.1
  -- a value that is no shift has passed the ones below it
  · have hlt : ∀ t ∈ passed, t < v := fun t ht =>
      lt_of_le_of_ne (hle t ht) fun heq => hv (hmem.mpr (heq ▸ ht))
    have hzero := below_eq_zero fun t ht => (hgt t ht).le
    conv_lhs => rw [happ, below_append, below_eq_length hlt, hzero]
    rw [hshift]
    rfl

/-- The later values do not see that shifts have been passed. -/
theorem passShifts_later {v v' n u : Nat} {ts : List Nat} (hts : ts.Pairwise (· < ·))
    (hu : u ≤ v) (hlt : v < v') : (v' ∈ (passShifts v ts n u).1 ↔ v' ∈ ts) ∧
      (passShifts v ts n u).2.1 + below v' (passShifts v ts n u).1 = n + below v' ts := by
  obtain ⟨passed, happ, hle, -, hshift, -, -⟩ := passShifts_spec (n := n) hts hu
  have hnot : v' ∉ passed := fun h => absurd (hle v' h) (Nat.not_le.mpr hlt)
  -- all that were passed are below a later value
  have hlen : below v' passed = passed.length :=
    below_eq_length fun t ht => (hle t ht).trans_lt hlt
  constructor
  · conv_rhs => rw [happ, List.mem_append, or_iff_right hnot]
  · conv_rhs => rw [happ, below_append, hlen]
    rw [hshift]
    omega

/-- The shift by the old indices grows. -/
theorem le_passOld (y : Nat) (old : List Nat) (o : Nat) : o ≤ (passOld y old o).2.2 := by
  induction old generalizing o with
  | nil => exact Nat.le_refl o
  | cons s old ih =>
    have hrest := ih (o + 1)
    simp only [passOld]
    split
    · exact (Nat.le_succ o).trans hrest
    · exact Nat.le_refl o

/-- The old indices that are pushed come before the new one, the others behind it; and a
    later index can be shifted from here. -/
theorem passOld_spec {y o : Nat} {old : List Nat} (hold : old.Pairwise (· < ·)) :
    (passOld y old o).1 ++ (passOld y old o).2.1 = old ∧
    (∀ s ∈ (passOld y old o).1, s < y + (passOld y old o).2.2) ∧
    (∀ s ∈ (passOld y old o).2.1, y + (passOld y old o).2.2 < s) ∧
    ∀ z, y ≤ z →
      shiftLoop old (z + o) = shiftLoop (passOld y old o).2.1 (z + (passOld y old o).2.2) := by
  induction old generalizing o with
  | nil => simp [passOld]
  | cons s old ih =>
    obtain ⟨hs, hold'⟩ := List.pairwise_cons.mp hold
    simp only [passOld]
    split
    · next hle =>
      -- `s` is pushed before the value, which it shifts
      obtain ⟨happ, hbefore, hbehind, hshift⟩ := ih (o := o + 1) hold'
      have hle' := le_passOld y old (o + 1)
      dsimp only
      refine ⟨by rw [List.cons_append, happ], fun s' hs' => ?_, hbehind, fun z hz => ?_⟩
      · cases hs' with
        | head => omega
        | tail _ hs' => exact hbefore s' hs'
      · rw [shiftLoop, if_neg (by omega), Nat.add_assoc, hshift z hz]
    · next hle =>
      dsimp only
      -- `s` and all that follow it are behind the value
      refine ⟨rfl, fun s' hs' => (List.not_mem_nil hs').elim, fun s' hs' => ?_, fun z hz => rfl⟩
      have hle' := le_of_mem_cons hold hs'
      omega

/-- `shift` leaves an index where it is when all others are above it. -/
theorem shiftLoop_of_lt {i : Nat} {l : List Nat} (h : ∀ s ∈ l, i < s) : shiftLoop l i = i := by
  cases l with
  | nil => rfl
  | cons s l => rw [shiftLoop, if_pos (h s List.mem_cons_self)]

/-- The values that are no shifts are pushed, unshifted by the shifts and shifted by the old
    indices. -/
theorem mem_addShiftedLoop {k : Nat} {vs : List Nat} {st : List Nat × Nat × Nat}
    {old : List Nat} {o : Nat} (hvs : vs.Pairwise (· < ·)) (hts : st.1.Pairwise (· < ·))
    (hold : old.Pairwise (· < ·)) (hu : ∀ v ∈ vs, st.2.2 ≤ v) :
    k ∈ addShiftedLoop vs st old o ↔ k ∈ old ∨ ∃ v ∈ vs, v ∉ st.1 ∧
      shiftLoop old (v - (st.2.1 + below v st.1) + o) = k := by
  induction vs generalizing st old o with
  | nil => simp [addShiftedLoop]
  | cons v vs ih =>
    obtain ⟨ts, n, u⟩ := st
    dsimp only at hts hu
    obtain ⟨hv, hvs⟩ := List.pairwise_cons.mp hvs
    have huv := hu v List.mem_cons_self
    obtain ⟨hts', hgt, hskip, hbound, hcount⟩ := passShifts_self (n := n) hts huv
    have hu' : ∀ v' ∈ vs, (passShifts v ts n u).2.2 ≤ v' := fun v' hv' =>
      hbound.trans (hv v' hv')
    rw [List.exists_mem_cons_iff]
    by_cases hmem : v ∈ ts
    · -- the value is a shift itself
      rw [addShiftedLoop, if_pos (hskip.mpr hmem), ih hvs hts' hold hu']
      simp only [hmem, not_true_eq_false, false_and, false_or]
      refine or_congr_right (exists_congr fun v' => and_congr_right fun hv' => ?_)
      obtain ⟨hmem', hsum⟩ := passShifts_later (n := n) hts huv (hv v' hv')
      rw [hmem', hsum]
    -- it is pushed, between the old indices before it and those behind it
    · obtain ⟨hsplit, -, hbehind, hz⟩ :=
        passOld_spec (y := v - (passShifts v ts n u).2.1) (o := o) hold
      have hold' := hold
      rw [← hsplit] at hold'
      -- where it is pushed is where `shift` over all old indices takes it
      have hself := hz _ (Nat.le_refl _)
      rw [shiftLoop_of_lt hbehind] at hself
      rw [addShiftedLoop, if_neg (mt hskip.mp hmem)]
      dsimp only
      rw [List.mem_append, List.mem_cons,
        ih hvs hts' (List.pairwise_append.mp hold').2.1 hu', ← hself, hcount hmem]
      -- the later values are pushed behind this one
      have hrest : (∃ v' ∈ vs, v' ∉ (passShifts v ts n u).1 ∧
            shiftLoop (passOld (v - (passShifts v ts n u).2.1) old o).2.1
              (v' - ((passShifts v ts n u).2.1 + below v' (passShifts v ts n u).1) +
                (passOld (v - (passShifts v ts n u).2.1) old o).2.2) = k) ↔
          ∃ v' ∈ vs, v' ∉ ts ∧ shiftLoop old (v' - (n + below v' ts) + o) = k := by
        refine exists_congr fun v' => and_congr_right fun hv' => ?_
        obtain ⟨hmem', hsum⟩ := passShifts_later (n := n) hts huv (hv v' hv')
        have hlt := hv v' hv'
        have hroom := below_le (k := v') hts' hgt
        rw [hmem', ← hz _ (by omega), hsum]
      -- the old indices are pushed with it or left for later
      have hsplit' : k ∈ old ↔ k ∈ (passOld (v - (passShifts v ts n u).2.1) old o).1 ∨
          k ∈ (passOld (v - (passShifts v ts n u).2.1) old o).2.1 := by
        rw [← List.mem_append, hsplit]
      rw [hrest, hsplit']
      simp only [hmem, not_false_eq_true, true_and, eq_comm (a := k)]
      tauto

/-! ## The loops keep the order -/

/-- The list goes on ascending. -/
theorem pairwise_addLoop (index : Nat) {l : List Nat} (hl : l.Pairwise (· < ·)) :
    (addLoop index l).Pairwise (· < ·) := by
  induction l with
  | nil => exact List.pairwise_singleton _ _
  | cons s l ih =>
    obtain ⟨hs, hl'⟩ := List.pairwise_cons.mp hl
    simp only [addLoop]
    split
    · next hlt =>
      -- what follows is the new index or was behind `s` before
      refine List.pairwise_cons.mpr ⟨fun k hk => ?_, ih hl'⟩
      cases mem_addLoop.mp hk with
      | inl heq => omega
      | inr hk => exact hs k hk
    · split
      · exact hl
      · next hge hne =>
        refine List.pairwise_cons.mpr ⟨fun k hk => ?_, hl⟩
        have hle := le_of_mem_cons hl hk
        omega

/-- The walk emits positions and moved indices, each of them below what is still to come. -/
theorem pairwise_insertLoop {n : Nat} {as bs : List Nat} (has : as.Pairwise (· < ·))
    (hbs : bs.Pairwise (· < ·)) : (insertLoop n as bs).Pairwise (· < ·) := by
  fun_induction insertLoop n as bs with
  | case1 n bs => exact hbs
  | case2 n as => exact has.map _ fun a a' h => Nat.add_lt_add_right h n
  | case3 n a as b bs hlt ih =>
    obtain ⟨ha, has⟩ := List.pairwise_cons.mp has
    refine List.pairwise_cons.mpr ⟨fun k hk => ?_, ih has hbs⟩
    -- by its members, what follows is a position or a later index, moved
    cases (mem_insertLoop has hbs).mp hk with
    | inl hk => exact hlt.trans_le (le_of_mem_cons hbs hk)
    | inr h =>
      obtain ⟨a', ha', heq⟩ := h
      have haa := ha a' ha'
      omega
  | case4 n a as b bs hlt ih =>
    obtain ⟨hb, hbs⟩ := List.pairwise_cons.mp hbs
    refine List.pairwise_cons.mpr ⟨fun k hk => ?_, ih has hbs⟩
    -- what follows is a later position, or an index that `b` has moved on
    cases (mem_insertLoop has hbs).mp hk with
    | inl hk => exact hb k hk
    | inr h =>
      obtain ⟨a', ha', heq⟩ := h
      have hle := le_of_mem_cons has ha'
      omega

/-- The moved indices keep their order. -/
theorem pairwise_shiftForInsertLoop {n : Nat} {as bs : List Nat} (has : as.Pairwise (· < ·))
    (hbs : bs.Pairwise (· < ·)) : (shiftForInsertLoop n as bs).Pairwise (· < ·) := by
  fun_induction shiftForInsertLoop n as bs with
  | case1 n bs => exact .nil
  | case2 n as => exact has.map _ fun a a' h => Nat.add_lt_add_right h n
  | case3 n a as b bs hlt ih =>
    obtain ⟨ha, has⟩ := List.pairwise_cons.mp has
    refine List.pairwise_cons.mpr ⟨fun k hk => ?_, ih has hbs⟩
    obtain ⟨-, a', ha', heq⟩ := (mem_shiftForInsertLoop has hbs).mp hk
    have haa := ha a' ha'
    omega
  | case4 n a as b bs hlt ih => exact ih has (List.pairwise_cons.mp hbs).2

/-- The shift never exceeds an index that is left, so the subtraction does not stop at zero and
    merge two of them. -/
theorem pairwise_eraseLoop {n : Nat} {as bs : List Nat} (has : as.Pairwise (· < ·))
    (hbs : bs.Pairwise (· < ·)) (hna : ∀ a ∈ as, n ≤ a) (hnb : ∀ b ∈ bs, n ≤ b) :
    (eraseLoop n as bs).Pairwise (· < ·) := by
  fun_induction eraseLoop n as bs with
  | case1 n bs => exact .nil
  | case2 n as =>
    refine List.pairwise_map.mpr (has.imp_of_mem fun {a a'} ha ha' hlt => ?_)
    have hle := hna a ha
    omega
  | case3 n a as b bs hlt ih =>
    obtain ⟨ha, has⟩ := List.pairwise_cons.mp has
    obtain ⟨hle, hna⟩ := List.forall_mem_cons.mp hna
    refine List.pairwise_cons.mpr ⟨fun k hk => ?_, ih has hbs hna hnb⟩
    obtain ⟨a', ha', -, heq⟩ := (mem_eraseLoop has hbs).mp hk
    -- between `a` and `a'` fewer are erased than there are indices
    have hroom := below_le (k := a') (c := a + 1) hbs fun b' hb' =>
      hlt.trans_le (le_of_mem_cons hbs hb')
    have haa := ha a' ha'
    omega
  | case4 n as b bs hlt ih =>
    obtain ⟨ha, has⟩ := List.pairwise_cons.mp has
    obtain ⟨hb, hbs⟩ := List.pairwise_cons.mp hbs
    obtain ⟨hle, -⟩ := List.forall_mem_cons.mp hna
    exact ih has hbs (fun a' ha' => hle.trans_lt (ha a' ha'))
      fun b' hb' => hle.trans_lt (hb b' hb')
  | case5 n a as b bs hlt hne ih =>
    obtain ⟨hb, hbs⟩ := List.pairwise_cons.mp hbs
    obtain ⟨hle, -⟩ := List.forall_mem_cons.mp hnb
    refine ih has hbs (fun a' ha' => ?_) fun b' hb' => hle.trans_lt (hb b' hb')
    have haa := le_of_mem_cons has ha'
    omega

/-- The old indices and the values are pushed in order. A value is never below the number of
    the shifts that it has passed, so the subtraction does not stop at zero. -/
theorem pairwise_addShiftedLoop {vs : List Nat} {st : List Nat × Nat × Nat} {old : List Nat}
    {o : Nat} (hvs : vs.Pairwise (· < ·)) (hts : st.1.Pairwise (· < ·))
    (hold : old.Pairwise (· < ·)) (hu : ∀ v ∈ vs, st.2.2 ≤ v)
    (hn : ∀ v ∈ vs, st.2.1 + below v st.1 ≤ v) :
    (addShiftedLoop vs st old o).Pairwise (· < ·) := by
  induction vs generalizing st old o with
  | nil => exact hold
  | cons v vs ih =>
    obtain ⟨ts, n, u⟩ := st
    dsimp only at hts hu hn
    obtain ⟨hv, hvs⟩ := List.pairwise_cons.mp hvs
    have huv := hu v List.mem_cons_self
    obtain ⟨hts', hgt, hskip, hbound, hcount⟩ := passShifts_self (n := n) hts huv
    have hu' : ∀ v' ∈ vs, (passShifts v ts n u).2.2 ≤ v' := fun v' hv' =>
      hbound.trans (hv v' hv')
    have hn' : ∀ v' ∈ vs, (passShifts v ts n u).2.1 + below v' (passShifts v ts n u).1 ≤ v' := by
      intro v' hv'
      rw [(passShifts_later (n := n) hts huv (hv v' hv')).2]
      exact hn v' (List.mem_cons_of_mem v hv')
    -- the shifts up to the value come off the values behind it as well
    by_cases hmem : v ∈ ts
    · rw [addShiftedLoop, if_pos (hskip.mpr hmem)]
      exact ih hvs hts' hold hu' hn'
    · obtain ⟨hsplit, hbefore, hbehind, -⟩ :=
        passOld_spec (y := v - (passShifts v ts n u).2.1) (o := o) hold
      have hle : (passShifts v ts n u).2.1 ≤ v := hcount hmem ▸ hn v List.mem_cons_self
      rw [← hsplit] at hold
      obtain ⟨hpassed, hold', hcross⟩ := List.pairwise_append.mp hold
      rw [addShiftedLoop, if_neg (mt hskip.mp hmem)]
      dsimp only
      -- what follows is behind the index that is pushed
      have hrest : ∀ k ∈ addShiftedLoop vs (passShifts v ts n u)
          (passOld (v - (passShifts v ts n u).2.1) old o).2.1
          (passOld (v - (passShifts v ts n u).2.1) old o).2.2,
          v - (passShifts v ts n u).2.1 +
            (passOld (v - (passShifts v ts n u).2.1) old o).2.2 < k := by
        intro k hk
        cases (mem_addShiftedLoop hvs hts' hold' hu').mp hk with
        | inl hk => exact hbehind k hk
        | inr h =>
          obtain ⟨v', hv', -, heq⟩ := h
          have hlt := hv v' hv'
          have hroom := below_le (k := v') hts' hgt
          have hge := le_shiftLoop (passOld (v - (passShifts v ts n u).2.1) old o).2.1
            (v' - ((passShifts v ts n u).2.1 + below v' (passShifts v ts n u).1) +
              (passOld (v - (passShifts v ts n u).2.1) old o).2.2)
          omega
      refine List.pairwise_append.mpr ⟨hpassed, ?_, fun s hs k hk => ?_⟩
      · exact List.pairwise_cons.mpr ⟨hrest, ih hvs hts' hold' hu' hn'⟩
      · have hlt := hbefore s hs
        cases hk with
        | head => exact hlt
        | tail _ hk => exact hlt.trans (hrest k hk)

end ObjectStore

/-! ## Index sets -/

/-- `realm::IndexSet`. -/
structure IndexSet where
  /-- `as_indexes()`. -/
  indexes : List Nat
  ascending : indexes.Pairwise (· < ·)
deriving DecidableEq, Repr

namespace IndexSet

open ObjectStore

instance : Membership Nat IndexSet := ⟨fun s k => k ∈ s.indexes⟩

instance (k : Nat) (s : IndexSet) : Decidable (k ∈ s) :=
  inferInstanceAs (Decidable (k ∈ s.indexes))

theorem mem_def {k : Nat} {s : IndexSet} : k ∈ s ↔ k ∈ s.indexes := Iff.rfl

def empty : IndexSet := ⟨[], .nil⟩

instance : Inhabited IndexSet := ⟨empty⟩

def isEmpty (s : IndexSet) : Bool := s.indexes.isEmpty

def add (index : Nat) (s : IndexSet) : IndexSet :=
  ⟨addLoop index s.indexes, pairwise_addLoop index s.ascending⟩

/-- `add(IndexSet const&)`. -/
def addSet (s other : IndexSet) : IndexSet := other.indexes.foldl (fun s index => s.add index) s

/-- `remove(IndexSet const&)`. -/
def removeSet (s values : IndexSet) : IndexSet :=
  ⟨s.indexes.filter (· ∉ values), s.ascending.filter _⟩

def shift (index : Nat) (s : IndexSet) : Nat := shiftLoop s.indexes index

/-- The number of indices before this one that are not in the set. -/
def rank (index : Nat) (s : IndexSet) : Nat := Nat.count (· ∉ s) index

/-- `insert_at(IndexSet const&)`; the source returns early where the loop changes nothing,
    and so do the next two. -/
def insertAtSet (s positions : IndexSet) : IndexSet :=
  ⟨insertLoop 0 s.indexes positions.indexes, pairwise_insertLoop s.ascending positions.ascending⟩

/-- `shift_for_insert_at(IndexSet const&)`. -/
def shiftForInsertAtSet (s values : IndexSet) : IndexSet :=
  ⟨shiftForInsertLoop 0 s.indexes values.indexes,
    pairwise_shiftForInsertLoop s.ascending values.ascending⟩

/-- `erase_at(IndexSet const&)`. -/
def eraseAtSet (s positions : IndexSet) : IndexSet :=
  ⟨eraseLoop 0 s.indexes positions.indexes,
    pairwise_eraseLoop s.ascending positions.ascending (fun _ _ => Nat.zero_le _)
      fun _ _ => Nat.zero_le _⟩

def addShiftedBy (s shiftedBy values : IndexSet) : IndexSet where
  indexes := addShiftedLoop values.indexes (shiftedBy.indexes, 0, 0) s.indexes 0
  ascending := by
    refine pairwise_addShiftedLoop values.ascending shiftedBy.ascending s.ascending
      (fun _ _ => Nat.zero_le _) fun v _ => ?_
    have hle := below_le (k := v) (c := 0) shiftedBy.ascending fun _ _ => Nat.zero_le _
    dsimp only
    omega

/-! ## Members -/

variable {s t r : IndexSet} {i j k : Nat}

@[simp] theorem notMem_empty : k ∉ empty := List.not_mem_nil

/-- A set is determined by its list. -/
theorem isEmpty_iff : s.isEmpty = true ↔ s = empty := by
  obtain ⟨l, hl⟩ := s
  simp [isEmpty, empty]

@[simp] theorem mem_add : k ∈ s.add i ↔ k = i ∨ k ∈ s := mem_addLoop

@[simp] theorem mem_addSet : k ∈ s.addSet t ↔ k ∈ s ∨ k ∈ t := by
  obtain ⟨l, hl⟩ := t
  change k ∈ l.foldl (fun s index => s.add index) s ↔ k ∈ s ∨ k ∈ l
  -- the order of what is added does not matter
  clear hl
  induction l generalizing s with
  | nil => simp
  | cons a l ih =>
    rw [List.foldl_cons, ih, mem_add, List.mem_cons]
    tauto

@[simp] theorem mem_removeSet : k ∈ s.removeSet t ↔ k ∈ s ∧ k ∉ t := by
  rw [mem_def, removeSet, List.mem_filter, decide_eq_true_eq, ← mem_def]

/-! ## Shifting -/

/-- An index is moved down by as many places as there are deleted indices below it. -/
theorem sub_below_eq_rank (s : IndexSet) (k : Nat) : k - below k s.indexes = s.rank k :=
  sub_below s.ascending k

/-- Two indices that are left are different after the others are deleted. -/
theorem rank_inj (hi : i ∉ s) (hj : j ∉ s) (h : s.rank i = s.rank j) : i = j :=
  Nat.count_injective (p := (· ∉ s)) hi hj h

/-- Deleting keeps the order of what is left. -/
theorem rank_lt_rank (hi : i ∉ s) (h : i < j) : s.rank i < s.rank j :=
  Nat.count_strict_mono (p := (· ∉ s)) hi h

theorem rank_le_rank (s : IndexSet) (h : i ≤ j) : s.rank i ≤ s.rank j :=
  Nat.count_monotone _ h

/-- And it changes the order of none. -/
theorem lt_of_rank_lt_rank (h : s.rank i < s.rank j) : i < j := by
  by_contra hge
  exact absurd (rank_le_rank s (Nat.not_lt.mp hge)) (Nat.not_le.mpr h)

/-- Below `k` there are the indices that are left and those in the set. -/
theorem rank_add_below (s : IndexSet) (k : Nat) : s.rank k + below k s.indexes = k := by
  have hle := below_le (k := k) (c := 0) s.ascending fun _ _ => Nat.zero_le _
  rw [← sub_below_eq_rank]
  omega

/-- `shift` goes on past the indices of the set. -/
theorem shift_notMem (s : IndexSet) (k : Nat) : s.shift k ∉ s :=
  (shiftLoop_spec s.ascending k).1

@[simp] theorem rank_shift (s : IndexSet) (k : Nat) : s.rank (s.shift k) = k := by
  have hsum := (shiftLoop_spec s.ascending k).2
  have hsplit := rank_add_below s (s.shift k)
  rw [shift] at hsplit ⊢
  omega

/-- What is left is found again by shifting it back. -/
theorem shift_rank (hk : k ∉ s) : s.shift (s.rank k) = k :=
  rank_inj (shift_notMem s _) hk (rank_shift s _)

/-- Shifted from where it is counted, an index that is not in the set is found again. -/
theorem rank_eq_iff (hk : k ∉ s) : s.rank k = i ↔ s.shift i = k :=
  ⟨fun h => h ▸ shift_rank hk, fun h => h ▸ rank_shift s i⟩

/-- Deleting the indices of `s`, and then those of `r`, is deleting those of `t`. -/
theorem rank_rank (h : ∀ k, k ∈ t ↔ k ∈ s ∨ s.rank k ∈ r) (k : Nat) :
    t.rank k = r.rank (s.rank k) := by
  -- what is left in the end is what is left of what the first round leaves
  refine Nat.count_count (fun k => ?_) k
  rw [h, not_or]
  rfl

/-! ## Members after the bulk operations -/

/-- An index after the insertion is inserted, or was in the set before it. -/
theorem mem_insertAtSet : k ∈ s.insertAtSet t ↔ k ∈ t ∨ t.rank k ∈ s := by
  -- where `a` ends is the index whose rank it is
  have hsplit := rank_add_below t k
  refine (mem_insertLoop s.ascending t.ascending).trans (or_congr_right ?_)
  constructor
  · intro ⟨a, ha, heq⟩
    have hrank : t.rank k = a := by omega
    rwa [hrank]
  · intro h
    exact ⟨t.rank k, h, hsplit⟩

/-- The same without those that are inserted. -/
theorem mem_shiftForInsertAtSet :
    k ∈ s.shiftForInsertAtSet t ↔ k ∉ t ∧ t.rank k ∈ s := by
  have hsplit := rank_add_below t k
  refine (mem_shiftForInsertLoop s.ascending t.ascending).trans (and_congr_right' ?_)
  constructor
  · intro ⟨a, ha, heq⟩
    have hrank : t.rank k = a := by omega
    rwa [hrank]
  · intro h
    exact ⟨t.rank k, h, hsplit⟩

/-- An index after the erasure stands for the one that `shift` finds. -/
theorem mem_eraseAtSet : k ∈ s.eraseAtSet t ↔ t.shift k ∈ s := by
  refine (mem_eraseLoop s.ascending t.ascending).trans ?_
  constructor
  -- what is left of the set is moved to its rank
  · intro ⟨a, ha, hnot, heq⟩
    rw [Nat.zero_add, sub_below_eq_rank] at heq
    rwa [← heq, shift_rank hnot]
  · intro h
    refine ⟨t.shift k, h, shift_notMem t k, ?_⟩
    rw [Nat.zero_add, sub_below_eq_rank]
    exact rank_shift t k

/-- An index that is not erased is in the set after it as it was before. -/
theorem rank_mem_eraseAtSet (hk : k ∉ t) : t.rank k ∈ s.eraseAtSet t ↔ k ∈ s := by
  rw [mem_eraseAtSet, shift_rank hk]

/-- `add_shifted_by` deletes, after those of `s`, the values that are no shifts. -/
theorem mem_addShiftedBy :
    k ∈ s.addShiftedBy t r ↔ k ∈ s ∨ s.rank k ∈ r.eraseAtSet t := by
  by_cases hk : k ∈ s
  -- the indices of `s` stay
  · simp only [hk, true_or, iff_true]
    exact (mem_addShiftedLoop r.ascending t.ascending s.ascending fun _ _ => Nat.zero_le _).mpr
      (.inl hk)
  · refine (mem_addShiftedLoop r.ascending t.ascending s.ascending
      fun _ _ => Nat.zero_le _).trans (or_congr_right ?_)
    simp only [Nat.zero_add, Nat.add_zero, sub_below_eq_rank]
    rw [mem_eraseAtSet]
    constructor
    -- the value `v` was unshifted by `t` and shifted by `s`
    · intro ⟨v, hv, hnot, heq⟩
      have hrank : s.rank k = t.rank v := (rank_eq_iff hk).mpr heq
      rwa [hrank, shift_rank hnot]
    · intro h
      refine ⟨t.shift (s.rank k), h, shift_notMem t _, ?_⟩
      rw [rank_shift]
      exact shift_rank hk

end IndexSet
