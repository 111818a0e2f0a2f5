import Mathlib

/-!
# Lists

`l.withoutIdx idx` is `l` without the elements whose index is listed in `idx`. The second
part is about decoding, element by element, what has been encoded element by element.

## Key results

- `length_withoutIdx`: how many elements are left
- `mapM_of_mapM_ok`: decoding a list of encoded elements
- `exists_mapM_ok_and_iff`: when two lists are encoded alike
-/

namespace List

variable {α : Type*}

/-- The elements of `l` whose index is not in `idx`. -/
def withoutIdx (l : List α) (idx : List Nat) : List α :=
  (l.zipIdx.filter fun x => x.2 ∉ idx).map Prod.fst

/-- The indices that are removed: those listed, when they are distinct and in range. -/
theorem length_filter_zipIdx_mem {idx : List Nat} {l : List α} (hnodup : idx.Nodup)
    (hlt : ∀ k ∈ idx, k < l.length) :
    (l.zipIdx.filter fun x => x.2 ∈ idx).length = idx.length := by
  have hall : (l.zipIdx.map Prod.snd).Nodup := by
    rw [List.zipIdx_map_snd]
    exact List.nodup_range'
  -- the indices of what is removed are the listed ones, in another order perhaps
  have hperm : ((l.zipIdx.filter fun x => x.2 ∈ idx).map Prod.snd).Perm idx := by
    refine (List.perm_ext_iff_of_nodup ?_ hnodup).mpr fun k => ?_
    · exact hall.sublist (List.filter_sublist.map _)
    · simp only [List.mem_map, List.mem_filter, decide_eq_true_eq, Prod.exists, exists_eq_right]
      constructor
      · rintro ⟨_, -, hk⟩
        exact hk
      · intro hk
        refine ⟨l.get ⟨k, hlt k hk⟩, ?_, hk⟩
        rw [List.mem_zipIdx_iff_getElem?]
        exact List.getElem?_eq_getElem (hlt k hk)
  rw [← hperm.length_eq, List.length_map]

/-- Removing distinct indices in range removes as many elements. -/
theorem length_withoutIdx {idx : List Nat} {l : List α} (hnodup : idx.Nodup)
    (hlt : ∀ k ∈ idx, k < l.length) : (l.withoutIdx idx).length + idx.length = l.length := by
  have hsplit := List.length_eq_length_filter_add (l := l.zipIdx) fun x => decide (x.2 ∈ idx)
  rw [length_filter_zipIdx_mem hnodup hlt, List.length_zipIdx] at hsplit
  simp only [withoutIdx, List.length_map, decide_not]
  omega

/-! ## Element-wise coding -/

variable {β γ ε : Type*}

/-- Encoding a list succeeds when every element can be encoded. -/
theorem exists_mapM_ok {f : α → Except ε β} {l : List α} (h : ∀ a ∈ l, ∃ b, f a = .ok b) :
    ∃ bs, l.mapM f = .ok bs := by
  induction l with
  | nil => exact ⟨[], rfl⟩
  | cons a l ih =>
    obtain ⟨b, hb⟩ := h a List.mem_cons_self
    obtain ⟨bs, hbs⟩ := ih fun a' ha' => h a' (List.mem_cons_of_mem _ ha')
    exact ⟨b :: bs, by rw [List.mapM_cons, hb, hbs]; rfl⟩

/-- Decoding a list of encoded elements gives, in order, what each element says. -/
theorem mapM_of_mapM_ok {f : α → Except ε β} {g : β → Option γ} {k : α → Option γ}
    (hinv : ∀ a b, f a = .ok b → ∃ c, g b = some c ∧ k a = some c) {l : List α} {bs : List β}
    (h : l.mapM f = .ok bs) :
    ∃ cs, bs.mapM g = some cs ∧ l.mapM k = some cs ∧ ∀ a ∈ l, ∃ c ∈ cs, k a = some c := by
  induction l generalizing bs with
  | nil =>
    cases h
    exact ⟨[], rfl, rfl, fun a ha => absurd ha List.not_mem_nil⟩
  | cons a l ih =>
    rw [List.mapM_cons] at h
    cases ha : f a with
    | error e => rw [ha] at h; cases h
    | ok b =>
      cases hl : l.mapM f with
      | error e => rw [ha, hl] at h; cases h
      | ok bs' =>
        rw [ha, hl] at h
        cases h
        -- the head and all of the tail have been encoded
        obtain ⟨c, hgb, hka⟩ := hinv a b ha
        obtain ⟨cs, hgs, hks, hmem⟩ := ih hl
        refine ⟨c :: cs, by rw [List.mapM_cons, hgb, hgs]; rfl, by rw [List.mapM_cons, hka, hks]; rfl,
          ?_⟩
        intro a' ha'
        rcases List.mem_cons.mp ha' with rfl | ha'
        · exact ⟨c, List.mem_cons_self, hka⟩
        · obtain ⟨c', hc', hka'⟩ := hmem a' ha'
          exact ⟨c', List.mem_cons_of_mem _ hc', hka'⟩

/-- Encoding gives `bs` when the elements, in order, are encoded as those of `bs`. -/
theorem mapM_eq_ok_iff {f : α → Except ε β} {l : List α} {bs : List β} :
    l.mapM f = .ok bs ↔ Forall₂ (fun a b => f a = .ok b) l bs := by
  induction l generalizing bs with
  | nil => cases bs <;> simp [pure, Except.pure]
  | cons a l ih =>
    rw [List.mapM_cons, forall₂_cons_left_iff]
    -- the first element is encoded first, and an error ends the loop
    cases ha : f a with
    | error e => simp [bind, Except.bind]
    | ok b =>
      cases hl : l.mapM f with
      | error e =>
        have hnone : ∀ bs', ¬ Forall₂ (fun a b => f a = .ok b) l bs' :=
          fun bs' h => by simp [ih.mpr h] at hl
        simp [bind, Except.bind, hnone]
      | ok bs' =>
        have hone : ∀ bs'', Forall₂ (fun a b => f a = .ok b) l bs'' ↔ bs' = bs'' :=
          fun bs'' => by rw [← ih, hl, Except.ok.injEq]
        simp [bind, Except.bind, pure, Except.pure, hone, eq_comm]

/-- Two lists of one length are encoded alike iff their elements are, place by place. -/
theorem exists_mapM_ok_and_iff {f : α → Except ε β} {l m : List α} (hlen : l.length = m.length) :
    (∃ bs, l.mapM f = .ok bs ∧ m.mapM f = .ok bs) ↔
      ∀ (i : Nat) a b, l[i]? = some a → m[i]? = some b → ∃ y, f a = .ok y ∧ f b = .ok y := by
  simp only [mapM_eq_ok_iff]
  constructor
  -- the two lists give the same results, and so the same at each place
  · rintro ⟨bs, hl, hm⟩ i a b ha hb
    obtain ⟨hi, rfl⟩ := getElem?_eq_some_iff.mp ha
    obtain ⟨hi', rfl⟩ := getElem?_eq_some_iff.mp hb
    have hbs : i < bs.length := hl.length_eq ▸ hi
    exact ⟨bs[i], hl.get hi hbs, hm.get hi' hbs⟩
  · intro h
    -- place by place there is one result, and they make up the list
    have hpairs : Forall₂ (fun a b => ∃ y, f a = .ok y ∧ f b = .ok y) l m :=
      forall₂_iff_get.mpr ⟨hlen, fun i hi hi' =>
        h i _ _ (getElem?_eq_getElem hi) (getElem?_eq_getElem hi')⟩
    induction hpairs with
    | nil => exact ⟨[], .nil, .nil⟩
    | cons hab _ ih =>
      obtain ⟨y, ha, hb⟩ := hab
      obtain ⟨bs, hl, hm⟩ := ih (by simpa using hlen) fun i a b ha hb =>
        h (i + 1) a b (by simpa using ha) (by simpa using hb)
      exact ⟨y :: bs, .cons ha hl, .cons hb hm⟩

/-- A list that grows at its end keeps its entries. -/
theorem getElem?_of_isPrefix {l m : List α} {i : Nat} {a : α} (hpre : l <+: m)
    (h : l[i]? = some a) : m[i]? = some a := by
  obtain ⟨suffix, rfl⟩ := hpre
  obtain ⟨hi, -⟩ := List.getElem?_eq_some_iff.mp h
  rw [List.getElem?_append_left hi, h]

end List
