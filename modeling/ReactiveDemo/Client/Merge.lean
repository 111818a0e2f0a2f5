import ReactiveDemo.Client.Frame
import ReactiveDemo.ForStd.KeyedMerge

/-!
# The merge of a feed into the Realm

The loop of `fetchThoughtsAction` decodes an element and saves it unless a Thought
with its text and author is found. On the values of the stored Thoughts this is
`mergeNew` under the key that `Thought.find` compares by, so the library's facts about
`mergeNew` are facts about the Realm.

## Key results

- `mergeElements_eq_some`: the loop succeeds iff every element decodes
- `values_mergeValues`: the loop on the stored values is `mergeNew`
- `mergeElements_merges`: what the loop adds, repeated and in either order
-/

namespace ReactiveDemo

/-- What a stored Thought says, without its id. -/
def Thought.value (t : Thought) : ThoughtValue := ⟨t.by_, t.text, t.timestamp⟩

/-- What `Thought.find` compares: two values with one key are one Thought to the client. -/
def ThoughtValue.key (P : Platform) (v : ThoughtValue) : String × String :=
  (P.foldCase v.text, P.foldCase v.by_)

namespace Realm

/-- What the stored Thoughts say, in order. -/
def values (r : Realm) : List ThoughtValue := r.thoughts.rows.map Thought.value

variable (P : Platform)

theorem matches_iff {v : ThoughtValue} {t : Thought} :
    Matches P v.by_ v.text t ↔ t.value.key P = v.key P := by
  simp [Matches, ThoughtValue.key, Thought.value]

/-- `Thought.find` succeeds iff the key is among the stored ones. -/
theorem findThought_isSome_iff_key {v : ThoughtValue} {r : Realm} :
    (r.findThought P v.by_ v.text).isSome ↔ v.key P ∈ r.values.map (ThoughtValue.key P) := by
  rw [findThought_isSome]
  simp only [values, List.map_map, List.mem_map, Function.comp_apply]
  constructor
  · rintro ⟨t, ht, hm⟩
    exact ⟨t, ht, (matches_iff P).mp hm⟩
  · rintro ⟨t, ht, hkey⟩
    exact ⟨t, ht, (matches_iff P).mpr hkey⟩

/-- One round of the loop inserts the value unless its key is there. -/
theorem values_saveIfAbsent (v : ThoughtValue) (r : Realm) :
    (r.saveIfAbsent P v).values = insertNew (ThoughtValue.key P) r.values v := by
  unfold saveIfAbsent insertNew
  by_cases hkey : v.key P ∈ r.values.map (ThoughtValue.key P)
  · have hfind := (findThought_isSome_iff_key P).mpr hkey
    rw [if_pos hkey, if_neg]
    simpa [Option.isNone_iff_eq_none] using Option.isSome_iff_ne_none.mp hfind
  · have hfind : (r.findThought P v.by_ v.text).isNone := by
      by_contra h
      exact hkey ((findThought_isSome_iff_key P).mp (by simpa [Option.isSome_iff_ne_none] using h))
    rw [if_neg hkey, if_pos hfind]
    simp [values, Thought.value]

/-- The loop on decoded elements. -/
def mergeValues (vs : List ThoughtValue) (r : Realm) : Realm :=
  vs.foldl (fun r v => r.saveIfAbsent P v) r

@[simp] theorem mergeValues_nil (r : Realm) : r.mergeValues P [] = r := rfl

@[simp] theorem mergeValues_cons (v : ThoughtValue) (vs : List ThoughtValue) (r : Realm) :
    r.mergeValues P (v :: vs) = (r.saveIfAbsent P v).mergeValues P vs := rfl

/-- On the stored values the loop is `mergeNew`. -/
theorem values_mergeValues (vs : List ThoughtValue) (r : Realm) :
    (r.mergeValues P vs).values = mergeNew (ThoughtValue.key P) r.values vs := by
  induction vs generalizing r with
  | nil => rfl
  | cons v vs ih => rw [mergeValues_cons, ih, values_saveIfAbsent, mergeNew_cons]

@[simp] theorem mergeValues_users (vs : List ThoughtValue) (r : Realm) :
    (r.mergeValues P vs).users = r.users := by
  induction vs generalizing r with
  | nil => rfl
  | cons v vs ih => rw [mergeValues_cons, ih, saveIfAbsent_users]

/-- One round of the loop leaves the stored Thoughts as they are, in front. -/
theorem prefix_saveIfAbsent (v : ThoughtValue) (r : Realm) :
    r.thoughts.rows <+: (r.saveIfAbsent P v).thoughts.rows := by
  unfold saveIfAbsent
  split
  · rw [saveThought_rows]
    exact List.prefix_append _ _
  · exact List.prefix_refl _

/-- The loop leaves the stored Thoughts as they are, in front. -/
theorem prefix_mergeValues (vs : List ThoughtValue) (r : Realm) :
    r.thoughts.rows <+: (r.mergeValues P vs).thoughts.rows := by
  induction vs generalizing r with
  | nil => exact List.prefix_refl _
  | cons v vs ih => exact (prefix_saveIfAbsent P v r).trans (ih (r.saveIfAbsent P v))

/-- The loop keeps every stored Thought. -/
theorem rows_subset_mergeValues (vs : List ThoughtValue) (r : Realm) :
    r.thoughts.rows ⊆ (r.mergeValues P vs).thoughts.rows := (prefix_mergeValues P vs r).subset

/-- After the loop every element's author and text are found. -/
theorem findThought_mergeValues {vs : List ThoughtValue} {v : ThoughtValue} (hv : v ∈ vs)
    (r : Realm) : ((r.mergeValues P vs).findThought P v.by_ v.text).isSome := by
  rw [findThought_isSome_iff_key, values_mergeValues, mem_map_mergeNew]
  exact Or.inr (List.mem_map_of_mem hv)

theorem findThought_saveIfAbsent (v : ThoughtValue) (r : Realm) :
    ((r.saveIfAbsent P v).findThought P v.by_ v.text).isSome :=
  findThought_mergeValues P (List.mem_singleton_self v) r

/-- What is found stays found. -/
theorem findThought_mono {r r' : Realm} (h : r.thoughts.rows ⊆ r'.thoughts.rows)
    {by_ text : String} (hfind : (r.findThought P by_ text).isSome) :
    (r'.findThought P by_ text).isSome := by
  rw [findThought_isSome] at hfind ⊢
  obtain ⟨t, ht, hm⟩ := hfind
  exact ⟨t, h ht, hm⟩

/-! ## What a merge adds -/

/-- The Thoughts that the loop adds: of a key that is stored none, of any other the first
    value that has it. -/
theorem added_mergeValues {vs : List ThoughtValue} {r : Realm} {added : List Thought}
    (h : (r.mergeValues P vs).thoughts.rows = r.thoughts.rows ++ added) (k : String × String) :
    (added.map Thought.value).filter (fun v => v.key P = k) =
      if k ∈ r.values.map (ThoughtValue.key P) then []
      else (vs.find? fun v => v.key P = k).toList := by
  have hvalues : (r.mergeValues P vs).values = r.values ++ added.map Thought.value := by
    rw [values, h, List.map_append, values]
  have hfilter : (r.mergeValues P vs).values.filter (fun v => v.key P = k) =
      r.values.filter (fun v => v.key P = k) ++
        if k ∈ r.values.map (ThoughtValue.key P) then []
        else (vs.find? fun v => v.key P = k).toList := by
    rw [values_mergeValues, filter_mergeNew]
  rw [hvalues, List.filter_append] at hfilter
  exact List.append_cancel_left hfilter

/-- `r'` is `r` with a feed of the values `vs` merged in: every stored Thought is as it was,
    and for each key of `vs` that was not stored there is one new Thought, which says what the
    first value with this key says. -/
structure Merged (vs : List ThoughtValue) (r r' : Realm) : Prop where
  users : r'.users = r.users
  thoughts : ∃ added, r'.thoughts.rows = r.thoughts.rows ++ added ∧
    ∀ k, (added.map Thought.value).filter (fun v => v.key P = k) =
      if k ∈ r.values.map (ThoughtValue.key P) then []
      else (vs.find? fun v => v.key P = k).toList

theorem merged_mergeValues (vs : List ThoughtValue) (r : Realm) :
    Merged P vs r (r.mergeValues P vs) where
  users := mergeValues_users P vs r
  thoughts := by
    obtain ⟨added, hadded⟩ := prefix_mergeValues P vs r
    exact ⟨added, hadded.symm, added_mergeValues P hadded.symm⟩

/-- The loop does nothing to a Realm where every value is found. -/
theorem mergeValues_eq_self {vs : List ThoughtValue} {r : Realm}
    (h : ∀ v ∈ vs, (r.findThought P v.by_ v.text).isSome) : r.mergeValues P vs = r := by
  induction vs with
  | nil => rfl
  | cons v vs ih =>
    have hv : ¬ (r.findThought P v.by_ v.text).isNone := by
      simpa [Option.isSome_iff_ne_none] using h v List.mem_cons_self
    rw [mergeValues_cons, saveIfAbsent, if_neg hv]
    exact ih fun w hw => h w (List.mem_cons_of_mem v hw)

/-- Merging the same values again changes nothing. -/
theorem mergeValues_mergeValues_self (vs : List ThoughtValue) (r : Realm) :
    (r.mergeValues P vs).mergeValues P vs = r.mergeValues P vs :=
  mergeValues_eq_self P fun _ hv => findThought_mergeValues P hv r

/-- The order of two merges does not matter to the keys that are stored. -/
theorem keys_mergeValues_comm (vs ws : List ThoughtValue) (r : Realm) (k : String × String) :
    k ∈ ((r.mergeValues P vs).mergeValues P ws).values.map (ThoughtValue.key P) ↔
      k ∈ ((r.mergeValues P ws).mergeValues P vs).values.map (ThoughtValue.key P) := by
  simp only [values_mergeValues, mem_map_mergeNew]
  exact or_right_comm

end Realm

namespace Process

/-- The loop succeeds iff every element decodes, and then merges the decoded values. -/
theorem mergeElements_eq_some {P : Platform} {js : List Json} {r r' : Realm} :
    mergeElements P js r = some r' ↔
      ∃ vs, js.mapM decodeElement = some vs ∧ r.mergeValues P vs = r' := by
  -- by the elements, from the first: what one of them stores the next ones find
  induction js generalizing r with
  | nil => simp [mergeElements]
  | cons j js ih =>
    simp only [mergeElements, List.mapM_cons, Option.bind_eq_bind, Option.pure_def]
    cases hj : decodeElement j with
    -- a cast fails, and the loop traps
    | none => simp
    | some v =>
      simp only [ih, Option.bind_some, Option.bind_eq_some_iff, Option.some.injEq]
      constructor
      · rintro ⟨vs, hvs, hr⟩
        exact ⟨v :: vs, ⟨vs, hvs, rfl⟩, hr⟩
      · rintro ⟨_, ⟨vs, hvs, rfl⟩, hr⟩
        exact ⟨vs, hvs, hr⟩

/-- On elements that decode, the loop merges their values. -/
theorem mergeElements_of_decode (P : Platform) (r : Realm) {js : List Json}
    {vs : List ThoughtValue} (h : js.mapM decodeElement = some vs) :
    mergeElements P js r = some (r.mergeValues P vs) := mergeElements_eq_some.mpr ⟨vs, h, rfl⟩

/-- On lists of well-formed elements the loop of `fetchThoughtsAction` ends; it merges the
    elements into the Realm as `Merged` says, a second time does nothing, and two lists may
    be merged in either order. -/
theorem mergeElements_merges (P : Platform) (r : Realm) {js₁ js₂ : List Json}
    {vs₁ vs₂ : List ThoughtValue} (h₁ : js₁.mapM decodeElement = some vs₁)
    (h₂ : js₂.mapM decodeElement = some vs₂) :
    ∃ r₁ r₂ r₁₂ r₂₁,
      mergeElements P js₁ r = some r₁ ∧ mergeElements P js₂ r₁ = some r₁₂ ∧
      mergeElements P js₂ r = some r₂ ∧ mergeElements P js₁ r₂ = some r₂₁ ∧
      r.Merged P vs₁ r₁ ∧ mergeElements P js₁ r₁ = some r₁ ∧
      ∀ k, k ∈ r₁₂.values.map (ThoughtValue.key P) ↔ k ∈ r₂₁.values.map (ThoughtValue.key P) := by
  have hmerge₁ := fun r => mergeElements_of_decode P r h₁
  have hmerge₂ := fun r => mergeElements_of_decode P r h₂
  refine ⟨_, _, _, _, hmerge₁ r, hmerge₂ _, hmerge₂ r, hmerge₁ _, Realm.merged_mergeValues P vs₁ r,
    ?_, Realm.keys_mergeValues_comm P vs₁ vs₂ r⟩
  rw [hmerge₁, Realm.mergeValues_mergeValues_self]

/-- Of three elements two spell one text, and the third is stored. -/
def spellings : List Json :=
  [.obj [("text", .str "Hello"), ("by", .str "bob"), ("timestamp", .num 5)],
   .obj [("text", .str "hi"), ("by", .str "ann"), ("timestamp", .num 4)],
   .obj [("text", .str "hello"), ("by", .str "bob"), ("timestamp", .num 3)]]

/-- The spelling that comes first is added, whichever list is merged later. -/
theorem mergeElements_merges_spellings :
    ∃ r₁ r₁₂ : Realm,
      mergeElements .ascii spellings (Realm.new.saveThought ⟨"ann", "hi", 7⟩) = some r₁ ∧
      mergeElements .ascii spellings r₁ = some r₁ ∧
      mergeElements .ascii spellings.reverse r₁ = some r₁₂ ∧
      r₁₂.values = [⟨"ann", "hi", 7⟩, ⟨"bob", "Hello", 5⟩] := by
  -- what the two responses decode to
  have hspellings : spellings.mapM decodeElement =
      some [⟨"bob", "Hello", 5⟩, ⟨"ann", "hi", 4⟩, ⟨"bob", "hello", 3⟩] := rfl
  have hreverse : spellings.reverse.mapM decodeElement =
      some [⟨"bob", "hello", 3⟩, ⟨"ann", "hi", 4⟩, ⟨"bob", "Hello", 5⟩] := rfl
  obtain ⟨r₁, -, r₁₂, -, hr₁, hr₁₂, -, -, -, hagain, -⟩ := mergeElements_merges .ascii
    (Realm.new.saveThought ⟨"ann", "hi", 7⟩) hspellings hreverse
  -- and what a run of the code leaves
  have hvalues : ((mergeElements .ascii spellings (Realm.new.saveThought ⟨"ann", "hi", 7⟩)).bind
      (mergeElements .ascii spellings.reverse)).map Realm.values =
        some [⟨"ann", "hi", 7⟩, ⟨"bob", "Hello", 5⟩] := by decide +kernel
  rw [hr₁, Option.bind_some, hr₁₂, Option.map_some, Option.some.injEq] at hvalues
  exact ⟨r₁, r₁₂, hr₁, hagain, hr₁₂, hvalues⟩

end Process

end ReactiveDemo
