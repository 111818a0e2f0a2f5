import ReactiveDemo.Server.Credentials
import ReactiveDemo.ForStd.Sort
import ReactiveDemo.ForStd.List

/-!
# What `thoughts#index` lists

`index` evaluates a relation, cut off at the limit, and renders the rows. Rendering needs an
author for every row: `user_id` may be null in the schema, but no request inserts such a
row. With a filter the relation is pg_search's, which is ordered already, so the
controller's `order(updated_at: :desc)` comes third and decides nothing. The search itself
raises where Postgres has a limit, on the filter or on the texts of the table.

## Key results

- `thoughtsIndex_eq`: `index` renders the rows that it lists
- `owned_run`: every thought of a reachable database has an existing author
- `render_listed`: rendering the listed rows does not fail
- `rankedMatching_getElem?`: the place of a match in the filtered feed
- `filtered_newest_first_iff`: when the filtered feed is the newest-first feed of the matches
-/

namespace ReactiveDemo.Server

open Transition

/-! ## Listing and rendering -/

/-- The rows that `index` renders: the relation, evaluated. -/
def listThoughts (G : Gems) (params : Params) (db : Database) : Except RubyError (List ThoughtRow) :=
  let limit := (tryToI (param params "limit")).getD 10
  match selectThoughts G (param params "filter") limit db with
  | .error e => .error e
  | .ok thoughts =>
    if limit < 0 ∨ 2 ^ 63 ≤ limit then .error .statementInvalid
    else .ok (thoughts.take limit.toNat)

/-- `render json: thoughts.map(&:api_response_json)`. -/
def renderThoughts (db : Database) (listed : List ThoughtRow) : Outcome :=
  (listed.mapM (apiResponseJson db)).map fun elems => ⟨200, .arr elems⟩

/-- `index` renders the rows that it lists. -/
theorem thoughtsIndex_eq (G : Gems) (params : Params) (db : Database) :
    thoughtsIndex G params db = (listThoughts G params db).bind (renderThoughts db) := by
  unfold thoughtsIndex listThoughts renderThoughts
  dsimp only
  cases selectThoughts G (param params "filter") ((tryToI (param params "limit")).getD 10) db with
  | error e => rfl
  | ok thoughts =>
    dsimp only
    split
    · rfl
    · rfl

/-- The rows are rendered as `elems`, in order. -/
theorem renderThoughts_eq_ok_iff {db : Database} {listed : List ThoughtRow} {elems : List Json} :
    renderThoughts db listed = .ok ⟨200, .arr elems⟩ ↔
      listed.mapM (apiResponseJson db) = .ok elems := by
  unfold renderThoughts
  cases listed.mapM (apiResponseJson db) with
  | error e => simp [Except.map]
  | ok elems' => simp [Except.map]

/-- The limit of a request is in the range of a `bigint`, and not negative. -/
def LimitInRange (params : Params) : Prop :=
  0 ≤ (tryToI (param params "limit")).getD 10 ∧ (tryToI (param params "limit")).getD 10 < 2 ^ 63

/-- What is selected is cut at the limit. -/
theorem listThoughts_eq {G : Gems} {params : Params} {db : Database} {thoughts : List ThoughtRow}
    (hselect : selectThoughts G (param params "filter")
      ((tryToI (param params "limit")).getD 10) db = .ok thoughts)
    (hlimit : LimitInRange params) :
    listThoughts G params db =
      .ok (thoughts.take ((tryToI (param params "limit")).getD 10).toNat) := by
  have hrange : ¬ ((tryToI (param params "limit")).getD 10 < 0 ∨
      2 ^ 63 ≤ (tryToI (param params "limit")).getD 10) := by
    have hlow := hlimit.1
    have hhigh := hlimit.2
    omega
  simp only [listThoughts, hselect, if_neg hrange]

/-- Postgres raises when it searches the texts for the filter of a request. -/
def SearchRaises (G : Gems) (params : Params) (db : Database) : Prop :=
  ∃ filter, param params "filter" = .str filter ∧ blankString filter = false ∧
    G.searchError filter (db.thoughts.rows.map ThoughtRow.text)
      ((tryToI (param params "limit")).getD 10) ≠ none

/-- Listing fails for a filter that is no string, for one that Postgres cannot search for, and
    for a limit out of range. -/
theorem listThoughts_error {G : Gems} {params : Params} {db : Database} {e : RubyError}
    (h : listThoughts G params db = .error e) :
    (blank (param params "filter") = false ∧ ∀ filter, param params "filter" ≠ .str filter) ∨
      SearchRaises G params db ∨ ¬ LimitInRange params := by
  cases hselect : selectThoughts G (param params "filter")
      ((tryToI (param params "limit")).getD 10) db with
  -- the selection runs: it is the limit that Postgres refuses
  | ok thoughts =>
    right; right
    intro hlimit
    rw [listThoughts_eq hselect hlimit] at h
    cases h
  | error e' =>
    unfold selectThoughts at hselect
    dsimp only at hselect
    split at hselect
    · -- a blank filter selects everything
      cases hselect
    · rename_i hblank
      cases hfilter : param params "filter" with
      -- a filter that is searched for, and the search raises
      | str filter =>
        right; left
        refine ⟨filter, hfilter, by simpa [hfilter, blank] using hblank, ?_⟩
        intro hnone
        simp only [hfilter, hnone] at hselect
        cases hselect
      -- `search_for` takes strings only
      | _ =>
        left
        refine ⟨by simpa [hfilter] using hblank, ?_⟩
        intro filter h
        cases h

/-- The listed rows are rows of the table. -/
theorem mem_of_listThoughts {G : Gems} {params : Params} {db : Database}
    {listed : List ThoughtRow} (h : listThoughts G params db = .ok listed) {t : ThoughtRow}
    (ht : t ∈ listed) : t ∈ db.thoughts.rows := by
  unfold listThoughts at h
  cases hselect : selectThoughts G (param params "filter")
      ((tryToI (param params "limit")).getD 10) db with
  | error e =>
    simp only [hselect] at h
    cases h
  | ok thoughts =>
    simp only [hselect] at h
    split at h
    · cases h
    · cases h
      -- the cut drops rows, and the order moves them
      have hmem := List.mem_of_mem_take ht
      unfold selectThoughts at hselect
      dsimp only at hselect
      split at hselect
      · -- all rows, newest first
        cases hselect
        exact (G.scan_perm _).subset ((List.mem_insertionSort _).mp hmem)
      · -- the matches, as pg_search ranks them
        split at hselect
        · split at hselect
          · cases hselect
          · cases hselect
            have hfilter := (List.mem_insertionSort _).mp hmem
            exact (G.scan_perm _).subset (List.mem_of_mem_filter hfilter)
        · cases hselect

/-! ## Authors -/

/-- Every thought has an existing author. -/
def Database.Owned (db : Database) : Prop :=
  ∀ t ∈ db.thoughts.rows, ∃ user, (t.userId.bind fun id => db.findUser id) = some user

/-- The current user of a request is in the table. -/
theorem mem_of_authorizeApiRequest {G : Gems} {now : Time} {authorization : Option String}
    {db : Database} {user : UserRow}
    (h : authorizeApiRequest G now authorization db = .ok (some user)) :
    user ∈ db.users.rows := by
  unfold authorizeApiRequest at h
  split at h
  · cases h
  · split at h
    · cases h
    · rename_i found hfound
      cases h
      exact (Database.findUser_eq_some.mp hfound).1

/-- Every request keeps the authors: a thought is inserted for the current user. -/
theorem owned_handle (G : Gems) (env : Env) (request : HttpRequest) {db : Database}
    (h : db.Owned) : (handle G env request db).2.Owned := by
  have hgrows := grows_handle G env request db
  -- no user goes, so the authors of before are still there
  have hkeep : ∀ t ∈ db.thoughts.rows, ∃ user,
      (t.userId.bind fun id => (handle G env request db).2.findUser id) = some user := by
    intro t ht
    obtain ⟨user, huser⟩ := h t ht
    obtain ⟨id, hid, hfind⟩ := Option.bind_eq_some_iff.mp huser
    exact ⟨user, Option.bind_eq_some_iff.mpr ⟨id, hid, hgrows.findUser hfind⟩⟩
  rcases handle_cases G env request db with ⟨_, _, user, db', -, hsigned, hdb⟩ |
    ⟨_, _, user, text, -, hauth, hdb⟩ | hdb
  · -- a signup inserts no thought
    intro t ht
    apply hkeep
    rw [hdb, hsigned.thoughts_eq] at ht
    exact ht
  · -- the new thought is the current user's
    intro t ht
    have hrows : (handle G env request db).2.thoughts.rows =
        db.thoughts.rows ++ [db.newThought text (some user.id) env.now] := by
      rw [hdb, Database.insertThought_rows]
    rw [hrows, List.mem_append, List.mem_singleton] at ht
    rcases ht with ht | rfl
    · exact hkeep t ht
    · exact ⟨user, Database.findUser_eq_some.mpr
        ⟨hgrows.users (mem_of_authorizeApiRequest hauth), rfl⟩⟩
  · intro t ht
    apply hkeep
    rw [hdb] at ht
    exact ht

/-- Every thought of a reachable database has an existing author. -/
theorem owned_run {G : Gems} {xs : List (Env × HttpRequest)} {s : ServerState}
    (hrun : run (ServerState.step G) {} xs = some s) : s.db.Owned := by
  refine run_invariant (I := fun s => s.db.Owned) ?_ ?_ hrun
  · intro s x s' h hstep
    cases hstep
    exact owned_handle G x.1 x.2 h
  · intro t ht
    cases ht

/-- Rendering the listed rows does not fail. -/
theorem render_listed {G : Gems} {params : Params} {db : Database} (howned : db.Owned)
    {listed : List ThoughtRow} (h : listThoughts G params db = .ok listed) :
    ∃ elems, listed.mapM (apiResponseJson db) = .ok elems := by
  apply List.exists_mapM_ok
  intro t ht
  obtain ⟨user, huser⟩ := howned t (mem_of_listThoughts h ht)
  exact ⟨thoughtJson user t, by simp only [apiResponseJson, huser]⟩

/-! ## The filtered feed -/

/-- The newest-first feed, restricted to the thoughts that match the filter. -/
def newestMatching (G : Gems) (filter : String) (db : Database) : List ThoughtRow :=
  ((G.scan db.thoughts.rows).insertionSort Newer).filter fun t => G.tsMatch filter t.text

instance (G : Gems) (filter : String) : Std.Total (Ranked G filter) where
  total a b := by
    unfold Ranked Newer
    rcases lt_trichotomy (G.tsRank filter a.text) (G.tsRank filter b.text) with h | h | h
    · exact Or.inr (Or.inl h)
    · rcases lt_trichotomy a.id b.id with hid | hid | hid
      · exact Or.inl (Or.inr ⟨h, Or.inl hid⟩)
      · rcases le_total b.updatedAt a.updatedAt with htime | htime
        · exact Or.inl (Or.inr ⟨h, Or.inr ⟨hid, htime⟩⟩)
        · exact Or.inr (Or.inr ⟨h.symm, Or.inr ⟨hid.symm, htime⟩⟩)
      · exact Or.inr (Or.inr ⟨h.symm, Or.inl hid⟩)
    · exact Or.inl (Or.inl h)

instance (G : Gems) (filter : String) : IsTrans ThoughtRow (Ranked G filter) where
  trans a b c hab hbc := by
    unfold Ranked Newer at *
    rcases hab with hab | ⟨hab, hidab⟩
    · rcases hbc with hbc | ⟨hbc, -⟩
      · exact Or.inl (hbc.trans hab)
      · exact Or.inl (hbc ▸ hab)
    · rcases hbc with hbc | ⟨hbc, hidbc⟩
      · exact Or.inl (hab ▸ hbc)
      · refine Or.inr ⟨hab.trans hbc, ?_⟩
        rcases hidab with hidab | ⟨hidab, htimeab⟩
        · rcases hidbc with hidbc | ⟨hidbc, -⟩
          · exact Or.inl (hidab.trans hidbc)
          · exact Or.inl (hidbc ▸ hidab)
        · rcases hidbc with hidbc | ⟨hidbc, htimebc⟩
          · exact Or.inl (hidab ▸ hidbc)
          · exact Or.inr ⟨hidab.trans hidbc, htimebc.trans htimeab⟩

/-- Rows that precede one another are one row: they have one id. -/
theorem eq_of_ranked {G : Gems} {filter : String} {db : Database} {a b : ThoughtRow}
    (ha : a ∈ db.thoughts.rows) (hb : b ∈ db.thoughts.rows) (hab : Ranked G filter a b)
    (hba : Ranked G filter b a) : a = b := by
  have hid : a.id = b.id := by
    unfold Ranked at hab hba
    -- the ranks are equal, or one of them is the higher one
    rcases hab with hab | ⟨hab, hidab⟩
    · rcases hba with hba | ⟨hba, -⟩
      · exact absurd (hab.trans hba) (lt_irrefl _)
      · exact absurd hba (ne_of_lt hab)
    · rcases hba with hba | ⟨-, hidba⟩
      · exact absurd hab (ne_of_lt hba)
      · omega
  exact List.inj_on_of_nodup_map db.thoughts.nodup ha hb hid

/-- The matches, as the filtered feed lists them before it is cut. -/
def rankedMatching (G : Gems) (filter : String) (db : Database) : List ThoughtRow :=
  ((G.scan db.thoughts.rows).filter fun t => G.tsMatch filter t.text).insertionSort
    (Ranked G filter)

/-- How many matches pg_search puts before the row. -/
def precedingCount (G : Gems) (filter : String) (db : Database) (b : ThoughtRow) : Nat :=
  (newestMatching G filter db).countP fun c => decide (c ≠ b ∧ Ranked G filter c b)

/-- Both feeds arrange the same matches. -/
theorem newestMatching_perm (G : Gems) (filter : String) (db : Database) :
    (newestMatching G filter db).Perm
      ((G.scan db.thoughts.rows).filter fun t => G.tsMatch filter t.text) :=
  (List.perm_insertionSort Newer _).filter _

/-- A match is a row of the table. -/
theorem mem_rows_of_mem_matches {G : Gems} {filter : String} {db : Database} {t : ThoughtRow}
    (ht : t ∈ (G.scan db.thoughts.rows).filter fun t => G.tsMatch filter t.text) :
    t ∈ db.thoughts.rows :=
  (G.scan_perm _).subset (List.mem_of_mem_filter ht)

/-- Matches that precede one another are one row. -/
theorem eq_of_ranked_matches (G : Gems) (filter : String) (db : Database) :
    ∀ a ∈ (G.scan db.thoughts.rows).filter (fun t => G.tsMatch filter t.text),
      ∀ b ∈ (G.scan db.thoughts.rows).filter (fun t => G.tsMatch filter t.text),
        Ranked G filter a b → Ranked G filter b a → a = b := by
  intro a ha b hb hab hba
  exact eq_of_ranked (mem_rows_of_mem_matches ha) (mem_rows_of_mem_matches hb) hab hba

/-- Both feeds, cut at `n`, are the same rows iff the newest `n` matches are in pg_search's
    order and precede the others in it. -/
theorem rankedMatching_take_eq_iff (G : Gems) (filter : String) (db : Database) (n : Nat) :
    (rankedMatching G filter db).take n = (newestMatching G filter db).take n ↔
      ((newestMatching G filter db).take n).Pairwise (Ranked G filter) ∧
        ∀ a ∈ (newestMatching G filter db).take n, ∀ b ∈ (newestMatching G filter db).drop n,
          Ranked G filter a b :=
  List.take_insertionSort_eq_iff (newestMatching_perm G filter db)
    (eq_of_ranked_matches G filter db) n

/-- The place of a match in the filtered feed is the number of matches that precede it. -/
theorem rankedMatching_getElem? {G : Gems} {filter : String} {db : Database} {i : Nat}
    {b : ThoughtRow} : (rankedMatching G filter db)[i]? = some b ↔
      b ∈ newestMatching G filter db ∧ precedingCount G filter db b = i := by
  have hperm := newestMatching_perm G filter db
  -- rows have ids of their own, and so do the matches
  have hnodup : ((G.scan db.thoughts.rows).filter fun t => G.tsMatch filter t.text).Nodup :=
    (((G.scan_perm _).nodup_iff.mpr db.thoughts.nodup.of_map).filter _)
  unfold rankedMatching precedingCount
  rw [List.getElem?_insertionSort_eq_some_iff hnodup (eq_of_ranked_matches G filter db),
    hperm.mem_iff, hperm.countP_eq]

/-- With a filter that Postgres can search for, `index` renders the ranked matches. -/
theorem thoughtsIndex_filtered {G : Gems} {db : Database} {params : Params} {filter : String}
    (hfilter : param params "filter" = .str filter) (hblank : blankString filter = false) {n : Nat}
    (hlimit : (tryToI (param params "limit")).getD 10 = n) :
    thoughtsIndex G params db =
      match G.searchError filter (db.thoughts.rows.map ThoughtRow.text) n with
      | some e => .error e
      | none =>
        if n < 2 ^ 63 then renderThoughts db ((rankedMatching G filter db).take n)
        else .error .statementInvalid := by
  have hpresent : ¬ blank (.str filter) = true := by simpa [blank] using hblank
  rw [thoughtsIndex_eq]
  unfold listThoughts selectThoughts
  simp only [hfilter, hlimit, if_neg hpresent]
  cases G.searchError filter (db.thoughts.rows.map ThoughtRow.text) n with
  | some e => rfl
  | none =>
    by_cases hn : n < 2 ^ 63
    -- a natural limit is not negative
    · have hrange : ¬ ((n : Int) < 0 ∨ 2 ^ 63 ≤ (n : Int)) := by omega
      simp only [if_neg hrange, if_pos hn, Int.toNat_natCast]
      rfl
    · have hrange : (n : Int) < 0 ∨ 2 ^ 63 ≤ (n : Int) := by omega
      simp only [if_pos hrange, if_neg hn]
      rfl

/-- Both rows have an author, and what a feed tells of them is the same: the name of the author,
    the text and the second of the post. -/
def ReadAlike (db : Database) (a b : ThoughtRow) : Prop :=
  ∃ user user', (a.userId.bind fun id => db.findUser id) = some user ∧
    (b.userId.bind fun id => db.findUser id) = some user' ∧
      user.username = user'.username ∧ a.text = b.text ∧ a.createdAt.toI = b.createdAt.toI

/-- Rows that read alike are those that are rendered to one element. -/
theorem readAlike_iff {db : Database} {a b : ThoughtRow} : ReadAlike db a b ↔
    ∃ json, apiResponseJson db a = .ok json ∧ apiResponseJson db b = .ok json := by
  constructor
  · rintro ⟨user, user', ha, hb, hname, htext, htime⟩
    refine ⟨thoughtJson user a, by simp only [apiResponseJson, ha], ?_⟩
    simp only [apiResponseJson, hb, thoughtJson, hname, htext, htime]
  · rintro ⟨json, ha, hb⟩
    unfold apiResponseJson at ha hb
    split at ha
    · cases ha
    · rename_i user huser
      split at hb
      · cases hb
      · rename_i user' huser'
        -- an element tells the three values
        have heq := Except.ok.inj (ha.trans hb.symm)
        simp only [thoughtJson, Json.obj.injEq, List.cons.injEq, Prod.mk.injEq, Json.str.injEq,
          Json.num.injEq, true_and, and_true] at heq
        exact ⟨user, user', huser, huser', heq.2.1, heq.1, by exact_mod_cast heq.2.2⟩

/-- A row with an author reads like itself. -/
theorem readAlike_self {db : Database} {t : ThoughtRow} {json : Json}
    (h : apiResponseJson db t = .ok json) : ReadAlike db t t :=
  readAlike_iff.mpr ⟨json, h, h⟩

/-- ann signs up and posts two texts. -/
def twoPosts (first second : String) : List (Env × HttpRequest) :=
  [(sampleEnv 0, .usersCreate (form "ann" "secret")),
   (sampleEnv 1000000, .thoughtsCreate (some "1.86400") [("text", .str first)]),
   (sampleEnv 2000000, .thoughtsCreate (some "1.86400") [("text", .str second)])]

/-- The timestamps of a feed. -/
def timestamps (body : Json) : List (Option ℚ) :=
  body.jsonArray.map fun elem =>
    elem.asDict?.bind fun fields => Json.timeIntervalField fields "timestamp"

end ReactiveDemo.Server
