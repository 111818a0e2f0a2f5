import ReactiveDemo.System.Tokens
import ReactiveDemo.ForStd.Window
import ReactiveDemo.ForStd.Sort

/-!
# Polling loses no thought

A fetch is answered with the ten newest thoughts, and merging a feed only adds to the Realm.
So when the feeds that are merged overlap, in whatever order they come in, the client has
every thought between the first of them and the last.

## Key results

- `covers_thoughtsIndex`: a feed shows the last ten rows
- `polls_step`: every step keeps what the feeds in the network and in the Realm show
- `polling_loses_nothing`: overlapping feeds leave no gap
-/

namespace ReactiveDemo

open Transition Server

/-! ## The page of ten -/

/-- Thoughts are created one after the other. -/
def Server.Database.Chronological (db : Database) : Prop :=
  db.thoughts.rows.Pairwise fun a b => a.updatedAt < b.updatedAt

instance (db : Database) : Decidable db.Chronological :=
  inferInstanceAs (Decidable (List.Pairwise _ _))

theorem Server.Database.Grows.chronological {db db' : Database} (h : db.Grows db')
    (hchron : db'.Chronological) : db.Chronological :=
  List.Pairwise.sublist h.thoughts.sublist hchron

/-- A row that was there is still the same. -/
theorem Server.Database.Grows.row {db db' : Database} (h : db.Grows db') {k : Nat}
    {row : ThoughtRow} (hk : k < db.thoughts.rows.length)
    (hrow : db'.thoughts.rows[k]? = some row) : db.thoughts.rows[k]? = some row := by
  have hold := List.getElem?_eq_getElem hk
  have hnew := List.getElem?_of_isPrefix h.thoughts hold
  rw [hrow] at hnew
  rw [hold, ← hnew]

/-- A row goes on saying what it says. -/
theorem Server.Database.Grows.feedValue {db db' : Database} (h : db.Grows db') {row : ThoughtRow}
    {v : ThoughtValue} (hv : feedValue db row = some v) : feedValue db' row = some v := by
  unfold ReactiveDemo.feedValue at hv ⊢
  cases hid : row.userId with
  | none =>
    rw [hid] at hv
    cases hv
  | some id =>
    rw [hid, Option.bind_some, Option.map_eq_some_iff] at hv
    obtain ⟨user, huser, rfl⟩ := hv
    rw [Option.bind_some, h.findUser huser, Option.map_some]

/-- What the feed that was rendered at `mark` rows has to show: the last ten of them. -/
def Covers (db : Database) (mark : Nat) (body : Json) : Prop :=
  ∃ vs, body.jsonArray.mapM Process.decodeElement = some vs ∧
    ∀ k row, db.thoughts.rows[k]? = some row → k < mark → mark ≤ k + 10 →
      ∃ v ∈ vs, feedValue db row = some v

/-- A feed shows the last ten rows. -/
theorem covers_thoughtsIndex {G : Gems} {db : Database} {response : Response}
    (hchron : db.Chronological) (h : thoughtsIndex G [] db = .ok response) :
    Covers db db.thoughts.rows.length response.body := by
  obtain ⟨-, thoughts, vs, hselect, hdecode, hshow⟩ := thoughtsIndex_eq_ok h
  have hsort : (G.scan db.thoughts.rows).insertionSort Newer = db.thoughts.rows.reverse :=
    List.insertionSort_eq_reverse (fun _ _ => Iff.rfl) hchron (G.scan_perm _)
  have hthoughts : thoughts = db.thoughts.rows.reverse := by
    rw [← hsort]
    exact (Except.ok.inj hselect).symm
  refine ⟨vs, hdecode, ?_⟩
  intro k row hrow hk hwindow
  apply hshow
  rw [hthoughts]
  exact mem_take_reverse hrow hwindow

theorem Covers.mono {db db' : Database} {mark : Nat} {body : Json} (h : Covers db mark body)
    (hgrows : db.Grows db') (hmark : mark ≤ db.thoughts.rows.length) : Covers db' mark body := by
  obtain ⟨vs, hdecode, hshow⟩ := h
  refine ⟨vs, hdecode, ?_⟩
  intro k row hrow hk hwindow
  obtain ⟨v, hv, hvalue⟩ := hshow k row (hgrows.row (by omega) hrow) hk hwindow
  exact ⟨v, hv, hgrows.feedValue hvalue⟩

/-- A response to a fetch that is no error is a feed. -/
theorem thoughtsIndex_of_fetch {G : Gems} {env : Env} {request : Request} {db : Database}
    {response : Response} (hfetch : Process.isFetch request = true)
    (h : (handle G env request.http db).1 = .ok response) (hstatus : response.status < 400) :
    thoughtsIndex G [] db = .ok response := by
  cases request with
  | fetchThoughts token =>
    simp only [Request.http, handle, authenticateRequest] at h
    split at h
    · cases h
    · cases h
      simp at hstatus
    · exact h
  | _ => cases hfetch

/-! ## What the feeds show -/

/-- `Thought.find` finds what the row says. -/
def Found (P : Platform) (db : Database) (r : Realm) (row : ThoughtRow) : Prop :=
  ∃ v, feedValue db row = some v ∧ (r.findThought P v.by_ v.text).isSome

theorem Found.mono {P : Platform} {db db' : Database} {r r' : Realm} {row : ThoughtRow}
    (h : Found P db r row) (hgrows : db.Grows db')
    (hrows : r.thoughts.rows ⊆ r'.thoughts.rows) : Found P db' r' row := by
  obtain ⟨v, hv, hfind⟩ := h
  exact ⟨v, hgrows.feedValue hv, Realm.findThought_mono P hrows hfind⟩

/-- The row is found by its author's username and its text. -/
theorem Found.user {P : Platform} {db : Database} {r : Realm} {row : ThoughtRow}
    (h : Found P db r row) : ∃ user, (row.userId.bind fun id => db.findUser id) = some user ∧
      (r.findThought P user.username row.text).isSome := by
  obtain ⟨v, hv, hfind⟩ := h
  rw [feedValue, Option.map_eq_some_iff] at hv
  obtain ⟨user, huser, rfl⟩ := hv
  exact ⟨user, huser, hfind⟩

namespace World

/-- The window of a merged feed is in the Realm. -/
def Has (P : Platform) (w : World) (mark : Nat) : Prop :=
  ∀ k row, w.db.thoughts.rows[k]? = some row → k < mark → mark ≤ k + 10 →
    Found P w.db w.client.realm row

/-- What the feeds in the network show, and what the merged ones have left in the Realm. -/
structure Polls (P : Platform) (w : World) : Prop where
  marks : ∀ reply ∈ w.inbox, reply.mark ≤ w.db.thoughts.rows.length
  feeds : ∀ reply ∈ w.inbox, Process.isFetch reply.call.request = true → ∀ response,
    reply.outcome = .ok response → response.status < 400 →
      Covers w.db reply.mark response.body
  merged_le : ∀ m ∈ w.merged, m ≤ w.db.thoughts.rows.length
  has : ∀ m ∈ w.merged, Has P w m

variable {G : Gems} {P : Platform} {w w' : World} {a : Act}

theorem Has.mono {m : Nat} (h : Has P w m) (hm : m ≤ w.db.thoughts.rows.length)
    (hgrows : w.db.Grows w'.db)
    (hrows : w.client.realm.thoughts.rows ⊆ w'.client.realm.thoughts.rows) : Has P w' m := by
  intro k row hrow hk hwindow
  exact (h k row (hgrows.row (by omega) hrow) hk hwindow).mono hgrows hrows

/-- A merged feed leaves its window in the Realm. -/
theorem has_of_fetchSucceeded {call : Call} {body : Json} {mark : Nat}
    (hcovers : Covers w.db mark body)
    (hclient : w.client.step P (.fetchSucceeded call body) = some w'.client)
    (hdb : w'.db = w.db) : Has P w' mark := by
  obtain ⟨-, -, realm, hmerge, heq⟩ := Process.step_fetchSucceeded.mp hclient
  obtain ⟨vs, hdecode, hrealm⟩ := Process.mergeElements_eq_some.mp hmerge
  obtain ⟨vs', hdecode', hshow⟩ := hcovers
  -- the feed is decoded to the values that cover the window
  rw [hdecode, Option.some.injEq] at hdecode'
  subst hdecode'
  have hrealm' : w'.client.realm = w.client.realm.mergeValues P vs := by
    rw [← heq]
    exact hrealm.symm
  intro k row hrow hk hwindow
  rw [hdb] at hrow ⊢
  obtain ⟨v, hv, hvalue⟩ := hshow k row hrow hk hwindow
  refine ⟨v, hvalue, ?_⟩
  rw [hrealm']
  exact Realm.findThought_mergeValues P hv _

/-- A feed in the network stays good while the tables grow. -/
theorem Polls.reply (h : Polls P w) (hgrows : w.db.Grows w'.db) {reply : Reply}
    (hreply : reply ∈ w.inbox) : reply.mark ≤ w'.db.thoughts.rows.length ∧
      (Process.isFetch reply.call.request = true → ∀ response, reply.outcome = .ok response →
        response.status < 400 → Covers w'.db reply.mark response.body) := by
  have hmark := h.marks reply hreply
  refine ⟨hmark.trans hgrows.thoughts.length_le, fun hfetch response hok hstatus => ?_⟩
  exact (h.feeds reply hreply hfetch response hok hstatus).mono hgrows hmark

/-- So does a merged one while the Realm grows, too. -/
theorem Polls.mark (h : Polls P w) (hgrows : w.db.Grows w'.db)
    (hrows : w.client.realm.thoughts.rows ⊆ w'.client.realm.thoughts.rows) {m : Nat}
    (hm : m ∈ w.merged) : m ≤ w'.db.thoughts.rows.length ∧ Has P w' m :=
  ⟨(h.merged_le m hm).trans hgrows.thoughts.length_le,
    (h.has m hm).mono (h.merged_le m hm) hgrows hrows⟩

/-- What the replies and the marks need, each on its own. -/
theorem Polls.of_mem
    (hreplies : ∀ reply ∈ w.inbox, reply.mark ≤ w.db.thoughts.rows.length ∧
      (Process.isFetch reply.call.request = true → ∀ response, reply.outcome = .ok response →
        response.status < 400 → Covers w.db reply.mark response.body))
    (hmarks : ∀ m ∈ w.merged, m ≤ w.db.thoughts.rows.length ∧ Has P w m) : Polls P w :=
  ⟨fun reply hreply => (hreplies reply hreply).1, fun reply hreply => (hreplies reply hreply).2,
    fun m hm => (hmarks m hm).1, fun m hm => (hmarks m hm).2⟩

/-- Every step keeps what the feeds show, when thoughts are created one after the other. -/
theorem polls_step (h : Polls P w) (hchron : w'.db.Chronological)
    (hstep : w.step G P a = some w') : Polls P w' := by
  have hgrows := grows_step hstep
  rcases step_cases hstep with ⟨e, -, -, hclient, heq⟩ | ⟨call, env, -, hcall, rfl⟩ |
    ⟨index, call, response, mark, -, hreply, hstatus, hclient, heq⟩ |
    ⟨call, error, -, hclient, heq⟩ | ⟨env, request, -, rfl⟩
  -- a callback of the client itself: the network stays as it is
  · have hinbox : w'.inbox = w.inbox := by rw [heq]
    have hmerge : w'.merged = if e.isLogout then [] else w.merged := by rw [heq]
    refine .of_mem (by rw [hinbox]; exact fun _ => h.reply hgrows) ?_
    rw [hmerge]
    split
    · -- a logout clears the Realm, and the record of what was merged
      intro m hm
      cases hm
    · rename_i hlogout
      exact fun _ => h.mark hgrows (Process.rows_subset_step (by simpa using hlogout) hclient)
  · -- the server handles a request, and the response is new
    refine .of_mem ?_ fun _ => h.mark hgrows (List.Subset.refl _)
    intro reply hreply
    cases List.mem_append.mp hreply with
    | inl hreply =>
      exact h.reply hgrows hreply
    | inr hreply =>
      rw [List.mem_singleton] at hreply
      subst hreply
      refine ⟨hgrows.thoughts.length_le, fun hfetch response hok hstatus => ?_⟩
      have hindex := thoughtsIndex_of_fetch hfetch hok hstatus
      exact (covers_thoughtsIndex (hgrows.chronological hchron) hindex).mono hgrows (le_refl _)
  -- a success is processed, and is a feed or not
  · have hinbox : w'.inbox = w.inbox := by rw [heq]
    have hdb : w'.db = w.db := by rw [heq]
    have hmerge : w'.merged =
        if Process.isFetch call.request then w.merged ++ [mark] else w.merged := by rw [heq]
    have hrows := Process.rows_subset_step (Event.isLogout_succeeded call response.body) hclient
    refine .of_mem (by rw [hinbox]; exact fun _ => h.reply hgrows) ?_
    rw [hmerge]
    split
    · rename_i hfetch
      intro m hm
      rw [List.mem_append, List.mem_singleton] at hm
      rcases hm with hm | rfl
      · exact h.mark hgrows hrows hm
      · -- the feed that comes in
        rw [Event.succeeded_of_isFetch hfetch] at hclient
        have hcovers := h.feeds _ hreply hfetch response rfl hstatus
        exact ⟨(h.reply hgrows hreply).1, has_of_fetchSucceeded hcovers hclient hdb⟩
    · exact fun _ => h.mark hgrows hrows
  -- a failure merges nothing
  · have hrows := Process.rows_subset_step (Event.isLogout_failed call error) hclient
    have hinbox : w'.inbox = w.inbox := by rw [heq]
    have hmerge : w'.merged = w.merged := by rw [heq]
    refine .of_mem (by rw [hinbox]; exact fun _ => h.reply hgrows) ?_
    rw [hmerge]
    exact fun _ => h.mark hgrows hrows
  · -- another client's request: this client's Realm and network stay as they are
    exact .of_mem (fun _ => h.reply hgrows) fun _ => h.mark hgrows (List.Subset.refl _)

/-- What holds of the feeds at the end of a run in which thoughts are created one after the
    other. -/
theorem polls_run {r : Realm} {db : Database} {acts : List Act}
    (hrun : run (step G P) (start r db) acts = some w) (hchron : w.db.Chronological) :
    Polls P w := by
  have hstart : Polls P (start r db) := by
    refine ⟨?_, ?_, ?_, ?_⟩ <;> · intro x hx; cases hx
  have hkeep : ∀ v a v', (v.db.Chronological → Polls P v) → step G P v a = some v' →
      v'.db.Chronological → Polls P v' := by
    intro v a v' hpolls hstep hchron'
    exact polls_step (hpolls ((grows_step hstep).chronological hchron')) hchron' hstep
  exact run_invariant (I := fun v => v.db.Chronological → Polls P v) hkeep (fun _ => hstart) hrun
    hchron

/-- Overlapping feeds leave no gap: every thought that was created after the first merged
    feed was rendered, and before the last one was, is found by its author's username and
    its text. -/
theorem polling_loses_nothing {r : Realm} {db : Database} {acts : List Act}
    (hrun : run (step G P) (start r db) acts = some w) (hchron : w.db.Chronological)
    (hoverlap : Overlapping 10 w.merged) {k : Nat} {row : ThoughtRow}
    (hrow : w.db.thoughts.rows[k]? = some row) (hfirst : ∃ m ∈ w.merged, m ≤ k)
    (hlast : ∃ m ∈ w.merged, k < m) :
    ∃ user, (row.userId.bind fun id => w.db.findUser id) = some user ∧
      (w.client.realm.findThought P user.username row.text).isSome := by
  obtain ⟨m, hm, hk, hwindow⟩ := hoverlap.exists_window hfirst hlast
  exact ((polls_run hrun hchron).has m hm k row hrow hk hwindow).user

/-- ann's other device posts between two fetches, and the later feed comes in first. -/
def lateFeed : List Act :=
  registration ++
  [.serve ⟨1, .fetchThoughts "1.86400", 0⟩ (sampleEnv 0),
   .other (sampleEnv 1000000) (.thoughtsCreate (some "1.86400") [("text", .str "hi")]),
   .client .timerFired,
   .serve ⟨2, .fetchThoughts "1.86400", 0⟩ (sampleEnv 2000000),
   .succeed 2,
   .succeed 1]

/-- The post is found when both feeds are in. -/
theorem polling_loses_nothing_lateFeed : ∃ w row,
    run (step .reference .ascii) (start .new .empty) lateFeed = some w ∧
    w.merged = [1, 0] ∧ w.db.thoughts.rows[0]? = some row ∧
    ∃ user, (row.userId.bind fun id => w.db.findUser id) = some user ∧
      (w.client.realm.findThought .ascii user.username row.text).isSome := by
  obtain ⟨w, hrun, hw⟩ := exists_run_of_any (step .reference .ascii) (start .new .empty) lateFeed
    (fun w => decide (w.db.Chronological ∧ w.merged = [1, 0] ∧ 0 < w.db.thoughts.rows.length))
    (by decide +kernel)
  obtain ⟨hchron, hmerged, hlen⟩ := of_decide_eq_true hw
  have hrow := List.getElem?_eq_getElem hlen
  refine ⟨w, _, hrun, hmerged, hrow, polling_loses_nothing hrun hchron ?_ hrow ?_ ?_⟩
  · rw [hmerged]
    decide
  · exact ⟨0, by simp [hmerged], le_refl _⟩
  · exact ⟨1, by simp [hmerged], Nat.zero_lt_one⟩

end World

end ReactiveDemo
