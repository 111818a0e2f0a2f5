import ReactiveDemo.Client.Merge
import ReactiveDemo.Server.Authorisation
import ReactiveDemo.Server.Listing

/-!
# The feed, from the server's rows to the client's Realm

`thoughts#index` renders rows as JSON, and the success handler of `fetchThoughtsAction`
decodes and merges them. The server keeps texts apart that differ in any character; the
client's `Thought.find` compares with `==[c]`, so a Thought that is equal up to letter
case, stored before or earlier in the response, stands for an element.

## Key results

- `thoughtsIndex_eq_ok`: a feed decodes, element by element, to what the rows say
- `feed_decodes`: in a reachable state every listed row is rendered, and decodes
- `fetchSuccess_stores`: what is stored for each element of a feed
-/

namespace ReactiveDemo

open Transition Server

/-! ## Decoding a feed -/

/-- What the row `t` says to the client. -/
def feedValue (db : Database) (t : ThoughtRow) : Option ThoughtValue :=
  (t.userId.bind fun id => db.findUser id).map fun user =>
    ⟨user.username, t.text, t.createdAt.toI⟩

/-- The client reads from an element what the server has put in. -/
theorem decodeElement_thoughtJson (user : UserRow) (t : ThoughtRow) :
    Process.decodeElement (thoughtJson user t) =
      some ⟨user.username, t.text, t.createdAt.toI⟩ := by
  have htext : Json.stringField [("text", .str t.text), ("by", .str user.username),
      ("timestamp", .num t.createdAt.toI)] "text" = some t.text := rfl
  have hby : Json.stringField [("text", .str t.text), ("by", .str user.username),
      ("timestamp", .num t.createdAt.toI)] "by" = some user.username := by
    simp [Json.stringField, List.lookup, Json.asString?]
  have htime : Json.timeIntervalField [("text", .str t.text), ("by", .str user.username),
      ("timestamp", .num t.createdAt.toI)] "timestamp" = some (t.createdAt.toI : ℚ) := by
    simp [Json.timeIntervalField, List.lookup, Json.asTimeInterval?]
  simp only [Process.decodeElement, thoughtJson, Json.asDict?, htext, hby, htime]

/-- A rendered row decodes to what the row says. -/
theorem decodeElement_apiResponseJson {db : Database} {t : ThoughtRow} {json : Json}
    (h : apiResponseJson db t = .ok json) :
    ∃ v, Process.decodeElement json = some v ∧ feedValue db t = some v := by
  unfold apiResponseJson at h
  cases huser : t.userId.bind fun id => db.findUser id with
  | none => rw [huser] at h; cases h
  | some user =>
    rw [huser] at h
    simp only [Except.ok.injEq] at h
    subst h
    exact ⟨_, decodeElement_thoughtJson user t, by rw [feedValue, huser]; rfl⟩

/-- A feed is a list of selected rows that decodes, in order, to what the rows say. -/
theorem thoughtsIndex_eq_ok {G : Gems} {params : Params} {db : Database} {response : Response}
    (h : thoughtsIndex G params db = .ok response) :
    response.status = 200 ∧ ∃ thoughts vs,
      selectThoughts G (param params "filter") ((tryToI (param params "limit")).getD 10) db =
        .ok thoughts ∧
      response.body.jsonArray.mapM Process.decodeElement = some vs ∧
      ∀ t ∈ thoughts.take ((tryToI (param params "limit")).getD 10).toNat,
        ∃ v ∈ vs, feedValue db t = some v := by
  unfold thoughtsIndex at h
  cases hselect : selectThoughts G (param params "filter")
      ((tryToI (param params "limit")).getD 10) db with
  | error e => simp [hselect] at h
  | ok thoughts =>
    simp only [hselect] at h
    split at h
    · -- a limit that Postgres refuses
      cases h
    · cases hrender : (thoughts.take ((tryToI (param params "limit")).getD 10).toNat).mapM
        (apiResponseJson db) with
      | error e => rw [hrender] at h; cases h
      | ok elems =>
        rw [hrender] at h
        cases h
        -- each row that is rendered decodes to what it says
        obtain ⟨vs, hdecode, -, hmem⟩ :=
          List.mapM_of_mapM_ok (fun _ _ => decodeElement_apiResponseJson) hrender
        exact ⟨rfl, thoughts, vs, rfl, hdecode, hmem⟩

/-- What the listed rows say is what their rendering decodes to, in order; and the success
    handler of the client does not trap on it. -/
theorem decode_rendered {db : Database} {listed : List ThoughtRow} {elems : List Json}
    (h : listed.mapM (apiResponseJson db) = .ok elems) :
    ∃ vs, elems.mapM Process.decodeElement = some vs ∧ listed.mapM (feedValue db) = some vs ∧
      ∀ (P : Platform) (p : Process), (p.fetchSuccess P (.arr elems)).isSome := by
  obtain ⟨vs, hdecode, hvalues, -⟩ :=
    List.mapM_of_mapM_ok (fun _ _ => decodeElement_apiResponseJson) h
  refine ⟨vs, hdecode, hvalues, ?_⟩
  intro P p
  have hmerge : Process.mergeElements P (Json.arr elems).jsonArray p.realm =
      some (p.realm.mergeValues P vs) := Process.mergeElements_of_decode P p.realm hdecode
  rw [Process.fetchSuccess, hmerge]
  rfl

/-- The Realm has a Thought with exactly this text and author. -/
def Realm.Shows (r : Realm) (v : ThoughtValue) : Prop :=
  ∃ t ∈ r.thoughts.rows, t.text = v.text ∧ t.by_ = v.by_

instance (r : Realm) (v : ThoughtValue) : Decidable (r.Shows v) :=
  inferInstanceAs (Decidable (∃ t ∈ r.thoughts.rows, _))

/-- After the success handler has run on a feed, every element is stored: a Thought of
    its text and author up to letter case is there, and one of exactly its text and author
    unless a Thought that differs from it in letter case only was stored before, or comes
    earlier in the feed. -/
theorem fetchSuccess_stores {G : Gems} {params : Params} {db : Database} {response : Response}
    (hindex : thoughtsIndex G params db = .ok response) (P : Platform) (p : Process) :
    ∃ vs p', response.body.jsonArray.mapM Process.decodeElement = some vs ∧
      p.fetchSuccess P response.body = some p' ∧
      ∀ pre v post, vs = pre ++ v :: post →
        (p'.realm.findThought P v.by_ v.text).isSome ∧
        ((∀ w, w ∈ p.realm.values ∨ w ∈ pre → w.key P = v.key P →
            w.text = v.text ∧ w.by_ = v.by_) → p'.realm.Shows v) := by
  obtain ⟨-, thoughts, vs, -, hdecode, -⟩ := thoughtsIndex_eq_ok hindex
  have hmerge : Process.mergeElements P response.body.jsonArray p.realm =
      some (p.realm.mergeValues P vs) := Process.mergeElements_of_decode P p.realm hdecode
  refine ⟨vs, { p with realm := p.realm.mergeValues P vs }, hdecode, ?_, ?_⟩
  · simp only [Process.fetchSuccess, hmerge, Option.map_some, Process.reduce_fetchThoughts]
  · rintro pre v post rfl
    refine ⟨Realm.findThought_mergeValues P (by simp) p.realm, ?_⟩
    intro hexact
    -- what stands for the key of `v` agrees with `v` in every letter
    obtain ⟨w, hw, -, htext, hby⟩ := exists_mem_mergeNew (ThoughtValue.key P) p.realm.values
      pre post (Q := fun w => w.text = v.text ∧ w.by_ = v.by_) ⟨rfl, rfl⟩ hexact
    rw [← Realm.values_mergeValues] at hw
    obtain ⟨t, ht, rfl⟩ := List.mem_map.mp hw
    exact ⟨t, ht, htext, hby⟩

/-- Ann signs up and posts two texts that differ in letter case. -/
def twoSpellings : List (Env × HttpRequest) :=
  [(sampleEnv 0, .usersCreate (form "ann" "secret")),
   (sampleEnv 1000000, .thoughtsCreate (some "1.86400") [("text", .str "Hello")]),
   (sampleEnv 2000000, .thoughtsCreate (some "1.86400") [("text", .str "hello")])]

/-- The newest thoughts of that server are stored as the theorem says. -/
theorem fetchSuccess_stores_spellings : ∃ s response,
    run (ServerState.step .reference) {} twoSpellings = some s ∧
      thoughtsIndex .reference [("limit", .num 1)] s.db = .ok response ∧
      ∃ vs p', response.body.jsonArray.mapM Process.decodeElement = some vs ∧
        (Process.launch .new).fetchSuccess .ascii response.body = some p' ∧
        ∀ pre v post, vs = pre ++ v :: post →
          (p'.realm.findThought .ascii v.by_ v.text).isSome ∧
          ((∀ w, w ∈ (Process.launch .new).realm.values ∨ w ∈ pre →
              w.key .ascii = v.key .ascii → w.text = v.text ∧ w.by_ = v.by_) →
            p'.realm.Shows v) := by
  obtain ⟨s, hrun, hs⟩ := exists_run_of_any (ServerState.step .reference) {} twoSpellings
    (fun s => (thoughtsIndex .reference [("limit", .num 1)] s.db).toBool) (by decide +kernel)
  cases hindex : thoughtsIndex .reference [("limit", .num 1)] s.db with
  | error e => rw [hindex] at hs; cases hs
  | ok response => exact ⟨s, response, hrun, hindex, fetchSuccess_stores hindex .ascii _⟩

/-- Not every element of a feed is stored with exactly its text. -/
theorem spelling_is_hidden :
    ¬ ∀ (P : Platform), P.foldCase = asciiLower → ∀ (G : Gems) (xs : List (Env × HttpRequest))
      (s : ServerState), run (ServerState.step G) {} xs = some s →
      ∀ (params : Params) (response : Response),
        thoughtsIndex G params s.db = .ok response → ∀ (p p' : Process),
          p.fetchSuccess P response.body = some p' → ∀ vs,
            response.body.jsonArray.mapM Process.decodeElement = some vs →
              ∀ v ∈ vs, p'.realm.Shows v := by
  intro h
  obtain ⟨s, hrun, hs⟩ := exists_run_of_any (ServerState.step .reference) {} twoSpellings
    (fun s => (thoughtsIndex .reference [] s.db).toOption.any fun response =>
      (response.body.jsonArray.mapM Process.decodeElement).any fun vs =>
        ((Process.launch .new).fetchSuccess .ascii response.body).any fun p' =>
          decide (∃ v ∈ vs, ¬ p'.realm.Shows v)) (by decide +kernel)
  simp only [Option.any_eq_true] at hs
  obtain ⟨response, hresponse, vs, hvs, p', hp', hhidden⟩ := hs
  have hindex : thoughtsIndex .reference [] s.db = .ok response := by
    cases hindex : thoughtsIndex .reference [] s.db with
    | error e =>
      rw [hindex] at hresponse
      cases hresponse
    | ok response' =>
      rw [hindex] at hresponse
      cases hresponse
      rfl
  -- the second spelling is fetched, and not shown
  obtain ⟨v, hv, hne⟩ := of_decide_eq_true hhidden
  exact hne (h .ascii rfl .reference twoSpellings s hrun [] response hindex _ p' hp' vs hvs v hv)

end ReactiveDemo
