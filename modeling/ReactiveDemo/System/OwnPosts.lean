import ReactiveDemo.System.Tokens

/-!
# A post and its echo

A post is stored locally under the name that the user typed, in lower case. Later the feed
brings it back under the name that the server stored and joined through `user_id`. The two
names agree, so the echo of a post is found, and adds nothing.

## Key results

- `named_step`: a stored user has the username of the server's row with its id
- `runs_stored`: a post is stored under the current user's name when it is sent
- `stored_step`: between logouts the local copy stays, under its author's name
- `own_post_not_duplicated`: processing the echo of a post adds no Thought
-/

namespace ReactiveDemo

open Transition Server

namespace Process

variable {P : Platform} {p p' : Process} {e : Event}

/-- When `createThoughtAction` runs for a user, its text is stored under the user's name. -/
theorem runs_stored {text : String} {press : Nat} {user : User} (h : p.step P e = some p')
    (hruns : Runs text press p e) (huser : p.currentUser = some user) :
    (p'.realm.findThought P user.username text).isSome := by
  have hstored : ∀ (q : Process) (number : Nat) (now : Date), q.currentUser = some user →
      ((q.createThoughtAction P text number now).realm.findThought P
        user.username text).isSome := by
    intro q number now hq
    rcases createThoughtAction_realm P text number now q with ⟨hnone, -⟩ | ⟨user', huser', heq⟩
    · rw [hq] at hnone
      cases hnone
    · rw [hq, Option.some.injEq] at huser'
      subst huser'
      rw [heq]
      exact Realm.findThought_saveIfAbsent P ⟨user.username, text, now⟩ q.realm
  -- both a press and a retry run it
  rcases hruns with ⟨now, rfl, -⟩ | ⟨now, rfl, hretry⟩
  · cases h
    exact hstored (p.addPress text) _ now huser
  · simp only [step, if_pos hretry, Option.some.injEq] at h
    rw [← h]
    exact hstored { p with retries := p.retries.erase ⟨press, text⟩ } press now huser

/-- Where the author and the text of an element are found, processing it changes nothing,
    whatever comes before it in the feed. -/
theorem mergeElements_append_of_found {element : Json} {v : ThoughtValue} {r : Realm}
    (hdecode : decodeElement element = some v) (hfound : (r.findThought P v.by_ v.text).isSome)
    (pre : List Json) : mergeElements P (pre ++ [element]) r = mergeElements P pre r := by
  induction pre generalizing r with
  | nil =>
    -- the element itself is skipped
    have hnone : (r.findThought P v.by_ v.text).isNone = false := by
      simpa [Option.isSome_iff_ne_none] using hfound
    simp [mergeElements, hdecode, Realm.saveIfAbsent, hnone]
  | cons first pre ih =>
    simp only [List.cons_append, mergeElements]
    cases decodeElement first with
    | none => rfl
    | some u =>
      exact ih (Realm.findThought_mono P (Realm.rows_subset_saveIfAbsent P u r) hfound)

end Process

namespace World

variable {G : Gems} {P : Platform} {w w' : World} {a : Act}

/-- The names of the stored users are those of the server's rows, and so are the names that
    the responses in the network are about. -/
structure Named (G : Gems) (w : World) : Prop where
  users : ∀ u ∈ w.client.realm.users.rows, ∃ row ∈ w.db.users.rows,
    (row.id : Int) = u.id ∧ row.username = u.username
  sessions : ∀ reply ∈ w.inbox, ∀ username,
    Process.username? reply.call.request = some username → ∀ response,
      reply.outcome = .ok response → response.status < 400 →
        ∃ row ∈ w.db.users.rows, row.username = G.downcase username ∧
          ∃ token, response.body = sessionJson (some token) row.id

/-- Every step keeps the names, when both sides write a name in lower case alike. -/
theorem named_step (hcase : ∀ s, P.lowercased s = G.downcase s) (h : Named G w)
    (hstep : w.step G P a = some w') : Named G w' := by
  have hgrows := grows_step hstep
  -- the server renames nobody, so what responses and stored users say stays true
  have hsessions : ∀ reply ∈ w.inbox, ∀ username,
      Process.username? reply.call.request = some username → ∀ response,
        reply.outcome = .ok response → response.status < 400 →
          ∃ row ∈ w'.db.users.rows, row.username = G.downcase username ∧
            ∃ token, response.body = sessionJson (some token) row.id := by
    intro reply hreply username hname response hok hstatus
    obtain ⟨row, hrow, hrest⟩ := h.sessions reply hreply username hname response hok hstatus
    exact ⟨row, hgrows.users hrow, hrest⟩
  have husers : ∀ u ∈ w.client.realm.users.rows, ∃ row ∈ w'.db.users.rows,
      (row.id : Int) = u.id ∧ row.username = u.username := by
    intro u hu
    obtain ⟨row, hrow, hrest⟩ := h.users u hu
    exact ⟨row, hgrows.users hrow, hrest⟩
  rcases client_cases hstep with ⟨e, hraises, hclient, hdb, hinbox, -⟩ |
    ⟨call, env, -, hcall, rfl⟩ | ⟨env, request, -, rfl⟩
  · refine ⟨?_, by rw [hinbox]; exact hsessions⟩
    intro u hu
    rcases Process.users_step hclient hu with hu |
      ⟨call, body, username, rfl, hname, huser, -, hid⟩
    · exact husers u hu
    · -- the user that a response names, under the name that was typed
      obtain ⟨response, mark, hreply, hstatus, rfl⟩ := hraises.reply_of_authSucceeded
      obtain ⟨row, hrow, hrowname, token, hbody⟩ :=
        hsessions _ hreply username hname response rfl hstatus
      rw [hbody] at hid
      exact ⟨row, hrow, (intField_sessionJson hid).symm, by rw [hrowname, huser, hcase]⟩
  · -- the new response names the user whose username was sent
    refine ⟨husers, ?_⟩
    intro reply hreply username hname response hok hstatus
    cases List.mem_append.mp hreply with
    | inl hreply =>
      exact hsessions reply hreply username hname response hok hstatus
    | inr hreply =>
      rw [List.mem_singleton] at hreply
      subst hreply
      obtain ⟨row, hrow, hrowname, hbody⟩ := authResponse_user hname hok hstatus
      exact ⟨row, hrow, hrowname, _, hbody⟩
  -- another client: rows are added only
  · exact ⟨husers, hsessions⟩

/-- A Realm without users names nobody. -/
theorem named_start (G : Gems) {r : Realm} (hempty : r.users.rows = []) (db : Database) :
    Named G (start r db) := by
  have hrealm : (start r db).client.realm = r := (Process.launch_polled r).realm
  refine ⟨?_, fun reply hreply => by cases hreply⟩
  rw [hrealm, hempty]
  intro u hu
  cases hu

/-- The post `call` is stored under the name of the user whose token it carries. -/
def Stored (G : Gems) (P : Platform) (call : Call) (w : World) : Prop :=
  ∃ token text uid, call.request = .createThought token text ∧ TokenFor G token uid ∧
    ∃ row ∈ w.db.users.rows, row.id = uid ∧
      (w.client.realm.findThought P row.username text).isSome

/-- Between logouts the local copy of a post stays, under its author's name. -/
theorem stored_step {call : Call} (h : Stored G P call w) (hlogout : a.isLogout = false)
    (hstep : w.step G P a = some w') : Stored G P call w' := by
  obtain ⟨token, text, uid, hreq, htoken, row, hrow, hid, hfound⟩ := h
  exact ⟨token, text, uid, hreq, htoken, row, (grows_step hstep).users hrow, hid,
    Realm.findThought_mono P (rows_subset_step hlogout hstep) hfound⟩

/-- A post is stored when it is sent. -/
theorem stored_of_sends (htokens : Tokens G w) (hnamed : Named G w) {call : Call}
    (hstep : w.step G P a = some w') (hsends : Sends call w w') : Stored G P call w' := by
  obtain ⟨e, user, text, press, -, hclient, huser, hruns, rfl⟩ := sends_cases hstep hsends
  have hmem := (Process.mem_of_currentUser huser).1
  obtain ⟨uid, huid, htoken⟩ := htokens.users user hmem
  obtain ⟨row, hrow, hid, hname⟩ := hnamed.users user hmem
  refine ⟨user.jwtToken, text, uid, rfl, htoken, row, (grows_step hstep).users hrow, by omega, ?_⟩
  rw [hname]
  exact Process.runs_stored hclient hruns huser

/-- The echo of a stored post adds nothing. -/
theorem echo_of_stored {call : Call} (h : Stored G P call w) (htokens : Tokens G w) {c : Created}
    (hc : c ∈ w.created) (hcall : c.call = call) {db : Database} (hdb : db.Grows w.db)
    {element : Json} (hrender : apiResponseJson db c.row = .ok element) (pre : List Json) :
    Process.mergeElements P (pre ++ [element]) w.client.realm =
      Process.mergeElements P pre w.client.realm := by
  obtain ⟨token, text, uid, hreq, htoken, row, hrow, hid, hfound⟩ := h
  obtain ⟨token', uid', hreq', hrowid, htoken'⟩ := (htokens.created c hc).2
  rw [hcall, hreq, Request.createThought.injEq] at hreq'
  obtain ⟨rfl, htext⟩ := hreq'
  -- the row belongs to the user of the token, whose name the local copy has
  have huid := htoken'.unique htoken
  obtain ⟨v, hdecode, hvalue⟩ := decodeElement_apiResponseJson hrender
  rw [feedValue, hrowid, Option.bind_some, Option.map_eq_some_iff] at hvalue
  obtain ⟨owner, howner, rfl⟩ := hvalue
  obtain ⟨hmem, hownerid⟩ := Database.findUser_eq_some.mp howner
  have hsame : owner = row :=
    List.inj_on_of_nodup_map w.db.users.nodup (hdb.users hmem) hrow (by omega)
  rw [hsame] at hdecode
  exact Process.mergeElements_append_of_found hdecode (by rw [← htext]; exact hfound) pre

/-- In the run `acts` from `w` some step sends `call`, and nobody logs out after it. -/
def SentThisSession (G : Gems) (P : Platform) (w : World) (acts : List Act) (call : Call) : Prop :=
  ∃ before a after w₁ w₂, acts = before ++ a :: after ∧ run (step G P) w before = some w₁ ∧
    w₁.step G P a = some w₂ ∧ Sends call w₁ w₂ ∧ ∀ a' ∈ after, a'.isLogout = false

/-- Without a logout a stored post stays stored along a run. -/
theorem stored_run {call : Call} {acts : List Act} (h : Stored G P call w)
    (hlogout : ∀ a ∈ acts, a.isLogout = false) (hrun : run (step G P) w acts = some w') :
    Stored G P call w' := by
  have halong : Along (step G P) (fun _ a => a.isLogout = false) w acts := by
    rw [along_iff]
    rintro pre a post _ rfl -
    exact hlogout a (List.mem_append_right _ List.mem_cons_self)
  exact run_invariant_along (fun _ _ _ hs hl hstep => stored_step hs hl hstep) h halong hrun

/-- From a Realm without users, every stored user has the username of the server's row with
    its id; and the echo of a post that was sent after the last logout adds no Thought,
    wherever it stands in a feed. -/
theorem own_post_not_duplicated (hcase : ∀ s, P.lowercased s = G.downcase s) {r : Realm}
    (hempty : r.users.rows = []) {db : Database} {acts : List Act}
    (hrun : run (step G P) (start r db) acts = some w) :
    (∀ u ∈ w.client.realm.users.rows, ∃ row ∈ w.db.users.rows,
      (row.id : Int) = u.id ∧ row.username = u.username) ∧
    ∀ c ∈ w.created, SentThisSession G P (start r db) acts c.call →
      ∀ db' element, db'.Grows w.db → apiResponseJson db' c.row = .ok element →
        ∀ pre, Process.mergeElements P (pre ++ [element]) w.client.realm =
          Process.mergeElements P pre w.client.realm := by
  have htokens : Realm.TokensFor G r.users := by
    intro u hu
    rw [hempty] at hu
    cases hu
  have hinit : Tokens G (start r db) ∧ Named G (start r db) :=
    ⟨tokens_init ⟨r, db, htokens, rfl⟩, named_start G hempty db⟩
  -- both invariants hold all along the run
  have hinv : ∀ {acts w}, run (step G P) (start r db) acts = some w → Tokens G w ∧ Named G w :=
    fun hrun => run_invariant (I := fun w => Tokens G w ∧ Named G w)
      (fun _ _ _ ⟨ht, hn⟩ hstep => ⟨tokens_step ht hstep, named_step hcase hn hstep⟩) hinit hrun
  refine ⟨(hinv hrun).2.users, ?_⟩
  -- the step that sends the post stores it, and no later step of the run removes it
  rintro c hc ⟨before, a, after, w₁, w₂, rfl, hbefore, hstep, hsends, hlogout⟩
  intro db' element hdb hrender pre
  obtain ⟨t, ht, hrest⟩ := run_append_eq_some.mp hrun
  rw [hbefore, Option.some.injEq] at ht
  subst ht
  obtain ⟨t, ht, hafter⟩ := run_cons_eq_some.mp hrest
  rw [hstep, Option.some.injEq] at ht
  subst ht
  have hstored := stored_run (stored_of_sends (hinv hbefore).1 (hinv hbefore).2 hstep hsends)
    hlogout hafter
  exact echo_of_stored hstored (hinv hrun).1 hc rfl hdb hrender pre

/-- The post of a user who has typed her name with a capital letter. -/
def capitalName : List Act :=
  [.client (.registerPressed "Ann" "secret"),
   .serve ⟨0, .signUp "Ann" "secret", 1⟩ (sampleEnv 0),
   .succeed 0,
   .client (.postThoughtPressed "hi" 0),
   .serve ⟨2, .createThought "1.86400" "hi", 0⟩ (sampleEnv 5000000)]

/-- The echo of that post adds nothing. -/
theorem own_post_not_duplicated_capitalName : ∃ w c element,
    run (step .reference .ascii) (start .new .empty) capitalName = some w ∧
    c ∈ w.created ∧ apiResponseJson w.db c.row = .ok element ∧
    ∀ pre, Process.mergeElements .ascii (pre ++ [element]) w.client.realm =
      Process.mergeElements .ascii pre w.client.realm := by
  obtain ⟨w, hrun, hw⟩ := exists_run_of_any (step .reference .ascii) (start .new .empty) capitalName
    (fun w => decide (∃ c ∈ w.created, c.call = ⟨2, .createThought "1.86400" "hi", 0⟩ ∧
      (apiResponseJson w.db c.row).toBool = true)) (by decide +kernel)
  obtain ⟨c, hc, hcall, hrender⟩ := of_decide_eq_true hw
  -- the state in which Post is pressed
  obtain ⟨w₁, hbefore, hw₁⟩ := exists_run_of_any (step .reference .ascii) (start .new .empty)
    (capitalName.take 3)
    (fun w₁ => (w₁.step .reference .ascii (.client (.postThoughtPressed "hi" 0))).any fun w₂ =>
      decide (Sends c.call w₁ w₂))
    (by rw [hcall]; decide +kernel)
  obtain ⟨w₂, hstep, hw₂⟩ := (Option.any_eq_true _ _).mp hw₁
  cases helement : apiResponseJson w.db c.row with
  | error e =>
    rw [helement] at hrender
    cases hrender
  | ok element =>
    refine ⟨w, c, element, hrun, hc, helement, ?_⟩
    refine (own_post_not_duplicated (fun _ => rfl) rfl hrun).2 c hc ?_ w.db element (.refl _) helement
    exact ⟨capitalName.take 3, _, capitalName.drop 4, w₁, w₂, rfl, hbefore, hstep,
      of_decide_eq_true hw₂, by simp [capitalName, Act.isLogout]⟩

end World

end ReactiveDemo
