import ReactiveDemo.System.World

/-!
# The client's tokens

The token of a stored user is one the server has made for that user's id, so a post that
the server accepts belongs to the user whose token it carries.

## Key results

- `authResponse_user`, `createThought_cases`: what the server answers the client
- `tokens_step`: the invariant of the tokens in the client and in the network
-/

namespace ReactiveDemo

open Transition Server

/-- The token carries the id `uid`. -/
def TokenFor (G : Gems) (token : String) (uid : Nat) : Prop :=
  ∃ exp, 0 < exp ∧ token = G.jwtEncode { userId := uid, exp }

theorem tokenFor_encode (G : Gems) (now : Time) (uid : Nat) : TokenFor G (encode G now uid) uid :=
  ⟨_, exp_pos now, rfl⟩

/-- A token carries one id. -/
theorem TokenFor.unique {G : Gems} {token : String} {uid uid' : Nat} (h : TokenFor G token uid)
    (h' : TokenFor G token uid') : uid = uid' := by
  obtain ⟨exp, hexp, rfl⟩ := h
  obtain ⟨exp', hexp', heq⟩ := h'
  have hpayload := G.encode_injective hexp hexp' heq
  exact congrArg Payload.userId hpayload

/-- Every stored user's token carries the user's id. -/
def Realm.TokensFor (G : Gems) (users : KeyedTable User User.id) : Prop :=
  ∀ u ∈ users.rows, ∃ uid : Nat, u.id = uid ∧ TokenFor G u.jwtToken uid

/-! ## What the server answers the client -/

/-- A successful authentication response names the user whose username was sent, downcased,
    and carries a token for it. -/
theorem authResponse_user {G : Gems} {env : Env} {request : Request} {db : Database}
    {response : Response} {username : String} (hname : Process.username? request = some username)
    (h : (handle G env request.http db).1 = .ok response) (hstatus : response.status < 400) :
    ∃ user ∈ (handle G env request.http db).2.users.rows, user.username = G.downcase username ∧
      response.body = sessionJson (some (encode G env.now user.id)) user.id := by
  -- the answer reported as a success is no refusal
  have hnot : ¬ Outcome.Refused (.ok response) := by
    intro hrefused
    have hge : 400 ≤ response.status := hrefused.status_ge
    omega
  cases request with
  | signUp name password =>
    cases hname
    rcases usersCreate_cases G env (form username password) db with
      ⟨secret, user, db', hs⟩ | ⟨-, hrefused⟩
    · simp only [Request.http, handle, hs.usersCreate_eq, Except.ok.injEq] at h ⊢
      obtain ⟨⟨s, hparam, -, huser⟩, -⟩ := credentials_eq_ok hs.credentials_eq
      cases hparam
      refine ⟨user, ?_, huser, by rw [← h]⟩
      rw [hs.users_eq]
      exact List.mem_append_right _ (List.mem_singleton_self _)
    · simp only [Request.http, handle] at h
      rw [h] at hrefused
      exact absurd hrefused hnot
  | login name password =>
    cases hname
    rcases usersAuthenticate_cases G env (form username password) db with
      ⟨secret, user, hl⟩ | hrefused
    · simp only [Request.http, handle, hl.usersAuthenticate_eq, Except.ok.injEq] at h ⊢
      obtain ⟨⟨s, hparam, -, huser⟩, -⟩ := credentials_eq_ok hl.credentials_eq
      cases hparam
      exact ⟨user, hl.mem, huser, by rw [← h]⟩
    · simp only [Request.http, handle] at h
      rw [h] at hrefused
      exact absurd hrefused hnot
  -- the other requests have no username
  | fetchThoughts token => cases hname
  | createThought token text => cases hname

/-- The token that the client reads from an authentication response. -/
theorem stringField_sessionJson (token : String) (uid : Nat) :
    Json.stringField (sessionJson (some token) uid).jsonDict "auth_token" = some token := rfl

/-- The id that the client reads from an authentication response, if it is an `Int`. -/
theorem intField_sessionJson {token : String} {uid : Nat} {id : Int}
    (h : Json.intField (sessionJson (some token) uid).jsonDict "user_id" = some id) :
    id = uid := by
  have hlookup : (sessionJson (some token) uid).jsonDict.lookup "user_id" =
      some (.num (uid : ℚ)) := by
    simp [sessionJson, Json.jsonDict, Json.asDict?, List.lookup]
  rw [Json.intField, hlookup, Option.bind_some, Json.asInt?] at h
  split at h
  · simpa using h.symm
  · cases h

/-- A request whose token carries `uid` runs for the user `uid`. -/
theorem authorizeApiRequest_userId {G : Gems} {now : Time} {token : String} {uid : Nat}
    {db : Database} {user : UserRow} (htoken : TokenFor G token uid)
    (h : authorizeApiRequest G now (some token) db = .ok (some user)) : user.id = uid := by
  obtain ⟨exp, hexp, rfl⟩ := htoken
  -- the header is the token, which holds no space
  have hheader : httpAuthHeader (some (G.jwtEncode { userId := uid, exp })) =
      some (G.jwtEncode { userId := uid, exp }) := by
    rw [httpAuthHeader, if_neg (by rw [G.blank_jwtEncode]; simp), G.lastField_jwtEncode]
  unfold authorizeApiRequest at h
  rw [hheader, Option.bind_some] at h
  split at h
  · cases h
  · rename_i payload hdecode
    -- what is decoded is the payload that the token was made of
    obtain ⟨heq, hlt⟩ := (G.jwtDecode_iff _ _ _).mp hdecode
    have hpayload := G.encode_injective hexp (by omega) heq
    split at h
    · cases h
    · rename_i found hfound
      cases h
      rw [(Database.findUser_eq_some.mp hfound).2, ← hpayload]

/-- The server inserts the text of a create request for the user of its token, or it
    refuses the request. -/
theorem createThought_cases {G : Gems} {token : String} {uid : Nat} (htoken : TokenFor G token uid)
    (env : Env) (text : String) (db : Database) :
    (handle G env (Request.createThought token text).http db).2 =
        db.insertThought text (some uid) env.now ∨
      ((handle G env (Request.createThought token text).http db).2 = db ∧
        (handle G env (Request.createThought token text).http db).1.Refused) := by
  simp only [Request.http, handle, authenticateRequest]
  cases hauth : authorizeApiRequest G env.now (some token) db with
  | error e => exact Or.inr ⟨rfl, refused_error e⟩
  | ok current =>
    cases current with
    -- the token is refused, with a 401
    | none => exact Or.inr ⟨rfl, refused_errorJson (by decide) _⟩
    | some user =>
      -- the user is the one of the token
      have hid := authorizeApiRequest_userId htoken hauth
      rcases thoughtsCreate_cases G env [("text", .str text)] db user with
        ⟨value, hvalue, -, heq⟩ | hrefused
      · left
        have htext : value = .str text := (require_eq_ok hvalue).symm
        simp only [heq, htext, castText, hid]
      · exact Or.inr hrefused

/-- Only create requests change the table of thoughts. -/
theorem thoughts_handle_of_not_create {G : Gems} {env : Env} {request : Request} {db : Database}
    (h : isCreate request = false) : (handle G env request.http db).2.thoughts = db.thoughts := by
  rcases handle_cases G env request.http db with ⟨_, _, user, db', -, hs, hdb⟩ |
    ⟨_, _, user, text, hreq, -, -⟩ | hdb
  · rw [hdb, hs.thoughts_eq]
  · cases request <;> simp [Request.http, isCreate] at hreq h
  · rw [hdb]

/-! ## The invariant -/

/-- The row was inserted for the create request: its text, for the user of its token. -/
def Created.Faithful (G : Gems) (c : Created) : Prop :=
  ∃ token uid, c.call.request = .createThought token c.row.text ∧
    c.row.userId = some uid ∧ TokenFor G token uid

namespace World

/-- What holds of tokens and posts in the client, the network and the server. -/
structure Tokens (G : Gems) (w : World) : Prop where
  users : Realm.TokensFor G w.client.realm.users
  /-- The create requests that have not reached the server carry a stored user's token. -/
  sent : ∀ call ∈ creates w.client.outbox, ∃ token text uid,
    call.request = .createThought token text ∧ TokenFor G token uid
  /-- A successful authentication response in the network carries a token for its id. -/
  sessions : ∀ reply ∈ w.inbox, ∀ response, reply.outcome = .ok response →
    response.status < 400 → (Process.username? reply.call.request).isSome →
      ∃ now uid, response.body = sessionJson (some (encode G now uid)) uid
  /-- A success of a create request means that the server has inserted the row. -/
  posted : ∀ reply ∈ w.inbox, isCreate reply.call.request = true → ∀ response,
    reply.outcome = .ok response → response.status < 400 →
      ∃ c ∈ w.created, c.call = reply.call
  created : ∀ c ∈ w.created, c.row ∈ w.db.thoughts.rows ∧ c.Faithful G

/-- The rows a served create request adds to the history. -/
theorem serve_created_cases {G : Gems} {call : Call} {token text : String} {uid : Nat} (w : World)
    (env : Env) (hreq : call.request = .createThought token text) (htoken : TokenFor G token uid) :
    (∃ row, row.text = text ∧ row.userId = some uid ∧
      (w.serve G call env).db.thoughts.rows = w.db.thoughts.rows ++ [row] ∧
      (w.serve G call env).created = w.created ++ [⟨call, row⟩]) ∨
    ((w.serve G call env).created = w.created ∧
      (handle G env call.request.http w.db).1.Refused) := by
  rcases createThought_cases htoken env text w.db with hdb | ⟨hdb, hrefused⟩
  -- the table has grown by the one row
  · left
    refine ⟨w.db.newThought text (some uid) env.now, rfl, rfl, ?_, ?_⟩
    · simp only [serve, hreq, hdb, Database.insertThought_rows]
    · simp only [serve, hreq, hdb, newRows, Database.insertThought_rows, List.drop_left,
        List.map_cons, List.map_nil]
  · right
    refine ⟨?_, by rw [hreq]; exact hrefused⟩
    simp only [serve, hreq, hdb, newRows, List.drop_length, List.map_nil, List.append_nil]

/-- Other requests add none. -/
theorem serve_created_of_not_create {G : Gems} {w : World} {call : Call} {env : Env}
    (h : isCreate call.request = false) : (w.serve G call env).created = w.created := by
  simp only [serve, newRows, thoughts_handle_of_not_create h, List.drop_length, List.map_nil,
    List.append_nil]

variable {G : Gems} {P : Platform} {w w' : World} {a : Act}

/-- Every callback keeps the invariant, when the authentication responses it processes
    carry tokens for their ids. -/
theorem Tokens.client (h : Tokens G w) {e : Event}
    (hclient : w.client.step P e = some w'.client) (hdb : w'.db = w.db)
    (hinbox : w'.inbox = w.inbox) (hcreated : w'.created = w.created)
    (hauth : ∀ call body, e = .authSucceeded call body → (Process.username? call.request).isSome →
      ∃ now uid, body = sessionJson (some (encode G now uid)) uid) : Tokens G w' := by
  refine ⟨?_, ?_, ?_, ?_, ?_⟩
  · -- a User that is new comes from an authentication response
    intro u hu
    rcases Process.users_step hclient hu with hu |
      ⟨call, body, username, he, hname, -, htoken, hid⟩
    · exact h.users u hu
    · have hrequest : (Process.username? call.request).isSome := by
        rw [hname]
        rfl
      obtain ⟨now, uid, rfl⟩ := hauth call body he hrequest
      rw [stringField_sessionJson, Option.some.injEq] at htoken
      exact ⟨uid, intField_sessionJson hid, htoken ▸ tokenFor_encode G now uid⟩
  · -- a request that is new carries the current user's token
    intro call hcall
    rcases Process.mem_outbox_step hclient hcall with hcall | ⟨user, text, press, huser, -, rfl⟩
    · exact h.sent call hcall
    · obtain ⟨uid, -, htoken⟩ := h.users user (Process.mem_of_currentUser huser).1
      exact ⟨user.jwtToken, text, uid, rfl, htoken⟩
  -- responses and rows are as before
  · rw [hinbox]
    exact h.sessions
  · rw [hinbox, hcreated]
    exact h.posted
  · rw [hcreated, hdb]
    exact h.created

/-- Every step keeps the invariant. -/
theorem tokens_step (h : Tokens G w) (hstep : w.step G P a = some w') : Tokens G w' := by
  rcases client_cases hstep with ⟨e, hraises, hclient, hdb, hinbox, hcreated⟩ |
    ⟨call, env, -, hcall, rfl⟩ | ⟨env, request, -, rfl⟩
  · -- a response that is processed was in the network before
    refine h.client hclient hdb hinbox hcreated ?_
    rintro call body rfl hrequest
    obtain ⟨response, mark, hreply, hstatus, rfl⟩ := hraises.reply_of_authSucceeded
    exact h.sessions _ hreply response rfl hstatus hrequest
  -- a request is handled: the outbox, the responses and the table change
  · have hpre := thoughts_prefix_handle G env call.request.http w.db
    refine ⟨h.users, ?_, ?_, ?_, ?_⟩
    · intro c hc
      exact h.sent c (creates_erase_subset call w.client.outbox hc)
    · intro reply hreply response hok hstatus hrequest
      cases List.mem_append.mp hreply with
      | inl hreply =>
        exact h.sessions reply hreply response hok hstatus hrequest
      | inr hreply =>
        -- the new response
        rw [List.mem_singleton] at hreply
        subst hreply
        obtain ⟨username, hname⟩ := Option.isSome_iff_exists.mp hrequest
        obtain ⟨user, -, -, hbody⟩ := authResponse_user hname hok hstatus
        exact ⟨env.now, user.id, hbody⟩
    · intro reply hreply hcreate response hok hstatus
      cases List.mem_append.mp hreply with
      | inl hreply =>
        obtain ⟨c, hc, heq⟩ := h.posted reply hreply hcreate response hok hstatus
        exact ⟨c, List.mem_append_left _ hc, heq⟩
      | inr hreply =>
        rw [List.mem_singleton] at hreply
        subst hreply
        obtain ⟨token, text, uid, hreq, htoken⟩ := h.sent call (mem_creates.mpr ⟨hcall, hcreate⟩)
        rcases serve_created_cases w env hreq htoken with
          ⟨row, -, -, -, hcreated⟩ | ⟨-, hrefused⟩
        · refine ⟨⟨call, row⟩, ?_, rfl⟩
          rw [hcreated]
          exact List.mem_append_right _ (List.mem_singleton_self _)
        · -- a refusal is no success
          have hok' : (handle G env call.request.http w.db).1 = .ok response := hok
          rw [hok'] at hrefused
          have hge : 400 ≤ response.status := hrefused.status_ge
          omega
    · intro c hc
      have hold : ∀ c ∈ w.created, c.row ∈ (w.serve G call env).db.thoughts.rows ∧
          c.Faithful G := fun c hc => ⟨hpre.subset (h.created c hc).1, (h.created c hc).2⟩
      by_cases hcreate : isCreate call.request = true
      · obtain ⟨token, text, uid, hreq, htoken⟩ := h.sent call (mem_creates.mpr ⟨hcall, hcreate⟩)
        rcases serve_created_cases w env hreq htoken with
          ⟨row, htext, huser, hrows, hcreated⟩ | ⟨hcreated, -⟩
        · rw [hcreated, List.mem_append, List.mem_singleton] at hc
          rcases hc with hc | rfl
          · exact hold c hc
          · refine ⟨?_, token, uid, by rw [hreq, htext], huser, htoken⟩
            rw [hrows]
            exact List.mem_append_right _ (List.mem_singleton_self _)
        · rw [hcreated] at hc
          exact hold c hc
      · rw [serve_created_of_not_create (by simpa using hcreate)] at hc
        exact hold c hc
  -- somebody else: the rows stay in the table
  · have hpre := thoughts_prefix_handle G env request w.db
    refine ⟨h.users, h.sent, h.sessions, h.posted, ?_⟩
    intro c hc
    exact ⟨hpre.subset (h.created c hc).1, (h.created c hc).2⟩

/-- The start of a process whose Realm holds tokens of the server. -/
def Init (G : Gems) (w : World) : Prop :=
  ∃ r db, Realm.TokensFor G r.users ∧ w = start r db

/-- At the start there are the stored users, with tokens of the server, and nothing else. -/
theorem tokens_init (h : Init G w) : Tokens G w := by
  obtain ⟨r, db, husers, rfl⟩ := h
  have hpolled := Process.launch_polled r
  refine ⟨?_, ?_, ?_, ?_, ?_⟩
  · have hrealm : (Process.launch r).realm = r := hpolled.realm
    simpa only [start, hrealm] using husers
  · intro call hcall
    have hnil : creates (Process.launch r).outbox = [] := hpolled.quiet.outbox
    simp only [start, hnil, List.not_mem_nil] at hcall
  · intro reply hreply
    cases hreply
  · intro reply hreply
    cases hreply
  · intro c hc
    cases hc

/-- A fresh installation holds no tokens. -/
theorem init_new (G : Gems) (db : Database) : Init G (start .new db) := by
  refine ⟨.new, db, ?_, rfl⟩
  intro u hu
  cases hu

/-- In every reachable state the tokens carry their ids. -/
theorem tokens_reachable (h : Reachable (step G P) (Init G) w) : Tokens G w :=
  h.invariant (fun _ => tokens_init) fun _ _ _ => tokens_step

/-- A process that is launched again on the Realm of an earlier one starts as `Init` says. -/
theorem init_of_reachable (h : Reachable (step G P) (Init G) w) :
    Init G (start w.client.realm w.db) :=
  ⟨w.client.realm, w.db, (tokens_reachable h).users, rfl⟩

/-- On a fresh installation ann registers, and is logged in. -/
def registration : List Act :=
  [.client (.registerPressed "ann" "secret"),
   .serve ⟨0, .signUp "ann" "secret", 1⟩ (sampleEnv 0),
   .succeed 0]

end World

end ReactiveDemo
