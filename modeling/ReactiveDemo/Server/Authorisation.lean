import ReactiveDemo.Server.Credentials

/-!
# Authorisation

A thoughts request runs for the user of the token in its header. Tokens cannot be forged:
a header that carries something `JWT.encode` produces carries it because the server has
handed it out (`Unforged`). Under this assumption every token in use leads back, through
the log, to a signup or login of its user.

A token's `exp` is a whole number of seconds and JWT compares it with the whole seconds of
the clock, so a token expires up to a second before it is 24 hours old.

## Key results

- `handsOut_iff`: what the server hands out, and for whom
- `authorizeApiRequest_eq_some_iff`: whose requests run
- `authorisation_sound`: authorisation and attribution along every run
-/

namespace ReactiveDemo.Server

open Transition

/-! ## Tokens that are handed out -/

namespace Exchange

variable (G : Gems)

def outcome (x : Exchange) : Outcome := (handle G x.env x.request x.before).1

def after (x : Exchange) : Database := (handle G x.env x.request x.before).2

/-- The response carries the token. -/
def HandsOut (x : Exchange) (token : String) : Prop := (x.outcome G).authToken? = some token

/-- The exchange issues the token for `user`: it is the signup that inserts the user, or a
    login of the user whose password is accepted. -/
def Issues (x : Exchange) (user : UserRow) (token : String) : Prop :=
  token = encode G x.env.now user.id ∧
    ((∃ params password db', x.request = .usersCreate params ∧
        SignedUp G x.env params x.before password user db') ∨
      ∃ params password, x.request = .usersAuthenticate params ∧
        LoggedIn G params x.before password user)

/-- The token that the exchange issues has not expired. -/
def Unexpired (x : Exchange) (now : Time) : Prop := now.toI < Time.toI (x.env.now + hours24)

end Exchange

/-- The feed carries no token. -/
theorem authToken?_thoughtsIndex (G : Gems) (params : Params) (db : Database) :
    (thoughtsIndex G params db).authToken? = none := by
  unfold thoughtsIndex
  dsimp only
  cases selectThoughts G (param params "filter") ((tryToI (param params "limit")).getD 10) db with
  | error e => rfl
  | ok thoughts =>
    simp only
    split
    · rfl
    · cases (thoughts.take ((tryToI (param params "limit")).getD 10).toNat).mapM
        (apiResponseJson db) <;> rfl

/-- The response to a post carries no token. -/
theorem authToken?_thoughtJson (status : Nat) (user : UserRow) (t : ThoughtRow) :
    Outcome.authToken? (.ok ⟨status, thoughtJson user t⟩) = none := by
  simp [Outcome.authToken?, thoughtJson, List.lookup]

/-- A thoughts request that does not run carries no token, nor does any action that runs. -/
theorem authToken?_authenticateRequest {G : Gems} {now : Time} {authorization : Option String}
    {db : Database} {action : UserRow → Outcome × Database}
    (h : ∀ user, (action user).1.authToken? = none) :
    (authenticateRequest G now authorization db action).1.authToken? = none := by
  unfold authenticateRequest
  cases authorizeApiRequest G now authorization db with
  | error e => rfl
  | ok current =>
    cases current with
    | none => exact (refused_errorJson (by decide) _).no_token
    | some user => exact h user

/-- The server hands out the tokens it issues, and no others. -/
theorem handsOut_iff (G : Gems) (x : Exchange) (token : String) :
    x.HandsOut G token ↔ ∃ user, x.Issues G user token := by
  constructor
  · intro h
    unfold Exchange.HandsOut Exchange.outcome at h
    cases hreq : x.request with
    | usersCreate params =>
      rw [hreq] at h
      rcases usersCreate_cases G x.env params x.before with
        ⟨password, user, db', hs⟩ | ⟨-, hrefused⟩
      · -- the token is issued for the new user
        simp only [handle, hs.usersCreate_eq, authToken?_sessionJson, Option.some.injEq] at h
        exact ⟨user, h.symm, Or.inl ⟨params, password, db', hreq, hs⟩⟩
      · rw [handle, hrefused.no_token] at h
        cases h
    | usersAuthenticate params =>
      rw [hreq] at h
      rcases usersAuthenticate_cases G x.env params x.before with ⟨password, user, hl⟩ | hrefused
      · -- the token is issued for the user who logs in
        simp only [handle, hl.usersAuthenticate_eq, authToken?_sessionJson,
          Option.some.injEq] at h
        exact ⟨user, h.symm, Or.inr ⟨params, password, hreq, hl⟩⟩
      · simp only [handle, hrefused.no_token] at h
        cases h
    -- answers to the other requests have no `auth_token`
    | thoughtsCreate authorization params =>
      rw [hreq, handle, authToken?_authenticateRequest] at h
      · cases h
      · intro user
        rcases thoughtsCreate_cases G x.env params x.before user with
          ⟨value, -, -, heq⟩ | ⟨-, hrefused⟩
        · rw [heq]
          exact authToken?_thoughtJson _ _ _
        · exact hrefused.no_token
    | thoughtsIndex authorization params =>
      rw [hreq, handle, authToken?_authenticateRequest] at h
      · cases h
      · intro user
        exact authToken?_thoughtsIndex G params x.before
  -- a token that is issued is in the answer
  · rintro ⟨user, rfl, ⟨params, password, db', hreq, hs⟩ | ⟨params, password, hreq, hl⟩⟩
    · simp only [Exchange.HandsOut, Exchange.outcome, hreq, handle, hs.usersCreate_eq,
        authToken?_sessionJson]
    · simp only [Exchange.HandsOut, Exchange.outcome, hreq, handle, hl.usersAuthenticate_eq,
        authToken?_sessionJson]

/-- The user a token is issued for is in the table from then on. -/
theorem Exchange.Issues.mem_after {G : Gems} {x : Exchange} {user : UserRow} {token : String}
    (h : x.Issues G user token) : user ∈ (x.after G).users.rows := by
  obtain ⟨-, ⟨params, password, db', hreq, hs⟩ | ⟨params, password, hreq, hl⟩⟩ := h
  · rw [Exchange.after, hreq, handle, hs.usersCreate_eq, hs.users_eq]
    exact List.mem_append_right _ (List.mem_singleton_self _)
  · exact users_subset_handle G x.env x.request x.before hl.mem

/-! ## Requests whose tokens are not forged -/

/-- The string that a thoughts request presents as its token. -/
def HttpRequest.token? : HttpRequest → Option String
  | .thoughtsCreate authorization _ | .thoughtsIndex authorization _ => httpAuthHeader authorization
  | _ => none

/-- A request presents a product of `JWT.encode` only if the server has handed it out. -/
def Unforged (G : Gems) (s : ServerState) (x : Env × HttpRequest) : Prop :=
  ∀ payload, x.2.token? = some (G.jwtEncode payload) →
    ∃ y ∈ s.log, y.HandsOut G (G.jwtEncode payload)

/-- The exchange is the post, in the name of `user`, that inserts the thought `t`. -/
def Exchange.Posts (G : Gems) (x : Exchange) (user : UserRow) (t : ThoughtRow) : Prop :=
  (∃ authorization params, x.request = .thoughtsCreate authorization params ∧
    authorizeApiRequest G x.env.now authorization x.before = .ok (some user)) ∧
  t ∉ x.before.thoughts.rows ∧ t ∈ (x.after G).thoughts.rows

/-- What holds of every server that has only been sent unforged tokens. -/
structure Sound (G : Gems) (s : ServerState) : Prop where
  /-- The users that tokens were issued for are in the table. -/
  issued : ∀ x ∈ s.log, ∀ user token, x.Issues G user token → user ∈ s.db.users.rows
  /-- Every thought was posted by an existing user with a token issued for that user. -/
  posted : ∀ t ∈ s.db.thoughts.rows, ∃ user ∈ s.db.users.rows, t.userId = some user.id ∧
    ∃ x ∈ s.log, x.Posts G user t ∧
      ∃ token, x.request.token? = some token ∧ ∃ y ∈ s.log, y.Issues G user token

/-- The `exp` of a token is a positive number of seconds. -/
theorem exp_pos (now : Time) : 0 < Time.toI (now + hours24) := by
  unfold Time.toI hours24
  omega

/-- The payload of a token that decodes is that of a user it was issued for. -/
theorem issues_of_decode {G : Gems} {s : ServerState} {env : Env} {request : HttpRequest}
    (hunforged : Unforged G s (env, request)) {token : String} {payload : Payload}
    (htoken : request.token? = some token) (hdecode : decode G env.now token = some payload) :
    ∃ user, user.id = payload.userId ∧
      ∃ x ∈ s.log, x.Issues G user token ∧ x.Unexpired env.now := by
  obtain ⟨rfl, hexp⟩ := (G.jwtDecode_iff _ _ _).mp hdecode
  obtain ⟨x, hx, hout⟩ := hunforged payload htoken
  obtain ⟨user, hissues⟩ := (handsOut_iff G x _).mp hout
  have hpayload : payload = { userId := user.id, exp := Time.toI (x.env.now + hours24) } :=
    G.encode_injective (by omega) (exp_pos _) hissues.1
  subst hpayload
  exact ⟨user, rfl, x, hx, hissues, hexp⟩

/-- A thoughts request runs for the user that its token was issued for, until it expires. -/
theorem authorizeApiRequest_eq_some_iff {G : Gems} {s : ServerState} (hs : Sound G s) {env : Env}
    {authorization : Option String} (params : Params)
    (hunforged : Unforged G s (env, .thoughtsIndex authorization params)) (user : UserRow) :
    authorizeApiRequest G env.now authorization s.db = .ok (some user) ↔
      ∃ token, httpAuthHeader authorization = some token ∧
        ∃ x ∈ s.log, x.Issues G user token ∧ x.Unexpired env.now := by
  constructor
  · intro h
    unfold authorizeApiRequest at h
    split at h
    · cases h
    · rename_i payload hpayload
      -- a token that decodes is one the server has issued
      obtain ⟨token, htoken, hdecode⟩ := Option.bind_eq_some_iff.mp hpayload
      obtain ⟨user', hid, x, hx, hissues, hexp⟩ := issues_of_decode hunforged htoken hdecode
      split at h
      · cases h
      · rename_i found hfound
        simp only [Except.ok.injEq, Option.some.injEq] at h
        subst h
        -- the user the token was issued for and the one that was found have one id
        obtain ⟨hmem, hfid⟩ := Database.findUser_eq_some.mp hfound
        have hmem' : user' ∈ s.db.users.rows := hs.issued x hx user' token hissues
        have huser : user' = found :=
          List.inj_on_of_nodup_map s.db.users.nodup hmem' hmem (hid.trans hfid.symm)
        subst huser
        exact ⟨token, htoken, x, hx, hissues, hexp⟩
  · rintro ⟨token, htoken, x, hx, hissues, hexp⟩
    -- an issued token decodes until it expires, and its user is still there
    have hdecode : decode G env.now token =
        some { userId := user.id, exp := Time.toI (x.env.now + hours24) } := by
      rw [hissues.1]
      exact G.decode_encode hexp
    have hfind : s.db.findUser user.id = some user :=
      Database.findUser_eq_some.mpr ⟨hs.issued x hx user token hissues, rfl⟩
    simp only [authorizeApiRequest, htoken, Option.bind_some, hdecode, hfind]

/-- `User.find` finds the user of every token. -/
theorem authorizeApiRequest_ne_error {G : Gems} {s : ServerState} (hs : Sound G s) {env : Env}
    {authorization : Option String} {params : Params}
    (hunforged : Unforged G s (env, .thoughtsIndex authorization params)) (e : RubyError) :
    authorizeApiRequest G env.now authorization s.db ≠ .error e := by
  intro h
  unfold authorizeApiRequest at h
  split at h
  · cases h
  · rename_i payload hpayload
    obtain ⟨token, htoken, hdecode⟩ := Option.bind_eq_some_iff.mp hpayload
    obtain ⟨user, hid, x, hx, hissues, -⟩ := issues_of_decode hunforged htoken hdecode
    have hfind : s.db.findUser payload.userId = some user :=
      Database.findUser_eq_some.mpr ⟨hs.issued x hx user token hissues, hid⟩
    rw [hfind] at h
    cases h

/-- A request that does not run for a user is answered 401 and changes nothing. -/
theorem authenticateRequest_of_unauthorised {G : Gems} {now : Time}
    {authorization : Option String} {db : Database}
    (herror : ∀ e, authorizeApiRequest G now authorization db ≠ .error e)
    (huser : ∀ user, authorizeApiRequest G now authorization db ≠ .ok (some user))
    (action : UserRow → Outcome × Database) :
    authenticateRequest G now authorization db action =
      (.ok ⟨401, errorJson (.str "Not Authorized")⟩, db) := by
  unfold authenticateRequest
  cases hauth : authorizeApiRequest G now authorization db with
  | error e => exact absurd hauth (herror e)
  | ok current =>
    cases current with
    | none => rfl
    | some user => exact absurd hauth (huser user)

/-! ## Runs -/

theorem sound_init (G : Gems) : Sound G {} := by
  refine ⟨?_, ?_⟩
  · intro x hx
    cases hx
  · intro t ht
    cases ht

/-- A request with an unforged token keeps the server sound. -/
theorem sound_step {G : Gems} {s s' : ServerState} {x : Env × HttpRequest} (hs : Sound G s)
    (hunforged : Unforged G s x) (hstep : ServerState.step G s x = some s') : Sound G s' := by
  obtain ⟨env, request⟩ := x
  cases hstep
  have husers := users_subset_handle G env request s.db
  refine ⟨?_, ?_⟩
  · -- the new exchange issues tokens for users it leaves in the table
    intro y hy user token hissues
    cases List.mem_append.mp hy with
    | inl hy =>
      exact husers (hs.issued y hy user token hissues)
    | inr hy =>
      rw [List.mem_singleton] at hy
      subst hy
      exact hissues.mem_after
  -- thoughts from before were posted with a token from before
  · have hold : ∀ t ∈ s.db.thoughts.rows, ∃ user ∈ (handle G env request s.db).2.users.rows,
        t.userId = some user.id ∧ ∃ y ∈ s.log ++ [⟨env, request, s.db⟩], y.Posts G user t ∧
          ∃ token, y.request.token? = some token ∧
            ∃ z ∈ s.log ++ [⟨env, request, s.db⟩], z.Issues G user token := by
      intro t ht
      obtain ⟨user, huser, hid, y, hy, hposts, token, htoken, z, hz, hissues⟩ := hs.posted t ht
      exact ⟨user, husers huser, hid, y, List.mem_append_left _ hy, hposts, token, htoken, z,
        List.mem_append_left _ hz, hissues⟩
    intro t ht
    rcases handle_cases G env request s.db with ⟨_, _, user, db', -, hsigned, hdb⟩ |
      ⟨authorization, params, user, text, rfl, hauth, hdb⟩ | hdb
    -- a signup inserts no thought
    · have ht' : t ∈ s.db.thoughts.rows := by
        rw [← hsigned.thoughts_eq, ← hdb]
        exact ht
      exact hold t ht'
    -- the new thought is posted by the user whose token came with the request
    · have hrows : t ∈ s.db.thoughts.rows ++ [s.db.newThought text (some user.id) env.now] := by
        rw [← Database.insertThought_rows, ← hdb]
        exact ht
      by_cases ht' : t ∈ s.db.thoughts.rows
      · exact hold t ht'
      · have hnew : t = s.db.newThought text (some user.id) env.now := by
          cases List.mem_append.mp hrows with
          | inl h =>
            exact absurd h ht'
          | inr h =>
            exact List.mem_singleton.mp h
        obtain ⟨token, htoken, z, hz, hissues, -⟩ :=
          (authorizeApiRequest_eq_some_iff hs params hunforged user).mp hauth
        refine ⟨user, husers (hs.issued z hz user token hissues), by rw [hnew]; rfl,
          ⟨env, _, s.db⟩, List.mem_append_right _ (List.mem_singleton_self _),
          ⟨⟨authorization, params, rfl, hauth⟩, ht', ht⟩, token, htoken, z,
          List.mem_append_left _ hz, hissues⟩
    · have ht' : t ∈ s.db.thoughts.rows := by
        rw [← hdb]
        exact ht
      exact hold t ht'

/-- Along every run with unforged tokens the server is sound. -/
theorem sound_run {G : Gems} {xs : List (Env × HttpRequest)} {s : ServerState}
    (halong : Along (ServerState.step G) (Unforged G) {} xs)
    (hrun : run (ServerState.step G) {} xs = some s) : Sound G s :=
  run_invariant_along (fun _ _ _ hs hunforged hstep => sound_step hs hunforged hstep)
    (sound_init G) halong hrun

/-- Authorisation and attribution in a server state. -/
structure AuthorisationSound (G : Gems) (s : ServerState) : Prop where
  /-- A thoughts request has the current user that its unexpired token was issued for. -/
  current_user : ∀ env authorization params,
    Unforged G s (env, .thoughtsIndex authorization params) → ∀ user,
      (authorizeApiRequest G env.now authorization s.db = .ok (some user) ↔
        ∃ token, httpAuthHeader authorization = some token ∧
          ∃ x ∈ s.log, x.Issues G user token ∧ x.Unexpired env.now)
  /-- With a current user, the action runs for that user. -/
  runs : ∀ env authorization user params,
    authorizeApiRequest G env.now authorization s.db = .ok (some user) →
      handle G env (.thoughtsCreate authorization params) s.db =
          thoughtsCreate G env params s.db user ∧
        handle G env (.thoughtsIndex authorization params) s.db =
          (thoughtsIndex G params s.db, s.db)
  /-- Without one, the request is answered 401 and changes nothing. -/
  refused : ∀ env authorization params,
    Unforged G s (env, .thoughtsIndex authorization params) →
    (∀ user, authorizeApiRequest G env.now authorization s.db ≠ .ok (some user)) →
      handle G env (.thoughtsCreate authorization params) s.db =
          (.ok ⟨401, errorJson (.str "Not Authorized")⟩, s.db) ∧
        handle G env (.thoughtsIndex authorization params) s.db =
          (.ok ⟨401, errorJson (.str "Not Authorized")⟩, s.db)
  /-- `User.find` does not raise. -/
  finds : ∀ env authorization params,
    Unforged G s (env, .thoughtsIndex authorization params) →
      ∀ e, authorizeApiRequest G env.now authorization s.db ≠ .error e
  /-- Every thought belongs to the existing user whose token posted it. -/
  posted : ∀ t ∈ s.db.thoughts.rows, ∃ user ∈ s.db.users.rows, t.userId = some user.id ∧
    ∃ x ∈ s.log, x.Posts G user t ∧
      ∃ token, x.request.token? = some token ∧ ∃ y ∈ s.log, y.Issues G user token

/-- Authorisation is sound after every run with unforged tokens. -/
theorem authorisation_sound {G : Gems} {xs : List (Env × HttpRequest)} {s : ServerState}
    (halong : Along (ServerState.step G) (Unforged G) {} xs)
    (hrun : run (ServerState.step G) {} xs = some s) : AuthorisationSound G s := by
  have hs := sound_run halong hrun
  refine ⟨?_, ?_, ?_, ?_, hs.posted⟩
  · intro env authorization params hunforged user
    exact authorizeApiRequest_eq_some_iff hs params hunforged user
  · intro env authorization user params hauth
    simp only [handle, authenticateRequest, hauth, and_self]
  · intro env authorization params hunforged huser
    have herror := authorizeApiRequest_ne_error hs hunforged
    exact ⟨authenticateRequest_of_unauthorised herror huser _,
      authenticateRequest_of_unauthorised herror huser _⟩
  · intro env authorization params hunforged
    exact authorizeApiRequest_ne_error hs hunforged

/-! ## A signup and a post -/

/-- The server after a signup that inserts `user`. -/
theorem run_signup {G : Gems} {env : Env} {params : Params} {password : String} {user : UserRow}
    {db' : Database} (hs : SignedUp G env params .empty password user db') :
    run (ServerState.step G) {} [(env, .usersCreate params)] =
      some ⟨db', [⟨env, .usersCreate params, .empty⟩]⟩ := by
  simp [run, ServerState.step, handle, hs.usersCreate_eq]

/-- Its token is not forged. -/
theorem unforged_after_signup {G : Gems} {env : Env} {params : Params} {password : String}
    {user : UserRow} {db' : Database} (hs : SignedUp G env params .empty password user db')
    (env' : Env) {request : HttpRequest} (htoken : request.token? = some (encode G env.now user.id)) :
    Unforged G ⟨db', [⟨env, .usersCreate params, .empty⟩]⟩ (env', request) := by
  intro payload hpayload
  rw [htoken, Option.some.injEq] at hpayload
  refine ⟨_, List.mem_singleton_self _, ?_⟩
  rw [handsOut_iff, ← hpayload]
  exact ⟨user, rfl, Or.inl ⟨params, password, db', rfl, hs⟩⟩

/-- A token is the only field of a header. -/
theorem httpAuthHeader_encode (G : Gems) (now : Time) (userId : Nat) :
    httpAuthHeader (some (encode G now userId)) = some (encode G now userId) := by
  rw [httpAuthHeader, encode, if_neg (by rw [G.blank_jwtEncode]; simp), G.lastField_jwtEncode]

/-- A signup at time 0 is a run with unforged tokens. -/
theorem along_signup (G : Gems) (env : Env) (params : Params) (rest : List (Env × HttpRequest))
    (hrest : ∀ s, ServerState.step G {} (env, .usersCreate params) = some s →
      Along (ServerState.step G) (Unforged G) s rest) :
    Along (ServerState.step G) (Unforged G) {} ((env, .usersCreate params) :: rest) := by
  refine ⟨?_, hrest⟩
  intro payload hpayload
  cases hpayload

/-- A user signs up and posts with the token; authorisation is sound afterwards. -/
theorem authorisation_sound_post : ∃ token s,
    run (ServerState.step .reference) {}
      [(sampleEnv 0, .usersCreate (form "ann" "secret")),
       (sampleEnv 5000000, .thoughtsCreate (some token) [("text", .str "hi")])] = some s ∧
      s.db.thoughts.rows.length = 1 ∧ AuthorisationSound .reference s := by
  obtain ⟨user, db', hs⟩ := signedUp_reference (u := "ann") (p := "secret") 0
    (by decide +kernel) (by decide +kernel) (by decide +kernel) (by decide +kernel)
  have hheader := httpAuthHeader_encode .reference (sampleEnv 0).now user.id
  have hstep : ServerState.step .reference {} (sampleEnv 0, .usersCreate (form "ann" "secret")) =
      some ⟨db', [⟨sampleEnv 0, .usersCreate (form "ann" "secret"), .empty⟩]⟩ := by
    simpa [run] using run_signup hs
  -- the post presents the token of the signup
  have hunforged : Unforged .reference _ (sampleEnv 5000000,
      .thoughtsCreate (some (encode .reference (sampleEnv 0).now user.id)) [("text", .str "hi")]) :=
    unforged_after_signup hs _ hheader
  have halong := along_signup .reference (sampleEnv 0) (form "ann" "secret")
    [(sampleEnv 5000000, .thoughtsCreate
      (some (encode .reference (sampleEnv 0).now user.id)) [("text", .str "hi")])] <| by
    intro s hs'
    rw [hstep, Option.some.injEq] at hs'
    subst hs'
    exact ⟨hunforged, fun _ _ => trivial⟩
  -- one that is issued and has not expired, so the request runs for its user
  have hauth : authorizeApiRequest .reference (sampleEnv 5000000).now
      (some (encode .reference (sampleEnv 0).now user.id)) db' = .ok (some user) := by
    have hsound := sound_run (along_signup .reference (sampleEnv 0) (form "ann" "secret") []
      fun _ _ => trivial) (run_signup hs)
    rw [authorizeApiRequest_eq_some_iff hsound [] hunforged]
    exact ⟨_, hheader, _, List.mem_singleton_self _,
      ⟨rfl, Or.inl ⟨_, _, _, rfl, hs⟩⟩, show Time.toI 5000000 < Time.toI (0 + hours24) by decide⟩
  have hpost : handle .reference (sampleEnv 5000000)
      (.thoughtsCreate (some (encode .reference (sampleEnv 0).now user.id)) [("text", .str "hi")])
      db' = thoughtsCreate .reference (sampleEnv 5000000) [("text", .str "hi")] db' user := by
    simp only [handle, authenticateRequest, hauth]
  -- and inserts one row
  have hrun : ∃ s, run (ServerState.step .reference) {}
      [(sampleEnv 0, .usersCreate (form "ann" "secret")),
       (sampleEnv 5000000, .thoughtsCreate (some (encode .reference (sampleEnv 0).now user.id))
        [("text", .str "hi")])] = some s ∧ s.db.thoughts.rows.length = 1 := by
    refine ⟨_, by rw [run, hstep, Option.bind_some]; rfl, ?_⟩
    have htext : require [("text", .str "hi")] "text" = .ok (.str "hi") := by
      rw [require_str rfl, if_neg (by decide +kernel)]
    have hnull : hasNullByte (castText .reference (.str "hi")) = false := by decide +kernel
    simp only [hpost, thoughtsCreate, htext, hnull, Bool.false_eq_true, if_false,
      Database.insertThought_rows, hs.thoughts_eq]
    rfl
  obtain ⟨s, hs', hlen⟩ := hrun
  exact ⟨_, s, hs', hlen, authorisation_sound halong hs'⟩

/-- Not every token is accepted until it is 24 hours old: one that is issued within a
    second expires at the start of that second. -/
theorem token_expires_early :
    ¬ ∀ (G : Gems) (xs : List (Env × HttpRequest)) (s : ServerState),
      Along (ServerState.step G) (Unforged G) {} xs → run (ServerState.step G) {} xs = some s →
      ∀ (env : Env) (authorization : Option String) (params : Params),
        Unforged G s (env, .thoughtsIndex authorization params) → ∀ user,
          (authorizeApiRequest G env.now authorization s.db = .ok (some user) ↔
            ∃ token, httpAuthHeader authorization = some token ∧
              ∃ x ∈ s.log, x.Issues G user token ∧ env.now < x.env.now + hours24) := by
  intro h
  obtain ⟨user, db', hs⟩ := signedUp_reference (u := "ann") (p := "secret") 900000
    (by decide +kernel) (by decide +kernel) (by decide +kernel) (by decide +kernel)
  have hrun := run_signup hs
  have halong := along_signup .reference (sampleEnv 900000) (form "ann" "secret") []
    fun _ _ => trivial
  have hheader := httpAuthHeader_encode .reference (sampleEnv 900000).now user.id
  -- 86399.1 seconds after the signup
  have hunforged : Unforged .reference _ (sampleEnv hours24,
      .thoughtsIndex (some (encode .reference (sampleEnv 900000).now user.id)) []) :=
    unforged_after_signup hs _ hheader
  have hissues : Exchange.Issues .reference
      ⟨sampleEnv 900000, .usersCreate (form "ann" "secret"), .empty⟩ user
      (encode .reference (sampleEnv 900000).now user.id) :=
    ⟨rfl, Or.inl ⟨_, _, _, rfl, hs⟩⟩
  -- by its age the token should be accepted
  have hauth := (h _ _ _ halong hrun _ _ _ hunforged user).mpr
    ⟨_, hheader, _, List.mem_singleton_self _, hissues, by decide⟩
  obtain ⟨token, -, x, hx, -, hexp⟩ :=
    (authorizeApiRequest_eq_some_iff (sound_run halong hrun) [] hunforged user).mp hauth
  rw [List.mem_singleton] at hx
  subst hx
  -- but the second in which it expires has begun
  have hlt : Time.toI hours24 < Time.toI (900000 + hours24) := hexp
  exact absurd hlt (by decide)

end ReactiveDemo.Server
