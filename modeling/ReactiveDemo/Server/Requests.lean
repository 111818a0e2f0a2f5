import ReactiveDemo.Server.Controllers
import ReactiveDemo.ForStd.Run

/-!
# What requests do

A request writes nothing, or inserts one user, or inserts one thought. From this the
facts about whole runs of the server follow: rows are never changed or deleted.

## Key results

- `usersCreate_cases`, `thoughtsCreate_cases`: an action inserts its row or writes nothing
- `handle_cases`: the writes of one request
- `grows_handle`: a request keeps the rows of both tables
- `ServerState.mem_users_run`: a user stays in the table along every run
-/

namespace ReactiveDemo.Server

open Transition

/-! ## Outcomes -/

/-- The `auth_token` of a rendered response. -/
def Outcome.authToken? : Outcome → Option String
  | .ok ⟨_, .obj fields⟩ => (fields.lookup "auth_token").bind Json.asString?
  | _ => none

/-- An error response, or an exception. -/
structure Outcome.Refused (o : Outcome) : Prop where
  status_ge : 400 ≤ o.status
  no_token : o.authToken? = none

theorem refused_error (e : RubyError) : Outcome.Refused (.error e) := by
  refine ⟨?_, rfl⟩
  cases e <;> simp [Outcome.status, RubyError.status]

theorem refused_errorJson {status : Nat} (h : 400 ≤ status) (message : Json) :
    Outcome.Refused (.ok ⟨status, errorJson message⟩) :=
  ⟨h, by simp [Outcome.authToken?, errorJson, List.lookup]⟩

@[simp] theorem authToken?_sessionJson (status : Nat) (token : String) (id : Nat) :
    Outcome.authToken? (.ok ⟨status, sessionJson (some token) id⟩) = some token := rfl

/-! ## Parameters -/

/-- A string is what `params.require` gives when it is not blank. -/
theorem require_str {params : Params} {key s : String} (h : param params key = .str s) :
    require params key =
      if blankString s then .error (.parameterMissing key) else .ok (.str s) := by
  unfold require
  rw [h]
  rfl

/-- What `params.require` gives is the parameter. -/
theorem require_eq_ok {params : Params} {key : String} {value : Json}
    (h : require params key = .ok value) : param params key = value := by
  unfold require at h
  split at h
  · rename_i hparam
    rw [hparam]
    exact Except.ok.inj h
  · split at h
    · cases h
    · exact Except.ok.inj h

/-- A blank parameter is not given out by `params.require`. -/
theorem not_blank_of_require {params : Params} {key s : String}
    (h : require params key = .ok (.str s)) : blankString s = false := by
  have hparam := require_eq_ok h
  rw [require_str hparam] at h
  by_cases hblank : blankString s = true
  · rw [if_pos hblank] at h
    cases h
  · exact Bool.eq_false_iff.mpr hblank

/-- The username of the credentials is the downcased parameter, which is no blank. -/
theorem credentials_eq_ok {G : Gems} {params : Params} {username : String} {password : Json}
    (h : credentials G params = .ok (username, password)) :
    (∃ s, param params "username" = .str s ∧ blankString s = false ∧ username = G.downcase s) ∧
      require params "password" = .ok password := by
  unfold credentials requireUsername at h
  cases huser : require params "username" with
  | error e => simp [huser] at h
  | ok value =>
    cases value with
    -- only a string has `downcase`
    | str s =>
      cases hpass : require params "password" with
      | error e => simp [huser, hpass, Except.map] at h
      | ok p =>
        simp only [huser, hpass, Except.map, Except.ok.injEq, Prod.mk.injEq] at h
        refine ⟨⟨s, require_eq_ok huser, not_blank_of_require huser, h.1.symm⟩, ?_⟩
        rw [h.2]
    | _ => simp [huser] at h

/-- Two string parameters that are not blank are credentials. -/
theorem credentials_of_str {G : Gems} {params : Params} {u p : String}
    (hu : param params "username" = .str u) (hp : param params "password" = .str p)
    (hu' : blankString u = false) (hp' : blankString p = false) :
    credentials G params = .ok (G.downcase u, .str p) := by
  simp [credentials, requireUsername, require_str hu, require_str hp, hu', hp', Except.map]

/-! ## Authentication of stored users -/

/-- For a stored user, `AuthenticateUser` compares the salted password with the digest. -/
theorem authenticateUser_of_mem {G : Gems} (now : Time) {db : Database} {user : UserRow}
    (hmem : user ∈ db.users.rows) (hnull : hasNullByte user.username = false) (p : String) :
    authenticateUser G now user.username (.str p) user.salt db =
      .ok (if G.isPassword user.passwordDigest (user.salt ++ p) then some (encode G now user.id)
        else none) := by
  have hfind : db.findByUsername user.username = some user :=
    Database.findByUsername_eq_some.mpr ⟨hmem, rfl⟩
  simp only [authenticateUser, authenticatedUser, findByUsername, hnull, hfind, concat, Except.map]
  by_cases hpass : G.isPassword user.passwordDigest (user.salt ++ p) = true
  · simp [hpass]
  · simp [hpass]

/-! ## Signup -/

/-- The signup `params` with password `password` inserts `user`, and the database is `db'`
    afterwards. -/
structure SignedUp (G : Gems) (env : Env) (params : Params) (db : Database) (password : String)
    (user : UserRow) (db' : Database) : Prop where
  credentials_eq : credentials G params = .ok (user.username, .str password)
  user_eq : user = db.newUser user.username
    (G.bcryptCreate env.bcryptSalt (env.uuid.val ++ password)) env.uuid.val
  no_null : hasNullByte user.username = false
  free : db.findByUsername user.username = none
  short : (env.uuid.val ++ password).length ≤ 72
  indexable : G.indexable user.username = true
  users_eq : db'.users.rows = db.users.rows ++ [user]
  thoughts_eq : db'.thoughts = db.thoughts
  usersCreate_eq : usersCreate G env params db =
    (.ok ⟨201, sessionJson (some (encode G env.now user.id)) user.id⟩, db')

/-- A signup whose parameters pass every check inserts the user and returns its token. -/
theorem signedUp_of_checks {G : Gems} (env : Env) {params : Params} {db : Database}
    {username password : String} (hcred : credentials G params = .ok (username, .str password))
    (hnull : hasNullByte username = false) (hfree : db.findByUsername username = none)
    (hshort : (env.uuid.val ++ password).length ≤ 72) (hindex : G.indexable username = true) :
    ∃ user db', user.username = username ∧ SignedUp G env params db password user db' := by
  obtain ⟨db', hinsert, hrows, hthoughts, -⟩ := Database.insertUser_of_findByUsername hfree
    (G.bcryptCreate env.bcryptSalt (env.uuid.val ++ password)) env.uuid.val
  refine ⟨db.newUser username _ _, db', rfl, hcred, rfl, hnull, hfree, hshort, hindex, hrows,
    hthoughts, ?_⟩
  -- the token is made through a second lookup, which finds the row just inserted
  have hmem : db.newUser username (G.bcryptCreate env.bcryptSalt (env.uuid.val ++ password))
      env.uuid.val ∈ db'.users.rows := by
    rw [hrows]
    exact List.mem_append_right _ (List.mem_singleton_self _)
  have hauth := authenticateUser_of_mem (G := G) env.now hmem hnull password
  have hpass : G.isPassword
      (db.newUser username (G.bcryptCreate env.bcryptSalt (env.uuid.val ++ password))
        env.uuid.val).passwordDigest
      ((db.newUser username (G.bcryptCreate env.bcryptSalt (env.uuid.val ++ password))
        env.uuid.val).salt ++ password) = true := G.isPassword_self _ _
  rw [if_pos hpass] at hauth
  have hlong : ¬ 72 < (env.uuid.val ++ password).length := Nat.not_lt.mpr hshort
  have hcreate : createUser G env username (.str password) db = .ok (db.newUser username
      (G.bcryptCreate env.bcryptSalt (env.uuid.val ++ password)) env.uuid.val, db') := by
    simp only [createUser, concat, if_neg hlong, hinsert, hindex, if_true]
  simp only [usersCreate, hcred, findByUsername, hnull, Bool.false_eq_true, if_false, hfree,
    hcreate]
  -- `newUser` keeps the username it is given
  have hname : (db.newUser username (G.bcryptCreate env.bcryptSalt (env.uuid.val ++ password))
      env.uuid.val).username = username := rfl
  rw [hname] at hauth
  rw [hauth]

/-- A username that is free but too long for the unique index is not inserted. -/
theorem createUser_unindexable {G : Gems} (env : Env) {db : Database} {username password : String}
    (hshort : (env.uuid.val ++ password).length ≤ 72)
    (hfree : db.findByUsername username = none) (hindex : G.indexable username = false) :
    createUser G env username (.str password) db = .error .statementInvalid := by
  obtain ⟨next, hinsert, -⟩ := Database.insertUser_of_findByUsername hfree
    (G.bcryptCreate env.bcryptSalt (env.uuid.val ++ password)) env.uuid.val
  have hlong : ¬ 72 < (env.uuid.val ++ password).length := Nat.not_lt.mpr hshort
  simp only [createUser, concat, if_neg hlong, hinsert, hindex, Bool.false_eq_true, if_false]

/-- A signup inserts its user, or it writes nothing and is refused. -/
theorem usersCreate_cases (G : Gems) (env : Env) (params : Params) (db : Database) :
    (∃ password user db', SignedUp G env params db password user db') ∨
      ((usersCreate G env params db).2 = db ∧ (usersCreate G env params db).1.Refused) := by
  cases hcred : credentials G params with
  -- a parameter is missing
  | error e =>
    right
    simp only [usersCreate, hcred]
    exact ⟨trivial, refused_error e⟩
  | ok c =>
    obtain ⟨username, password⟩ := c
    by_cases hnull : hasNullByte username = true
    · right
      simp only [usersCreate, hcred, findByUsername, hnull, if_true]
      exact ⟨trivial, refused_error _⟩
    · rw [Bool.not_eq_true] at hnull
      cases hfree : db.findByUsername username with
      -- the early return: the user exists
      | some existing =>
        right
        simp only [usersCreate, hcred, findByUsername, hnull, Bool.false_eq_true, if_false, hfree]
        exact ⟨trivial, refused_errorJson (le_refl _) _⟩
      | none =>
        -- the lookup found nothing: what can still go wrong is the secret, or the index
        have hrefused : ∀ e, createUser G env username password db = .error e →
            (usersCreate G env params db).2 = db ∧ (usersCreate G env params db).1.Refused := by
          intro e hcreate
          simp only [usersCreate, hcred, findByUsername, hnull, Bool.false_eq_true, if_false,
            hfree, hcreate]
          exact ⟨trivial, refused_error e⟩
        cases password with
        | str p =>
          by_cases hshort : (env.uuid.val ++ p).length ≤ 72
          · cases hindex : G.indexable username with
            | true =>
              obtain ⟨user, db', -, hsigned⟩ :=
                signedUp_of_checks env hcred hnull hfree hshort hindex
              exact Or.inl ⟨p, user, db', hsigned⟩
            | false =>
              exact Or.inr (hrefused .statementInvalid
                (createUser_unindexable env hshort hfree hindex))
          · have hlong : 72 < (env.uuid.val ++ p).length := Nat.not_le.mp hshort
            exact Or.inr (hrefused .recordInvalid (by simp only [createUser, concat, if_pos hlong]))
        | _ => exact Or.inr (hrefused .typeError rfl)

/-! ## Login -/

/-- The login `params` finds `user` and its password is accepted. -/
structure LoggedIn (G : Gems) (params : Params) (db : Database) (password : String)
    (user : UserRow) : Prop where
  credentials_eq : credentials G params = .ok (user.username, .str password)
  no_null : hasNullByte user.username = false
  mem : user ∈ db.users.rows
  accepted : G.isPassword user.passwordDigest (user.salt ++ password) = true

/-- An accepted login is answered with a token for the user. -/
theorem LoggedIn.usersAuthenticate_eq {G : Gems} {env : Env} {params : Params} {db : Database}
    {password : String} {user : UserRow} (h : LoggedIn G params db password user) :
    usersAuthenticate G env params db =
      .ok ⟨200, sessionJson (some (encode G env.now user.id)) user.id⟩ := by
  have hfind : db.findByUsername user.username = some user :=
    Database.findByUsername_eq_some.mpr ⟨h.mem, rfl⟩
  have hauth := authenticateUser_of_mem (G := G) env.now h.mem h.no_null password
  rw [if_pos h.accepted] at hauth
  simp only [usersAuthenticate, h.credentials_eq, findByUsername, h.no_null, Bool.false_eq_true,
    if_false, hfind, hauth, Except.map, renderCommand]

/-- A login is accepted or refused. -/
theorem usersAuthenticate_cases (G : Gems) (env : Env) (params : Params) (db : Database) :
    (∃ password user, LoggedIn G params db password user) ∨
      (usersAuthenticate G env params db).Refused := by
  cases hcred : credentials G params with
  | error e =>
    right
    simp only [usersAuthenticate, hcred]
    exact refused_error e
  | ok c =>
    obtain ⟨username, password⟩ := c
    by_cases hnull : hasNullByte username = true
    · right
      simp only [usersAuthenticate, hcred, findByUsername, hnull, if_true]
      exact refused_error _
    · rw [Bool.not_eq_true] at hnull
      cases hfind : db.findByUsername username with
      -- nobody has that name
      | none =>
        right
        simp only [usersAuthenticate, hcred, findByUsername, hnull, Bool.false_eq_true, if_false,
          hfind]
        exact refused_errorJson (by decide) _
      | some user =>
        obtain ⟨hmem, rfl⟩ := Database.findByUsername_eq_some.mp hfind
        -- the answer is made of what `AuthenticateUser` gives
        have heq : usersAuthenticate G env params db =
            (authenticateUser G env.now user.username password user.salt db).map
              (renderCommand user.id) := by
          simp only [usersAuthenticate, hcred, findByUsername, hnull, Bool.false_eq_true, if_false,
            hfind]
        cases password with
        | str p =>
          by_cases hpass : G.isPassword user.passwordDigest (user.salt ++ p) = true
          · exact Or.inl ⟨p, user, hcred, hnull, hmem, hpass⟩
          · right
            rw [heq, authenticateUser_of_mem env.now hmem hnull, if_neg hpass]
            exact refused_errorJson (by decide) _
        | _ =>
          right
          have hauth : ∀ password, concat user.salt password = .error .typeError →
              authenticateUser G env.now user.username password user.salt db =
                .error .typeError := by
            intro password hconcat
            simp only [authenticateUser, authenticatedUser, findByUsername, hnull,
              Bool.false_eq_true, if_false, hfind, hconcat, Except.map]
          rw [heq, hauth _ rfl]
          exact refused_error _

/-! ## Posting -/

/-- A thoughts#create that runs inserts its text for the current user, or it writes
    nothing and is refused. -/
theorem thoughtsCreate_cases (G : Gems) (env : Env) (params : Params) (db : Database)
    (user : UserRow) :
    (∃ value, require params "text" = .ok value ∧ hasNullByte (castText G value) = false ∧
      thoughtsCreate G env params db user =
        (.ok ⟨201, thoughtJson user (db.newThought (castText G value) (some user.id) env.now)⟩,
          db.insertThought (castText G value) (some user.id) env.now)) ∨
      ((thoughtsCreate G env params db user).2 = db ∧
        (thoughtsCreate G env params db user).1.Refused) := by
  cases htext : require params "text" with
  -- no text
  | error e =>
    right
    simp only [thoughtsCreate, htext]
    exact ⟨trivial, refused_error e⟩
  | ok value =>
    by_cases hnull : hasNullByte (castText G value) = true
    · -- Postgres stores no null character
      right
      simp only [thoughtsCreate, htext, hnull, if_true]
      exact ⟨trivial, refused_error _⟩
    · rw [Bool.not_eq_true] at hnull
      refine Or.inl ⟨value, rfl, hnull, ?_⟩
      simp only [thoughtsCreate, htext, hnull, Bool.false_eq_true, if_false]

/-! ## One request -/

/-- A request inserts a user, inserts a thought, or writes nothing. -/
theorem handle_cases (G : Gems) (env : Env) (request : HttpRequest) (db : Database) :
    (∃ params password user db', request = .usersCreate params ∧
      SignedUp G env params db password user db' ∧ (handle G env request db).2 = db') ∨
    (∃ authorization params user text, request = .thoughtsCreate authorization params ∧
      authorizeApiRequest G env.now authorization db = .ok (some user) ∧
      (handle G env request db).2 = db.insertThought text (some user.id) env.now) ∨
    (handle G env request db).2 = db := by
  cases request with
  | usersCreate params =>
    rcases usersCreate_cases G env params db with ⟨password, user, db', hsigned⟩ | ⟨hdb, -⟩
    · refine Or.inl ⟨params, password, user, db', rfl, hsigned, ?_⟩
      simp only [handle, hsigned.usersCreate_eq]
    · exact Or.inr (Or.inr hdb)
  -- a login reads only
  | usersAuthenticate params => exact Or.inr (Or.inr rfl)
  | thoughtsCreate authorization params =>
    -- the action runs for the user that the header names, if any
    cases hauth : authorizeApiRequest G env.now authorization db with
    | error e => exact Or.inr (Or.inr (by simp only [handle, authenticateRequest, hauth]))
    | ok current =>
      cases current with
      | none => exact Or.inr (Or.inr (by simp only [handle, authenticateRequest, hauth]))
      | some user =>
        have hhandle : handle G env (.thoughtsCreate authorization params) db =
            thoughtsCreate G env params db user := by
          simp only [handle, authenticateRequest, hauth]
        rw [hhandle]
        rcases thoughtsCreate_cases G env params db user with ⟨value, -, -, heq⟩ | ⟨hdb, -⟩
        · refine Or.inr (Or.inl ⟨authorization, params, user, castText G value, rfl, hauth, ?_⟩)
          rw [heq]
        · exact Or.inr (Or.inr hdb)
  | thoughtsIndex authorization params =>
    refine Or.inr (Or.inr ?_)
    simp only [handle, authenticateRequest]
    cases authorizeApiRequest G env.now authorization db with
    | error e => rfl
    | ok current => cases current <;> rfl

/-- No request changes or deletes a user. -/
theorem users_subset_handle (G : Gems) (env : Env) (request : HttpRequest) (db : Database) :
    db.users.rows ⊆ (handle G env request db).2.users.rows := by
  rcases handle_cases G env request db with ⟨_, _, user, db', -, hsigned, hdb⟩ |
    ⟨_, _, user, text, -, -, hdb⟩ | hdb
  · rw [hdb, hsigned.users_eq]
    exact List.subset_append_left _ _
  · rw [hdb, Database.insertThought_users]
    exact List.Subset.refl _
  · rw [hdb]
    exact List.Subset.refl _

/-- No request changes or deletes a thought; a new one goes behind the others. -/
theorem thoughts_prefix_handle (G : Gems) (env : Env) (request : HttpRequest) (db : Database) :
    db.thoughts.rows <+: (handle G env request db).2.thoughts.rows := by
  rcases handle_cases G env request db with ⟨_, _, user, db', -, hsigned, hdb⟩ |
    ⟨_, _, user, text, -, -, hdb⟩ | hdb
  · rw [hdb, hsigned.thoughts_eq]
  · rw [hdb, Database.insertThought_rows]
    exact List.prefix_append _ _
  · rw [hdb]

/-- The tables grow. -/
structure Database.Grows (db db' : Database) : Prop where
  users : db.users.rows ⊆ db'.users.rows
  thoughts : db.thoughts.rows <+: db'.thoughts.rows

theorem Database.Grows.refl (db : Database) : db.Grows db :=
  ⟨List.Subset.refl _, List.prefix_refl _⟩

/-- A user that was found is found still. -/
theorem Database.Grows.findUser {db db' : Database} (h : db.Grows db') {id : Nat} {user : UserRow}
    (hfind : db.findUser id = some user) : db'.findUser id = some user := by
  obtain ⟨hmem, hid⟩ := Database.findUser_eq_some.mp hfind
  exact Database.findUser_eq_some.mpr ⟨h.users hmem, hid⟩

theorem grows_handle (G : Gems) (env : Env) (request : HttpRequest) (db : Database) :
    db.Grows (handle G env request db).2 :=
  ⟨users_subset_handle G env request db, thoughts_prefix_handle G env request db⟩

/-! ## Runs of the server -/

/-- A request that the server has handled, with the database it found. -/
structure Exchange where
  env : Env
  request : HttpRequest
  before : Database

/-- The server: its database and the requests it has handled. -/
structure ServerState where
  db : Database := .empty
  log : List Exchange := []

/-- The server handles requests one after the other. -/
def ServerState.step (G : Gems) (s : ServerState) (x : Env × HttpRequest) : Option ServerState :=
  some { db := (handle G x.1 x.2 s.db).2, log := s.log ++ [⟨x.1, x.2, s.db⟩] }

/-- A user stays in the table, unchanged, along every run. -/
theorem ServerState.mem_users_run {G : Gems} {s t : ServerState} {xs : List (Env × HttpRequest)}
    (hrun : run (ServerState.step G) s xs = some t) {user : UserRow} (hmem : user ∈ s.db.users.rows) :
    user ∈ t.db.users.rows := by
  refine run_invariant (I := fun s => user ∈ s.db.users.rows) ?_ hmem hrun
  intro s x s' hs hstep
  cases hstep
  exact users_subset_handle G x.1 x.2 s.db hs

end ReactiveDemo.Server
