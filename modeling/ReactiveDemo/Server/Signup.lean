import ReactiveDemo.Server.Authorisation
import ReactiveDemo.ForStd.Pool

/-!
# Concurrent signups

`UsersController#create` looks a username up, inserts the row, makes a token through a
second lookup, and renders. Between these steps other requests run theirs. A `Signup` is one
request with the stage it has reached; the requests share the tables, and the unique index
on `users.username` is what keeps them apart.

## Key results

- `finish_received`: without interruption the stages are `usersCreate`
- `advance_cases`: the writes of one stage
- `signups_step`: every step keeps the record of who inserted what
- `signup_atomic`: a signup that is answered 201 has inserted its row, any other nothing
-/

namespace ReactiveDemo.Server

open Transition

/-! ## One request, stage by stage -/

/-- How far a `users#create` has come. -/
inductive Signup.Stage where
  | received
  /-- Both parameters are there. -/
  | required (username : String) (password : Json)
  /-- `find_by_username` has found nobody. -/
  | free (username : String) (password : Json)
  /-- `User.create!` has inserted the row. -/
  | inserted (username : String) (password : Json) (user : UserRow)
  /-- `AuthenticateUser` has given a result. -/
  | authenticated (token : Option String) (userId : Nat)
  | answered (outcome : Outcome)

/-- A `users#create` request. -/
structure Signup where
  params : Params
  stage : Signup.Stage := .received

/-- The next step of the action; `none` when the request is answered. -/
def Signup.Stage.advance (G : Gems) (env : Env) (params : Params) (stage : Stage) (db : Database) :
    Option (Stage × Database) :=
  match stage with
  | .received =>
    match credentials G params with
    | .error e => some (.answered (.error e), db)
    | .ok (username, password) => some (.required username password, db)
  | .required username password =>
    match findByUsername username db with
    | .error e => some (.answered (.error e), db)
    | .ok (some _) => some (.answered (.ok ⟨400, errorJson (.str "User already exists")⟩), db)
    | .ok none => some (.free username password, db)
  | .free username password =>
    match createUser G env username password db with
    | .error e => some (.answered (.error e), db)
    | .ok (user, db) => some (.inserted username password user, db)
  | .inserted username password user =>
    match authenticateUser G env.now username password user.salt db with
    | .error e => some (.answered (.error e), db)
    | .ok token => some (.authenticated token user.id, db)
  | .authenticated token userId => some (.answered (.ok ⟨201, sessionJson token userId⟩), db)
  | .answered _ => none

/-- At most `n` steps of one request, without interruption. -/
def Signup.Stage.finish (G : Gems) (env : Env) (params : Params) :
    Nat → Stage × Database → Stage × Database
  | 0, s => s
  | n + 1, s =>
    match s.1.advance G env params s.2 with
    | none => s
    | some s' => finish G env params n s'

/-- Without interruption, the stages are the action. -/
theorem Signup.Stage.finish_received (G : Gems) (env : Env) (params : Params) (db : Database) :
    finish G env params 5 (.received, db) =
      (.answered (usersCreate G env params db).1, (usersCreate G env params db).2) := by
  unfold usersCreate
  -- the branches of the action, from the first to the last
  cases hcred : credentials G params with
  | error e => simp only [finish, advance, hcred]
  | ok c =>
    obtain ⟨username, password⟩ := c
    cases hfind : findByUsername username db with
    | error e => simp only [finish, advance, hcred, hfind]
    | ok found =>
      cases found with
      | some existing => simp only [finish, advance, hcred, hfind]
      | none =>
        cases hcreate : createUser G env username password db with
        | error e => simp only [finish, advance, hcred, hfind, hcreate]
        | ok created =>
          obtain ⟨user, db'⟩ := created
          cases hauth : authenticateUser G env.now username password user.salt db' with
          | error e => simp only [finish, advance, hcred, hfind, hcreate, hauth]
          | ok token => simp only [finish, advance, hcred, hfind, hcreate, hauth]

/-! ## Many requests -/

/-- What the requests share. -/
structure SignupTables where
  db : Database
  /-- History: the inserted rows, each with the number of its request. -/
  inserts : List (Nat × UserRow) := []

/-- One step of the request with number `i`. -/
def Signup.advance (G : Gems) (i : Nat) (env : Env) (req : Signup) (tables : SignupTables) :
    Option (Signup × SignupTables) :=
  (req.stage.advance G env req.params tables.db).map fun r =>
    ({ req with stage := r.1 },
      { db := r.2
        inserts := tables.inserts ++
          (r.2.users.rows.drop tables.db.users.rows.length).map fun user => (i, user) })

/-- The requests that run, and the tables. -/
abbrev Signups := Pool SignupTables Signup

/-- A request arrives, or one request takes a step. -/
inductive SignupAct where
  | arrive (params : Params)
  | advance (i : Nat) (env : Env)

def SignupAct.move : SignupAct → Pool.Move Env Signup
  | .arrive params => .arrive { params }
  | .advance i env => .advance i env

/-- What arrives is a new request. -/
theorem SignupAct.eq_arrive {a : SignupAct} {req : Signup} (h : a.move = .arrive req) :
    ∃ params, a = .arrive params ∧ req = { params } := by
  cases a with
  | arrive params =>
    cases h
    exact ⟨params, rfl, rfl⟩
  | advance i env => cases h

theorem SignupAct.eq_advance {a : SignupAct} {i : Nat} {env : Env} (h : a.move = .advance i env) :
    a = .advance i env := by
  cases a with
  | arrive params => cases h
  | advance j env' =>
    cases h
    rfl

namespace Signups

/-- No request, on the database `db`. -/
def start (db : Database) : Signups := ⟨{ db }, []⟩

/-- Any number of requests, one step of one of them at a time. -/
def step (G : Gems) (s : Signups) (a : SignupAct) : Option Signups :=
  Pool.step (Signup.advance G) s a.move

end Signups

/-- The rows that the request with number `i` has inserted. -/
def insertsOf (i : Nat) (inserts : List (Nat × UserRow)) : List UserRow :=
  (inserts.filter fun x => x.1 = i).map Prod.snd

theorem insertsOf_append (i : Nat) (inserts more : List (Nat × UserRow)) :
    insertsOf i (inserts ++ more) = insertsOf i inserts ++ insertsOf i more := by
  simp [insertsOf]

@[simp] theorem insertsOf_self (i : Nat) (user : UserRow) : insertsOf i [(i, user)] = [user] := by
  simp [insertsOf]

theorem mem_of_mem_insertsOf {i : Nat} {inserts : List (Nat × UserRow)} {user : UserRow}
    (h : user ∈ insertsOf i inserts) : (i, user) ∈ inserts := by
  simpa [insertsOf] using h

/-! ## What a stage writes -/

/-- `User.create!` inserts a row that the password opens, or raises and writes nothing. -/
theorem createUser_eq_ok {G : Gems} {env : Env} {username : String} {password : Json}
    {db db' : Database} {user : UserRow}
    (h : createUser G env username password db = .ok (user, db')) :
    user.username = username ∧ db'.users.rows = db.users.rows ++ [user] ∧
      db'.thoughts = db.thoughts ∧
      ∃ p, password = .str p ∧ G.isPassword user.passwordDigest (user.salt ++ p) = true := by
  cases password with
  | str p =>
    simp only [createUser, concat] at h
    split at h
    · cases h
    · cases hfind : db.findByUsername username with
      | some existing =>
        rw [Database.insertUser_eq_none hfind] at h
        cases h
      | none =>
        obtain ⟨next, hinsert, hrows, hthoughts, -⟩ :=
          Database.insertUser_of_findByUsername hfind
            (G.bcryptCreate env.bcryptSalt (env.uuid.val ++ p)) env.uuid.val
        simp only [hinsert] at h
        split at h
        · cases h
          exact ⟨rfl, hrows, hthoughts, p, rfl, G.isPassword_self _ _⟩
        · -- the username is too long for the index
          cases h
  -- only a string can be appended to the salt
  | _ => cases h

/-- A stage writes nothing, or it is the insert. -/
theorem advance_cases {G : Gems} {env : Env} {params : Params} {stage stage' : Signup.Stage}
    {db db' : Database} (h : stage.advance G env params db = some (stage', db')) :
    db' = db ∨ ∃ username password user, stage = .free username password ∧
      stage' = .inserted username password user ∧ user.username = username ∧
      db'.users.rows = db.users.rows ++ [user] ∧ db'.thoughts = db.thoughts ∧
      ∃ p, password = .str p ∧ G.isPassword user.passwordDigest (user.salt ++ p) = true := by
  cases stage with
  -- the stages before the insert and after it only read
  | received =>
    simp only [Signup.Stage.advance] at h
    split at h <;> · cases h; exact Or.inl rfl
  | required username password =>
    simp only [Signup.Stage.advance] at h
    split at h <;> · cases h; exact Or.inl rfl
  -- the unique index may refuse the insert
  | free username password =>
    simp only [Signup.Stage.advance] at h
    split at h
    · cases h
      exact Or.inl rfl
    · rename_i user next hcreate
      cases h
      obtain ⟨hname, hrows, hthoughts, haccepted⟩ := createUser_eq_ok hcreate
      exact Or.inr ⟨username, password, user, rfl, rfl, hname, hrows, hthoughts, haccepted⟩
  | inserted username password user =>
    simp only [Signup.Stage.advance] at h
    split at h <;> · cases h; exact Or.inl rfl
  | authenticated token userId =>
    cases h
    exact Or.inl rfl
  | answered outcome => cases h

/-- One step of a request: the tables stay as they are, or the request inserts its row. -/
theorem signupAdvance_cases {G : Gems} {i : Nat} {env : Env} {req req' : Signup}
    {tables tables' : SignupTables} (h : Signup.advance G i env req tables = some (req', tables')) :
    ∃ stage, req.stage.advance G env req.params tables.db = some (stage, tables'.db) ∧
      req' = { req with stage } ∧ (tables' = tables ∨ ∃ username password user,
        req.stage = .free username password ∧ stage = .inserted username password user ∧
        user.username = username ∧ tables'.db.users.rows = tables.db.users.rows ++ [user] ∧
        tables'.db.thoughts = tables.db.thoughts ∧
        tables'.inserts = tables.inserts ++ [(i, user)] ∧
        ∃ p, password = .str p ∧ G.isPassword user.passwordDigest (user.salt ++ p) = true) := by
  simp only [Signup.advance, Option.map_eq_some_iff] at h
  obtain ⟨⟨stage, db⟩, hstage, heq⟩ := h
  -- recorded are the rows that the stage has appended
  cases heq
  refine ⟨stage, hstage, rfl, ?_⟩
  rcases advance_cases hstage with rfl |
    ⟨username, password, user, hfrom, hto, hname, hrows, hthoughts, haccepted⟩
  · left
    simp
  · -- the new row is the one behind the others
    right
    refine ⟨username, password, user, hfrom, hto, hname, hrows, hthoughts, ?_, haccepted⟩
    simp [hrows]

/-- What a request inserts is counted as its own. -/
theorem insertsOf_advance_ne {G : Gems} {i j : Nat} {env : Env} {req req' : Signup}
    {tables tables' : SignupTables} (h : Signup.advance G i env req tables = some (req', tables'))
    (hj : j ≠ i) : insertsOf j tables'.inserts = insertsOf j tables.inserts := by
  obtain ⟨stage, -, -, rfl | ⟨_, _, user, -, -, -, -, -, hinserts, -⟩⟩ := signupAdvance_cases h
  · rfl
  · rw [hinserts, insertsOf_append]
    simp [insertsOf, hj.symm]

/-! ## Who has inserted what -/

/-- An exception is not answered 201. -/
theorem status_error_ne (e : RubyError) : Outcome.status (.error e) ≠ 201 := by
  have hstatus := (refused_error e).status_ge
  omega

/-- What the request with number `i` has inserted, by its stage. -/
def Signup.Kept (G : Gems) (i : Nat) (tables : SignupTables) (req : Signup) : Prop :=
  match req.stage with
  | .received => insertsOf i tables.inserts = []
  | .required username password =>
    insertsOf i tables.inserts = [] ∧ credentials G req.params = .ok (username, password)
  | .free username password =>
    insertsOf i tables.inserts = [] ∧ credentials G req.params = .ok (username, password) ∧
      hasNullByte username = false
  | .inserted username password user =>
    insertsOf i tables.inserts = [user] ∧ credentials G req.params = .ok (username, password) ∧
      hasNullByte username = false ∧ user.username = username ∧
      ∃ p, password = .str p ∧ G.isPassword user.passwordDigest (user.salt ++ p) = true
  | .authenticated token userId =>
    ∃ user password now, insertsOf i tables.inserts = [user] ∧
      credentials G req.params = .ok (user.username, password) ∧ userId = user.id ∧
      token = some (encode G now user.id)
  | .answered outcome =>
    (∃ user password now, insertsOf i tables.inserts = [user] ∧
      credentials G req.params = .ok (user.username, password) ∧
      outcome = .ok ⟨201, sessionJson (some (encode G now user.id)) user.id⟩) ∨
    (insertsOf i tables.inserts = [] ∧ outcome.status ≠ 201)

/-- What a request has inserted is a matter of its own rows. -/
theorem Signup.Kept.congr {G : Gems} {i : Nat} {tables tables' : SignupTables} {req : Signup}
    (h : req.Kept G i tables) (heq : insertsOf i tables'.inserts = insertsOf i tables.inserts) :
    req.Kept G i tables' := by
  unfold Signup.Kept at h ⊢
  rw [heq]
  exact h

/-- `AuthenticateUser` finds the row that the request has inserted. -/
theorem Signup.Kept.authenticateUser_eq {G : Gems} {i : Nat} {tables : SignupTables} {req : Signup}
    (h : req.Kept G i tables) (hrows : ∀ x ∈ tables.inserts, x.2 ∈ tables.db.users.rows)
    {username : String} {password : Json} {user : UserRow}
    (hstage : req.stage = .inserted username password user) (now : Time) :
    authenticateUser G now username password user.salt tables.db =
      .ok (some (encode G now user.id)) := by
  simp only [Signup.Kept, hstage] at h
  obtain ⟨hown, -, hnull, rfl, p, rfl, hpass⟩ := h
  have hrow : user ∈ insertsOf i tables.inserts := by
    rw [hown]
    exact List.mem_singleton_self _
  have hmem := hrows _ (mem_of_mem_insertsOf hrow)
  rw [authenticateUser_of_mem now hmem hnull p, if_pos hpass]

/-- The own step of a request keeps what is said about it. -/
theorem Signup.Kept.own {G : Gems} {i : Nat} {env : Env} {req req' : Signup}
    {tables tables' : SignupTables} (hrows : ∀ x ∈ tables.inserts, x.2 ∈ tables.db.users.rows)
    (h : req.Kept G i tables) (hadvance : Signup.advance G i env req tables = some (req', tables')) :
    req'.Kept G i tables' := by
  obtain ⟨stage, hstage, rfl, hcases⟩ := signupAdvance_cases hadvance
  rcases hcases with rfl | ⟨username, password, user, hfrom, rfl, hname, -, -, hinserts, haccepted⟩
  · -- the tables stay as they are
    cases hfrom : req.stage with
    | received =>
      simp only [Signup.Kept, hfrom] at h
      simp only [hfrom, Signup.Stage.advance] at hstage
      split at hstage
      · -- a parameter is missing, or no string
        cases hstage
        exact Or.inr ⟨h, status_error_ne _⟩
      · rename_i hcred
        cases hstage
        exact ⟨h, hcred⟩
    | required username password =>
      simp only [Signup.Kept, hfrom] at h
      simp only [hfrom, Signup.Stage.advance] at hstage
      split at hstage
      · cases hstage
        exact Or.inr ⟨h.1, status_error_ne _⟩
      · -- the early return
        cases hstage
        exact Or.inr ⟨h.1, by simp [Outcome.status]⟩
      · -- Postgres has taken the username, so it has no null character
        rename_i hfind
        cases hstage
        refine ⟨h.1, h.2, ?_⟩
        unfold findByUsername at hfind
        split at hfind
        · cases hfind
        · rename_i hnull
          simpa using hnull
    | free username password =>
      simp only [Signup.Kept, hfrom] at h
      simp only [hfrom, Signup.Stage.advance] at hstage
      split at hstage
      · cases hstage
        exact Or.inr ⟨h.1, status_error_ne _⟩
      · -- an insert does not leave the table as it is
        rename_i user db hcreate
        simp only [Option.some.injEq, Prod.mk.injEq] at hstage
        have hrows := (createUser_eq_ok hcreate).2.1
        rw [hstage.2] at hrows
        simp at hrows
    | inserted username password user =>
      -- the token is for the row of this request, whatever the others have inserted
      have hauth := h.authenticateUser_eq hrows hfrom env.now
      simp only [Signup.Kept, hfrom] at h
      obtain ⟨hown, hcred, -, rfl, -⟩ := h
      simp only [hfrom, Signup.Stage.advance, hauth, Option.some.injEq, Prod.mk.injEq] at hstage
      rw [← hstage.1]
      exact ⟨user, password, env.now, hown, hcred, rfl, rfl⟩
    | authenticated token userId =>
      simp only [Signup.Kept, hfrom] at h
      obtain ⟨user, password, now, hown, hcred, rfl, rfl⟩ := h
      simp only [hfrom, Signup.Stage.advance, Option.some.injEq, Prod.mk.injEq] at hstage
      rw [← hstage.1]
      exact Or.inl ⟨user, password, now, hown, hcred, rfl⟩
    | answered outcome =>
      rw [hfrom] at hstage
      cases hstage
  · -- the insert
    simp only [Signup.Kept, hfrom] at h
    -- what the request has inserted is this row
    refine ⟨?_, h.2.1, h.2.2, hname, haccepted⟩
    rw [hinserts, insertsOf_append, h.1, insertsOf_self]
    rfl

/-- The requests that have run on the database `db₀`: the tables are `db₀` and the inserted
    rows, and every request has inserted what its stage says. -/
structure Recorded (G : Gems) (db₀ : Database) (s : Signups) : Prop where
  rows : s.shared.db.users.rows = db₀.users.rows ++ s.shared.inserts.map Prod.snd
  thoughts : s.shared.db.thoughts = db₀.thoughts
  numbered : ∀ x ∈ s.shared.inserts, x.1 < s.procs.length
  kept : s.All (fun i tables req => req.Kept G i tables)

theorem Recorded.mem_rows {G : Gems} {db₀ : Database} {s : Signups} (h : Recorded G db₀ s) :
    ∀ x ∈ s.shared.inserts, x.2 ∈ s.shared.db.users.rows := by
  intro x hx
  rw [h.rows]
  exact List.mem_append_right _ (List.mem_map_of_mem hx)

/-- Every step keeps the record. -/
theorem signups_step {G : Gems} {db₀ : Database} {s s' : Signups} {a : SignupAct}
    (h : Recorded G db₀ s) (hstep : s.step G a = some s') : Recorded G db₀ s' := by
  -- first each request by itself
  have hkept : s'.All fun i tables req => req.Kept G i tables := by
    refine h.kept.step hstep ?_ ?_ ?_
    · -- a request that arrives has a number that no row has
      intro req ha
      have hnone : insertsOf s.procs.length s.shared.inserts = [] := by
        rw [List.eq_nil_iff_forall_not_mem]
        intro user hmem
        have hlt := h.numbered _ (mem_of_mem_insertsOf hmem)
        exact lt_irrefl _ hlt
      obtain ⟨params, -, rfl⟩ := SignupAct.eq_arrive ha
      exact hnone
    · intro i env req req' tables' _ _ hadvance hreq
      exact hreq.own h.mem_rows hadvance
    · -- the others have inserted what they had
      intro i env req req' tables' _ _ hadvance j other hj hother
      exact hother.congr (insertsOf_advance_ne hadvance hj)
  rcases Pool.step_cases hstep with ⟨req, -, rfl⟩ |
    ⟨i, env, req, req', tables', -, hreq, hadvance, rfl⟩
  -- a request arrives, and no row is inserted
  · refine ⟨h.rows, h.thoughts, ?_, hkept⟩
    intro x hx
    have hlt := h.numbered x hx
    rw [List.length_append]
    omega
  · obtain ⟨stage, -, -, rfl | ⟨_, _, user, -, -, -, hrows, hthoughts, hinserts, -⟩⟩ :=
      signupAdvance_cases hadvance
    · exact ⟨h.rows, h.thoughts, fun x hx => by rw [List.length_set]; exact h.numbered x hx, hkept⟩
    -- one row more, recorded under the number of its request
    · refine ⟨?_, hthoughts.trans h.thoughts, ?_, hkept⟩
      · show tables'.db.users.rows = db₀.users.rows ++ tables'.inserts.map Prod.snd
        rw [hrows, hinserts, h.rows, List.map_append, List.append_assoc]
        rfl
      · intro x hx
        rw [List.length_set]
        have hx' : x ∈ s.shared.inserts ++ [(i, user)] := by
          rw [← hinserts]
          exact hx
        cases List.mem_append.mp hx' with
        | inl hx' =>
          exact h.numbered x hx'
        | inr hx' =>
          rw [List.mem_singleton] at hx'
          rw [hx']
          exact (List.getElem?_eq_some_iff.mp hreq).1

theorem recorded_start (G : Gems) (db : Database) : Recorded G db (Signups.start db) := by
  refine ⟨by simp [Signups.start], rfl, ?_, ?_⟩
  · intro x hx
    cases hx
  · intro i req hreq
    cases hreq

theorem recorded_run {G : Gems} {db₀ : Database} {acts : List SignupAct} {s : Signups}
    (hrun : run (Signups.step G) (Signups.start db₀) acts = some s) : Recorded G db₀ s :=
  run_invariant (fun _ _ _ h hstep => signups_step h hstep) (recorded_start G db₀) hrun

/-! ## Signups are atomic -/

/-- A row that a request has inserted has the username of its credentials. -/
theorem Signup.Kept.credentials_eq {G : Gems} {i : Nat} {tables : SignupTables} {req : Signup}
    (h : req.Kept G i tables) {user : UserRow} (huser : user ∈ insertsOf i tables.inserts) :
    ∃ password, credentials G req.params = .ok (user.username, password) := by
  unfold Signup.Kept at h
  split at h
  · -- in the stages before the insert nothing is recorded
    rw [h] at huser
    cases huser
  · rw [h.1] at huser
    cases huser
  · rw [h.1] at huser
    cases huser
  -- from the insert on it is the row of the looked-up name
  · obtain ⟨hown, hcred, -, hname, -⟩ := h
    rw [hown, List.mem_singleton] at huser
    subst huser
    exact ⟨_, by rw [hname]; exact hcred⟩
  · obtain ⟨user', password, now, hown, hcred, -⟩ := h
    rw [hown, List.mem_singleton] at huser
    subst huser
    exact ⟨password, hcred⟩
  · rcases h with ⟨user', password, now, hown, hcred, -⟩ | ⟨hown, -⟩
    · rw [hown, List.mem_singleton] at huser
      subst huser
      exact ⟨password, hcred⟩
    · rw [hown] at huser
      cases huser

/-- Every stored username is downcased. -/
def Database.Downcased (G : Gems) (db : Database) : Prop :=
  ∀ u ∈ db.users.rows, G.downcase u.username = u.username

/-- What is inserted is downcased. -/
theorem Recorded.downcased {G : Gems} (hidem : ∀ s, G.downcase (G.downcase s) = G.downcase s)
    {db₀ : Database} (hdb : db₀.Downcased G) {s : Signups} (h : Recorded G db₀ s) :
    s.shared.db.Downcased G := by
  intro u hu
  rw [h.rows, List.mem_append] at hu
  cases hu with
  | inl hu =>
    exact hdb u hu
  | inr hu =>
    -- an inserted row has the username of its request's credentials
    obtain ⟨⟨i, u'⟩, hmem, rfl⟩ := List.mem_map.mp hu
    have hreq := List.getElem?_eq_getElem (h.numbered _ hmem)
    have hown : u' ∈ insertsOf i s.shared.inserts := by simpa [insertsOf] using hmem
    obtain ⟨password, hcred⟩ := (h.kept i _ hreq).credentials_eq hown
    obtain ⟨⟨name, -, -, hname⟩, -⟩ := credentials_eq_ok hcred
    show G.downcase u'.username = u'.username
    rw [hname, hidem]

/-- The request with number `i` has inserted one row, under its downcased username, and is
    answered with the id of the row and a token that resolves to it until it expires. -/
def Signup.Creates (G : Gems) (i : Nat) (tables : SignupTables) (req : Signup)
    (outcome : Outcome) : Prop :=
  ∃ name user now, param req.params "username" = .str name ∧
    insertsOf i tables.inserts = [user] ∧ user.username = G.downcase name ∧
    outcome = .ok ⟨201, sessionJson (some (encode G now user.id)) user.id⟩ ∧
    ∀ later, Time.toI later < Time.toI (now + hours24) →
      authorizeApiRequest G later (some (encode G now user.id)) tables.db = .ok (some user)

/-- The token of a stored user is resolved until it expires. -/
theorem authorizeApiRequest_encode (G : Gems) {db : Database} {user : UserRow}
    (hmem : user ∈ db.users.rows) {now later : Time}
    (hlater : Time.toI later < Time.toI (now + hours24)) :
    authorizeApiRequest G later (some (encode G now user.id)) db = .ok (some user) := by
  have hdecode : decode G later (encode G now user.id) = some ⟨user.id, (now + hours24).toI⟩ :=
    G.decode_encode hlater
  have hfind : db.findUser user.id = some user := Database.findUser_eq_some.mpr ⟨hmem, rfl⟩
  simp only [authorizeApiRequest, httpAuthHeader_encode, Option.bind_some, hdecode, hfind]

/-- Whatever requests run, in whatever order: usernames are unique and downcased; a request
    that is answered 201 has inserted one row and returned its id and token; a request that
    is answered otherwise has written nothing. -/
theorem signup_atomic {G : Gems} (hidem : ∀ s, G.downcase (G.downcase s) = G.downcase s)
    {db₀ : Database} (hdb : db₀.Downcased G) {acts : List SignupAct} {s : Signups}
    (hrun : run (Signups.step G) (Signups.start db₀) acts = some s) :
    (s.shared.db.users.rows.map UserRow.username).Nodup ∧ s.shared.db.Downcased G ∧
      s.shared.db.users.rows = db₀.users.rows ++ s.shared.inserts.map Prod.snd ∧
      s.shared.db.thoughts = db₀.thoughts ∧
      ∀ i req outcome, s.procs[i]? = some req → req.stage = .answered outcome →
        (outcome.status = 201 → req.Creates G i s.shared outcome) ∧
        (outcome.status ≠ 201 → insertsOf i s.shared.inserts = []) := by
  have hrec := recorded_run hrun
  refine ⟨s.shared.db.usernames_nodup, hrec.downcased hidem hdb, hrec.rows, hrec.thoughts, ?_⟩
  intro i req outcome hreq hstage
  have hkept := hrec.kept i req hreq
  simp only [Signup.Kept, hstage] at hkept
  rcases hkept with ⟨user, password, now, hown, hcred, rfl⟩ | ⟨hown, hne⟩
  · -- answered 201: the row is in the table, and the token names it
    refine ⟨fun _ => ?_, fun hne => absurd rfl hne⟩
    obtain ⟨⟨name, hparam, -, hname⟩, -⟩ := credentials_eq_ok hcred
    have hmem : user ∈ s.shared.db.users.rows := by
      have hrow : user ∈ insertsOf i s.shared.inserts := by
        rw [hown]
        exact List.mem_singleton_self _
      exact hrec.mem_rows _ (mem_of_mem_insertsOf hrow)
    exact ⟨name, user, now, hparam, hown, hname, rfl,
      fun later hlater => authorizeApiRequest_encode G hmem hlater⟩
  -- another status: nothing was inserted
  · exact ⟨fun h => absurd h hne, fun _ => hown⟩

/-- Two requests for one name: both look it up before either inserts. -/
def sameNameSignups : List SignupAct :=
  [.arrive (form "Ann" "secret"), .arrive (form "ann" "hidden"),
   .advance 0 (sampleEnv 0), .advance 1 (sampleEnv 0),
   .advance 0 (sampleEnv 0), .advance 1 (sampleEnv 0),
   .advance 1 (sampleEnv 0), .advance 0 (sampleEnv 0),
   .advance 1 (sampleEnv 0), .advance 1 (sampleEnv 0)]

/-- Of two concurrent signups for one name, one inserts the row and the other nothing. -/
theorem signup_atomic_sameName : ∃ s : Signups,
    run (Signups.step .reference) (Signups.start .empty) sameNameSignups = some s ∧
      s.shared.db.users.rows.length = 1 ∧
      (s.shared.db.users.rows.map UserRow.username).Nodup ∧ s.shared.db.Downcased .reference ∧
      ∀ i req outcome, s.procs[i]? = some req → req.stage = .answered outcome →
        (outcome.status = 201 → req.Creates .reference i s.shared outcome) ∧
        (outcome.status ≠ 201 → insertsOf i s.shared.inserts = []) := by
  -- run the two signups, each lookup before either insert
  obtain ⟨s, hrun, hlength⟩ := exists_run_of_any (Signups.step .reference)
    (Signups.start .empty) sameNameSignups
    (fun s => decide (s.shared.db.users.rows.length = 1)) (by decide +kernel)
  have hempty : Database.empty.Downcased .reference := by
    intro u hu
    cases hu
  obtain ⟨hunique, hdowncased, -, -, hanswers⟩ :=
    signup_atomic (G := .reference) asciiLower_asciiLower hempty hrun
  exact ⟨s, hrun, of_decide_eq_true hlength, hunique, hdowncased, hanswers⟩

end ReactiveDemo.Server
