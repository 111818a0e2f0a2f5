import ReactiveDemo.Server.Database

/-!
# The controllers

`app/controllers` and `app/commands`, with `JsonWebToken` and `Thought#api_response_json`.
A controller takes the database and gives an `Outcome` and a database: an exception that
leaves it does not undo what it has already written.
-/

namespace ReactiveDemo.Server

/-- What a request reads besides its parameters and the database: the clock and the
    random numbers. -/
structure Env where
  now : Time
  uuid : Uuid
  bcryptSalt : String

structure Response where
  status : Nat
  body : Json

/-- A rendered response, or the exception that Rails turns into one. -/
abbrev Outcome := Except RubyError Response

abbrev Params := List (String × Json)

def Outcome.status : Outcome → Nat
  | .ok response => response.status
  | .error e => e.status

/-- `{ error: message }`. -/
def errorJson (message : Json) : Json := .obj [("error", message)]

/-- `{ auth_token: token, user_id: id }`. -/
def sessionJson (token : Option String) (userId : Nat) : Json :=
  .obj [("auth_token", (token.map Json.str).getD .null), ("user_id", .num userId)]

/-- Postgres takes no string with a null byte. -/
def hasNullByte (s : String) : Bool := s.toList.any fun c => c.toNat = 0

/-! ## Parameters -/

/-- `params.require(key)`: a present value, or `false`. -/
def require (params : Params) (key : String) : Except RubyError Json :=
  match param params key with
  | .bool false => .ok (.bool false)
  | value => if blank value then .error (.parameterMissing key) else .ok value

/-- `params.require(:username).downcase`. -/
def requireUsername (G : Gems) (params : Params) : Except RubyError String :=
  match require params "username" with
  | .error e => .error e
  | .ok (.str s) => .ok (G.downcase s)
  | .ok _ => .error .noMethodError

/-- The two lines that both actions of `UsersController` begin with. -/
def credentials (G : Gems) (params : Params) : Except RubyError (String × Json) :=
  match requireUsername G params with
  | .error e => .error e
  | .ok username => (require params "password").map fun password => (username, password)

/-- `salt + password`. -/
def concat (salt : String) : Json → Except RubyError String
  | .str password => .ok (salt ++ password)
  | _ => .error .typeError

/-- `User.find_by_username(username)`. -/
def findByUsername (username : String) (db : Database) : Except RubyError (Option UserRow) :=
  if hasNullByte username then .error .argumentError else .ok (db.findByUsername username)

/-! ## Tokens -/

/-- `JsonWebToken.encode(user_id: id)`: the token expires 24 hours from now, as a whole
    number of seconds. -/
def encode (G : Gems) (now : Time) (userId : Nat) : String :=
  G.jwtEncode { userId, exp := (now + hours24).toI }

/-- `JsonWebToken.decode(token)`: JWT takes a token as expired once the whole seconds of
    the clock reach its `exp`. -/
def decode (G : Gems) (now : Time) (token : String) : Option Payload := G.jwtDecode now.toI token

/-- `AuthenticateUser#user`. -/
def authenticatedUser (G : Gems) (username : String) (password : Json) (salt : String)
    (db : Database) : Except RubyError (Option UserRow) :=
  match findByUsername username db with
  | .error e => .error e
  | .ok none => .ok none
  | .ok (some user) =>
    (concat salt password).map fun secret =>
      if G.isPassword user.passwordDigest secret then some user else none

/-- `AuthenticateUser.call(username, password, salt).result`; `none` is the failure with
    the error 'invalid credentials'. -/
def authenticateUser (G : Gems) (now : Time) (username : String) (password : Json) (salt : String)
    (db : Database) : Except RubyError (Option String) :=
  (authenticatedUser G username password salt db).map fun user =>
    user.map fun user => encode G now user.id

/-! ## UsersController -/

/-- `User.create!(username: username, salt: salt, password: salt + password)`. Only the
    length of the password can fail the validations of `has_secure_password` here. The insert
    raises for a username that the unique index has, or that is too long for it. -/
def createUser (G : Gems) (env : Env) (username : String) (password : Json) (db : Database) :
    Except RubyError (UserRow × Database) :=
  let salt := env.uuid.val
  match concat salt password with
  | .error e => .error e
  | .ok secret =>
    if 72 < secret.length then .error .recordInvalid
    else
      let digest := G.bcryptCreate env.bcryptSalt secret
      match db.insertUser username digest salt with
      | none => .error .recordNotUnique
      | some db' =>
        if G.indexable username then .ok (db.newUser username digest salt, db')
        else .error .statementInvalid

/-- `UsersController#create`. -/
def usersCreate (G : Gems) (env : Env) (params : Params) (db : Database) : Outcome × Database :=
  match credentials G params with
  | .error e => (.error e, db)
  | .ok (username, password) =>
    match findByUsername username db with
    | .error e => (.error e, db)
    | .ok (some _) => (.ok ⟨400, errorJson (.str "User already exists")⟩, db)
    | .ok none =>
      match createUser G env username password db with
      | .error e => (.error e, db)
      | .ok (user, db) =>
        -- the row is there from here on, whatever becomes of the token
        match authenticateUser G env.now username password user.salt db with
        | .error e => (.error e, db)
        | .ok token => (.ok ⟨201, sessionJson token user.id⟩, db)

/-- How `authenticate` renders a command that succeeded, or failed. -/
def renderCommand (userId : Nat) : Option String → Response
  | some token => ⟨200, sessionJson (some token) userId⟩
  | none => ⟨401, errorJson (.obj [("user_authentication", .arr [.str "invalid credentials"])])⟩

/-- `UsersController#authenticate`. -/
def usersAuthenticate (G : Gems) (env : Env) (params : Params) (db : Database) : Outcome :=
  match credentials G params with
  | .error e => .error e
  | .ok (username, password) =>
    match findByUsername username db with
    | .error e => .error e
    | .ok none => .ok ⟨401, errorJson (.str "User does not exist")⟩
    | .ok (some user) =>
      (authenticateUser G env.now username password user.salt db).map (renderCommand user.id)

/-! ## ApplicationController -/

/-- `AuthorizeApiRequest#http_auth_header`. -/
def httpAuthHeader (authorization : Option String) : Option String :=
  match authorization with
  | none => none
  | some header => if blankString header then none else lastField header

/-- `AuthorizeApiRequest.call(headers).result`; `User.find` raises for an unknown id. -/
def authorizeApiRequest (G : Gems) (now : Time) (authorization : Option String) (db : Database) :
    Except RubyError (Option UserRow) :=
  match (httpAuthHeader authorization).bind (decode G now) with
  | none => .ok none
  | some payload =>
    match db.findUser payload.userId with
    | none => .error .recordNotFound
    | some user => .ok (some user)

/-- `authenticate_request`, the before-action of every controller but `UsersController`:
    the action runs with the current user, or not at all. -/
def authenticateRequest (G : Gems) (now : Time) (authorization : Option String) (db : Database)
    (action : UserRow → Outcome × Database) : Outcome × Database :=
  match authorizeApiRequest G now authorization db with
  | .error e => (.error e, db)
  | .ok none => (.ok ⟨401, errorJson (.str "Not Authorized")⟩, db)
  | .ok (some currentUser) => action currentUser

/-! ## ThoughtsController -/

/-- What a string column stores for a parameter. -/
def castText (G : Gems) : Json → String
  | .str s => s
  | .bool true => "t"
  | .bool false => "f"
  | value => G.inspect value

/-- The hash of `Thought#api_response_json`, for the thought's user. -/
def thoughtJson (user : UserRow) (t : ThoughtRow) : Json :=
  .obj [("text", .str t.text), ("by", .str user.username), ("timestamp", .num t.createdAt.toI)]

/-- `Thought#api_response_json`: without a user, `user.username` raises. -/
def apiResponseJson (db : Database) (t : ThoughtRow) : Except RubyError Json :=
  match t.userId.bind fun id => db.findUser id with
  | none => .error .noMethodError
  | some user => .ok (thoughtJson user t)

/-- `ThoughtsController#create`. -/
def thoughtsCreate (G : Gems) (env : Env) (params : Params) (db : Database)
    (currentUser : UserRow) : Outcome × Database :=
  match require params "text" with
  | .error e => (.error e, db)
  | .ok value =>
    let text := castText G value
    if hasNullByte text then (.error .argumentError, db)
    else
      (.ok ⟨201, thoughtJson currentUser (db.newThought text (some currentUser.id) env.now)⟩,
        db.insertThought text (some currentUser.id) env.now)

/-- `order(updated_at: :desc)`. -/
def Newer (a b : ThoughtRow) : Prop := b.updatedAt ≤ a.updatedAt

instance : DecidableRel Newer := fun a b => inferInstanceAs (Decidable (b.updatedAt ≤ a.updatedAt))

/-- `search_for(filter).order(updated_at: :desc)`: pg_search orders by rank and id before
    the controller's order is appended. -/
def Ranked (G : Gems) (filter : String) (a b : ThoughtRow) : Prop :=
  G.tsRank filter b.text < G.tsRank filter a.text ∨
    G.tsRank filter a.text = G.tsRank filter b.text ∧ (a.id < b.id ∨ a.id = b.id ∧ Newer a b)

instance (G : Gems) (filter : String) : DecidableRel (Ranked G filter) := fun a b =>
  inferInstanceAs (Decidable (G.tsRank filter b.text < G.tsRank filter a.text ∨
    G.tsRank filter a.text = G.tsRank filter b.text ∧
      (a.id < b.id ∨ a.id = b.id ∧ b.updatedAt ≤ a.updatedAt)))

/-- The thoughts that `index` selects, in order, before they are cut at the limit. -/
def selectThoughts (G : Gems) (filter : Json) (limit : Int) (db : Database) :
    Except RubyError (List ThoughtRow) :=
  let rows := G.scan db.thoughts.rows
  if blank filter then .ok (rows.insertionSort Newer)
  else match filter with
    | .str filter =>
      match G.searchError filter (db.thoughts.rows.map ThoughtRow.text) limit with
      | some e => .error e
      | none =>
        .ok ((rows.filter fun t => G.tsMatch filter t.text).insertionSort (Ranked G filter))
    -- pg_search splits the query into terms
    | _ => .error .noMethodError

/-- `ThoughtsController#index`. -/
def thoughtsIndex (G : Gems) (params : Params) (db : Database) : Outcome :=
  let limit := (tryToI (param params "limit")).getD 10
  match selectThoughts G (param params "filter") limit db with
  | .error e => .error e
  | .ok thoughts =>
    -- a negative limit, and one that is no `bigint`
    if limit < 0 ∨ 2 ^ 63 ≤ limit then .error .statementInvalid
    else ((thoughts.take limit.toNat).mapM (apiResponseJson db)).map fun l => ⟨200, .arr l⟩

/-! ## Routes -/

/-- `config/routes.rb`. A thoughts request carries the `Authorization` header, if any. -/
inductive HttpRequest where
  | usersCreate (params : Params)
  | usersAuthenticate (params : Params)
  | thoughtsCreate (authorization : Option String) (params : Params)
  | thoughtsIndex (authorization : Option String) (params : Params)

/-- One request to the server. -/
def handle (G : Gems) (env : Env) (request : HttpRequest) (db : Database) : Outcome × Database :=
  match request with
  | .usersCreate params => usersCreate G env params db
  | .usersAuthenticate params => (usersAuthenticate G env params db, db)
  | .thoughtsCreate authorization params =>
    authenticateRequest G env.now authorization db (thoughtsCreate G env params db)
  | .thoughtsIndex authorization params =>
    authenticateRequest G env.now authorization db fun _ => (thoughtsIndex G params db, db)

end ReactiveDemo.Server
