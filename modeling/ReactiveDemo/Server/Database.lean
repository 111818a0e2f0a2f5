import ReactiveDemo.Server.Ruby
import ReactiveDemo.ForStd.KeyedTable

/-!
# The database

The tables of `db/schema.rb` with the constraints Postgres enforces: primary keys, the
unique index on `users.username`, and sequences that never give out an id twice. A
`Database` carries the constraints as fields, so every value of the type meets them.

## Key results

- `findByUsername_eq_some`: the lookup finds the one row with the username
- `insertUser_of_findByUsername`, `insertUser_eq_none`: an insert succeeds iff the name is free
- `insertThought_rows`: what an insert leaves in the tables
-/

namespace ReactiveDemo.Server

/-- A row of the `users` table. -/
structure UserRow where
  id : Nat
  username : String
  passwordDigest : String
  salt : String
deriving DecidableEq, Repr

/-- The two tables and their sequences. -/
structure Database where
  users : KeyedTable UserRow UserRow.id
  thoughts : KeyedTable ThoughtRow ThoughtRow.id
  nextUserId : Nat
  nextThoughtId : Nat
  /-- `index_users_on_username`. -/
  usernames_nodup : (users.rows.map UserRow.username).Nodup
  userIds_lt : ∀ u ∈ users.rows, u.id < nextUserId
  thoughtIds_lt : ∀ t ∈ thoughts.rows, t.id < nextThoughtId
deriving DecidableEq

namespace Database

/-- The database after `db:schema:load`. -/
def empty : Database := ⟨.empty, .empty, 1, 1, by simp, by simp, by simp⟩

/-- `User.find_by_username`. -/
def findByUsername (username : String) (db : Database) : Option UserRow :=
  db.users.rows.find? fun u => u.username = username

/-- `User.find`; `none` is `RecordNotFound`. -/
def findUser (id : Nat) (db : Database) : Option UserRow := db.users.find id

/-- The row the next insert into `users` makes. -/
def newUser (username passwordDigest salt : String) (db : Database) : UserRow :=
  { id := db.nextUserId, username, passwordDigest, salt }

/-- `INSERT INTO users`; `none` when the unique index refuses the row. -/
def insertUser (username passwordDigest salt : String) (db : Database) : Option Database :=
  if h : username ∈ db.users.rows.map UserRow.username then none
  else
    let u := db.newUser username passwordDigest salt
    have hrows : (db.users.upsert u).rows = db.users.rows ++ [u] :=
      KeyedTable.rows_upsert_of_lt db.userIds_lt
    some { db with
      users := db.users.upsert u
      nextUserId := db.nextUserId + 1
      usernames_nodup := by
        rw [hrows, List.map_append, List.nodup_append]
        refine ⟨db.usernames_nodup, List.nodup_singleton _, ?_⟩
        intro a ha b hb hab
        rw [List.map_singleton, List.mem_singleton] at hb
        have hname : a = username := hab.trans hb
        exact h (hname ▸ ha)
      userIds_lt := by
        intro v hv
        rw [hrows, List.mem_append, List.mem_singleton] at hv
        rcases hv with hv | rfl
        · exact Nat.lt_succ_of_lt (db.userIds_lt v hv)
        · exact Nat.lt_succ_self _ }

/-- The row the next insert into `thoughts` makes. -/
def newThought (text : String) (userId : Option Nat) (now : Time) (db : Database) : ThoughtRow :=
  { id := db.nextThoughtId, text, userId, createdAt := now, updatedAt := now }

/-- `INSERT INTO thoughts`. -/
def insertThought (text : String) (userId : Option Nat) (now : Time) (db : Database) : Database :=
  { db with
    thoughts := db.thoughts.upsert (db.newThought text userId now)
    nextThoughtId := db.nextThoughtId + 1
    thoughtIds_lt := by
      intro t ht
      rcases KeyedTable.mem_upsert.mp ht with rfl | ⟨ht, -⟩
      · exact Nat.lt_succ_self _
      · exact Nat.lt_succ_of_lt (db.thoughtIds_lt t ht) }

/-! ## What the operations find and change -/

/-- The lookup by username finds the one row that has it. -/
theorem findByUsername_eq_some {username : String} {db : Database} {u : UserRow} :
    db.findByUsername username = some u ↔ u ∈ db.users.rows ∧ u.username = username :=
  KeyedTable.find?_key_eq_some db.usernames_nodup

theorem findByUsername_eq_none {username : String} {db : Database} :
    db.findByUsername username = none ↔ ∀ u ∈ db.users.rows, u.username ≠ username := by
  simp [findByUsername, List.find?_eq_none]

theorem findUser_eq_some {id : Nat} {db : Database} {u : UserRow} :
    db.findUser id = some u ↔ u ∈ db.users.rows ∧ u.id = id :=
  KeyedTable.find_eq_some

/-- An insert that follows a failed lookup succeeds, and appends the new row. -/
theorem insertUser_of_findByUsername {username : String} {db : Database}
    (h : db.findByUsername username = none) (digest salt : String) :
    ∃ db', db.insertUser username digest salt = some db' ∧
      db'.users.rows = db.users.rows ++ [db.newUser username digest salt] ∧
      db'.thoughts = db.thoughts ∧ db'.nextUserId = db.nextUserId + 1 := by
  have hname : username ∉ db.users.rows.map UserRow.username := by
    rw [findByUsername_eq_none] at h
    intro hmem
    obtain ⟨u, hu, hu'⟩ := List.mem_map.mp hmem
    exact h u hu hu'
  rw [insertUser, dif_neg hname]
  exact ⟨_, rfl, KeyedTable.rows_upsert_of_lt db.userIds_lt, rfl, rfl⟩

/-- The unique index refuses a username that the lookup finds. -/
theorem insertUser_eq_none {username digest salt : String} {db : Database} {u : UserRow}
    (h : db.findByUsername username = some u) : db.insertUser username digest salt = none := by
  obtain ⟨hu, hname⟩ := findByUsername_eq_some.mp h
  rw [insertUser, dif_pos (hname ▸ List.mem_map_of_mem hu)]

@[simp] theorem insertThought_users (text : String) (userId : Option Nat) (now : Time)
    (db : Database) : (db.insertThought text userId now).users = db.users := rfl

/-- An inserted thought goes behind the stored ones. -/
@[simp] theorem insertThought_rows (text : String) (userId : Option Nat) (now : Time)
    (db : Database) : (db.insertThought text userId now).thoughts.rows =
      db.thoughts.rows ++ [db.newThought text userId now] :=
  KeyedTable.rows_upsert_of_lt db.thoughtIds_lt

end Database

end ReactiveDemo.Server
