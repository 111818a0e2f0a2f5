import ReactiveDemo.Json
import ReactiveDemo.ForStd.Ascii
import ReactiveDemo.ForStd.KeyedTable

/-!
# The local database

`User`, `Thought` and the Realm that stores them (`Models/`). Both classes have a
primary key, so a Realm holds them in a `KeyedTable`; `AppModel.save` is `upsert`.

`UUID().uuidString` is modelled by a counter in the Realm: a generated id is the
number of ids generated before it, and the field `fresh` says that no stored
Thought carries an id that is still to come.
-/

namespace ReactiveDemo

/-- Seconds since 1970. -/
abbrev TimeInterval := ℚ

/-- A `Date`, by its `timeIntervalSince1970`. -/
abbrev Date := TimeInterval

/-- What the client uses of Foundation and Realm without defining it. -/
structure Platform where
  /-- Swift's `String.lowercased()`. -/
  lowercased : String → String
  /-- The case folding under which Realm's `==[c]` compares. -/
  foldCase : String → String

/-- A platform whose case mappings are those of the ASCII letters. -/
def Platform.ascii : Platform := { lowercased := asciiLower, foldCase := asciiLower }

structure User where
  id : Int := -1
  jwtToken : String := ""
  username : String := ""
deriving DecidableEq, Repr

structure Thought where
  text : String := ""
  by_ : String := ""
  timestamp : Date
  id : Nat
deriving DecidableEq, Repr

/-- The dictionary a `Thought` is created from: what a feed element or a new post
    says, before the Thought gets its id. -/
structure ThoughtValue where
  by_ : String
  text : String
  timestamp : Date
deriving DecidableEq, Repr

/-- The content of the Realm file, each class in order of first insertion. -/
structure Realm where
  users : KeyedTable User User.id
  thoughts : KeyedTable Thought Thought.id
  /-- The number of UUIDs generated so far. -/
  uuids : Nat
  fresh : ∀ t ∈ thoughts.rows, t.id < uuids
deriving DecidableEq

namespace Realm

/-- A Realm without objects. -/
def new : Realm := ⟨.empty, .empty, 0, by simp⟩

/-- `user.save()`. -/
def saveUser (u : User) (r : Realm) : Realm := { r with users := r.users.upsert u }

/-- `User.find(id)`. -/
def findUser (id : Int) (r : Realm) : Option User := r.users.find id

/-- `Thought(value: v).save()`, which takes a new UUID. -/
def saveThought (v : ThoughtValue) (r : Realm) : Realm :=
  { r with
    thoughts := r.thoughts.upsert
      { text := v.text, by_ := v.by_, timestamp := v.timestamp, id := r.uuids }
    uuids := r.uuids + 1
    fresh := by
      intro t ht
      rcases KeyedTable.mem_upsert.mp ht with rfl | ⟨ht, -⟩
      · exact Nat.lt_succ_self _
      · exact Nat.lt_succ_of_lt (r.fresh t ht) }

/-- `realm.deleteAll()`. -/
def deleteAll (r : Realm) : Realm :=
  { r with users := .empty, thoughts := .empty, fresh := by simp }

variable (P : Platform)

/-- The predicate `text ==[c] %@ AND by ==[c] %@`. -/
def Matches (by_ text : String) (t : Thought) : Prop :=
  P.foldCase t.text = P.foldCase text ∧ P.foldCase t.by_ = P.foldCase by_

instance (by_ text : String) (t : Thought) : Decidable (Matches P by_ text t) :=
  inferInstanceAs (Decidable (_ ∧ _))

/-- `Thought.find(by:text:)`. -/
def findThought (by_ text : String) (r : Realm) : Option Thought :=
  r.thoughts.rows.find? fun t => Matches P by_ text t

/-- `if Thought.find(by:text:) == nil { Thought(value: v).save() }`, the step that both
    `fetchThoughtsAction` and `createThoughtAction` take before they store a Thought. -/
def saveIfAbsent (v : ThoughtValue) (r : Realm) : Realm :=
  if (r.findThought P v.by_ v.text).isNone then r.saveThought v else r

/-! ## What the operations change -/

@[simp] theorem deleteAll_users (r : Realm) : r.deleteAll.users = .empty := rfl
@[simp] theorem deleteAll_thoughts (r : Realm) : r.deleteAll.thoughts = .empty := rfl
@[simp] theorem saveUser_thoughts (u : User) (r : Realm) :
    (r.saveUser u).thoughts = r.thoughts := rfl
@[simp] theorem saveUser_users (u : User) (r : Realm) :
    (r.saveUser u).users = r.users.upsert u := rfl
@[simp] theorem saveThought_users (v : ThoughtValue) (r : Realm) :
    (r.saveThought v).users = r.users := rfl

/-- A saved Thought goes behind the stored ones: its id is new. -/
@[simp] theorem saveThought_rows (v : ThoughtValue) (r : Realm) :
    (r.saveThought v).thoughts.rows = r.thoughts.rows ++
      [{ text := v.text, by_ := v.by_, timestamp := v.timestamp, id := r.uuids }] :=
  KeyedTable.rows_upsert_of_lt r.fresh

@[simp] theorem saveIfAbsent_users (v : ThoughtValue) (r : Realm) :
    (r.saveIfAbsent P v).users = r.users := by
  unfold saveIfAbsent
  split <;> rfl

theorem findThought_isSome {by_ text : String} {r : Realm} :
    (r.findThought P by_ text).isSome ↔ ∃ t ∈ r.thoughts.rows, Matches P by_ text t := by
  simp [findThought, List.find?_isSome]

/-- `saveIfAbsent` keeps every stored Thought. -/
theorem rows_subset_saveIfAbsent (v : ThoughtValue) (r : Realm) :
    r.thoughts.rows ⊆ (r.saveIfAbsent P v).thoughts.rows := by
  unfold saveIfAbsent
  split
  · simp
  · exact List.Subset.refl _

end Realm

end ReactiveDemo
