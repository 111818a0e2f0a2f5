import ReactiveDemo.Client.Recall
import ReactiveDemo.System.OwnPosts
import ReactiveDemo.System.Conservation
import ReactiveDemo.ForStd.Pool

/-!
# Many clients of one server

Any number of apps run against one database. What the others do is, to one of them, somebody
else's requests: so every run of the fleet is, seen by one member, a run of that app alone
with the server, and what holds in those runs holds of every member.

## Key results

- `Member.step_cases`: what a step does to the account of a member
- `Fleet.member_reachable`: a member of a fleet, on the shared database, is reachable alone
- `Member.accounted_reachable`: what holds of every member
-/

namespace ReactiveDemo

open Transition Server

/-- The callback of the client that a step runs. -/
def World.event (w : World) : Act → Option Event
  | .client e => some e
  | .succeed index =>
    match w.inbox[index]? with
    | some ⟨call, .ok response, _⟩ => some (Event.succeeded call response.body)
    | _ => none
  | .fail call error => some (Event.failed call error)
  | .serve _ _ | .other _ _ => none

/-- A step runs a callback of the client, or touches no more of it than its outbox. -/
theorem World.event_cases {G : Gems} {P : Platform} {w w' : World} {a : Act}
    (h : w.step G P a = some w') :
    (∃ e, w.event a = some e ∧ e.isLogout = a.isLogout ∧ w.client.step P e = some w'.client) ∨
    (w.event a = none ∧ a.isLogout = false ∧ ∃ outbox, w'.client = { w.client with outbox }) := by
  cases a with
  | client e =>
    simp only [step, Option.ite_none_right_eq_some, Option.map_eq_some_iff] at h
    obtain ⟨-, client, hclient, rfl⟩ := h
    exact Or.inl ⟨e, rfl, rfl, hclient⟩
  | serve call env =>
    simp only [step, Option.ite_none_right_eq_some, Option.some.injEq] at h
    obtain ⟨-, rfl⟩ := h
    exact Or.inr ⟨rfl, rfl, _, rfl⟩
  | succeed index =>
    -- the response is looked up by its index, as in the step
    simp only [step] at h
    split at h
    · rename_i call response mark hget
      simp only [Option.ite_none_right_eq_some, Option.map_eq_some_iff] at h
      obtain ⟨-, client, hclient, rfl⟩ := h
      left
      refine ⟨_, ?_, Event.isLogout_succeeded call response.body, hclient⟩
      simp only [event, hget]
    · cases h
  | fail call error =>
    simp only [step, Option.map_eq_some_iff] at h
    obtain ⟨client, hclient, rfl⟩ := h
    exact Or.inl ⟨_, rfl, Event.isLogout_failed call error, hclient⟩
  -- the server, or another client
  | other env request =>
    cases h
    exact Or.inr ⟨rfl, rfl, _, rfl⟩

/-! ## One member -/

/-- One app and the server. -/
structure Member where
  world : World
  /-- History: what was offered to the Realm since the last logout. -/
  met : List ThoughtValue := []
  /-- History: the elements of the fetch responses that were processed since then. -/
  heard : List ThoughtValue := []

namespace Member

/-- A fresh installation. -/
def start (db : Database) : Member := { world := World.start .new db }

/-- The member, on the database `db`. -/
def on (db : Database) (m : Member) : Member := { m with world := { m.world with db } }

/-- One step of the app or of its server. -/
def step (G : Gems) (P : Platform) (m : Member) (a : Act) : Option Member :=
  (m.world.step G P a).map fun world =>
    if a.isLogout then { world }
    else
      { world
        met := m.met ++ ((m.world.event a).map m.world.client.offers).getD []
        heard := m.heard ++ ((m.world.event a).map Event.heard).getD [] }

/-- The triples of the stored Thoughts, newest first. -/
def feed (m : Member) : List ThoughtValue :=
  m.world.client.realm.values.insertionSort fun a b => b.timestamp ≤ a.timestamp

variable {G : Gems} {P : Platform} {m m' : Member} {a : Act}

/-- A step is a step of the system; it adds to the account what its callback meets, or starts
    it anew at a logout, or leaves it. -/
theorem step_cases (h : m.step G P a = some m') : m.world.step G P a = some m'.world ∧
    ((∃ e, m.world.client.step P e = some m'.world.client ∧ e.isLogout = false ∧
        m'.met = m.met ++ m.world.client.offers e ∧ m'.heard = m.heard ++ e.heard) ∨
      (m.world.client.step P .logoutSegue = some m'.world.client ∧ m'.met = [] ∧ m'.heard = []) ∨
      ((∃ outbox, m'.world.client = { m.world.client with outbox }) ∧ m'.met = m.met ∧
        m'.heard = m.heard)) := by
  simp only [step, Option.map_eq_some_iff] at h
  obtain ⟨world, hworld, rfl⟩ := h
  rcases World.event_cases hworld with ⟨e, hevent, hlogout, hclient⟩ | ⟨hevent, hlogout, houtbox⟩
  · by_cases ha : a.isLogout = true
    · -- the one event that is a logout
      have he : e = .logoutSegue := by
        rw [ha] at hlogout
        cases e <;> simp [Event.isLogout] at hlogout ⊢
      rw [if_pos ha]
      exact ⟨hworld, Or.inr (Or.inl ⟨he ▸ hclient, rfl, rfl⟩)⟩
    · rw [if_neg ha]
      refine ⟨hworld, Or.inl ⟨e, hclient, by simpa [hlogout] using ha, ?_, ?_⟩⟩
      · simp only [hevent, Option.map_some, Option.getD_some]
      · simp only [hevent, Option.map_some, Option.getD_some]
  · -- without a callback nothing is met
    rw [hlogout]
    refine ⟨hworld, Or.inr (Or.inr ⟨houtbox, ?_, ?_⟩)⟩
    · simp [hevent]
    · simp [hevent]

/-- The database changes by requests only. -/
theorem db_step (h : m.step G P a = some m') : m'.world.db = m.world.db ∨
    ∃ env request, m'.world.db = (handle G env request m.world.db).2 := by
  rcases World.client_cases (step_cases h).1 with ⟨e, -, -, hdb, -⟩ | ⟨call, env, -, -, hserve⟩ |
    ⟨env, request, -, hother⟩
  · exact Or.inl hdb
  · exact Or.inr ⟨env, call.request.http, by rw [hserve]; rfl⟩
  · exact Or.inr ⟨env, request, by rw [hother]⟩

/-- Somebody else's request moves the member on the next database. -/
theorem step_other (G : Gems) (P : Platform) (m : Member) (env : Env) (request : HttpRequest)
    (db : Database) :
    (m.on db).step G P (.other env request) = some (m.on (handle G env request db).2) := by
  simp [step, on, World.step, World.event, Act.isLogout]

/-! ## What holds of every member -/

/-- The app has been run from a fresh installation. -/
def Init (m : Member) : Prop := ∃ db, m = start db

/-- What holds of tokens, names, posts and stored Thoughts. -/
structure Accounted (G : Gems) (P : Platform) (m : Member) : Prop where
  conserved : World.Conserved G m.world
  named : World.Named G m.world
  recalls : m.world.client.Recalls P m.met m.heard
  saves : m.world.client.Saves

theorem accounted_start (G : Gems) (P : Platform) (db : Database) : Accounted G P (start db) :=
  ⟨World.conserved_init (World.init_new G db), World.named_start G rfl db,
    Process.recalls_launch P, Process.saves_launch⟩

/-- Every step of a member keeps the account of what its Realm holds. -/
theorem accounted_step (hcase : ∀ s, P.lowercased s = G.downcase s) (h : Accounted G P m)
    (hstep : m.step G P a = some m') : Accounted G P m' := by
  obtain ⟨hworld, hcases⟩ := step_cases hstep
  -- what the whole system keeps, and then what this client has met
  have hconserved := World.conserved_step h.conserved hworld
  have hnamed := World.named_step hcase h.named hworld
  rcases hcases with ⟨e, hclient, hlogout, hmet, hheard⟩ | ⟨hclient, hmet, hheard⟩ |
    ⟨⟨outbox, hclient⟩, hmet, hheard⟩
  · -- a callback other than a logout
    refine ⟨hconserved, hnamed, ?_, h.saves.step hclient⟩
    rw [hmet, hheard]
    exact Process.recalls_step h.recalls h.saves hlogout hclient
  · -- a logout, after which nothing is to be recalled
    refine ⟨hconserved, hnamed, ?_, h.saves.step hclient⟩
    rw [hmet, hheard]
    exact Process.recalls_logout hclient
  · -- the server or another client: nothing but the outbox changes here
    refine ⟨hconserved, hnamed, ?_, ?_⟩
    · rw [hmet, hheard, hclient]
      exact ⟨h.recalls.values, h.recalls.heard_met, h.recalls.origin⟩
    · rw [hclient]
      exact ⟨h.saves.begun, h.saves.saved⟩

theorem accounted_reachable (hcase : ∀ s, P.lowercased s = G.downcase s)
    (h : Reachable (step G P) Init m) : Accounted G P m := by
  refine h.invariant ?_ (fun _ _ _ => accounted_step hcase)
  rintro _ ⟨db, rfl⟩
  exact accounted_start G P db

end Member

/-! ## The fleet -/

/-- The step of a member on the shared database. -/
def Member.advance (G : Gems) (P : Platform) (_ : Nat) (a : Act) (m : Member) (db : Database) :
    Option (Member × Database) :=
  ((m.on db).step G P a).map fun m' => (m', m'.world.db)

/-- The apps, and the database that they share. -/
abbrev Fleet := Pool Database Member

/-- The app is installed once more, or a member takes a step. -/
inductive FleetAct where
  | launch
  | act (i : Nat) (a : Act)

def FleetAct.move (db : Database) : FleetAct → Pool.Move Act Member
  | .launch => .arrive (.start db)
  | .act i a => .advance i a

namespace Fleet

variable {G : Gems} {P : Platform} {s s' : Fleet}

/-- No app, and the database `db`. -/
def start (db : Database) : Fleet := ⟨db, []⟩

/-- The members take their steps in any order. -/
def step (G : Gems) (P : Platform) (s : Fleet) (a : FleetAct) : Option Fleet :=
  Pool.step (Member.advance G P) s (a.move s.shared)

/-- Every member is where it gets alone with the server. -/
def AloneReachable (G : Gems) (P : Platform) (s : Fleet) : Prop :=
  s.All fun _ db m => Reachable (Member.step G P) Member.Init (m.on db)

/-- A step of one member is a step of its own, and somebody else's request to the others. -/
theorem aloneReachable_step {a : FleetAct} (h : AloneReachable G P s)
    (hstep : s.step G P a = some s') : AloneReachable G P s' := by
  refine h.step hstep ?_ ?_ ?_
  · -- a new installation starts on the database as it is
    intro m hm
    cases a with
    | launch =>
      cases hm
      exact ⟨_, [], ⟨s.shared, rfl⟩, rfl⟩
    | act i a => cases hm
  · intro i input m m' db' _ _ hadvance hm
    simp only [Member.advance, Option.map_eq_some_iff, Prod.mk.injEq] at hadvance
    obtain ⟨n, hn, rfl, rfl⟩ := hadvance
    -- the member goes on with its own step
    exact hm.tail hn
  · -- the others see the database change, by a request or not at all
    intro i input m m' db' _ _ hadvance j other _ hother
    simp only [Member.advance, Option.map_eq_some_iff, Prod.mk.injEq] at hadvance
    obtain ⟨n, hn, rfl, rfl⟩ := hadvance
    rcases Member.db_step hn with hdb | ⟨env, request, hdb⟩
    · rw [hdb]
      exact hother
    · rw [hdb]
      exact hother.tail (Member.step_other G P other env request s.shared)

/-- In a run of the fleet every member, on the shared database, is reachable by a run of that
    app alone with the server. -/
theorem member_reachable {db : Database} {acts : List FleetAct}
    (hrun : run (step G P) (start db) acts = some s) {i : Nat} {m : Member}
    (hm : s.procs[i]? = some m) :
    Reachable (Member.step G P) Member.Init (m.on s.shared) := by
  have hstart : AloneReachable G P (start db) := by
    intro i m hm
    cases hm
  have hall : AloneReachable G P s :=
    run_invariant (fun _ _ _ h hstep => aloneReachable_step h hstep) hstart hrun
  exact hall i m hm

end Fleet

end ReactiveDemo
