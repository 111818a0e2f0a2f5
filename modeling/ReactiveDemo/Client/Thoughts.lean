import ReactiveDemo.Client.Presses
import ReactiveDemo.ForStd.Run

/-!
# What a step does to the stored Thoughts

Thoughts are written by two loops and cleared by one thunk: `createThoughtAction` stores the
post, the success handler of `fetchThoughtsAction` stores its elements, and `logoutAction`
deletes everything. Both writers ask `Thought.find` first, so the database, whose primary
key is a fresh UUID, never gets two Thoughts that `Thought.find` cannot tell apart.

## Key results

- `thoughts_step`: the four things a step can do to the stored Thoughts
- `rows_subset_step`: between logouts the Realm only grows
- `thoughts_distinct`: no run stores two Thoughts with one text and author
-/

namespace ReactiveDemo

open Transition

def Event.isLogout : Event → Bool
  | .logoutSegue => true
  | _ => false

/-- The event runs `createThoughtAction` for this text, at this time. -/
def Event.Posts (text : String) (now : Date) (e : Event) : Prop :=
  e = .postThoughtPressed text now ∨ ∃ press, e = .retryFired ⟨press, text⟩ now

namespace Process

variable {P : Platform} {p p' : Process} {e : Event}

/-- Persisting a thought is one round of the loop that merges a feed. -/
theorem persistThought_realm (P : Platform) (v : ThoughtValue) (press : Nat) (p : Process) :
    (p.persistThought P v press).realm = p.realm.saveIfAbsent P v := by
  unfold persistThought Realm.saveIfAbsent
  split <;> rfl

/-- `createThoughtAction` stores its text for the current user, or nothing. -/
theorem createThoughtAction_realm (P : Platform) (text : String) (press : Nat) (now : Date)
    (p : Process) :
    (p.currentUser = none ∧ (p.createThoughtAction P text press now).realm = p.realm) ∨
    ∃ user, p.currentUser = some user ∧ (p.createThoughtAction P text press now).realm =
      p.realm.saveIfAbsent P ⟨user.username, text, now⟩ := by
  rcases createThoughtAction_cases P text press now p with ⟨hnone, heq⟩ | ⟨user, huser, heq⟩
  · rw [heq]
    exact Or.inl ⟨hnone, rfl⟩
  · rw [heq, send_realm, persistThought_realm]
    exact Or.inr ⟨user, huser, rfl⟩

/-- A step keeps the stored Thoughts, deletes them all, stores a post of the current user, or
    merges the elements of a feed. -/
theorem thoughts_step (h : p.step P e = some p') :
    p'.realm.thoughts = p.realm.thoughts ∨
    (e = .logoutSegue ∧ p'.realm.thoughts = .empty) ∨
    (∃ user text now, p.currentUser = some user ∧ e.Posts text now ∧
      p'.realm = p.realm.saveIfAbsent P ⟨user.username, text, now⟩) ∨
    (∃ call body vs, e = .fetchSucceeded call body ∧ call ∈ p.pending ∧
      body.jsonArray.mapM decodeElement = some vs ∧ p'.realm = p.realm.mergeValues P vs) := by
  cases e with
  | loginPressed username password =>
    cases h
    left
    simp [loginAction, noteAuthAct]
  | registerPressed username password =>
    cases h
    left
    simp [createUserAction, noteAuthAct]
  -- `deleteAll` is among the effects of a logout
  | logoutSegue =>
    cases h
    right; left
    simp [logoutAction, noteAuthAct, noteSession]
  | postThoughtPressed text now =>
    -- a press counts before its action runs
    cases h
    rcases createThoughtAction_realm P text p.history.presses.length now (p.addPress text) with
      ⟨-, hrealm⟩ | ⟨user, huser, hrealm⟩
    · left
      rw [postThoughtPressed_eq, hrealm]
      rfl
    · exact Or.inr (Or.inr (Or.inl ⟨user, text, now, huser, Or.inl rfl, hrealm⟩))
  | authSucceeded call body =>
    -- a success stores a User, and no Thought
    obtain ⟨-, username, -, rfl⟩ := step_authSucceeded.mp h
    left
    unfold authSuccess
    split
    · simp
    · split
      · simp
      · simp [noteSession]
  | authFailed call error =>
    obtain ⟨-, -, rfl⟩ := step_authFailed.mp h
    left
    simp [authFailure]
  -- the merge adds what the Realm does not have
  | fetchSucceeded call body =>
    obtain ⟨hmem, -, realm, hmerge, rfl⟩ := step_fetchSucceeded.mp h
    obtain ⟨vs, hvs, rfl⟩ := mergeElements_eq_some.mp hmerge
    exact Or.inr (Or.inr (Or.inr ⟨call, body, vs, rfl, hmem, hvs, rfl⟩))
  -- a retry saves for whoever is current when it fires
  | retryFired retry now =>
    simp only [step, Option.ite_none_right_eq_some, Option.some.injEq] at h
    obtain ⟨-, rfl⟩ := h
    rcases createThoughtAction_realm P retry.text retry.press now
      { p with retries := p.retries.erase retry } with ⟨-, hrealm⟩ | ⟨user, huser, hrealm⟩
    · left
      rw [hrealm]
    · exact Or.inr (Or.inr (Or.inl
        ⟨user, retry.text, now, huser, Or.inr ⟨retry.press, rfl⟩, hrealm⟩))
  | notified change =>
    -- the observer reads the Realm only
    left
    rcases observe_cases h with ⟨results, -, -, -, rfl⟩ |
      ⟨old, results, d, i, m, -, -, -, -, rfl⟩ | ⟨error, -, -, rfl⟩
    · simp
    · split <;> simp
    · simp
  -- the rest is idle
  | _ =>
    left
    rw [(idle_step rfl h).realm]

/-- Only a logout removes Thoughts. -/
theorem rows_subset_step (hlogout : e.isLogout = false) (h : p.step P e = some p') :
    p.realm.thoughts.rows ⊆ p'.realm.thoughts.rows := by
  rcases thoughts_step h with hsame | ⟨rfl, -⟩ | ⟨user, text, now, -, -, hrealm⟩ |
    ⟨call, body, vs, -, -, -, hrealm⟩
  · rw [hsame]
    exact List.Subset.refl _
  · cases hlogout
  · rw [hrealm]
    exact Realm.rows_subset_saveIfAbsent P _ _
  · rw [hrealm]
    exact Realm.rows_subset_mergeValues P vs _

/-! ## No duplicates -/

/-- No two stored Thoughts have the same text and author, as `Thought.find` compares them,
    and no two have the same id. -/
def ThoughtsDistinct (P : Platform) (p : Process) : Prop :=
  p.realm.thoughts.rows.Pairwise fun s t => ¬ Realm.Matches P s.by_ s.text t ∧ s.id ≠ t.id

/-- A Realm whose stored keys are distinct holds no Thought twice: the ids are a primary key. -/
theorem thoughtsDistinct_of_nodup (h : (p.realm.values.map (ThoughtValue.key P)).Nodup) :
    p.ThoughtsDistinct P := by
  have hids : p.realm.thoughts.rows.Pairwise fun s t => s.id ≠ t.id :=
    List.pairwise_map.mp p.realm.thoughts.nodup
  have hkeys : p.realm.thoughts.rows.Pairwise fun s t => ¬ Realm.Matches P s.by_ s.text t := by
    -- two Thoughts match when their keys are equal
    rw [Realm.values, List.map_map, List.Nodup, List.pairwise_map] at h
    refine h.imp ?_
    intro s t hne hmatch
    exact hne ((Realm.matches_iff P (v := s.value)).mp hmatch).symm
  exact hkeys.and hids

/-- Every step keeps the stored keys distinct. -/
theorem nodup_keys_step (hkeys : (p.realm.values.map (ThoughtValue.key P)).Nodup)
    (h : p.step P e = some p') : (p'.realm.values.map (ThoughtValue.key P)).Nodup := by
  rcases thoughts_step h with hsame | ⟨-, hempty⟩ | ⟨user, text, now, -, -, hrealm⟩ |
    ⟨call, body, vs, -, -, -, hrealm⟩
  · rw [Realm.values, hsame]
    exact hkeys
  · rw [Realm.values, hempty]
    exact List.nodup_nil
  · rw [hrealm, Realm.values_saveIfAbsent]
    exact nodup_map_insertNew hkeys _
  · rw [hrealm, Realm.values_mergeValues]
    exact nodup_map_mergeNew hkeys vs

/-- From a Realm without Thoughts, no run stores two Thoughts with one text and author, or
    with one id. -/
theorem thoughts_distinct (P : Platform) {r : Realm} (hempty : r.thoughts.rows = [])
    (es : List Event) : Always (step P) (ThoughtsDistinct P) (launch r) es := by
  intro pre p _ hrun
  apply thoughtsDistinct_of_nodup
  refine run_invariant (I := fun p => (p.realm.values.map (ThoughtValue.key P)).Nodup)
    (fun _ _ _ hkeys h => nodup_keys_step hkeys h) ?_ hrun
  rw [(launch_polled r).realm, Realm.values, hempty]
  exact List.nodup_nil

/-- A feed that holds an element twice, and spells another one in two ways. -/
def repeatedFeed : List Event :=
  [.loginPressed "ann" "secret",
   .authSucceeded ⟨0, .login "ann" "secret", 1⟩
    (.obj [("auth_token", .str "token"), ("user_id", .num 1)]),
   .postThoughtPressed "hi" 7,
   .fetchSucceeded ⟨1, .fetchThoughts "token", 0⟩ (.arr
    [.obj [("text", .str "hi"), ("by", .str "ann"), ("timestamp", .num 5)],
     .obj [("text", .str "Hello"), ("by", .str "bob"), ("timestamp", .num 4)],
     .obj [("text", .str "hello"), ("by", .str "bob"), ("timestamp", .num 3)],
     .obj [("text", .str "hi"), ("by", .str "ann"), ("timestamp", .num 5)]])]

/-- The post and one spelling are stored. -/
theorem thoughts_distinct_repeatedFeed :
    Always (step .ascii) (ThoughtsDistinct .ascii) (launch .new) repeatedFeed ∧
      ((run (step .ascii) (launch .new) repeatedFeed).map fun p => p.realm.values.map (·.text)) =
        some ["hi", "Hello"] :=
  ⟨thoughts_distinct .ascii rfl repeatedFeed, by decide +kernel⟩

end Process

end ReactiveDemo
