import ReactiveDemo.Client.Thoughts
import ReactiveDemo.Client.Logout

/-!
# What a client has met

A callback offers thoughts to the Realm: `createThoughtAction` a post with the clock of the
device, the success handler of `fetchThoughtsAction` what it decodes. The Realm keeps the
first thought of every author and text that it meets, and never corrects it.

## Key results

- `values_step`: a step merges what it offers
- `new_values_step`: where a stored Thought comes from
- `recalls_step`: every step keeps the account of the stored Thoughts
-/

namespace ReactiveDemo

/-- The text and the time with which the callback runs `createThoughtAction`. -/
def Event.post? : Event → Option (String × Date)
  | .postThoughtPressed text now => some (text, now)
  | .retryFired retry now => some (retry.text, now)
  | _ => none

/-- What the success handler of a fetch decodes. -/
def Event.heard (e : Event) : List ThoughtValue :=
  (e.elements.mapM Process.decodeElement).getD []

namespace Process

/-- What the callback saves unless `Thought.find` finds it. -/
def offers (p : Process) (e : Event) : List ThoughtValue :=
  match e.post? with
  | none => e.heard
  | some (text, now) => (p.currentUser.map fun user => ⟨user.username, text, now⟩).toList

variable {P : Platform} {p p' : Process} {e : Event}

/-- `createThoughtAction` offers its text under the current user's name. -/
theorem createThoughtAction_values (P : Platform) (text : String) (press : Nat) (now : Date)
    (p : Process) : (p.createThoughtAction P text press now).realm.values =
      mergeNew (ThoughtValue.key P) p.realm.values
        (p.currentUser.map fun user => ⟨user.username, text, now⟩).toList := by
  rcases createThoughtAction_realm P text press now p with ⟨hnone, hrealm⟩ | ⟨user, huser, hrealm⟩
  · rw [hrealm, hnone]
    rfl
  · rw [hrealm, huser, Realm.values_saveIfAbsent]
    rfl

/-- Unless it is a logout, a step merges what it offers into the stored Thoughts. -/
theorem values_step (hlogout : e.isLogout = false) (h : p.step P e = some p') :
    p'.realm.values = mergeNew (ThoughtValue.key P) p.realm.values (p.offers e) := by
  cases e with
  | postThoughtPressed text now =>
    cases h
    exact createThoughtAction_values P text p.history.presses.length now (p.addPress text)
  | retryFired retry now =>
    simp only [step, Option.ite_none_right_eq_some, Option.some.injEq] at h
    rw [← h.2]
    exact createThoughtAction_values P retry.text retry.press now
      { p with retries := p.retries.erase retry }
  | fetchSucceeded call body =>
    obtain ⟨-, -, realm, hmerge, rfl⟩ := step_fetchSucceeded.mp h
    obtain ⟨vs, hvs, rfl⟩ := mergeElements_eq_some.mp hmerge
    have hheard : (Event.fetchSucceeded call body).heard = vs := by
      rw [Event.heard, Event.elements, hvs, Option.getD_some]
    show (p.realm.mergeValues P vs).values = _
    rw [Realm.values_mergeValues, ← hheard]
    rfl
  | logoutSegue => cases hlogout
  | _ =>
    -- no other callback touches the Thoughts
    rcases thoughts_step h with hsame | ⟨he, -⟩ | ⟨user, text, now, -, he | ⟨press, he⟩, -⟩ |
      ⟨call, body, vs, he, -⟩
    · rw [Realm.values, hsame]
      rfl
    all_goals cases he

/-- A Thought that `createThoughtAction` adds is recorded as saved in this session. -/
theorem mem_values_createThoughtAction (P : Platform) (text : String) (press : Nat) (now : Date)
    {p : Process} {v : ThoughtValue}
    (hv : v ∈ (p.createThoughtAction P text press now).realm.values) :
    v ∈ p.realm.values ∨ ∃ user, p.currentUser = some user ∧ v = ⟨user.username, text, now⟩ ∧
      ⟨press, text, p.history.session⟩ ∈
        (p.createThoughtAction P text press now).history.saved := by
  rcases createThoughtAction_cases P text press now p with ⟨-, heq⟩ | ⟨user, huser, heq⟩
  -- nobody is logged in, and nothing is saved
  · rw [heq] at hv
    exact Or.inl hv
  · -- sending the request leaves what was persisted
    rw [heq, send_realm] at hv
    rw [heq]
    show _ ∨ ∃ user, _ ∧ _ ∧ _ ∈ (p.persistThought P _ press).history.saved
    by_cases hnone : (p.realm.findThought P user.username text).isNone = true
    · have hpersist : p.persistThought P ⟨user.username, text, now⟩ press =
          { p with
            realm := p.realm.saveThought ⟨user.username, text, now⟩
            history := { p.history with
              saved := p.history.saved ++ [⟨press, text, p.history.session⟩] } } := if_pos hnone
      rw [hpersist] at hv ⊢
      simp only [Realm.values, Realm.saveThought_rows, List.map_append, List.mem_append] at hv
      cases hv with
      | inl hv =>
        exact Or.inl hv
      | inr hv =>
        right
        refine ⟨user, huser, ?_, List.mem_append_right _ (List.mem_singleton_self _)⟩
        simpa [Thought.value] using hv
    · -- the thought is there already, and nothing is recorded
      -- `Thought.find` found none: it is saved, and recorded with the session
      have hpersist : p.persistThought P ⟨user.username, text, now⟩ press = p := if_neg hnone
      rw [hpersist] at hv
      exact Or.inl hv

/-- A stored Thought was stored before, or the step has decoded it, or it is a post of the
    current user that the step has saved. -/
theorem new_values_step (h : p.step P e = some p') {v : ThoughtValue} (hv : v ∈ p'.realm.values) :
    v ∈ p.realm.values ∨ v ∈ e.heard ∨ ∃ user press, p.currentUser = some user ∧
      v.by_ = user.username ∧ ⟨press, v.text, p.history.session⟩ ∈ p'.history.saved := by
  cases e with
  | postThoughtPressed text now =>
    cases h
    rcases mem_values_createThoughtAction P text p.history.presses.length now hv with hv |
      ⟨user, huser, rfl, hsaved⟩
    · exact Or.inl hv
    · exact Or.inr (Or.inr ⟨user, _, huser, rfl, hsaved⟩)
  | retryFired retry now =>
    simp only [step, Option.ite_none_right_eq_some, Option.some.injEq] at h
    obtain ⟨-, rfl⟩ := h
    rcases mem_values_createThoughtAction P retry.text retry.press now hv with hv |
      ⟨user, huser, rfl, hsaved⟩
    · exact Or.inl hv
    · exact Or.inr (Or.inr ⟨user, _, huser, rfl, hsaved⟩)
  | logoutSegue =>
    cases h
    simp [Realm.values, logoutAction, noteAuthAct, noteSession] at hv
  | _ =>
    -- nothing but what the callback decodes is new
    rw [values_step rfl h] at hv
    exact (mem_of_mem_mergeNew hv).imp_right Or.inl

/-! ## The account of the stored Thoughts -/

/-- Somebody is logged in, and thoughts are saved, in sessions that have begun. -/
structure Saves (p : Process) : Prop where
  begun : ∀ user, p.currentUser = some user → 1 ≤ p.history.session
  saved : ∀ sv ∈ p.history.saved, 1 ≤ sv.session ∧ sv.session ≤ p.history.session

/-- A step keeps the session and its user, or starts a new one. -/
theorem session_cases (h : p.step P e = some p') :
    (p'.history.session = p.history.session ∧ p'.currentUser = p.currentUser) ∨
      p'.history.session = p.history.session + 1 := by
  rcases session_step h with ⟨hsame, heq⟩ | ⟨hnext, -⟩ | ⟨hnext, -⟩
  · exact Or.inl ⟨hsame, currentUser_eq_of_session heq⟩
  · exact Or.inr hnext
  · exact Or.inr hnext

/-- A step saves nothing, or one thought, in the session of the current user. -/
theorem saved_step (h : p.step P e = some p') :
    p'.history.saved = p.history.saved ∨ ∃ user press text, p.currentUser = some user ∧
      p'.history.saved = p.history.saved ++ [⟨press, text, p.history.session⟩] := by
  rcases sends_step h with hunsent | ⟨user, text, press, huser, -, hsent⟩
  · exact Or.inl hunsent.saved
  · exact hsent.saved.imp_right fun heq => ⟨user, press, text, huser, heq⟩

theorem saved_subset_step (h : p.step P e = some p') : p.history.saved ⊆ p'.history.saved := by
  rcases saved_step h with heq | ⟨user, press, text, -, heq⟩
  · rw [heq]
    exact List.Subset.refl _
  · rw [heq]
    exact List.subset_append_left _ _

/-- Every step keeps the saves in sessions that have begun. -/
theorem Saves.step (h : p.Saves) (hstep : p.step P e = some p') : p'.Saves := by
  have hle := session_le_step hstep
  refine ⟨?_, ?_⟩
  · -- somebody is logged in only after a first session has begun
    intro user huser
    rcases session_cases hstep with ⟨hsame, hcurrent⟩ | hnext
    · rw [hsame]
      exact h.begun user (hcurrent ▸ huser)
    · omega
  · -- a save belongs to the session it is made in
    intro sv hsv
    rcases saved_step hstep with heq | ⟨user, press, text, huser, heq⟩
    · rw [heq] at hsv
      have hold := h.saved sv hsv
      omega
    · rw [heq, List.mem_append, List.mem_singleton] at hsv
      rcases hsv with hsv | rfl
      · have hold := h.saved sv hsv
        omega
      · exact ⟨h.begun user huser, hle⟩

/-- The account of the stored Thoughts: `met` is what the Realm has been offered since the
    last logout, `heard` is what was decoded. -/
structure Recalls (P : Platform) (p : Process) (met heard : List ThoughtValue) : Prop where
  values : p.realm.values = mergeNew (ThoughtValue.key P) [] met
  heard_met : heard ⊆ met
  /-- What was not heard was saved, by the current user if in this session. -/
  origin : ∀ v ∈ p.realm.values, v ∈ heard ∨ ∃ sv ∈ p.history.saved, sv.text = v.text ∧
    (sv.session = p.history.session → ∃ user, p.currentUser = some user ∧ v.by_ = user.username)

/-- A step that is no logout keeps the account. -/
theorem recalls_step {met heard : List ThoughtValue} (h : Recalls P p met heard) (hsaves : p.Saves)
    (hlogout : e.isLogout = false) (hstep : p.step P e = some p') :
    Recalls P p' (met ++ p.offers e) (heard ++ e.heard) := by
  refine ⟨?_, ?_, ?_⟩
  -- the values are the ones merged before, with those of this step merged in
  · rw [values_step hlogout hstep, h.values, mergeNew_append]
  -- what is heard is among what is offered to the Realm
  · have hoffers : e.heard ⊆ p.offers e := by
      cases e <;> simp [offers, Event.post?, Event.heard, Event.elements]
    intro v hv
    cases List.mem_append.mp hv with
    | inl hv =>
      exact List.mem_append_left _ (h.heard_met hv)
    | inr hv =>
      exact List.mem_append_right _ (hoffers hv)
  -- each value was heard, or saved for a user who is current as long as the session lasts
  · intro v hv
    rcases new_values_step hstep hv with hv | hv | ⟨user, press, huser, hby, hsaved⟩
    · rcases h.origin v hv with hheard | ⟨sv, hsv, htext, hcurrent⟩
      · exact Or.inl (List.mem_append_left _ hheard)
      · -- a save of this session goes on being one, unless a new session begins
        right
        refine ⟨sv, saved_subset_step hstep hsv, htext, ?_⟩
        intro hsession
        have hpast := (hsaves.saved sv hsv).2
        rcases session_cases hstep with ⟨hsame, hkeep⟩ | hnext
        · rw [hkeep]
          exact hcurrent (hsession.trans hsame)
        · omega
    · exact Or.inl (List.mem_append_right _ hv)
    · -- the step has saved it for the current user
      right
      refine ⟨_, hsaved, rfl, ?_⟩
      intro hsession
      rcases session_cases hstep with ⟨-, hkeep⟩ | hnext
      · exact ⟨user, hkeep.trans huser, hby⟩
      · simp only at hsession
        omega

/-- A logout starts the account anew. -/
theorem recalls_logout (h : p.step P .logoutSegue = some p') : Recalls P p' [] [] := by
  cases h
  have hvalues : p.logoutAction.realm.values = [] := by
    simp [Realm.values, logoutAction, noteAuthAct, noteSession]
  refine ⟨hvalues, List.Subset.refl _, ?_⟩
  rw [hvalues]
  intro v hv
  cases hv

/-- A fresh installation has met nothing. -/
theorem recalls_launch (P : Platform) : Recalls P (launch .new) [] [] := by
  have hvalues : (launch .new).realm.values = [] := by
    rw [(launch_polled .new).realm]
    rfl
  refine ⟨hvalues, List.Subset.refl _, ?_⟩
  rw [hvalues]
  intro v hv
  cases hv

/-- The first launch finds no User, and nothing has been saved. -/
theorem saves_launch : (launch .new).Saves := by
  have hpolled := launch_polled .new
  refine ⟨?_, ?_⟩
  · intro user huser
    have hnone : (launch .new).currentUser = none := by
      rw [currentUser, hpolled.realm, hpolled.state]
      rfl
    rw [hnone] at huser
    cases huser
  · rw [hpolled.history]
    intro sv hsv
    cases hsv

end Process

end ReactiveDemo
