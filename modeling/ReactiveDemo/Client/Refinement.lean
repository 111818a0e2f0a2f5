import ReactiveDemo.Client.AppStore

/-!
# The app refines the process

`Process.step` is what the app's callbacks do on its ReSwift store, callback by callback.
So whatever holds of every run of `Process` holds of the app with its store, its login
screen and its nested dispatches.

## Key results

- `step_process`: one callback of the app is one step of the process
- `execute_eq_step`: a larger bound on how deep callbacks nest changes nothing
- `runFrom_process`: the runs of the app are the runs of the process, with the appearances
  of the login screen left out
-/

namespace ReactiveDemo

open ReSwift Transition

/-- An action that changes nothing is a dispatch without effect. -/
theorem Process.dispatch_of_reduce_eq {action : Action} {p : Process}
    (h : mainReducer action (some p.state) = p.state) : p.dispatch action = p := by
  have hreduce : p.reduce action = p := congrArg (fun state => { p with state }) h
  -- neither subscription forwards a repeat
  have hsync : p.notifySync p.state = p := if_pos (AppState.beq_equivalence.refl p.state)
  have hscreen : p.notifyScreen p.state = p := by
    refine if_neg ?_
    simp
  rw [Process.dispatch, hreduce, hsync, hscreen]

namespace App

variable {g : Code → App → Option App}

/-- The code, run on the app, amounts to `q`. -/
def Sim (g : Code → App → Option App) (code : Code) (s : App) (q : Option Process) : Prop :=
  Option.Rel (fun (t : App) p => Sound t ∧ t.process = p) (code.run program (callback g) s) q

/-- The app with another process. -/
def edit (f : Process → Process) (s : App) : App :=
  { s with env := { s.env with process := f s.env.process } }

/-- Saving a Thought touches the Realm and the history only, so it does not matter whether the
    screen is looked up before or after. -/
theorem process_persistThought (P : Platform) (v : ThoughtValue) (press : Nat) (s : App) :
    (edit (Process.persistThought P v press) s).process = s.process.persistThought P v press := by
  by_cases hnew : (s.env.process.realm.findThought P v.by_ v.text).isNone = true
  -- `Thought.find` reads the Realm, which the device and its process share
  · have hold : s.env.process.persistThought P v press = _ := if_pos hnew
    have hnew : s.process.persistThought P v press = _ := if_pos hnew
    rw [hnew]
    simp only [App.process, edit, hold]
    rfl
  -- found already: nothing is saved
  · have hold : s.env.process.persistThought P v press = _ := if_neg hnew
    have hnew : s.process.persistThought P v press = _ := if_neg hnew
    rw [hnew]
    simp only [App.process, edit, hold]

section Rules

variable {s : App} {k : Code} {q : Option Process}

theorem Sim.done (hs : Sound s) : Sim g .done s (some s.process) := .some ⟨hs, rfl⟩

theorem Sim.stop : Sim g .stop s none := .none

theorem Sim.getState {k : AppState → Device → Code} (h : Sim g (k s.state s.env) s q) :
    Sim g (.getState k) s q := h

/-- A change of the device keeps the store sound. -/
theorem Sim.perform {f : Device → Device} (hs : Sound s)
    (hf : (f s.env).controllers = s.env.controllers)
    (hauth : ∀ state, s.env.auth.Shows state → (f s.env).auth.Shows state)
    (h : Sound { s with env := f s.env } → Sim g k { s with env := f s.env } q) :
    Sim g (.perform f k) s q :=
  h ((Quiet.perform s hf hauth).sound hs)

/-- A change of the process alone is one that neither the login screen nor the count of
    controllers sees. -/
theorem Sim.update {f : Process → Process} (hs : Sound s)
    (h : Sound (edit f s) → Sim g k (edit f s) q) : Sim g (App.update f k) s q :=
  Sim.perform hs rfl (fun _ h => h) h

/-- A dispatch on the store, with all that it makes the subscribers do, is the dispatch of the
    process; the rest of the code finds a sound store. -/
theorem Sim.dispatch {action : Action} (hs : Sound s)
    (h : ∀ t : App, Sound t → t.process = s.process.dispatch action → Sim g k t q) :
    Sim g (.dispatch action k) s q := by
  obtain ⟨t, ht, hsound, hp⟩ := dispatch_process (g := g) hs action
  have hrun : (Script.dispatch action k).run program (callback g) s =
      k.run program (callback g) t := by
    rw [Script.run, ht]
    rfl
  rw [Sim, hrun]
  exact h t hsound hp

/-- No reducer keeps a request action: dispatching one leaves the process as it is. -/
theorem Sim.dispatch_same {action : Action} (hs : Sound s)
    (haction : mainReducer action (some s.state) = s.state)
    (h : ∀ t : App, Sound t → t.process = s.process → Sim g k t q) :
    Sim g (.dispatch action k) s q :=
  .dispatch hs fun t ht hp => h t ht (hp.trans (Process.dispatch_of_reduce_eq haction))

/-- A thunk at the end of the code. -/
theorem Sim.thunk (h : Sim g k s q) : Sim g (.thunk k .done) s q := by
  rw [Sim, Script.run, Store.dispatch_thunk]
  -- a Thunk is not reduced, so all that it does is what its body does
  cases hrun : k.run program (callback g) s with
  | none =>
    rw [Sim, hrun] at h
    exact h
  | some t =>
    rw [Sim, hrun] at h
    exact h

end Rules

/-! ## The thunks -/

section Thunks

variable {s : App} (hs : Sound s)

include hs

/-- The token is read from the state after `FetchThoughts` was reduced, which is the state
    before. -/
theorem sim_fetchThoughtsAction :
    Sim g fetchThoughtsAction s (some s.process.fetchThoughtsAction) := by
  refine .dispatch_same hs rfl fun t ht hp => .getState ?_
  rw [← hp, Process.fetchThoughtsAction_eq]
  cases htoken : t.process.jwtToken with
  | none =>
    have htoken' : t.state.authState.jwtToken t.env.process.realm = none := htoken
    simp only [htoken']
    -- nobody is logged in: the failure is dispatched, and nothing is sent
    exact .dispatch_same ht rfl fun u hu hpu => hpu ▸ .done hu
  | some token =>
    have htoken' : t.state.authState.jwtToken t.env.process.realm = some token := htoken
    simp only [htoken']
    -- the request is sent with the token of the session
    exact .update ht fun ht' => .done ht'

theorem sim_logoutAction : Sim g logoutAction s (some s.process.logoutAction) :=
  .update hs fun hs' => .dispatch hs' fun t ht hp => by
    have hq : s.process.logoutAction = t.process := hp.symm
    rw [hq]
    exact .done ht

/-- `createUserAction` and `loginAction` differ in the request they send after `.loading` was
    dispatched. The request notes how many such acts there were, its own included. -/
theorem sim_startAuth (request : Request) : Sim g (startAuth request) s
    (some ((s.process.noteAuthAct.dispatch (.authProgress .loading)).send request
      (s.process.noteAuthAct.dispatch (.authProgress .loading)).history.authActs)) := by
  refine .update hs fun hs' => .dispatch hs' fun t ht hp => .getState ?_
  have hq : s.process.noteAuthAct.dispatch (.authProgress .loading) = t.process := hp.symm
  rw [hq]
  -- the request goes out from the state that the dispatch has led to
  exact .update ht fun ht' => .done ht'

/-- A Post that no request goes out for ends with an error of `FetchThoughts`. -/
theorem sim_dropPress (press : Nat) :
    Sim g (dropPress press) s (some (s.process.dropPress press)) := by
  refine .dispatch_same hs rfl fun t ht hp => .update ht fun ht' => ?_
  rw [← hp]
  exact .done ht'

/-- A Post reads the session after it has dispatched its request action. Token and user are
    both needed before anything is saved or sent. -/
theorem sim_createThoughtAction (P : Platform) (text : String) (press : Nat) (now : Date) :
    Sim g (createThoughtAction P text press now) s
      (some (s.process.createThoughtAction P text press now)) := by
  refine .dispatch_same hs rfl fun t ht hp => .getState ?_
  rw [← hp, Process.createThoughtAction, Process.reduce_createThought]
  cases htoken : t.process.jwtToken with
  | none =>
    have htoken' : t.state.authState.jwtToken t.env.process.realm = none := htoken
    simp only [htoken']
    -- no token: the `guard` fails
    exact sim_dropPress ht press
  | some token =>
    have htoken' : t.state.authState.jwtToken t.env.process.realm = some token := htoken
    simp only [htoken']
    cases huser : t.process.currentUser with
    | none =>
      have huser' : t.state.authState.currentUser t.env.process.realm = none := huser
      simp only [huser']
      -- a token without a user in the Realm: the `guard` fails as well
      exact sim_dropPress ht press
    | some user =>
      have huser' : t.state.authState.currentUser t.env.process.realm = some user := huser
      simp only [huser']
      -- the Thought is saved first, then the request is sent
      refine .update ht fun ht₁ => .update ht₁ fun ht₂ => ?_
      have hdone := Sim.done (g := g) ht₂
      have hq : (edit (Process.persistThought P ⟨user.username, text, now⟩ press) t).process =
          t.process.persistThought P ⟨user.username, text, now⟩ press :=
        process_persistThought P _ press t
      rw [← hq]
      exact hdone

theorem sim_postThoughtPressed (P : Platform) (text : String) (now : Date) :
    Sim g (postThoughtPressed P text now) s
      (some (s.process.postThoughtPressed P text now)) := by
  refine .getState (.update hs fun hs' => .thunk ?_)
  exact sim_createThoughtAction hs' P text s.process.history.presses.length now

end Thunks

/-! ## The callbacks of requests -/

section Requests

variable {s : App} (hs : Sound s)

include hs

/-- The three endings of `authSuccess`: no token, no id, or a User that is saved before the
    session begins. -/
theorem sim_authSuccess (P : Platform) (json : List (String × Json)) (username : String) :
    Sim g (authSuccess P json username) s (some (s.process.authSuccess P json username)) := by
  rw [authSuccess, Process.authSuccess]
  cases Json.stringField json "auth_token" with
  | none => exact .dispatch hs fun t ht hp => hp ▸ .done ht
  | some token =>
    cases Json.intField json "user_id" with
    | none => exact .dispatch hs fun t ht hp => hp ▸ .done ht
    | some id =>
      -- `save` comes before the dispatch, so that the sync service finds the User's token
      refine .update hs fun hs' => .dispatch hs' fun t ht hp => ?_
      have hdone := Sim.done (g := g) ht
      rw [hp] at hdone
      exact hdone

theorem sim_authFailure (error : RequestError) :
    Sim g (authFailure error) s (some (s.process.authFailure error)) := by
  refine .dispatch hs fun t ht hp => ?_
  have hdone := Sim.done (g := g) ht
  rw [hp] at hdone
  exact hdone

theorem sim_createSuccess (press : Nat) :
    Sim g (createSuccess press) s (some (s.process.createSuccess press)) := by
  refine .dispatch_same hs rfl fun t ht hp => .update ht fun ht' => ?_
  rw [← hp]
  exact .done ht'

/-- The retry is scheduled, and the failure dispatched, which changes no state. -/
theorem sim_createFailure (press : Nat) (text : String) (error : RequestError) :
    Sim g (createFailure press text error) s
      (some (s.process.createFailure press text error)) := by
  refine .update hs fun hs' => .dispatch_same hs' rfl fun t ht hp => ?_
  have hdone := Sim.done (g := g) ht
  rw [hp] at hdone
  exact hdone

/-- A response that does not cast traps before anything is dispatched, on the app as in the
    process. -/
theorem sim_fetchSuccess (P : Platform) (body : Json) :
    Sim g (fetchSuccess P body) s (s.process.fetchSuccess P body) := by
  refine .getState ?_
  rw [Process.fetchSuccess]
  have hrealm : s.process.realm = s.env.process.realm := rfl
  rw [hrealm]
  cases Process.mergeElements P body.jsonArray s.env.process.realm with
  | none => exact .stop
  | some realm =>
    -- merged: the Realm is replaced, and the success dispatched
    refine .update hs fun hs' => .dispatch_same hs' rfl fun t ht hp => ?_
    have hdone := Sim.done (g := g) ht
    rw [hp] at hdone
    exact hdone

theorem sim_fetchFailure (error : RequestError) :
    Sim g (fetchFailure error) s (some (s.process.fetchFailure error)) :=
  .dispatch_same hs rfl fun t ht hp => by
    rw [Process.fetchFailure, Process.reduce_fetchThoughts, ← hp]
    exact .done ht

/-- A request reports once: its callback runs on the app without the request. -/
theorem Sim.complete {c : Call} {k : Request → Code} {q : Process → Option Process}
    (h : ∀ t : App, Sound t → Sim g (k c.request) t (q t.process)) :
    Sim g (App.complete c k) s
      (if c ∈ s.process.pending then q (s.process.complete c) else none) := by
  refine .getState ?_
  have hpending : s.process.pending = s.env.process.pending := rfl
  rw [hpending]
  split
  · exact .update hs fun hs' => h _ hs'
  · exact .stop

end Requests

/-! ## The observer -/

/-- The observer has moved on, and its report is dispatched. -/
theorem sim_report {s : App} (hs : Sound s) (o : Observer) (payload : LoadedThoughtsPayload) :
    Sim g (update (Process.setObserver o) (.dispatch (.loadedThoughts payload) .done)) s
      (some ((s.process.setObserver o).dispatch (.loadedThoughts payload))) := by
  refine .update hs fun hs' => .dispatch hs' fun t ht hp => ?_
  have hdone := Sim.done (g := g) ht
  rw [hp] at hdone
  exact hdone

/-- What the notification block does with a change depends on where the observer is. A change
    that does not fit there is none that Realm reports, and neither side has a step. -/
theorem sim_observe {s : App} (hs : Sound s) (change : Change) :
    Sim g (observe change) s (s.process.observe change) := by
  have hobserver : s.process.screen.observer = s.env.process.screen.observer := rfl
  refine .getState ?_
  cases change with
  | initial results =>
    cases ho : s.env.process.screen.observer with
    | waiting =>
      -- the first results
      simp only [Process.observe, hobserver, ho]
      split
      · rw [if_pos ‹_›]
        exact sim_report hs (.observing results) (.initial results)
      · rw [if_neg ‹_›]
        exact .stop
    | stopped | observing old =>
      simp only [Process.observe, hobserver, ho]
      -- an `.initial` comes once, to a new observer
      exact .stop
  | update results deletions insertions modifications =>
    cases ho : s.env.process.screen.observer with
    | observing old =>
      simp only [Process.observe, hobserver, ho]
      by_cases hvalid : s.env.process.Reports results ∧
          Screen.ValidDiff old results deletions insertions modifications
      · have hvalid' : s.process.Reports results ∧
            Screen.ValidDiff old results deletions insertions modifications := hvalid
        rw [if_pos hvalid, if_pos hvalid']
        -- an `.update` is dispatched only while somebody is logged in; the observer moves on
        -- either way
        by_cases hin : s.state.authState.loggedIn s.env.process.realm = true
        · have hin' : (s.process.setObserver (.observing results)).loggedIn = true := hin
          rw [if_pos hin, if_pos hin']
          exact sim_report hs (.observing results)
            (.update results deletions insertions modifications)
        · have hin' : ¬(s.process.setObserver (.observing results)).loggedIn = true := hin
          rw [if_neg hin, if_neg hin']
          exact .update hs fun hs' => .done hs'
      · have hvalid' : ¬(s.process.Reports results ∧
            Screen.ValidDiff old results deletions insertions modifications) := hvalid
        rw [if_neg hvalid, if_neg hvalid']
        exact .stop
    | stopped | waiting =>
      simp only [Process.observe, hobserver, ho]
      exact .stop
  | error msg =>
    cases ho : s.env.process.screen.observer with
    -- a stopped token is told of no error
    | stopped =>
      simp only [Process.observe, hobserver, ho]
      exact .stop
    | waiting | observing old =>
      simp only [Process.observe, hobserver, ho]
      exact sim_report hs .stopped (.error msg)

/-! ## Subscribing -/

/-- Whoever unsubscribes is the only one to go. The list has no duplicates, so erasing one
    entry erases all. -/
theorem mem_live_unsubscribe {s : App} (hs : Sound s) {i j : Subscriber} :
    j ∈ Store.live (s.unsubscribe i) ↔ j ∈ s.live ∧ j ≠ i := by
  simp only [Store.live, Store.unsubscribe, List.mem_filter, hs.nodup.mem_erase_iff]
  tauto

/-- A screen that goes leaves the sync service in front. -/
theorem Sound.unsubscribe {s : App} (hs : Sound s) {i : Subscriber} (hi : i ≠ .sync) :
    Sound (s.unsubscribe i) where
  nodup := hs.nodup.erase i
  first := by
    obtain ⟨screens, hlive⟩ := hs.first
    -- who is still there is in the order of before
    have herase : Store.live (s.unsubscribe i) = s.live.filter (· ≠ i) := by
      simp only [Store.live, Store.unsubscribe, hs.nodup.erase_eq_filter, List.filter_filter]
      refine List.filter_congr fun j _ => ?_
      by_cases hj : j = i <;> simp [hj]
    refine ⟨screens.filter (· ≠ i), ?_⟩
    rw [herase, hlive, List.filter_cons_of_pos (by simpa using hi.symm)]
  latest n hn := hs.latest n ((mem_live_unsubscribe hs).mp hn).1
  loaded n hn := hs.loaded n (List.mem_of_mem_erase hn)
  released := hs.released
  auth := hs.auth

/-- Subscribing again moves a subscriber to the end, and adds nobody else. -/
theorem mem_live_addSubscription {s : App} (hs : Sound s) {i j : Subscriber}
    (hi : i ∉ s.released) : j ∈ Store.live (s.addSubscription i) ↔ j ∈ s.live ∨ j = i := by
  rw [Store.live_addSubscription hi, List.mem_append, mem_live_unsubscribe hs,
    List.mem_singleton]
  tauto

/-- A screen that subscribes comes after whoever is subscribed. -/
theorem Sound.addSubscription {s : App} (hs : Sound s) {i : Subscriber} (hi : i ≠ .sync)
    (hreleased : i ∉ s.released) (hlatest : ∀ n, i = .thoughts n → n = s.env.controllers) :
    Sound (s.addSubscription i) where
  nodup := by
    refine List.nodup_append.mpr ⟨hs.nodup.erase i, List.nodup_singleton i, ?_⟩
    -- its old subscription was replaced
    intro j hj k hk hjk
    rw [List.mem_singleton.mp hk] at hjk
    exact hs.nodup.not_mem_erase (hjk ▸ hj)
  first := by
    obtain ⟨screens, hlive⟩ := (hs.unsubscribe hi).first
    exact ⟨screens ++ [i], by rw [Store.live_addSubscription hreleased, hlive]; rfl⟩
  latest n hn := by
    cases (mem_live_addSubscription hs hreleased).mp hn with
    | inl hn => exact hs.latest n hn
    -- the thoughts screen that subscribes is the controller loaded last
    | inr hn => exact hlatest n hn.symm
  loaded n hn := by
    cases List.mem_append.mp hn with
    | inl hn => exact hs.loaded n (List.mem_of_mem_erase hn)
    | inr hn => exact (hlatest n (List.mem_singleton.mp hn).symm).le
  released := hs.released
  auth := hs.auth

/-- The store hands the subscriber the state at once. -/
theorem subscribe_process {s : App} {i : Subscriber} (hreleased : i ∉ s.released) {p : Process}
    (h : Turn g i (s.addSubscription i) p) :
    ∃ t : App, s.subscribe program (callback g) i = some t ∧
      Quiet (s.addSubscription i) t ∧ t.process = p := by
  obtain ⟨t, ht, hquiet⟩ := h
  refine ⟨t, ?_, hquiet⟩
  have hlive : i ∉ (s.addSubscription i).released := hreleased
  rw [Store.subscribe, Store.newValues, if_neg hlive, program_newValues_none]
  exact ht

/-- `subscribe`: the subscriber takes its turn with the present state, and the rest of the code
    goes on from there. -/
theorem Sim.subscribe {s : App} {i : Subscriber} {k : Code} {p : Process} {q : Option Process}
    (hs : Sound (s.addSubscription i)) (hreleased : i ∉ s.released)
    (h : Turn g i (s.addSubscription i) p)
    (hk : ∀ t : App, Sound t → t.process = p → Sim g k t q) :
    Sim g (.subscribe i k) s q := by
  obtain ⟨t, ht, hquiet, hp⟩ := subscribe_process hreleased h
  have hrun : (Script.subscribe i k).run program (callback g) s =
      k.run program (callback g) t := by
    rw [Script.run, ht]
    rfl
  rw [Sim, hrun]
  exact hk t (hquiet.sound hs) hp

/-! ## One callback -/

/-- Only controllers loaded before the present one have been released. -/
theorem Sound.not_released {s : App} (hs : Sound s) : .thoughts s.env.controllers ∉ s.released := by
  intro hmem
  obtain ⟨n, hn, hlt⟩ := hs.released _ hmem
  cases hn
  exact lt_irrefl _ hlt

/-- Who is subscribed, apart from the process. -/
theorem process_of_live {s t : App} (henv : t.env = s.env) (hstate : t.state = s.state)
    {b : Bool}
    (hlive : .thoughts s.env.controllers ∈ Store.live t ↔ b = true) :
    t.process = { s.process with screen := { s.process.screen with subscribed := b } } := by
  -- `process` reads off the list of subscribers whether the screen is subscribed
  have hdecide : decide (.thoughts s.env.controllers ∈ Store.live t) = b := by
    rw [Bool.eq_iff_iff, decide_eq_true_iff, hlive]
  simp only [App.process, henv, hstate, hdecide]

/-- The thoughts screen subscribes, is handed the state, and starts its observer. -/
theorem sim_viewDidAppear {s : App} (hs : Sound s) :
    Sim g (.subscribe (.thoughts s.env.controllers) <|
      update (Process.setObserver .waiting) .done) s (some s.process.viewDidAppear) := by
  have hsound := hs.addSubscription (i := .thoughts s.env.controllers) (by simp) hs.not_released
    fun n hn => (Subscriber.thoughts.inj hn).symm
  refine .subscribe hsound hs.not_released (turn_thoughts _ _) fun t ht hp => ?_
  refine .update ht fun ht' => ?_
  -- in the process, subscribing sets a flag
  have hsubscribed : App.process (s.addSubscription (.thoughts s.env.controllers)) =
      { s.process with screen := { s.process.screen with subscribed := true } } :=
    process_of_live rfl rfl (iff_of_true
      ((mem_live_addSubscription hs hs.not_released).mpr (.inr rfl)) rfl)
  -- and the first `newState` draws the header and reloads the table
  have hq : (edit (Process.setObserver .waiting) t).process = s.process.viewDidAppear := by
    have hedit : (edit (Process.setObserver .waiting) t).process =
        t.process.setObserver .waiting := rfl
    rw [hedit, hp, hsubscribed, Process.viewDidAppear, Process.setObserver]
    simp only [Screen.newState_eq]
    rfl
  rw [← hq]
  exact .done ht'

/-- The thoughts screen unsubscribes and stops its observer. -/
theorem sim_viewDidDisappear {s : App} (hs : Sound s) :
    Sim g (.unsubscribe (.thoughts s.env.controllers) <|
      update (Process.setObserver .stopped) .done) s (some s.process.viewDidDisappear) := by
  have hsound := hs.unsubscribe (i := .thoughts s.env.controllers) (by simp)
  have hsubscribed : App.process (s.unsubscribe (.thoughts s.env.controllers)) =
      { s.process with screen := { s.process.screen with subscribed := false } } :=
    process_of_live rfl rfl (iff_of_false
      (fun hmem => ((mem_live_unsubscribe hs).mp hmem).2 rfl) Bool.false_ne_true)
  have hdone : Sim g (update (Process.setObserver .stopped) .done)
      (s.unsubscribe (.thoughts s.env.controllers))
      (some ((App.process (s.unsubscribe (.thoughts s.env.controllers))).setObserver .stopped)) :=
    .update hsound fun hs' => .done hs'
  rw [hsubscribed] at hdone
  exact hdone

/-- A subscriber that is released is live no more, though its box stays in the list until the
    next dispatch. -/
theorem mem_live_release {s : App} {i j : Subscriber} :
    j ∈ Store.live (s.release i) ↔ j ∈ s.live ∧ j ≠ i := by
  simp only [Store.live, Store.release, List.mem_filter, List.mem_cons, decide_eq_true_iff]
  tauto

/-- A new controller of the thoughts screen is loaded, and nobody holds the old one. -/
theorem Sound.load {s : App} (hs : Sound s) {f : Device → Device}
    (hf : (f s.env).controllers = s.env.controllers + 1) (hauth : (f s.env).auth = s.env.auth) :
    Sound { s.release (.thoughts s.env.controllers) with env := f s.env } where
  nodup := hs.nodup
  first := by
    obtain ⟨screens, hlive⟩ := hs.first
    -- the old controller goes from among the screens
    have hrelease : Store.live (s.release (.thoughts s.env.controllers)) =
        s.live.filter (· ≠ .thoughts s.env.controllers) := by
      simp only [Store.live, Store.release, List.filter_filter]
      refine List.filter_congr fun j _ => ?_
      by_cases hj : j = .thoughts s.env.controllers <;> simp [hj]
    refine ⟨screens.filter (· ≠ .thoughts s.env.controllers), ?_⟩
    exact hrelease.trans (by rw [hlive, List.filter_cons_of_pos (by simp)])
  latest n hn := by
    -- the thoughts screen that was live is the one released
    have hmem := mem_live_release.mp hn
    exact absurd (congrArg Subscriber.thoughts (hs.latest n hmem.1)) hmem.2
  loaded n hn := by
    have hle := hs.loaded n hn
    simp only [hf]
    omega
  released i hi := by
    simp only [hf]
    cases List.mem_cons.mp hi with
    -- released are the old controller, now, and those that were before
    | inl heq => exact ⟨s.env.controllers, heq, by omega⟩
    | inr hmem =>
      obtain ⟨n, hn, hlt⟩ := hs.released i hmem
      exact ⟨n, hn, by omega⟩
  auth state hheard := by
    simp only [hauth]
    exact hs.auth state hheard

/-- A new thoughts controller has an empty table and is not subscribed yet. The old one has no
    strong reference left, so the process forgets its subscription at once. -/
theorem sim_viewDidLoad {s : App} (hs : Sound s) (P : Platform) :
    Sim g (processCode P .viewDidLoad) s (s.process.step P .viewDidLoad) := by
  let load (d : Device) : Device := { d with
    controllers := d.controllers + 1
    header := none
    process := { d.process with
      screen := { d.process.screen with rows := 0, laidOut := false } } }
  have hsound : Sound { s.release (.thoughts s.env.controllers) with env := load s.env } :=
    hs.load rfl rfl
  -- no subscription is of the controller that is about to be loaded
  have hsubscribed : .thoughts (s.env.controllers + 1) ∉
      Store.live (s.release (.thoughts s.env.controllers)) := by
    intro hmem
    have hn := hs.latest _ (mem_live_release.mp hmem).1
    omega
  have hdone : Sim g .done { s.release (.thoughts s.env.controllers) with env := load s.env }
      (some _) := .done hsound
  have hprocess : App.process { s.release (.thoughts s.env.controllers) with env := load s.env } =
      { s.process with screen :=
        { s.process.screen with rows := 0, laidOut := false, subscribed := false } } :=
    process_of_live (s := { s with env := load s.env })
      (t := { s.release (.thoughts s.env.controllers) with env := load s.env }) rfl rfl
      (iff_of_false hsubscribed Bool.false_ne_true)
  rw [hprocess] at hdone
  exact hdone

/-- One callback of the process, run on the store. -/
theorem sim_processCode (P : Platform) {s : App} (hs : Sound s) (e : Event) :
    Sim g (processCode P e) s (s.process.step P e) := by
  cases e with
  | loginPressed username password => exact .thunk (sim_startAuth hs (.login username password))
  | registerPressed username password =>
    exact .thunk (sim_startAuth hs (.signUp username password))
  | logoutSegue => exact .thunk (sim_logoutAction hs)
  | postThoughtPressed text now => exact sim_postThoughtPressed hs P text now
  -- a callback runs for the request it was given with: each response has one kind of request
  -- that may take it, and for the others neither side has a step
  | authSucceeded c body =>
    obtain ⟨id, request, origin⟩ := c
    simp only [processCode, Process.step]
    cases request with
    | signUp username password | login username password =>
      refine Sim.complete hs
        (q := fun p => some (p.authSuccess P body.jsonDict username)) fun t ht => ?_
      exact sim_authSuccess ht P body.jsonDict username
    | _ =>
      refine Sim.complete hs (q := fun _ => none) fun _ _ => ?_
      exact .stop
  | authFailed c error =>
    obtain ⟨id, request, origin⟩ := c
    simp only [processCode, Process.step]
    cases request with
    | signUp username password | login username password =>
      refine Sim.complete hs (q := fun p => some (p.authFailure error)) fun t ht => ?_
      exact sim_authFailure ht error
    | _ =>
      refine Sim.complete hs (q := fun _ => none) fun _ _ => ?_
      exact .stop
  | createSucceeded c =>
    obtain ⟨id, request, origin⟩ := c
    simp only [processCode, Process.step]
    cases request with
    | createThought token text =>
      refine Sim.complete hs (q := fun p => some (p.createSuccess origin)) fun t ht => ?_
      exact sim_createSuccess ht origin
    | _ =>
      refine Sim.complete hs (q := fun _ => none) fun _ _ => ?_
      exact .stop
  | createFailed c error =>
    obtain ⟨id, request, origin⟩ := c
    simp only [processCode, Process.step]
    cases request with
    | createThought token text =>
      refine Sim.complete hs
        (q := fun p => some (p.createFailure origin text error)) fun t ht => ?_
      exact sim_createFailure ht origin text error
    | _ =>
      refine Sim.complete hs (q := fun _ => none) fun _ _ => ?_
      exact .stop
  | fetchSucceeded c body =>
    obtain ⟨id, request, origin⟩ := c
    simp only [processCode, Process.step]
    cases request with
    | fetchThoughts token =>
      refine Sim.complete hs (q := fun p => p.fetchSuccess P body) fun t ht => ?_
      exact sim_fetchSuccess ht P body
    | _ =>
      refine Sim.complete hs (q := fun _ => none) fun _ _ => ?_
      exact .stop
  | fetchFailed c error =>
    obtain ⟨id, request, origin⟩ := c
    simp only [processCode, Process.step]
    cases request with
    | fetchThoughts token =>
      refine Sim.complete hs (q := fun p => some (p.fetchFailure error)) fun t ht => ?_
      exact sim_fetchFailure ht error
    | _ =>
      refine Sim.complete hs (q := fun _ => none) fun _ _ => ?_
      exact .stop
  -- callbacks that the system makes, if there is something to make them
  | retryFired retry now =>
    refine .getState ?_
    have hretries : s.process.retries = s.env.process.retries := rfl
    rw [Process.step, hretries]
    split
    · exact .update hs fun hs' => .thunk (sim_createThoughtAction hs' P retry.text retry.press now)
    · exact .stop
  | timerFired =>
    refine .getState ?_
    have htimers : s.process.timers = s.env.process.timers := rfl
    rw [Process.step, htimers]
    split
    · exact .thunk (sim_fetchThoughtsAction hs)
    · exact .stop
  | notified change => exact sim_observe hs change
  | viewDidLoad => exact sim_viewDidLoad hs P
  -- the table asks for its rows once, before the screen appears
  | layoutTable =>
    refine .getState ?_
    have hlaidOut : s.process.screen.laidOut = s.env.process.screen.laidOut := rfl
    rw [Process.step, hlaidOut]
    split
    · exact .stop
    · exact .update hs fun hs' => .done hs'
  | viewDidAppear =>
    refine .getState ?_
    have hlaidOut : s.process.screen.laidOut = s.env.process.screen.laidOut := rfl
    rw [Process.step, hlaidOut]
    split
    · exact sim_viewDidAppear hs
    · exact .stop
  | viewDidDisappear => exact .getState (sim_viewDidDisappear hs)

/-! ## Runs -/

/-- The login screen comes and goes without a trace in the process. -/
theorem sim_code (P : Platform) {s : App} (hs : Sound s) (e : AppEvent) :
    Sim g (code P e) s (e.process?.elim (some s.process) (s.process.step P)) := by
  cases e with
  | process e => exact sim_processCode P hs e
  | authViewWillAppear =>
    -- only thoughts screens are released
    have hreleased : Subscriber.auth ∉ s.released := by
      intro hmem
      obtain ⟨n, hn, -⟩ := hs.released _ hmem
      cases hn
    have hsound := hs.addSubscription (i := .auth) (by simp) hreleased fun n hn => nomatch hn
    have hprocess : App.process (s.addSubscription .auth) = s.process :=
      process_of_live (b := s.process.screen.subscribed) rfl rfl <| by
        -- the thoughts screen is as subscribed as before
        have hlive := mem_live_addSubscription hs hreleased (j := .thoughts s.env.controllers)
        refine hlive.trans ?_
        simp [App.process]
    refine .subscribe hsound hreleased (turn_auth _) fun t ht hp => ?_
    rw [hprocess] at hp
    exact hp ▸ .done ht
  -- `goToThoughtsList` sets a flag of the login screen, or nothing
  | authViewDidAppear =>
    refine .getState ?_
    split
    · exact .perform hs rfl (fun _ h => ⟨h.spinning, h.alert⟩) fun hs' => .done hs'
    · exact .done hs
  | authViewWillDisappear =>
    have hprocess : App.process (s.unsubscribe .auth) = s.process :=
      process_of_live (b := s.process.screen.subscribed) rfl rfl <| by
        refine (mem_live_unsubscribe hs (j := .thoughts s.env.controllers)).trans ?_
        simp [App.process]
    have hdone : Sim g .done (s.unsubscribe .auth) (some _) :=
      .done (hs.unsubscribe (i := .auth) (by simp))
    rw [hprocess] at hdone
    exact hdone

theorem step_process (P : Platform) {s : App} (hs : Sound s) (e : AppEvent) :
    Option.Rel (fun (t : App) p => Sound t ∧ t.process = p) (step P s e)
      (e.process?.elim (some s.process) (s.process.step P)) :=
  sim_code (g := execute program 0) P hs e

/-- Code that a subscriber may run, run by itself. -/
theorem Sim.of_calls {s : App} (hs : Sound s) {k : Code} {p : Process}
    (h : Calls (callback g) k s p) : Sim g k s (some p) := by
  -- what the subscribers call keeps the store sound, as a whole callback does
  obtain ⟨t, ht, hquiet, hp⟩ := h
  rw [Sim, ht]
  exact .some ⟨hquiet.sound hs, hp⟩

/-- The sync service subscribes to a store that nobody else has subscribed to. -/
theorem sim_launchCode (r : Realm) : Sim g launchCode (fresh r) (some (Process.launch r)) := by
  -- the list is the sync service alone, and nobody has heard anything
  have hsound : Sound ((fresh r).addSubscription .sync) := by
    refine ⟨by simp [fresh, Store.addSubscription], ⟨[], rfl⟩, ?_, ?_, ?_, ?_⟩
    · intro n hn
      cases List.mem_singleton.mp hn
    · intro n hn
      cases List.mem_singleton.mp hn
    · intro i hi
      cases hi
    · intro state hheard
      cases hheard
  have hprocess : App.process ((fresh r).addSubscription .sync) =
      { realm := r, state := loadAppState r } := by
    refine process_of_live (s := fresh r) (t := (fresh r).addSubscription .sync)
      (b := false) rfl rfl (iff_of_false ?_ Bool.false_ne_true)
    intro hn
    cases List.mem_singleton.mp hn
  have hturn := turn_sync (g := g) ((fresh r).addSubscription .sync)
  rw [hprocess] at hturn
  refine .subscribe hsound (by simp [fresh]) hturn fun t ht hp => .getState ?_
  -- `run` of the sync service
  rw [Process.launch, ← hp]
  by_cases hin : t.state.authState.loggedIn t.env.process.realm = true
  · have hin' : t.process.loggedIn = true := hin
    rw [if_pos hin, if_pos hin']
    exact .of_calls ht (calls_startPollingForThoughts t)
  · have hin' : ¬t.process.loggedIn = true := hin
    rw [if_neg hin, if_neg hin']
    exact .done ht

/-- However deep callbacks may nest, a callback of the app ends as it does at `depth`. -/
theorem execute_eq_step (P : Platform) {s : App} (hs : Sound s) (e : AppEvent) {d : Nat}
    (hd : depth ≤ d) : execute program d (code P e) s = step P s e := by
  cases hstep : step P s e with
  | some t => exact execute_mono program hd hstep
  | none =>
    -- then the process cannot step either
    have hrel := step_process P hs e
    rw [hstep] at hrel
    -- nor can the app at any depth, where it does what the process does as well
    obtain ⟨d, rfl⟩ := Nat.exists_eq_add_of_le' hd
    have hrel' : Option.Rel (fun (t : App) p => Sound t ∧ t.process = p)
        (execute program (d + depth) (code P e) s)
        (e.process?.elim (some s.process) (s.process.step P)) :=
      sim_code (g := execute program d) P hs e
    generalize e.process?.elim (some s.process) (s.process.step P) = q at hrel hrel'
    cases hrel
    generalize execute program (d + depth) (code P e) s = o at hrel' ⊢
    cases hrel'
    rfl

/-- A launch ends, whatever the Realm. -/
theorem sound_launch (r : Realm) :
    ∃ s : App, launch r = some s ∧ Sound s ∧ s.process = Process.launch r := by
  have hlaunch : Option.Rel (fun (t : App) p => Sound t ∧ t.process = p) (launch r)
      (some (Process.launch r)) := sim_launchCode (g := execute program 0) r
  generalize launch r = o at hlaunch ⊢
  cases hlaunch with
  | some h => exact ⟨_, rfl, h⟩

/-- The runs of the app are the runs of the process, and keep the store sound. -/
theorem runFrom_rel (P : Platform) (r : Realm) (es : List AppEvent) :
    Option.Rel (fun (t : App) p => Sound t ∧ t.process = p) (runFrom P r es)
      (run (Process.step P) (Process.launch r) (es.filterMap AppEvent.process?)) := by
  obtain ⟨s, hs, hsound⟩ := sound_launch r
  -- from related states, each callback leads to related states
  have hstep (s : App) (p : Process) (e : AppEvent) (h : Sound s ∧ s.process = p) :
      Option.Rel (fun (t : App) p => Sound t ∧ t.process = p) (step P s e)
        (e.process?.elim (some p) (p.step P)) :=
    h.2 ▸ step_process P h.1 e
  rw [runFrom, hs, Option.bind_some]
  exact run_rel hstep hsound es

/-- Launched on the same Realm, the app on its store and the process run alike: they can
    run the same callbacks, and the app amounts to the process after each of them. -/
theorem runFrom_process (P : Platform) (r : Realm) (es : List AppEvent) :
    (runFrom P r es).map process =
      run (Process.step P) (Process.launch r) (es.filterMap AppEvent.process?) :=
  Option.map_eq_of_rel (runFrom_rel P r es) fun _ _ h => h.2

end App

end ReactiveDemo
