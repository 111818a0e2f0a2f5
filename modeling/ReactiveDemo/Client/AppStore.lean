import ReactiveDemo.Client.App
import ReactiveDemo.Client.Frame
import ReactiveDemo.Client.TableRows
import ReactiveDemo.ReSwift.Coherence

/-!
# A dispatch on the app's store

We show that the store with its three kinds of subscribers does on a dispatch what
`Process.dispatch` says, in whatever order the screens have subscribed, and that the
callbacks nest no deeper than `App.depth`.

## Key results

- `lawful_program`: the subscriptions of the app withhold repeats only
- `dispatch_of_reduce_eq`: the actions that change nothing call nobody
- `dispatch_process`: a dispatch on the store is `Process.dispatch`
-/

namespace ReactiveDemo

/-! ## Equality of states is an equivalence -/

namespace LoadedThoughtsPayload

/-- What `==` compares. -/
def key : LoadedThoughtsPayload → Nat × List Nat × List (List Nat) × String
  | .initial thoughts => (0, thoughts.map Thought.id, [], "")
  | .update thoughts d i m => (1, thoughts.map Thought.id, [d, i, m], "")
  | .error msg => (2, [], [], msg)

/-- Two lists of thoughts are the same when their ids are, in order. -/
theorem sameThoughts_iff {t1 t2 : List Thought} :
    sameThoughts t1 t2 = true ↔ t1.map Thought.id = t2.map Thought.id := by
  induction t1 generalizing t2 with
  | nil => cases t2 <;> simp [sameThoughts, List.isEqv]
  | cons t t1 ih =>
    cases t2 with
    | nil => simp [sameThoughts, List.isEqv]
    | cons t' t2 =>
      have hrest := @ih t2
      simp only [sameThoughts] at hrest
      simp [sameThoughts, List.isEqv, hrest]

/-- `==` is equality of what it compares. -/
theorem beq_iff_key {a b : LoadedThoughtsPayload} : (a == b) = true ↔ a.key = b.key := by
  change LoadedThoughtsPayload.eq a b = true ↔ _
  cases a <;> cases b <;> simp [LoadedThoughtsPayload.eq, key, sameThoughts_iff, and_assoc]

end LoadedThoughtsPayload

/-- States of the thoughts are equal when the error and what `==` compares of the payload are. -/
theorem ThoughtsState.beq_iff {a b : ThoughtsState} : (a == b) = true ↔
    a.lastError = b.lastError ∧ a.loadedThoughtsPayload.map LoadedThoughtsPayload.key =
      b.loadedThoughtsPayload.map LoadedThoughtsPayload.key := by
  obtain ⟨lastError, payload⟩ := a
  obtain ⟨lastError', payload'⟩ := b
  change (lastError == lastError' && payload == payload') = true ↔ _
  rw [Bool.and_eq_true, beq_iff_eq]
  -- an absent payload equals an absent one only
  cases payload <;> cases payload' <;>
    simp [LoadedThoughtsPayload.beq_iff_key]

/-- States are equal when both parts are. -/
theorem AppState.beq_iff {a b : AppState} : (a == b) = true ↔
    a.authState = b.authState ∧ (a.thoughtsState == b.thoughtsState) = true := by
  obtain ⟨auth, thoughts⟩ := a
  obtain ⟨auth', thoughts'⟩ := b
  change (auth == auth' && thoughts == thoughts') = true ↔ _
  rw [Bool.and_eq_true, beq_iff_eq]

theorem ThoughtsState.beq_equivalence : Equivalence fun a b : ThoughtsState => (a == b) = true where
  refl _ := beq_iff.mpr ⟨rfl, rfl⟩
  symm h := beq_iff.mpr ⟨(beq_iff.mp h).1.symm, (beq_iff.mp h).2.symm⟩
  trans h h' := beq_iff.mpr
    ⟨(beq_iff.mp h).1.trans (beq_iff.mp h').1, (beq_iff.mp h).2.trans (beq_iff.mp h').2⟩

theorem AppState.beq_equivalence : Equivalence fun a b : AppState => (a == b) = true where
  refl _ := beq_iff.mpr ⟨rfl, ThoughtsState.beq_equivalence.refl _⟩
  symm h := beq_iff.mpr
    ⟨(beq_iff.mp h).1.symm, ThoughtsState.beq_equivalence.symm (beq_iff.mp h).2⟩
  trans h h' := beq_iff.mpr ⟨(beq_iff.mp h).1.trans (beq_iff.mp h').1,
    ThoughtsState.beq_equivalence.trans (beq_iff.mp h).2 (beq_iff.mp h').2⟩

theorem ThoughtsState.beq_symm (a b : ThoughtsState) : (a == b) = (b == a) :=
  Bool.eq_iff_iff.mpr ⟨beq_equivalence.symm, beq_equivalence.symm⟩

theorem AppState.beq_symm (a b : AppState) : (a == b) = (b == a) :=
  Bool.eq_iff_iff.mpr ⟨beq_equivalence.symm, beq_equivalence.symm⟩

/-- The login screen shows what is in the state: the spinner, and an error as an alert. -/
structure AuthScreen.Shows (state : AppState) (a : AuthScreen) : Prop where
  spinning : a.spinning = state.authState.loading
  alert : ∀ msg, state.authState.authError = some msg → a.alerts.getLast? = some msg

namespace App

open ReSwift

/-! ## The subscriptions -/

/-- Two overloads skip repeats; once is enough. -/
theorem wholeState_eq :
    wholeState = (Subscription.original : Subscription AppState AppState).skipRepeats (· == ·) :=
  Subscription.skipRepeats_skipRepeats _ _

theorem thoughtsOnly_eq :
    thoughtsOnly = Subscription.original.selectEquatable AppState.thoughtsState := by
  simp only [thoughtsOnly, Subscription.selectEquatable, Subscription.skipRepeats_skipRepeats]

theorem forwards_wholeState : wholeState.Forwards id (· == ·) := by
  rw [wholeState_eq]
  exact Subscription.forwards_original.skipRepeats (· == ·)

/-- The screen is handed the thoughts, but for repeats of them. -/
theorem forwards_thoughtsOnly : thoughtsOnly.Forwards AppState.thoughtsState
    fun old new => old.thoughtsState == new.thoughtsState := by
  rw [thoughtsOnly_eq]
  exact (Subscription.forwards_original.select AppState.thoughtsState).skipRepeats (· == ·)

/-- What a subscriber takes for a repeat. -/
def isRepeat : Subscriber → AppState → AppState → Bool
  | .sync | .auth => fun old new => old == new
  | .thoughts _ => fun old new => old.thoughtsState == new.thoughtsState

/-- The `newState` of a subscriber, on the state that its subscription selects from. -/
def newState : Subscriber → AppState → Code
  | .sync => syncNewState
  | .auth => authNewState
  | .thoughts _ => fun state => thoughtsNewState state.thoughtsState

/-- Whoever subscribes is handed the state. -/
theorem program_newValues_none (i : Subscriber) (state : AppState) :
    program.newValues i none state = some (newState i state) := by
  cases i with
  | sync | auth => exact forwards_wholeState.box_none _ state
  | thoughts n => exact forwards_thoughtsOnly.box_none _ state

/-- Whoever is subscribed is handed a new state unless it is a repeat. -/
theorem program_newValues_some (i : Subscriber) (old state : AppState) :
    program.newValues i (some old) state =
      if isRepeat i old state then none else some (newState i state) := by
  cases i with
  -- the sync service and the login screen look at the whole state
  | sync | auth => exact forwards_wholeState.box_some _ old state
  | thoughts n => exact forwards_thoughtsOnly.box_some _ old state

theorem isRepeat_equivalence (i : Subscriber) :
    Equivalence fun old new => isRepeat i old new = true := by
  cases i with
  | sync | auth => exact AppState.beq_equivalence
  | thoughts n =>
    exact ⟨fun _ => ThoughtsState.beq_equivalence.refl _, ThoughtsState.beq_equivalence.symm,
      ThoughtsState.beq_equivalence.trans⟩

theorem lawful_program : Lawful program fun i old new => isRepeat i old new = true where
  equivalence := isRepeat_equivalence
  first i state := by simp [program_newValues_none]
  next i oldState state h := by
    rw [program_newValues_some] at h
    by_contra hnew
    rw [if_neg hnew] at h
    cases h

/-! ## What callbacks leave alone -/

/-- The login screen shows the state that it was handed last. -/
def AuthShows (s : App) : Prop := ∀ state, s.lastHeard .auth = some state → s.env.auth.Shows state

/-- Neither the state nor who is subscribed has changed; a nested dispatch may have dropped
    the subscriptions of released subscribers. -/
structure Quiet (s t : App) : Prop where
  state : t.state = s.state
  released : t.released = s.released
  controllers : t.env.controllers = s.env.controllers
  live : t.live = s.live
  subscriptions : t.subscriptions.Sublist s.subscriptions
  auth : AuthShows s → AuthShows t

theorem Quiet.refl (s : App) : Quiet s s := ⟨rfl, rfl, rfl, rfl, .refl _, id⟩

/-- Quiet code after quiet code is quiet. -/
theorem Quiet.trans {s t u : App} (hst : Quiet s t) (htu : Quiet t u) : Quiet s u where
  state := htu.state.trans hst.state
  released := htu.released.trans hst.released
  controllers := htu.controllers.trans hst.controllers
  live := htu.live.trans hst.live
  subscriptions := htu.subscriptions.trans hst.subscriptions
  auth := htu.auth ∘ hst.auth

/-- A change of the device is quiet when the login screen goes on showing what it was handed. -/
theorem Quiet.perform {f : Device → Device} (s : App)
    (hf : (f s.env).controllers = s.env.controllers)
    (hauth : ∀ state, s.env.auth.Shows state → (f s.env).auth.Shows state) :
    Quiet s { s with env := f s.env } :=
  ⟨rfl, rfl, hf, rfl, .refl _, fun h state hheard => hauth state (h state hheard)⟩

/-- Dropping the subscriptions without a subscriber leaves the live ones. -/
theorem live_reduce (s : App) (action : Action) : (s.reduce program action).live = s.live := by
  simp [Store.live, Store.reduce]

/-- The action is logged and reduced: the store before the subscribers' turns. -/
abbrev reduced (s : App) (action : Action) : App := (s.print (some action)).reduce program action

theorem live_reduced (s : App) (action : Action) : (s.reduced action).live = s.live :=
  live_reduce (s.print (some action)) action

theorem Quiet.reduced {action : Action} {s : App}
    (h : mainReducer action (some s.state) = s.state) : Quiet s (s.reduced action) where
  state := h
  released := rfl
  controllers := rfl
  live := live_reduced s action
  subscriptions := List.filter_sublist
  auth := id

/-- Who is subscribed: the sync service before all screens, and of the controllers of the
    thoughts screen none but the latest. -/
structure Sound (s : App) : Prop where
  nodup : s.subscriptions.Nodup
  first : ∃ screens, s.live = .sync :: screens
  latest : ∀ n, .thoughts n ∈ s.live → n = s.env.controllers
  loaded : ∀ n, .thoughts n ∈ s.subscriptions → n ≤ s.env.controllers
  released : ∀ i ∈ s.released, ∃ n, i = .thoughts n ∧ n < s.env.controllers
  auth : AuthShows s

/-- Quiet code leaves the subscriptions sound. -/
theorem Quiet.sound {s t : App} (h : Quiet s t) (hs : Sound s) : Sound t where
  nodup := hs.nodup.sublist h.subscriptions
  first := h.live ▸ hs.first
  latest n hn := h.controllers ▸ hs.latest n (h.live ▸ hn)
  loaded n hn := h.controllers ▸ hs.loaded n (h.subscriptions.subset hn)
  released i hi := h.controllers ▸ hs.released i (h.released ▸ hi)
  auth := h.auth hs.auth

theorem Sound.nodup_live {s : App} (hs : Sound s) : s.live.Nodup := hs.nodup.filter _

theorem not_released_of_mem_live {s : App} {i : Subscriber} (hi : i ∈ s.live) : i ∉ s.released := by
  simpa using List.of_mem_filter hi

/-! ## Actions that change nothing -/

variable (g : Code → App → Option App)

/-- The loop calls nobody when the state is the old one. -/
theorem notify_of_state_eq (s : App) (l : List Subscriber) :
    s.notify program g s.state l = some s := by
  induction l with
  | nil => rfl
  | cons i rest ih =>
    -- every subscription takes the same state for a repeat
    have hskip : s.newValues program g i (some s.state) = some s := by
      unfold Store.newValues
      split
      · rfl
      · rw [program_newValues_some, if_pos ((isRepeat_equivalence i).refl _)]
    rw [Store.notify, hskip]
    exact ih

/-- An action that changes nothing is logged and reduced, and calls nobody. -/
theorem dispatch_of_reduce_eq {action : Action} {s : App}
    (h : mainReducer action (some s.state) = s.state) :
    s.dispatch program g (.action action) = some (s.reduced action) := by
  have hstate : (s.reduced action).state = s.state := h
  rw [Store.dispatch_action, ← hstate]
  exact notify_of_state_eq g (s.reduced action) s.live

/-! ## The callbacks -/

/-- The callback ends, leaves the store alone and takes the process to `p`. -/
abbrev Calls (script : Code) (s : App) (p : Process) : Prop :=
  script.Ends program g s fun t : App => Quiet s t ∧ t.process = p

variable {g}

/-- A callback may change the device first. -/
theorem calls_perform {f : Device → Device} {k : Code} {s : App} {p : Process}
    (hf : (f s.env).controllers = s.env.controllers)
    (hauth : ∀ state, s.env.auth.Shows state → (f s.env).auth.Shows state)
    (h : Calls g k { s with env := f s.env } p) : Calls g (.perform f k) s p := by
  obtain ⟨t, ht, hquiet, hp⟩ := h
  exact ⟨t, ht, (Quiet.perform s hf hauth).trans hquiet, hp⟩

theorem calls_done (s : App) : Calls g .done s s.process := .done ⟨.refl s, rfl⟩

/-- The process sees of a dispatch that the action is reduced. -/
theorem process_reduced (s : App) (action : Action) :
    App.process (s.reduced action) = s.process.reduce action := by
  simp only [App.process, live_reduced]
  rfl

/-- An action that changes nothing, dispatched by a callback. -/
theorem calls_dispatch {action : Action} {k : Code} {s : App} {p : Process}
    (haction : mainReducer action (some s.state) = s.state)
    (h : ∀ t : App, t.process = s.process → Calls g k t p) :
    Calls g (.dispatch action k) s p := by
  -- the process is the same after it, so the rest of the callback is that of `s`
  have hprocess : App.process (s.reduced action) = s.process := by
    rw [process_reduced, Process.reduce]
    exact congrArg (fun state => { s.process with state }) haction
  obtain ⟨t, ht, hquiet, hp⟩ := h _ hprocess
  exact .dispatch (dispatch_of_reduce_eq g haction)
    ⟨t, ht, (Quiet.reduced haction).trans hquiet, hp⟩

/-- The thunk that fetches does what `Process.fetchThoughtsAction` does. -/
theorem calls_fetchThoughtsAction (s : App) :
    Calls g fetchThoughtsAction s s.process.fetchThoughtsAction := by
  refine calls_dispatch rfl fun s' hs' => .getState ?_
  -- the loading action has changed nothing
  rw [← hs', Process.fetchThoughtsAction_eq]
  cases htoken : s'.process.jwtToken with
  | none =>
    have htoken' : s'.state.authState.jwtToken s'.env.process.realm = none := htoken
    simp only [htoken']
    -- without a token the fetch only reports an error
    exact calls_dispatch rfl fun t ht => ht ▸ calls_done t
  | some token =>
    have htoken' : s'.state.authState.jwtToken s'.env.process.realm = some token := htoken
    simp only [htoken']
    exact calls_perform rfl (fun _ h => h) (calls_done _)

/-- The sync service starts to poll, unless it does already. -/
theorem calls_startPollingForThoughts (s : App) :
    Calls g startPollingForThoughts s s.process.startPollingForThoughts := by
  refine .getState ?_
  rw [Process.startPollingForThoughts]
  split
  · rw [if_pos ‹_›]
    -- the latest timer is valid
    exact calls_done s
  · rw [if_neg ‹_›]
    refine calls_perform rfl (fun _ h => h) (.thunk ?_)
    -- the new timer is set, then fired
    obtain ⟨t, ht, hquiet, hp⟩ := calls_fetchThoughtsAction (g := g)
      { s with env := { s.env with
        process := { s.env.process with timers := true :: s.env.process.timers } } }
    exact ⟨t, ht, .done ⟨hquiet, hp⟩⟩

/-- The callback of the sync service. -/
theorem calls_syncNewState (s : App) :
    Calls g (syncNewState s.state) s s.process.syncNewState := by
  refine .getState ?_
  rw [Process.syncNewState]
  split
  · rw [if_pos ‹_›]
    exact calls_startPollingForThoughts s
  · rw [if_neg ‹_›]
    exact calls_perform rfl (fun _ h => h) (calls_done _)

/-- The callback of the thoughts screen: the header, then the table. -/
theorem calls_thoughtsNewState (s : App) : Calls g (thoughtsNewState s.state.thoughtsState) s
    { s.process with screen := s.process.screen.newState s.state.thoughtsState } := by
  have hscreen (s : App) : Calls g (update (fun p =>
      { p with screen := p.screen.newState s.state.thoughtsState }) .done) s
      { s.process with screen := s.process.screen.newState s.state.thoughtsState } := by
    refine calls_perform rfl (fun _ h => h) (.done ⟨.refl _, ?_⟩)
    -- the table does not depend on who is subscribed
    simp only [App.process, Screen.newState_eq]
    rfl
  refine .getState ?_
  cases s.state.authState.currentUser s.env.process.realm with
  | none => exact hscreen s
  | some user => exact calls_perform rfl (fun _ h => h) (hscreen _)

/-! ## The loop -/

/-- The store calls back one level down. -/
abbrev callback (g : Code → App → Option App) (script : Code) (s : App) : Option App :=
  script.run program g s

/-- What a subscriber's turn in the loop does to the process. -/
def react (old : AppState) : Subscriber → Process → Process
  | .sync => Process.notifySync old
  | .auth => id
  | .thoughts _ => Process.notifyScreen old

/-- The subscriber is handed the state, and its callback takes the process to `p`. -/
abbrev Turn (g : Code → App → Option App) (i : Subscriber) (s : App) (p : Process) : Prop :=
  (newState i s.state).Ends program g (s.hear i) fun t : App => Quiet s t ∧ t.process = p

theorem turn_of_calls {i : Subscriber} (hi : i ≠ .auth) {s : App} {p : Process}
    (h : Calls g (newState i s.state) (s.hear i) p) : Turn g i s p := by
  obtain ⟨t, ht, hquiet, hp⟩ := h
  -- that it was handed the state does not concern the login screen
  have hhear : Quiet s (s.hear i) := by
    refine ⟨rfl, rfl, rfl, rfl, .refl _, fun h state hheard => h state ?_⟩
    exact (Store.lastHeard_hear_of_ne hi s).symm.trans hheard
  exact ⟨t, ht, hhear.trans hquiet, hp⟩

theorem turn_sync (s : App) : Turn g .sync s s.process.syncNewState :=
  turn_of_calls (by simp) (calls_syncNewState (s.hear .sync))

theorem turn_thoughts (s : App) (n : Nat) : Turn g (.thoughts n) s
    { s.process with screen := s.process.screen.newState s.state.thoughtsState } :=
  turn_of_calls (by simp) (calls_thoughtsNewState (s.hear (.thoughts n)))

/-- The login screen changes nothing but itself, and shows the state it is handed. -/
theorem turn_auth (s : App) : Turn g .auth s s.process := by
  -- whatever the callback does, it is quiet if the screen then shows the state
  have hquiet {d : Device} (hprocess : d.process = s.env.process)
      (hcontrollers : d.controllers = s.env.controllers) (hshows : d.auth.Shows s.state) :
      Quiet s { s.hear .auth with env := d } ∧
        App.process { s.hear .auth with env := d } = s.process := by
    refine ⟨⟨rfl, rfl, hcontrollers, rfl, .refl _, fun _ state hheard => ?_⟩, ?_⟩
    · have hstate : some s.state = some state := (Store.lastHeard_hear .auth s).symm.trans hheard
      exact Option.some.inj hstate ▸ hshows
    · simp only [App.process, hprocess, hcontrollers]
      rfl
  refine .perform ?_
  cases herror : s.state.authState.authError with
  | some error =>
    -- an error is presented, so it is the last alert
    refine .perform (.done (hquiet rfl rfl ⟨rfl, fun msg hmsg => ?_⟩))
    rw [herror] at hmsg
    simpa [alertError] using hmsg
  | none =>
    refine .getState ?_
    split
    -- without an error there is no alert to show
    · refine .perform (.done (hquiet rfl rfl ⟨rfl, fun msg hmsg => ?_⟩))
      rw [herror] at hmsg
      cases hmsg
    · refine .done (hquiet rfl rfl ⟨rfl, fun msg hmsg => ?_⟩)
      rw [herror] at hmsg
      cases hmsg

/-- The turn of a subscriber to whom the state is new. -/
theorem turn_react {s : App} (hs : Sound s) {i : Subscriber} (hi : i ∈ s.live) {old : AppState}
    (hnew : isRepeat i old s.state = false) : Turn g i s (react old i s.process) := by
  cases i with
  | sync =>
    have hreact : react old .sync s.process = s.process.syncNewState := by
      refine if_neg ?_
      rw [AppState.beq_symm]
      exact Bool.eq_false_iff.mp hnew
    rw [hreact]
    exact turn_sync s
  | auth => exact turn_auth s
  | thoughts n =>
    -- the controller that is subscribed is the present one
    have hsub : s.process.screen.subscribed = true := by
      have hn := hs.latest n hi
      subst hn
      exact decide_eq_true hi
    have hreact : react old (.thoughts n) s.process =
        { s.process with screen := s.process.screen.newState s.state.thoughtsState } := by
      refine if_pos ?_
      rw [hsub, Bool.true_and, ThoughtsState.beq_symm, Bool.not_eq_true']
      exact hnew
    rw [hreact]
    exact turn_thoughts s n

/-- A turn in the loop does to the process what `react` says, and nothing if the state is a
    repeat. -/
theorem newValues_process {s : App} (hs : Sound s) {i : Subscriber} (hi : i ∈ s.live)
    (old : AppState) : ∃ t : App, s.newValues program (callback g) i (some old) = some t ∧
      Quiet s t ∧ t.process = react old i s.process := by
  unfold Store.newValues
  rw [if_neg (not_released_of_mem_live hi), program_newValues_some]
  cases hnew : isRepeat i old s.state with
  | false => exact turn_react hs hi hnew
  | true =>
    refine ⟨s, rfl, .refl s, ?_⟩
    -- the subscription withholds the state exactly when `Process` skips it
    cases i with
    | sync => exact (if_pos (by rw [AppState.beq_symm]; exact hnew)).symm
    | auth => rfl
    | thoughts n =>
      refine (if_neg ?_).symm
      have hsame : (s.state.thoughtsState == old.thoughtsState) = true := by
        rw [ThoughtsState.beq_symm]
        exact hnew
      simp [App.process, hsame]

/-- The screens' turns, in any order: those of the login screen change nothing. -/
theorem notify_screens {s : App} (hs : Sound s) (old : AppState) {l : List Subscriber}
    (hnodup : l.Nodup) (hl : ∀ i ∈ l, i ∈ s.live ∧ i ≠ .sync) :
    ∃ t : App, s.notify program (callback g) old l = some t ∧ Quiet s t ∧
      t.process = if .thoughts s.env.controllers ∈ l then s.process.notifyScreen old
        else s.process := by
  induction l generalizing s with
  | nil => exact ⟨s, rfl, .refl s, by simp⟩
  | cons i rest ih =>
    obtain ⟨hmem, hne⟩ := hl i List.mem_cons_self
    obtain ⟨u, hu, hquiet, hp⟩ := newValues_process (g := g) hs hmem old
    have hrest (j : Subscriber) (hj : j ∈ rest) : j ∈ Store.live u ∧ j ≠ .sync := by
      have hj' := hl j (List.mem_cons_of_mem _ hj)
      exact ⟨hquiet.live ▸ hj'.1, hj'.2⟩
    -- a turn is quiet, so the rest of the list is as live as before
    obtain ⟨t, ht, hquiet', hp'⟩ := ih (hquiet.sound hs) (List.nodup_cons.mp hnodup).2 hrest
    refine ⟨t, Option.bind_eq_some_iff.mpr ⟨u, hu, ht⟩, hquiet.trans hquiet', ?_⟩
    rw [hp', hp, hquiet.controllers]
    cases i with
    | sync => exact absurd rfl hne
    | auth => simp [react]
    | thoughts n =>
      -- only one controller is subscribed, so its turn comes once
      have hn := hs.latest n hmem
      subst hn
      rw [if_neg (List.nodup_cons.mp hnodup).1, if_pos List.mem_cons_self, react]

/-- Logging and reducing leave the subscriptions sound. -/
theorem Sound.reduced {s : App} (hs : Sound s) (action : Action) : Sound (s.reduced action) where
  nodup := hs.nodup_live
  first := live_reduced s action ▸ hs.first
  latest n hn := hs.latest n (live_reduced s action ▸ hn)
  loaded n hn := hs.loaded n (List.mem_of_mem_filter hn)
  released := hs.released
  auth := hs.auth

/-- A dispatch on the store, whatever the order of the subscriptions. -/
theorem dispatch_process {s : App} (hs : Sound s) (action : Action) :
    ∃ t : App, s.dispatch program (callback g) (.action action) = some t ∧ Sound t ∧
      t.process = s.process.dispatch action := by
  obtain ⟨screens, hlive⟩ := hs.first
  have hs₁ := hs.reduced action
  have hlive₁ : Store.live (s.reduced action) = .sync :: screens :=
    (live_reduced s action).trans hlive
  have hnodup : (Subscriber.sync :: screens).Nodup := hlive ▸ hs.nodup_live
  -- the sync service's turn comes first
  obtain ⟨u, hu, hquiet, hp⟩ := newValues_process (g := g) hs₁
    (i := .sync) (hlive₁ ▸ List.mem_cons_self) s.state
  have hscreens (i : Subscriber) (hi : i ∈ screens) : i ∈ Store.live u ∧ i ≠ .sync := by
    refine ⟨hquiet.live ▸ hlive₁ ▸ List.mem_cons_of_mem _ hi, ?_⟩
    intro h
    exact (List.nodup_cons.mp hnodup).1 (h ▸ hi)
  -- then those of the screens, which find the same state
  obtain ⟨t, ht, hquiet', hp'⟩ := notify_screens (g := g) (hquiet.sound hs₁) s.state
    (List.nodup_cons.mp hnodup).2 hscreens
  refine ⟨t, ?_, hquiet'.sound (hquiet.sound hs₁), ?_⟩
  · rw [Store.dispatch_action, hlive]
    exact Option.bind_eq_some_iff.mpr ⟨u, hu, ht⟩
  · have hdispatch : s.process.dispatch action = (App.process u).notifyScreen s.state := by
      rw [hp, process_reduced]
      rfl
    rw [hp', hdispatch]
    split
    · rfl
    · -- the thoughts screen is not subscribed, and is not told
      have hsub : (App.process u).screen.subscribed = false := by
        refine decide_eq_false fun hmem => ?_
        rw [hquiet.live, hlive₁] at hmem
        cases List.mem_cons.mp hmem with
        | inl heq => cases heq
        | inr hmem => exact absurd hmem ‹_›
      rw [Process.notifyScreen, hsub]
      rfl

end App

end ReactiveDemo
