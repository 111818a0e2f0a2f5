import Mathlib

/-!
# The ReSwift store

`Pods/ReSwift` and `Pods/ReSwiftThunk`, for any state, actions and subscribers, with the
middleware of `Redux/Store.swift`: Thunks are run, plain actions are logged and reduced.

A subscriber's `newState` runs in the middle of a dispatch and may dispatch again, so
the code that uses a store is a `Script`, and running one calls back into the
subscribers' scripts. `execute` bounds how deep the callbacks nest; a result does not
depend on the bound.

## Key results

- `execute_mono`: a script that ends within one depth ends the same within a larger one
- `dispatch_action`, `dispatch_thunk`: what the middleware make of a dispatch
- `execute_steps`: whatever nests, the store changes by the elementary steps of `Step`
- `Forwards`: what `select` and `skipRepeats` hand on to a subscriber
-/

namespace ReSwift

variable {σ α ε ι τ υ : Type}

/-! ## Subscriptions -/

/-- `Subscription`: what is forwarded of an old and a new value of the store's state. -/
def Subscription (σ τ : Type) := Option σ → σ → Option (Option τ × τ)

namespace Subscription

def original : Subscription σ σ := fun oldState newState => some (oldState, newState)

/-- `_select`. -/
def select (selector : σ → τ) (s : Subscription υ σ) : Subscription υ τ := fun oldState newState =>
  (s oldState newState).map fun values => (values.1.map selector, selector values.2)

def skipRepeats (isRepeat : τ → τ → Bool) (s : Subscription σ τ) : Subscription σ τ :=
  fun oldState newState => (s oldState newState).filter fun values =>
    match values.1 with
    | some old => !isRepeat old values.2
    -- the first value a subscriber gets is no repeat
    | none => true

/-- The overload of `select` for an `Equatable` substate. -/
def selectEquatable [BEq τ] (selector : σ → τ) (s : Subscription υ σ) : Subscription υ τ :=
  (s.select selector).skipRepeats (· == ·)

/-- The subscription hands on `view` of the state, but for the repeats after the first. -/
structure Forwards (view : σ → τ) (isRepeat : σ → σ → Bool) (s : Subscription σ τ) : Prop where
  first : ∀ newState, s none newState = some (none, view newState)
  next : ∀ oldState newState, s (some oldState) newState =
    if isRepeat oldState newState then none else some (some (view oldState), view newState)

theorem forwards_original : Forwards id (fun _ _ => false) (original : Subscription σ σ) where
  first _ := rfl
  next _ _ := rfl

/-- Selecting a part hands on that part. -/
theorem Forwards.select {view : υ → σ} {isRepeat : υ → υ → Bool} {s : Subscription υ σ}
    (h : Forwards view isRepeat s) (selector : σ → τ) :
    Forwards (fun state => selector (view state)) isRepeat (s.select selector) where
  first newState := by rw [Subscription.select, h.first]; rfl
  next oldState newState := by
    rw [Subscription.select, h.next]
    split <;> rfl

/-- Skipping repeats withholds what is a repeat for either. -/
theorem Forwards.skipRepeats {view : σ → τ} {isRepeat : σ → σ → Bool} {s : Subscription σ τ}
    (h : Forwards view isRepeat s) (isRepeat' : τ → τ → Bool) :
    Forwards view (fun old new => isRepeat old new || isRepeat' (view old) (view new))
      (s.skipRepeats isRepeat') where
  first newState := by rw [Subscription.skipRepeats, h.first]; rfl
  next oldState newState := by
    rw [Subscription.skipRepeats, h.next]
    cases isRepeat oldState newState with
    | true => rfl
    -- no repeat of the inner subscription: the outer one decides
    | false => cases hr : isRepeat' (view oldState) (view newState) <;> simp [hr, Option.filter]

/-- Skipping the same repeats once more skips nothing more. -/
theorem skipRepeats_skipRepeats (isRepeat : τ → τ → Bool) (s : Subscription σ τ) :
    (s.skipRepeats isRepeat).skipRepeats isRepeat = s.skipRepeats isRepeat := by
  funext oldState newState
  simp only [skipRepeats, Option.filter_filter, Bool.and_self]

end Subscription

/-! ## Scripts -/

/-- Code that runs against a store; `ε` is the rest of the process. -/
inductive Script (σ α ε ι : Type) where
  | done
  /-- The code cannot run here, or traps. -/
  | stop
  | getState (k : σ → ε → Script σ α ε ι)
  /-- Anything that does not involve the store. -/
  | perform (f : ε → ε) (k : Script σ α ε ι)
  /-- Dispatch a plain action. -/
  | dispatch (action : α) (k : Script σ α ε ι)
  /-- Dispatch a `Thunk`. -/
  | thunk (body : Script σ α ε ι) (k : Script σ α ε ι)
  | subscribe (subscriber : ι) (k : Script σ α ε ι)
  | unsubscribe (subscriber : ι) (k : Script σ α ε ι)
  /-- The last strong reference to a subscriber goes. -/
  | release (subscriber : ι) (k : Script σ α ε ι)

/-- `SubscriptionBox`: a subscription with its subscriber's `newState`. -/
def box (s : Subscription σ τ) (newState : τ → Script σ α ε ι) (oldState : Option σ) (state : σ) :
    Option (Script σ α ε ι) :=
  (s oldState state).map fun values => newState values.2

/-- The first value reaches the subscriber. -/
theorem Subscription.Forwards.box_none {view : σ → τ} {isRepeat : σ → σ → Bool}
    {s : Subscription σ τ} (h : s.Forwards view isRepeat) (newState : τ → Script σ α ε ι)
    (state : σ) : box s newState none state = some (newState (view state)) := by
  rw [box, h.first]
  rfl

/-- A later value reaches it unless it is a repeat. -/
theorem Subscription.Forwards.box_some {view : σ → τ} {isRepeat : σ → σ → Bool}
    {s : Subscription σ τ} (h : s.Forwards view isRepeat) (newState : τ → Script σ α ε ι)
    (oldState state : σ) : box s newState (some oldState) state =
      if isRepeat oldState state then none else some (newState (view state)) := by
  rw [box, h.next]
  cases isRepeat oldState state <;> rfl

/-- What a store is made for: its reducer, and the box of each subscriber. -/
structure Program (σ α ε ι : Type) where
  reducer : α → σ → σ
  newValues : ι → Option σ → σ → Option (Script σ α ε ι)

/-- The store and the rest of the process. A subscriber's object is `released` once the
    weak reference to it is `nil`. -/
structure Store (σ α ε ι : Type) where
  state : σ
  env : ε
  subscriptions : List ι := []
  released : List ι := []
  /-- What `loggerMiddleware` printed; a `Thunk` is printed as `none`. -/
  printed : List (Option α) := []
  /-- History: who was handed the state and what it was then, latest first. -/
  heard : List (ι × σ) := []

namespace Store

/-- What the subscriber was handed last. -/
def lastHeard [DecidableEq ι] (i : ι) (s : Store σ α ε ι) : Option σ :=
  (s.heard.find? fun value => value.1 = i).map Prod.snd

def hear (i : ι) (s : Store σ α ε ι) : Store σ α ε ι :=
  { s with heard := (i, s.state) :: s.heard }

@[simp] theorem hear_state (i : ι) (s : Store σ α ε ι) : (s.hear i).state = s.state := rfl

@[simp] theorem hear_subscriptions (i : ι) (s : Store σ α ε ι) :
    (s.hear i).subscriptions = s.subscriptions := rfl

@[simp] theorem hear_released (i : ι) (s : Store σ α ε ι) : (s.hear i).released = s.released := rfl

section

variable [DecidableEq ι]

@[simp] theorem lastHeard_hear (i : ι) (s : Store σ α ε ι) :
    (s.hear i).lastHeard i = some s.state := by
  simp [lastHeard, hear]

theorem lastHeard_hear_of_ne {i j : ι} (h : i ≠ j) (s : Store σ α ε ι) :
    (s.hear i).lastHeard j = s.lastHeard j := by
  simp [lastHeard, hear, h]

variable (P : Program σ α ε ι)

/-- The subscriptions whose subscriber still exists. -/
def live (s : Store σ α ε ι) : List ι := s.subscriptions.filter fun i => i ∉ s.released

/-- `_defaultDispatch` reduces the action, and the setter of `state` drops the subscriptions
    without a subscriber. The reducer is a pure function, so `isDispatching` is `false`
    whenever a dispatch begins. -/
def reduce (action : α) (s : Store σ α ε ι) : Store σ α ε ι :=
  { s with state := P.reducer action s.state, subscriptions := s.live }

/-- A line of the log. -/
def print (line : Option α) (s : Store σ α ε ι) : Store σ α ε ι :=
  { s with printed := s.printed ++ [line] }

/-- `_subscribe` replaces an older subscription of the same subscriber. -/
def addSubscription (i : ι) (s : Store σ α ε ι) : Store σ α ε ι :=
  { s with subscriptions := s.subscriptions.erase i ++ [i] }

def unsubscribe (i : ι) (s : Store σ α ε ι) : Store σ α ε ι :=
  { s with subscriptions := s.subscriptions.erase i }

def release (i : ι) (s : Store σ α ε ι) : Store σ α ε ι := { s with released := i :: s.released }

/-- Whoever subscribes comes last. -/
theorem live_addSubscription {i : ι} {s : Store σ α ε ι} (h : i ∉ s.released) :
    (s.addSubscription i).live = (s.unsubscribe i).live ++ [i] := by
  -- an older subscription of `i` is erased first
  have hlive : (s.addSubscription i).live =
      (s.subscriptions.erase i ++ [i]).filter fun j => j ∉ s.released := rfl
  rw [hlive, List.filter_append, List.filter_cons_of_pos (by simpa using h)]
  rfl

/-! ## Middleware -/

/-- What can be dispatched: an action, or a `Thunk` with what its body does to the store. -/
inductive Dispatched (σ α ε ι : Type) where
  | action (action : α)
  | thunk (body : Store σ α ε ι → Option (Store σ α ε ι))

/-- `DispatchFunction`; `none` when it traps. -/
abbrev DispatchFunction (σ α ε ι : Type) :=
  Dispatched σ α ε ι → Store σ α ε ι → Option (Store σ α ε ι)

/-- `Middleware`. The store's `dispatch` and `getState`, which it takes as well, are what the
    body of a `Thunk` runs with. -/
abbrev Middleware (σ α ε ι : Type) := DispatchFunction σ α ε ι → DispatchFunction σ α ε ι

def createThunksMiddleware : Middleware σ α ε ι := fun next dispatched s =>
  match dispatched with
  | .thunk body => body s
  | .action _ => next dispatched s

def loggerMiddleware : Middleware σ α ε ι := fun next dispatched s =>
  match dispatched with
  | .thunk _ => next dispatched (s.print none)
  | .action action => next dispatched (s.print (some action))

/-! ## Dispatching -/

variable (call : Script σ α ε ι → Store σ α ε ι → Option (Store σ α ε ι))

/-- `SubscriptionBox.newValues`; `call` runs a `newState`. The new value is the state as
    it is now, which a nested dispatch may have changed since the loop began. -/
def newValues (i : ι) (oldState : Option σ) (s : Store σ α ε ι) : Option (Store σ α ε ι) :=
  if i ∈ s.released then some s
  else match P.newValues i oldState s.state with
    | none => some s
    | some newState => call newState (s.hear i)

/-- The loop of the setter of `state`, over the subscriptions there were when it began. -/
def notify (oldState : σ) : List ι → Store σ α ε ι → Option (Store σ α ε ι)
  | [], s => some s
  | i :: rest, s => (newValues P call i (some oldState) s).bind (notify oldState rest)

/-- `_defaultDispatch`. The first middleware lets no `Thunk` come this far. -/
def defaultDispatch : DispatchFunction σ α ε ι
  | .action action, s => notify P call s.state s.live (s.reduce P action)
  | .thunk _, _ => none

/-- `dispatchFunction`: the default dispatch, wrapped from the last middleware to the first. -/
def dispatchFunction (middleware : List (Middleware σ α ε ι)) : DispatchFunction σ α ε ι :=
  middleware.reverse.foldl (fun next middleware => middleware next) (defaultDispatch P call)

/-- `dispatch`, with the middleware that the app's store is made with. -/
def dispatch : DispatchFunction σ α ε ι :=
  dispatchFunction P call [createThunksMiddleware, loggerMiddleware]

/-- A plain action is printed before it is reduced and the subscribers are told. -/
theorem dispatch_action (action : α) (s : Store σ α ε ι) :
    s.dispatch P call (.action action) =
      notify P call s.state s.live ((s.print (some action)).reduce P action) := rfl

/-- A `Thunk` is run, and neither printed nor reduced. -/
theorem dispatch_thunk (body : Store σ α ε ι → Option (Store σ α ε ι)) (s : Store σ α ε ι) :
    s.dispatch P call (.thunk body) = body s := rfl

def subscribe (i : ι) (s : Store σ α ε ι) : Option (Store σ α ε ι) :=
  newValues P call i none (s.addSubscription i)

end

end Store

open Store

section Running

variable [DecidableEq ι] (P : Program σ α ε ι)

/-- Run a script; `call` runs the `newState` of the subscribers it reaches. -/
def Script.run (call : Script σ α ε ι → Store σ α ε ι → Option (Store σ α ε ι)) :
    Script σ α ε ι → Store σ α ε ι → Option (Store σ α ε ι)
  | .done, s => some s
  | .stop, _ => none
  | .getState k, s => (k s.state s.env).run call s
  | .perform f k, s => k.run call { s with env := f s.env }
  | .dispatch action k, s => (s.dispatch P call (.action action)).bind (k.run call)
  | .thunk body k, s => (s.dispatch P call (.thunk fun t => body.run call t)).bind (k.run call)
  | .subscribe i k, s => (s.subscribe P call i).bind (k.run call)
  | .unsubscribe i k, s => k.run call (s.unsubscribe i)
  | .release i k, s => k.run call (s.release i)

/-- Run a script whose callbacks nest at most `depth` deep. -/
def execute : Nat → Script σ α ε ι → Store σ α ε ι → Option (Store σ α ε ι)
  | 0, _, _ => none
  | depth + 1, script, s => script.run P (execute depth) s

/-! ## Postconditions -/

section Ends

variable {P} {call : Script σ α ε ι → Store σ α ε ι → Option (Store σ α ε ι)}
  {Q : Store σ α ε ι → Prop} {s : Store σ α ε ι}

/-- Run from `s`, the script ends in a store with `Q`. -/
def Script.Ends (P : Program σ α ε ι)
    (call : Script σ α ε ι → Store σ α ε ι → Option (Store σ α ε ι)) (script : Script σ α ε ι)
    (s : Store σ α ε ι) (Q : Store σ α ε ι → Prop) : Prop :=
  ∃ t, script.run P call s = some t ∧ Q t

theorem Script.Ends.done (h : Q s) : Script.done.Ends P call s Q := ⟨s, rfl, h⟩

/-- Reading the state goes on with the state and the process as they are. -/
theorem Script.Ends.getState {k : σ → ε → Script σ α ε ι} (h : (k s.state s.env).Ends P call s Q) :
    (Script.getState k).Ends P call s Q := h

theorem Script.Ends.perform {f : ε → ε} {k : Script σ α ε ι}
    (h : k.Ends P call { s with env := f s.env } Q) : (Script.perform f k).Ends P call s Q := h

/-- A dispatch that ends leaves the rest of the script to end from there. -/
theorem Script.Ends.dispatch {action : α} {k : Script σ α ε ι} {t : Store σ α ε ι}
    (ht : s.dispatch P call (.action action) = some t) (h : k.Ends P call t Q) :
    (Script.dispatch action k).Ends P call s Q := by
  obtain ⟨u, hu, hQ⟩ := h
  exact ⟨u, Option.bind_eq_some_iff.mpr ⟨t, ht, hu⟩, hQ⟩

/-- So does the body of a Thunk, which is run in its place. -/
theorem Script.Ends.thunk {body k : Script σ α ε ι}
    (h : body.Ends P call s fun t => k.Ends P call t Q) : (Script.thunk body k).Ends P call s Q := by
  obtain ⟨t, ht, u, hu, hQ⟩ := h
  exact ⟨u, Option.bind_eq_some_iff.mpr ⟨t, ht, hu⟩, hQ⟩

/-- And a subscription, which hands on the state at once. -/
theorem Script.Ends.subscribe {i : ι} {k : Script σ α ε ι} {t : Store σ α ε ι}
    (ht : s.subscribe P call i = some t) (h : k.Ends P call t Q) :
    (Script.subscribe i k).Ends P call s Q := by
  obtain ⟨u, hu, hQ⟩ := h
  exact ⟨u, Option.bind_eq_some_iff.mpr ⟨t, ht, hu⟩, hQ⟩

end Ends

/-! ## More depth changes nothing -/

section Mono

variable {P} {call call' : Script σ α ε ι → Store σ α ε ι → Option (Store σ α ε ι)}
  (hcall : ∀ script s t, call script s = some t → call' script s = some t)

include hcall

/-- A turn that ends within one depth ends the same within another. -/
theorem Store.newValues_mono {i : ι} {oldState : Option σ} {s t : Store σ α ε ι}
    (h : s.newValues P call i oldState = some t) : s.newValues P call' i oldState = some t := by
  unfold Store.newValues at h ⊢
  split at h
  -- a released subscriber is passed over
  · rw [if_pos ‹_›, h]
  · rw [if_neg ‹_›]
    cases hbox : P.newValues i oldState s.state with
    | none => simpa only [hbox] using h
    -- the callback runs one level down
    | some newState => exact hcall newState _ t (by simpa only [hbox] using h)

/-- So does the loop over the subscriptions. -/
theorem Store.notify_mono {oldState : σ} {l : List ι} {s t : Store σ α ε ι}
    (h : s.notify P call oldState l = some t) : s.notify P call' oldState l = some t := by
  induction l generalizing s with
  | nil => exact h
  | cons i rest ih =>
    -- the first turn, and the rest of the loop from where it ended
    obtain ⟨u, hu, hrest⟩ := Option.bind_eq_some_iff.mp h
    exact Option.bind_eq_some_iff.mpr ⟨u, Store.newValues_mono hcall hu, ih hrest⟩

/-- And so does a script, by induction on it: only its dispatches and subscriptions call back. -/
theorem Script.run_mono {script : Script σ α ε ι} {s t : Store σ α ε ι}
    (h : script.run P call s = some t) : script.run P call' s = some t := by
  induction script generalizing s t with
  | done => exact h
  | stop => cases h
  -- what does not call back is the same at any depth
  | getState k ih => exact ih _ _ h
  | perform f k ih => exact ih h
  | dispatch action k ih =>
    -- the subscribers are told within the smaller depth
    obtain ⟨u, hu, hk⟩ := Option.bind_eq_some_iff.mp h
    exact Option.bind_eq_some_iff.mpr ⟨u, Store.notify_mono hcall hu, ih hk⟩
  | thunk body k ihbody ih =>
    -- a Thunk is run at the depth of the script itself
    obtain ⟨u, hu, hk⟩ := Option.bind_eq_some_iff.mp h
    exact Option.bind_eq_some_iff.mpr ⟨u, ihbody hu, ih hk⟩
  | subscribe i k ih =>
    obtain ⟨u, hu, hk⟩ := Option.bind_eq_some_iff.mp h
    exact Option.bind_eq_some_iff.mpr ⟨u, Store.newValues_mono hcall hu, ih hk⟩
  | unsubscribe i k ih => exact ih h
  | release i k ih => exact ih h

end Mono

/-- One level more changes nothing for a script that ends. -/
theorem execute_succ {depth : Nat} {script : Script σ α ε ι} {s t : Store σ α ε ι}
    (h : execute P depth script s = some t) : execute P (depth + 1) script s = some t := by
  induction depth generalizing script s t with
  | zero => cases h
  -- the callbacks run one level down, where one level more changes nothing
  | succ depth ih => exact Script.run_mono (fun _ _ _ => ih) h

/-- A script that ends within one depth ends with the same store within a larger one. -/
theorem execute_mono {depth depth' : Nat} (hle : depth ≤ depth') {script : Script σ α ε ι}
    {s t : Store σ α ε ι} (h : execute P depth script s = some t) :
    execute P depth' script s = some t := by
  induction hle with
  | refl => exact h
  | step _ ih => exact execute_succ P ih

/-! ## Elementary steps -/

/-- The changes that a run is made of, however deep its callbacks nest. -/
inductive Step : Store σ α ε ι → Store σ α ε ι → Prop
  | perform (s : Store σ α ε ι) (f : ε → ε) : Step s { s with env := f s.env }
  /-- Nothing runs between the printing of an action and its reduction. -/
  | dispatch (s : Store σ α ε ι) (action : α) : Step s ((s.print (some action)).reduce P action)
  | hear (s : Store σ α ε ι) (i : ι) (h : i ∉ s.released) : Step s (s.hear i)
  | addSubscription (s : Store σ α ε ι) (i : ι) : Step s (s.addSubscription i)
  | unsubscribe (s : Store σ α ε ι) (i : ι) : Step s (s.unsubscribe i)
  | release (s : Store σ α ε ι) (i : ι) : Step s (s.release i)

section Steps

open Relation

variable {P} {call : Script σ α ε ι → Store σ α ε ι → Option (Store σ α ε ι)}
  (hcall : ∀ script s t, call script s = some t → ReflTransGen (Step P) s t)

include hcall

/-- A turn in the loop hands on the state and runs the callback. -/
theorem Store.newValues_steps {i : ι} {oldState : Option σ} {s t : Store σ α ε ι}
    (h : s.newValues P call i oldState = some t) : ReflTransGen (Step P) s t := by
  unfold Store.newValues at h
  split at h
  -- a released subscriber is passed over
  · cases h
    exact .refl
  · rename_i hlive
    cases hbox : P.newValues i oldState s.state with
    | none =>
      simp only [hbox, Option.some.injEq] at h
      -- the subscription withholds the state
      exact h ▸ .refl
    | some newState =>
      simp only [hbox] at h
      -- the subscriber is handed the state, then its callback runs
      exact .head (.hear s i hlive) (hcall newState _ t h)

/-- The loop is the turns of the subscribers. -/
theorem Store.notify_steps {oldState : σ} {l : List ι} {s t : Store σ α ε ι}
    (h : s.notify P call oldState l = some t) : ReflTransGen (Step P) s t := by
  induction l generalizing s with
  | nil =>
    cases h
    exact .refl
  | cons i rest ih =>
    -- one turn after the other
    obtain ⟨u, hu, hrest⟩ := Option.bind_eq_some_iff.mp h
    exact (Store.newValues_steps hcall hu).trans (ih hrest)

/-- A script is elementary steps and, at its dispatches and subscriptions, those of callbacks. -/
theorem Script.run_steps {script : Script σ α ε ι} {s t : Store σ α ε ι}
    (h : script.run P call s = some t) : ReflTransGen (Step P) s t := by
  induction script generalizing s t with
  | done =>
    cases h
    exact .refl
  | stop => cases h
  | getState k ih => exact ih _ _ h
  | perform f k ih => exact .head (.perform s f) (ih h)
  | dispatch action k ih =>
    obtain ⟨u, hu, hk⟩ := Option.bind_eq_some_iff.mp h
    -- first the action is printed and reduced, then the subscribers are told
    rw [dispatch_action] at hu
    exact .head (.dispatch s action) ((Store.notify_steps hcall hu).trans (ih hk))
  | thunk body k ihbody ih =>
    obtain ⟨u, hu, hk⟩ := Option.bind_eq_some_iff.mp h
    -- the body is run in place of the Thunk
    exact (ihbody hu).trans (ih hk)
  | subscribe i k ih =>
    -- the subscriber is in the list when it is handed the state
    obtain ⟨u, hu, hk⟩ := Option.bind_eq_some_iff.mp h
    exact .head (.addSubscription s i) ((Store.newValues_steps hcall hu).trans (ih hk))
  | unsubscribe i k ih => exact .head (.unsubscribe s i) (ih h)
  | release i k ih => exact .head (.release s i) (ih h)

end Steps

variable {P} in
/-- A run of a script, callbacks included, is a sequence of elementary steps. -/
theorem execute_steps {depth : Nat} {script : Script σ α ε ι} {s t : Store σ α ε ι}
    (h : execute P depth script s = some t) : Relation.ReflTransGen (Step P) s t := by
  induction depth generalizing script s t with
  | zero => cases h
  | succ depth ih => exact Script.run_steps (fun _ _ _ => ih) h

variable {P} in
/-- What every elementary step keeps, a run keeps. -/
theorem execute_invariant {I : Store σ α ε ι → Prop} (hstep : ∀ s t, I s → Step P s t → I t)
    {depth : Nat} {script : Script σ α ε ι} {s t : Store σ α ε ι} (h0 : I s)
    (h : execute P depth script s = some t) : I t := by
  -- however its callbacks nest, the run is a sequence of steps
  have hsteps := execute_steps h
  clear h
  induction hsteps with
  | refl => exact h0
  | tail _ hlast ih => exact hstep _ _ ih hlast

end Running

end ReSwift
