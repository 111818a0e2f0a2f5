import ReactiveDemo.Client.Redux
import ReactiveDemo.ForStd.Fold

/-!
# The reducers over a history

The store folds `mainReducer` over the actions that are dispatched. A logout resets the
state; of the actions after the last one, each field of the state shows the last that
writes it: an authentication success the current user, any `AuthProgress` the loading
flag and the error, a `LoadedThoughts` the thoughts.

## Key results

- `reduceAll_closedForm`: every field of the state as a function of the list of actions
-/

namespace ReactiveDemo

/-- `mainReducer` over a list of actions, in the order they are dispatched. -/
def reduceAll (s : AppState) (actions : List Action) : AppState :=
  actions.foldl (fun s action => mainReducer action (some s)) s

/-- The actions after the last logout, all of them when there is none. -/
def sinceLogout (actions : List Action) : List Action :=
  actions.rtakeWhile fun action => !isLogout action

/-- The state that `sinceLogout actions` start from. -/
def baseState (s : AppState) (actions : List Action) : AppState :=
  if actions.any isLogout then {} else s

theorem reduceAll_eq_sinceLogout (s : AppState) (actions : List Action) :
    reduceAll s actions = reduceAll (baseState s actions) (sinceLogout actions) := by
  refine List.foldl_eq_foldl_rtakeWhile ?_ s actions
  intro s action h
  rw [mainReducer, if_pos h]

theorem isLogout_of_mem_sinceLogout {actions : List Action} {action : Action}
    (h : action ∈ sinceLogout actions) : isLogout action = false := by
  simpa using List.mem_rtakeWhile_imp h

/-! ## What an action writes -/

def Action.authProgress? : Action → Option AuthProgressPayload
  | .authProgress payload => some payload
  | _ => none

/-- The user of an authentication success. -/
def Action.success? : Action → Option User
  | .authProgress (.success user) => some user
  | _ => none

def Action.loadedThoughts? : Action → Option LoadedThoughtsPayload
  | .loadedThoughts payload => some payload
  | _ => none

/-- The actions of `ThoughtActions.swift`. -/
def Action.isThoughtAction : Action → Bool
  | .fetchThoughts _ | .createThought _ | .loadedThoughts _ => true
  | _ => false

def AuthProgressPayload.isLoading : AuthProgressPayload → Bool
  | .loading => true
  | _ => false

def AuthProgressPayload.error? : AuthProgressPayload → Option String
  | .error msg => some msg
  | _ => none

/-- The state `s` that the actions `tail`, none of them a logout, make of `base`. -/
structure ClosedForm (base : AppState) (tail : List Action) (s : AppState) : Prop where
  currentUserId : s.authState.currentUserId =
    ((tail.filterMap Action.success?).getLast?.map fun user => some user.id).getD
      base.authState.currentUserId
  loading : s.authState.loading =
    ((tail.filterMap Action.authProgress?).getLast?.map AuthProgressPayload.isLoading).getD
      base.authState.loading
  authError : s.authState.authError =
    ((tail.filterMap Action.authProgress?).getLast?.map AuthProgressPayload.error?).getD
      base.authState.authError
  thoughtsState : s.thoughtsState =
    ((tail.filterMap Action.loadedThoughts?).getLast?.map fun payload =>
      { loadedThoughtsPayload := some payload }).getD base.thoughtsState

section Step

variable {action : Action} (h : isLogout action = false) (s : AppState)

include h

theorem mainReducer_currentUserId : (mainReducer action (some s)).authState.currentUserId =
    (action.success?.map fun user => some user.id).getD s.authState.currentUserId := by
  rw [mainReducer, if_neg (by simp [h])]
  -- only a success names a user
  cases action with
  | authProgress payload =>
    cases payload with
    | logout => cases h
    | _ => rfl
  | _ => rfl

theorem mainReducer_authProgress : (mainReducer action (some s)).authState.loading =
      (action.authProgress?.map AuthProgressPayload.isLoading).getD s.authState.loading ∧
    (mainReducer action (some s)).authState.authError =
      (action.authProgress?.map AuthProgressPayload.error?).getD s.authState.authError := by
  rw [mainReducer, if_neg (by simp [h])]
  cases action with
  | authProgress payload => cases payload <;> exact ⟨rfl, rfl⟩
  | _ => exact ⟨rfl, rfl⟩

theorem mainReducer_thoughtsState : (mainReducer action (some s)).thoughtsState =
    (action.loadedThoughts?.map fun payload =>
      { loadedThoughtsPayload := some payload }).getD s.thoughtsState := by
  rw [mainReducer, if_neg (by simp [h])]
  cases action <;> rfl

end Step

/-- Without a logout every field ends as its last write. -/
theorem closedForm_reduceAll {tail : List Action} (h : ∀ action ∈ tail, isLogout action = false)
    (base : AppState) : ClosedForm base tail (reduceAll base tail) where
  currentUserId := List.foldl_overwrite (fun s : AppState => s.authState.currentUserId)
    (fun action hmem s => mainReducer_currentUserId (h action hmem) s) base
  loading := List.foldl_overwrite (fun s : AppState => s.authState.loading)
    (fun action hmem s => (mainReducer_authProgress (h action hmem) s).1) base
  authError := List.foldl_overwrite (fun s : AppState => s.authState.authError)
    (fun action hmem s => (mainReducer_authProgress (h action hmem) s).2) base
  thoughtsState := List.foldl_overwrite AppState.thoughtsState
    (fun action hmem s => mainReducer_thoughtsState (h action hmem) s) base

/-! ## Independence of the two parts -/

/-- The next `authState` depends on the present one only. -/
theorem authState_mainReducer {s t : AppState} (h : s.authState = t.authState) (action : Action) :
    (mainReducer action (some s)).authState = (mainReducer action (some t)).authState := by
  unfold mainReducer
  split
  · rfl
  · cases action <;> simp only [authReducer, authProgressReducer, Option.map_some, h]

/-- The next `thoughtsState` depends on the present one only. -/
theorem thoughtsState_mainReducer {s t : AppState} (h : s.thoughtsState = t.thoughtsState)
    (action : Action) :
    (mainReducer action (some s)).thoughtsState = (mainReducer action (some t)).thoughtsState := by
  unfold mainReducer
  split
  · rfl
  · cases action <;>
      simp only [thoughtsReducer, thoughtsRequestActionReducer, Option.map_some, h]

/-- Thought actions may be dropped from a history for what it makes of `authState`. -/
theorem authState_reduceAll_filter (s : AppState) (actions : List Action) :
    (reduceAll s (actions.filter fun action => !action.isThoughtAction)).authState =
      (reduceAll s actions).authState := by
  refine List.foldl_filter_eq AppState.authState
    (fun s t action h => authState_mainReducer h action) ?_ rfl actions
  intro s action h
  cases action with
  | authProgress _ | other => cases h
  | _ => rfl

/-- Authentication actions other than a logout may be dropped from a history for what it
    makes of `thoughtsState`. -/
theorem thoughtsState_reduceAll_filter (s : AppState) (actions : List Action) :
    (reduceAll s (actions.filter fun action =>
        action.authProgress?.isNone || isLogout action)).thoughtsState =
      (reduceAll s actions).thoughtsState := by
  refine List.foldl_filter_eq AppState.thoughtsState
    (fun s t action h => thoughtsState_mainReducer h action) ?_ rfl actions
  intro s action h
  cases action with
  | authProgress payload =>
    cases payload with
    | logout => cases h
    | _ => rfl
  | _ => cases h

/-- The state after any history: the closed form of the actions since the last logout; the
    thought actions leave no trace in `authState`, nor the authentication actions before the
    next logout in `thoughtsState`. -/
theorem reduceAll_closedForm (s : AppState) (actions : List Action) :
    ClosedForm (baseState s actions) (sinceLogout actions) (reduceAll s actions) ∧
      (reduceAll s (actions.filter fun action => !action.isThoughtAction)).authState =
        (reduceAll s actions).authState ∧
      (reduceAll s (actions.filter fun action =>
          action.authProgress?.isNone || isLogout action)).thoughtsState =
        (reduceAll s actions).thoughtsState := by
  refine ⟨?_, authState_reduceAll_filter s actions, thoughtsState_reduceAll_filter s actions⟩
  rw [reduceAll_eq_sinceLogout]
  exact closedForm_reduceAll (fun _ h => isLogout_of_mem_sinceLogout h) (baseState s actions)

end ReactiveDemo
