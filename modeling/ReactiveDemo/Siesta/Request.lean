import ReactiveDemo.ForStd.Run

/-!
# A Siesta request

`CallbackGroup`, `LiveRequest` and the response handling of `NetworkRequestDelegate`, for
any hooks and responses. Blocks wait on the main queue and run in order; responses pass
through the pipeline on a background queue and may overtake each other there. Hooks may be
added, and `start` and `cancel` called, at any time, and the network may respond at any
time once the request was started, more than once if it misbehaves.

`mainQueue` has the blocks of this request only. `DispatchQueue.main` is one queue for the
whole app: it runs these blocks in the same order, with those of other requests and of the
app between them, which reach this request by the other events only.

## Key results

- `sound_run`: in the order in which they were added, the hooks are called at most once
  each, all with one response; none is forgotten
- `Genuine.step`: that response is what the pipeline made of one from the network, or the
  cancellation of a request that was not completed
- `completedValue_run`: a later response or cancellation changes nothing
- `queue_length_le`, `exists_queue_step`: what is left to run is never stuck, and ends
-/

namespace Siesta

open Transition

variable {ν ρ κ : Type}

/-- What a `NetworkRequestDelegate` makes of responses. -/
structure Delegate (ν ρ : Type) where
  interpretResponse : ν → ρ
  /-- The pipeline's processor. -/
  process : ρ → ρ
  /-- `ResponseInfo.cancellation`. -/
  cancellation : ρ

/-- A block that was handed to `DispatchQueue.main.async`. -/
inductive Block (ν ρ κ : Type) where
  | callback (hook : κ) (info : ρ)
  | notify (callbacks : List κ) (info : ρ)
  | responseReceived (raw : ν)
  | broadcastResponse (info : ρ)

structure LiveRequest (ν ρ κ : Type) where
  underlyingOperationStarted : Bool := false
  completedValue : Option ρ := none
  callbacks : List κ := []
  mainQueue : List (Block ν ρ κ) := []
  /-- The responses in the pipeline. -/
  background : List ρ := []
  /-- History: the hooks that were added. -/
  added : List κ := []
  /-- History: the hooks that were called, and what with. -/
  called : List (κ × ρ) := []
  /-- History: the responses of the network. -/
  received : List ν := []
  /-- History: whether the request was cancelled before it was completed. -/
  cancelled : Bool := false

namespace LiveRequest

def async (block : Block ν ρ κ) (r : LiveRequest ν ρ κ) : LiveRequest ν ρ κ :=
  { r with mainQueue := r.mainQueue ++ [block] }

/-- `onCompletion`, with `CallbackGroup.addCallback`. -/
def onCompletion (hook : κ) (r : LiveRequest ν ρ κ) : LiveRequest ν ρ κ :=
  let r := { r with added := r.added ++ [hook] }
  match r.completedValue with
  | some info => r.async (.callback hook info)
  | none => { r with callbacks := r.callbacks ++ [hook] }

/-- `CallbackGroup.notifyOfCompletion`; `none` when its precondition fails. -/
def notifyOfCompletion (info : ρ) (r : LiveRequest ν ρ κ) : Option (LiveRequest ν ρ κ) :=
  if r.completedValue.isSome then none
  else
    let snapshot := r.callbacks
    some ({ r with completedValue := some info, callbacks := [] }.async (.notify snapshot info))

def willIgnore (r : LiveRequest ν ρ κ) : Bool := r.completedValue.isSome

def broadcastResponse (newInfo : ρ) (r : LiveRequest ν ρ κ) : Option (LiveRequest ν ρ κ) :=
  if r.willIgnore then some r else r.notifyOfCompletion newInfo

/-- `guard state == .notStarted`, then the underlying operation begins. -/
def start (r : LiveRequest ν ρ κ) : LiveRequest ν ρ κ :=
  if r.completedValue.isNone && !r.underlyingOperationStarted then
    { r with underlyingOperationStarted := true }
  else r

def cancel (D : Delegate ν ρ) (r : LiveRequest ν ρ κ) : Option (LiveRequest ν ρ κ) :=
  if r.completedValue.isSome then some r
  else { r with cancelled := true }.broadcastResponse D.cancellation

/-- `NetworkRequestDelegate.responseReceived`. -/
def responseReceived (D : Delegate ν ρ) (raw : ν) (r : LiveRequest ν ρ κ) : LiveRequest ν ρ κ :=
  let responseInfo := D.interpretResponse raw
  if r.willIgnore then r else { r with background := r.background ++ [responseInfo] }

/-- Run a block on the main thread. -/
def runBlock (D : Delegate ν ρ) (block : Block ν ρ κ) (r : LiveRequest ν ρ κ) :
    Option (LiveRequest ν ρ κ) :=
  match block with
  | .callback hook info => some { r with called := r.called ++ [(hook, info)] }
  | .notify callbacks info =>
    some { r with called := r.called ++ callbacks.map fun hook => (hook, info) }
  | .responseReceived raw => some (r.responseReceived D raw)
  | .broadcastResponse info => r.broadcastResponse info

end LiveRequest

inductive Event (ν κ : Type) where
  | onCompletion (hook : κ)
  | start
  | cancel
  /-- The networking provider calls its completion handler, on some thread. -/
  | networkResponds (raw : ν)
  /-- The pipeline is through with the response with this index. -/
  | processed (index : Nat)
  /-- The main queue runs its first block. -/
  | runMain

namespace LiveRequest

/-- One step; `none` when it is not possible, or a precondition fails. -/
def step (D : Delegate ν ρ) (r : LiveRequest ν ρ κ) : Event ν κ → Option (LiveRequest ν ρ κ)
  | .onCompletion hook => some (r.onCompletion hook)
  | .start => some r.start
  | .cancel => r.cancel D
  | .networkResponds raw =>
    if r.underlyingOperationStarted then
      some ({ r with received := r.received ++ [raw] }.async (.responseReceived raw))
    else none
  | .processed index =>
    match r.background[index]? with
    | none => none
    | some info =>
      some ({ r with background := r.background.eraseIdx index }.async
        (.broadcastResponse (D.process info)))
  | .runMain =>
    match r.mainQueue with
    | [] => none
    | block :: rest => { r with mainQueue := rest }.runBlock D block

end LiveRequest

/-- Events of the queues: a response leaves the pipeline, or a block runs. -/
def Event.isQueue : Event ν κ → Bool
  | .processed _ | .runMain => true
  | _ => false

/-! ## Calls of hooks -/

/-- The calls of hooks that a block will make. -/
def Block.calls : Block ν ρ κ → List (κ × ρ)
  | .callback hook info => [(hook, info)]
  | .notify callbacks info => callbacks.map fun hook => (hook, info)
  | .responseReceived _ | .broadcastResponse _ => []

/-- The block brings a response. -/
def Block.isResponse : Block ν ρ κ → Bool
  | .responseReceived _ | .broadcastResponse _ => true
  | .callback _ _ | .notify _ _ => false

theorem Block.calls_of_isResponse {block : Block ν ρ κ} (h : block.isResponse = true) :
    block.calls = [] := by
  cases block with
  | callback hook info => cases h
  | notify callbacks info => cases h
  | responseReceived raw => rfl
  | broadcastResponse info => rfl

namespace LiveRequest

variable {D : Delegate ν ρ} {r t : LiveRequest ν ρ κ}

/-- The calls that the blocks on the main queue will make. -/
def scheduled (r : LiveRequest ν ρ κ) : List (κ × ρ) := r.mainQueue.flatMap Block.calls

theorem scheduled_async (block : Block ν ρ κ) (r : LiveRequest ν ρ κ) :
    (r.async block).scheduled = r.scheduled ++ block.calls := by
  simp [scheduled, async]

theorem scheduled_of_mainQueue {block : Block ν ρ κ} {rest : List (Block ν ρ κ)}
    (h : r.mainQueue = block :: rest) :
    r.scheduled = block.calls ++ scheduled { r with mainQueue := rest } := by
  rw [scheduled, h, List.flatMap_cons]
  rfl

/-- Blocks that call hooks do nothing else. -/
theorem runBlock_of_hooks {block : Block ν ρ κ} (h : block.isResponse = false) :
    r.runBlock D block = some { r with called := r.called ++ block.calls } := by
  cases block with
  | callback hook info => rfl
  | notify callbacks info => rfl
  | responseReceived raw => cases h
  | broadcastResponse info => cases h

/-- A hook of a completed request is called from the main queue as well. -/
theorem onCompletion_of_completed {value : ρ} (h : r.completedValue = some value) (hook : κ) :
    r.onCompletion hook =
      LiveRequest.async (.callback hook value) { r with added := r.added ++ [hook] } := by
  simp only [onCompletion, h]

theorem onCompletion_of_waiting (h : r.completedValue = none) (hook : κ) :
    r.onCompletion hook =
      { r with added := r.added ++ [hook], callbacks := r.callbacks ++ [hook] } := by
  simp only [onCompletion, h]

/-- The precondition of `notifyOfCompletion` holds whenever it is called. -/
theorem broadcastResponse_eq (info : ρ) (r : LiveRequest ν ρ κ) :
    r.broadcastResponse info = some (if r.completedValue.isSome then r else
      LiveRequest.async (.notify r.callbacks info)
        { r with completedValue := some info, callbacks := [] }) := by
  unfold broadcastResponse willIgnore notifyOfCompletion
  cases hvalue : r.completedValue <;> rfl

/-- Until the request completes no call is due and its hooks wait; then each was called or
    is due, in the order in which they were added, with the response. -/
def Pays (r : LiveRequest ν ρ κ) : Prop :=
  match r.completedValue with
  | none => r.called = [] ∧ r.scheduled = [] ∧ r.callbacks = r.added
  | some info => r.callbacks = [] ∧ r.called ++ r.scheduled = r.added.map fun hook => (hook, info)

/-- `Pays` before the request is completed. -/
theorem pays_of_waiting (h : r.completedValue = none) :
    r.Pays ↔ r.called = [] ∧ r.scheduled = [] ∧ r.callbacks = r.added := by
  rw [Pays, h]

/-- `Pays` after the request is completed. -/
theorem pays_of_completed {info : ρ} (h : r.completedValue = some info) :
    r.Pays ↔
      r.callbacks = [] ∧ r.called ++ r.scheduled = r.added.map fun hook => (hook, info) := by
  rw [Pays, h]

/-- Nothing but the calls made and due matters. -/
theorem Pays.congr (h : r.Pays) (hvalue : t.completedValue = r.completedValue)
    (hcallbacks : t.callbacks = r.callbacks) (hadded : t.added = r.added)
    (hcalls : t.called ++ t.scheduled = r.called ++ r.scheduled) : t.Pays := by
  cases hr : r.completedValue with
  | none =>
    -- nobody was called and no call is due, so both lists are empty
    obtain ⟨hcalled, hscheduled, hwaiting⟩ := (pays_of_waiting hr).mp h
    rw [hcalled, hscheduled, List.nil_append, List.append_eq_nil_iff] at hcalls
    refine (pays_of_waiting (hvalue.trans hr)).mpr ⟨hcalls.1, hcalls.2, ?_⟩
    rw [hcallbacks, hadded, hwaiting]
  | some info =>
    -- calls may have gone from due to made, in their order
    obtain ⟨hnone, hdue⟩ := (pays_of_completed hr).mp h
    refine (pays_of_completed (hvalue.trans hr)).mpr ⟨hcallbacks.trans hnone, ?_⟩
    rw [hcalls, hadded, hdue]

/-- A new hook waits, or its call is the last one due. -/
theorem Pays.onCompletion (h : r.Pays) (hook : κ) : (r.onCompletion hook).Pays := by
  cases hvalue : r.completedValue with
  | none =>
    -- the hook waits behind the others
    obtain ⟨hcalled, hscheduled, hcallbacks⟩ := (pays_of_waiting hvalue).mp h
    rw [onCompletion_of_waiting hvalue]
    refine (pays_of_waiting ?_).mpr ⟨hcalled, hscheduled, congrArg (· ++ [hook]) hcallbacks⟩
    exact hvalue
  | some info =>
    -- the request was completed before, and the call is due after all others
    obtain ⟨hcallbacks, hdue⟩ := (pays_of_completed hvalue).mp h
    have hlast : r.called ++ (r.scheduled ++ [(hook, info)]) =
        (r.added ++ [hook]).map fun hook => (hook, info) := by
      rw [← List.append_assoc, hdue, List.map_append, List.map_singleton]
    rw [onCompletion_of_completed hvalue]
    refine (@pays_of_completed _ _ _ _ info ?_).mpr ⟨hcallbacks, ?_⟩
    · exact hvalue
    · rw [scheduled_async]
      exact hlast

/-- The first response makes the calls of all hooks due; later ones are ignored. -/
theorem Pays.broadcastResponse {info : ρ} (h : r.Pays) (ht : r.broadcastResponse info = some t) :
    t.Pays := by
  rw [broadcastResponse_eq, Option.some.injEq] at ht
  subst ht
  cases hvalue : r.completedValue with
  | some value =>
    -- a later response is ignored
    rw [Option.isSome_some, if_pos rfl]
    exact h
  | none =>
    -- all hooks that were added are in the snapshot
    obtain ⟨hcalled, hscheduled, hcallbacks⟩ := (pays_of_waiting hvalue).mp h
    have hdue : r.called ++ (r.scheduled ++ r.callbacks.map fun hook => (hook, info)) =
        r.added.map fun hook => (hook, info) := by
      rw [hcalled, hscheduled, hcallbacks]
      rfl
    rw [Option.isSome_none, if_neg Bool.false_ne_true]
    refine (pays_of_completed rfl).mpr ⟨rfl, ?_⟩
    rw [scheduled_async]
    exact hdue

/-- A block that brings a response calls no hooks. -/
theorem Pays.async {block : Block ν ρ κ} (h : r.Pays) (hblock : block.isResponse = true) :
    (r.async block).Pays := by
  refine h.congr rfl rfl rfl ?_
  rw [scheduled_async, Block.calls_of_isResponse hblock, List.append_nil]
  rfl

/-- The block at the head of the main queue makes the calls that are due first. -/
theorem Pays.runMain {block : Block ν ρ κ} {rest : List (Block ν ρ κ)} (h : r.Pays)
    (hmain : r.mainQueue = block :: rest)
    (ht : LiveRequest.runBlock D block { r with mainQueue := rest } = some t) : t.Pays := by
  cases hblock : block.isResponse with
  | false =>
    -- the calls that were due are made
    rw [runBlock_of_hooks hblock, Option.some.injEq] at ht
    subst ht
    refine h.congr rfl rfl rfl ?_
    rw [scheduled_of_mainQueue hmain, ← List.append_assoc]
    rfl
  | true =>
    -- the block calls nobody, so as much is due without it
    have hpopped : Pays { r with mainQueue := rest } := by
      refine h.congr rfl rfl rfl ?_
      rw [scheduled_of_mainQueue hmain, Block.calls_of_isResponse hblock, List.nil_append]
    cases block with
    | callback hook info => cases hblock
    | notify callbacks info => cases hblock
    | responseReceived raw =>
      simp only [runBlock, Option.some.injEq] at ht
      subst ht
      -- it is ignored, or goes into the pipeline: no call comes or goes
      unfold responseReceived
      dsimp only
      split
      · exact hpopped
      · exact hpopped.congr rfl rfl rfl rfl
    | broadcastResponse info => exact hpopped.broadcastResponse ht

/-- Every step keeps the account: a hook is waiting, queued, or has run. -/
theorem Pays.step {e : Event ν κ} (h : r.Pays) (ht : step D r e = some t) : t.Pays := by
  cases e with
  | onCompletion hook =>
    cases ht
    exact h.onCompletion hook
  | start =>
    cases ht
    unfold start
    split
    · exact h.congr rfl rfl rfl rfl
    · exact h
  | cancel =>
    simp only [LiveRequest.step, cancel] at ht
    -- a completed request is not cancelled; another is completed with the cancellation
    split at ht
    · cases ht
      exact h
    · have hr : Pays { r with cancelled := true } := h.congr rfl rfl rfl rfl
      exact hr.broadcastResponse ht
  | networkResponds raw =>
    simp only [LiveRequest.step, Option.ite_none_right_eq_some, Option.some.injEq] at ht
    -- the response is a block that calls nobody
    rw [← ht.2]
    exact Pays.async (h.congr rfl rfl rfl rfl) rfl
  | processed index =>
    simp only [LiveRequest.step] at ht
    split at ht
    · cases ht
    -- so is what the pipeline has made of it
    · cases ht
      exact Pays.async (h.congr rfl rfl rfl rfl) rfl
  | runMain =>
    simp only [LiveRequest.step] at ht
    split at ht
    · cases ht
    · next block rest hmain => exact h.runMain hmain ht

/-! ## Where responses come from -/

/-- The response is on its way: it is in the pipeline, or a block brings it. -/
def Underway (r : LiveRequest ν ρ κ) : Prop :=
  r.background ≠ [] ∨ ∃ block ∈ r.mainQueue, block.isResponse = true

/-- Whoever has answered is heard: the request is completed, or a response is on its way. -/
def Heard (r : LiveRequest ν ρ κ) : Prop :=
  r.received ≠ [] ∨ r.cancelled = true → r.completedValue.isSome = true ∨ r.Underway

/-- What the pipeline makes of a response of the network. -/
def FromNetwork (D : Delegate ν ρ) (r : LiveRequest ν ρ κ) (info : ρ) : Prop :=
  ∃ raw ∈ r.received, info = D.process (D.interpretResponse raw)

/-- What a block brings came from the network. -/
def Brings (D : Delegate ν ρ) (r : LiveRequest ν ρ κ) : Block ν ρ κ → Prop
  | .responseReceived raw => raw ∈ r.received
  | .broadcastResponse info => r.FromNetwork D info
  | .callback _ _ | .notify _ _ => True

/-- No response is made up on its way. -/
structure Genuine (D : Delegate ν ρ) (r : LiveRequest ν ρ κ) : Prop where
  background : ∀ info ∈ r.background, ∃ raw ∈ r.received, info = D.interpretResponse raw
  mainQueue : ∀ block ∈ r.mainQueue, r.Brings D block
  completed : ∀ info, r.completedValue = some info →
    r.FromNetwork D info ∨ (r.cancelled = true ∧ info = D.cancellation)
  heard : r.Heard

theorem genuine_new : Genuine D ({} : LiveRequest ν ρ κ) where
  background _ h := by cases h
  mainQueue _ h := by cases h
  completed _ h := by cases h
  heard h := h.elim (fun h => absurd rfl h) nofun

theorem underway_async {block : Block ν ρ κ} (h : block.isResponse = true) :
    (r.async block).Underway :=
  .inr ⟨block, List.mem_append_right _ (List.mem_singleton_self block), h⟩

theorem Underway.async (h : r.Underway) (block : Block ν ρ κ) : (r.async block).Underway := by
  cases h with
  | inl hbackground => exact .inl hbackground
  | inr hmain =>
    obtain ⟨b, hb, hresponse⟩ := hmain
    exact .inr ⟨b, List.mem_append_left _ hb, hresponse⟩

/-- A block may be added that brings what came from the network. -/
theorem Genuine.async {block : Block ν ρ κ} (h : r.Genuine D) (hblock : r.Brings D block) :
    (r.async block).Genuine D where
  background := h.background
  mainQueue b hb := by
    cases List.mem_append.mp hb with
    | inl hold => exact h.mainQueue b hold
    | inr hnew =>
      rw [List.mem_singleton.mp hnew]
      exact hblock
  completed := h.completed
  heard hanswer := (h.heard hanswer).imp_right fun hunderway => hunderway.async block

/-- The hooks do not matter here. -/
theorem Genuine.congr (h : r.Genuine D) (callbacks added : List κ) (called : List (κ × ρ))
    (started : Bool) :
    Genuine D { r with underlyingOperationStarted := started, callbacks, added, called } :=
  ⟨h.background, h.mainQueue, h.completed, h.heard⟩

/-- A response completes the request, whether it is on the way still or not. -/
theorem genuine_broadcastResponse {info : ρ} (ht : r.broadcastResponse info = some t)
    (hbackground : ∀ info ∈ r.background, ∃ raw ∈ r.received, info = D.interpretResponse raw)
    (hmainQueue : ∀ block ∈ r.mainQueue, r.Brings D block)
    (hcompleted : ∀ info, r.completedValue = some info →
      r.FromNetwork D info ∨ (r.cancelled = true ∧ info = D.cancellation))
    (hinfo : r.FromNetwork D info ∨ (r.cancelled = true ∧ info = D.cancellation)) :
    t.Genuine D := by
  rw [broadcastResponse_eq, Option.some.injEq] at ht
  subst ht
  cases hvalue : r.completedValue with
  | some value =>
    -- the response that the request was completed with stays
    rw [Option.isSome_some, if_pos rfl]
    exact ⟨hbackground, hmainQueue, hcompleted, fun _ => .inl (by rw [hvalue]; rfl)⟩
  | none =>
    rw [Option.isSome_none, if_neg Bool.false_ne_true]
    -- it is completed with this one, and a block will notify the hooks
    apply Genuine.async
    · refine ⟨hbackground, hmainQueue, ?_, fun _ => .inl rfl⟩
      intro value hsome
      cases hsome
      exact hinfo
    · trivial

theorem Genuine.onCompletion (h : r.Genuine D) (hook : κ) : (r.onCompletion hook).Genuine D := by
  cases hvalue : r.completedValue with
  | none =>
    rw [onCompletion_of_waiting hvalue]
    exact h.congr _ _ _ _
  | some info =>
    rw [onCompletion_of_completed hvalue]
    exact (h.congr _ _ _ _).async trivial

/-- A cancellation completes a request that was not completed. -/
theorem Genuine.cancel (h : r.Genuine D) (ht : r.cancel D = some t) : t.Genuine D := by
  unfold LiveRequest.cancel at ht
  split at ht
  · cases ht
    exact h
  · next hwaiting =>
    refine genuine_broadcastResponse ht h.background h.mainQueue ?_ (.inr ⟨rfl, rfl⟩)
    intro info hvalue
    have hvalue : r.completedValue = some info := hvalue
    rw [hvalue] at hwaiting
    exact absurd rfl hwaiting

/-- One more response from the network makes none of the others less genuine. -/
theorem Genuine.networkResponds (h : r.Genuine D) (raw : ν) :
    Genuine D (LiveRequest.async (.responseReceived raw)
      { r with received := r.received ++ [raw] }) := by
  have hmore : ∀ info, r.FromNetwork D info →
      FromNetwork D { r with received := r.received ++ [raw] } info := by
    rintro info ⟨raw', hraw', rfl⟩
    exact ⟨raw', List.mem_append_left _ hraw', rfl⟩
  -- the new response is on the main queue, and so underway
  constructor
  · intro info hinfo
    obtain ⟨raw', hraw', heq⟩ := h.background info hinfo
    exact ⟨raw', List.mem_append_left _ hraw', heq⟩
  · intro block hblock
    cases List.mem_append.mp hblock with
    | inl hold =>
      have hbrings := h.mainQueue block hold
      cases block with
      | callback hook info => trivial
      | notify callbacks info => trivial
      | responseReceived raw' => exact List.mem_append_left _ hbrings
      | broadcastResponse info => exact hmore info hbrings
    | inr hnew =>
      rw [List.mem_singleton.mp hnew]
      exact List.mem_append_right _ (List.mem_singleton_self raw)
  · intro info hvalue
    exact (h.completed info hvalue).imp_left (hmore info)
  · exact fun _ => .inr (underway_async rfl)

/-- The pipeline turns a response of the network into what it makes of it. -/
theorem Genuine.processed {index : Nat} {info : ρ} (h : r.Genuine D)
    (hindex : r.background[index]? = some info) :
    Genuine D (LiveRequest.async (.broadcastResponse (D.process info))
      { r with background := r.background.eraseIdx index }) := by
  obtain ⟨raw, hraw, heq⟩ := h.background info (List.mem_of_getElem? hindex)
  -- the response leaves the pipeline, and the block that it becomes is underway
  constructor
  · exact fun info hinfo => h.background info (List.mem_of_mem_eraseIdx hinfo)
  · intro block hblock
    cases List.mem_append.mp hblock with
    | inl hold =>
      have hbrings := h.mainQueue block hold
      cases block <;> exact hbrings
    | inr hnew =>
      rw [List.mem_singleton.mp hnew]
      exact ⟨raw, hraw, congrArg D.process heq⟩
  · exact h.completed
  · exact fun _ => .inr (underway_async rfl)

/-- A block brings what came from the network, or calls hooks. -/
theorem Genuine.runMain {block : Block ν ρ κ} {rest : List (Block ν ρ κ)} (h : r.Genuine D)
    (hmain : r.mainQueue = block :: rest)
    (ht : LiveRequest.runBlock D block { r with mainQueue := rest } = some t) : t.Genuine D := by
  have hblock : r.Brings D block := h.mainQueue block (by rw [hmain]; exact List.mem_cons_self)
  -- the blocks behind it still bring what came from the network
  have hrest : ∀ b ∈ rest, Brings D { r with mainQueue := rest } b := by
    intro b hb
    have hbrings := h.mainQueue b (by rw [hmain]; exact List.mem_cons_of_mem _ hb)
    cases b <;> exact hbrings
  cases hresponse : block.isResponse with
  | false =>
    rw [runBlock_of_hooks hresponse, Option.some.injEq] at ht
    subst ht
    refine ⟨h.background, ?_, h.completed, fun hanswer => ?_⟩
    · intro b hb
      have hbrings := hrest b hb
      cases b <;> exact hbrings
    · -- the block that ran is not the one that brings the response
      refine (h.heard hanswer).imp_right fun hunderway => ?_
      cases hunderway with
      | inl hbackground => exact .inl hbackground
      | inr hsome =>
        obtain ⟨b, hb, hbresponse⟩ := hsome
        rw [hmain] at hb
        cases List.mem_cons.mp hb with
        | inl heq =>
          rw [heq, hresponse] at hbresponse
          cases hbresponse
        | inr hmem => exact .inr ⟨b, hmem, hbresponse⟩
  | true =>
    cases block with
    | callback hook info => cases hresponse
    | notify callbacks info => cases hresponse
    | responseReceived raw =>
      simp only [runBlock, Option.some.injEq, responseReceived] at ht
      subst ht
      split
      -- a response after the completion is ignored; any other one is in the pipeline now
      · next hignored => exact ⟨h.background, hrest, h.completed, fun _ => .inl hignored⟩
      · refine ⟨?_, ?_, h.completed, fun _ => .inr (.inl (List.append_ne_nil_of_right_ne_nil _
          (List.cons_ne_nil _ _)))⟩
        · intro info hinfo
          cases List.mem_append.mp hinfo with
          | inl hold => exact h.background info hold
          | inr hnew => exact ⟨raw, hblock, List.mem_singleton.mp hnew⟩
        · intro b hb
          have hbrings := hrest b hb
          cases b <;> exact hbrings
    | broadcastResponse info =>
      -- the pipeline has made it of a response of the network
      exact genuine_broadcastResponse ht h.background hrest h.completed (.inl hblock)

/-- Every step keeps the responses genuine: each comes from the network, through the pipeline,
    or is a cancellation. -/
theorem Genuine.step {e : Event ν κ} (h : r.Genuine D) (ht : step D r e = some t) :
    t.Genuine D := by
  cases e with
  | onCompletion hook =>
    cases ht
    exact h.onCompletion hook
  | start =>
    cases ht
    unfold start
    split
    · exact h.congr _ _ _ _
    · exact h
  | cancel => exact h.cancel ht
  | networkResponds raw =>
    simp only [LiveRequest.step, Option.ite_none_right_eq_some, Option.some.injEq] at ht
    rw [← ht.2]
    exact h.networkResponds raw
  -- the pipeline works on what was received
  | processed index =>
    simp only [LiveRequest.step] at ht
    split at ht
    · cases ht
    · next info hindex =>
      cases ht
      exact h.processed hindex
  | runMain =>
    simp only [LiveRequest.step] at ht
    split at ht
    · cases ht
    · next block rest hmain => exact h.runMain hmain ht

/-! ## Whole runs -/

/-- What holds of a request at all times. -/
structure Sound (D : Delegate ν ρ) (r : LiveRequest ν ρ κ) : Prop where
  pays : r.Pays
  genuine : r.Genuine D

theorem sound_new : Sound D ({} : LiveRequest ν ρ κ) := ⟨⟨rfl, rfl, rfl⟩, genuine_new⟩

theorem Sound.step {e : Event ν κ} (h : r.Sound D) (ht : step D r e = some t) : t.Sound D :=
  ⟨h.pays.step ht, h.genuine.step ht⟩

theorem sound_run {es : List (Event ν κ)} (h : run (step D) {} es = some t) : t.Sound D :=
  run_invariant (fun _ _ _ hr ht => hr.step ht) sound_new h

/-- Hooks are added by `onCompletion` and called by blocks of the main queue. -/
theorem called_prefix (h : r.Pays) {info : ρ} (hvalue : r.completedValue = some info) :
    r.called <+: r.added.map fun hook => (hook, info) :=
  ⟨r.scheduled, ((pays_of_completed hvalue).mp h).2⟩

/-- A step of the queues adds no hooks, hears nobody and may call hooks. -/
theorem queue_step {e : Event ν κ} (he : e.isQueue = true) (ht : step D r e = some t) :
    t.added = r.added ∧ t.received = r.received ∧ t.cancelled = r.cancelled ∧
      r.called <+: t.called := by
  cases e with
  | onCompletion hook => cases he
  | start => cases he
  | cancel => cases he
  | networkResponds raw => cases he
  | processed index =>
    simp only [LiveRequest.step] at ht
    split at ht
    · cases ht
    -- a response that leaves the pipeline becomes a block
    · cases ht
      exact ⟨rfl, rfl, rfl, List.prefix_refl _⟩
  | runMain =>
    simp only [LiveRequest.step] at ht
    split at ht
    · cases ht
    · next block rest hmain =>
      -- blocks call hooks, or bring a response a stage further
      cases block with
      | callback hook info =>
        cases ht
        exact ⟨rfl, rfl, rfl, List.prefix_append _ _⟩
      | notify callbacks info =>
        cases ht
        exact ⟨rfl, rfl, rfl, List.prefix_append _ _⟩
      | responseReceived raw =>
        cases ht
        unfold responseReceived
        dsimp only
        split <;> exact ⟨rfl, rfl, rfl, List.prefix_refl _⟩
      | broadcastResponse info =>
        rw [runBlock, broadcastResponse_eq, Option.some.injEq] at ht
        subst ht
        split <;> exact ⟨rfl, rfl, rfl, List.prefix_refl _⟩

/-- A request that was completed stays so, with the same response. -/
theorem completedValue_step {e : Event ν κ} {info : ρ} (hvalue : r.completedValue = some info)
    (ht : step D r e = some t) : t.completedValue = some info := by
  have hsome : r.completedValue.isSome = true := by
    rw [hvalue]
    rfl
  cases e with
  | onCompletion hook =>
    cases ht
    -- the hook is queued with the response there is
    rw [onCompletion_of_completed hvalue]
    exact hvalue
  | start =>
    cases ht
    unfold start
    split <;> exact hvalue
  | cancel =>
    -- `cancel` returns early
    simp only [LiveRequest.step, LiveRequest.cancel, if_pos hsome, Option.some.injEq] at ht
    exact ht ▸ hvalue
  | networkResponds raw =>
    simp only [LiveRequest.step, Option.ite_none_right_eq_some, Option.some.injEq] at ht
    exact ht.2 ▸ hvalue
  | processed index =>
    simp only [LiveRequest.step] at ht
    split at ht
    · cases ht
    · cases ht
      exact hvalue
  | runMain =>
    simp only [LiveRequest.step] at ht
    split at ht
    · cases ht
    · next block rest hmain =>
      cases block with
      | callback hook info =>
        cases ht
        exact hvalue
      | notify callbacks info =>
        cases ht
        exact hvalue
      | responseReceived raw =>
        cases ht
        unfold responseReceived
        dsimp only
        split <;> exact hvalue
      | broadcastResponse newInfo =>
        -- so does `broadcastResponse`
        rw [runBlock, broadcastResponse_eq, Option.some.injEq] at ht
        rw [← ht, if_pos hsome]
        exact hvalue

theorem completedValue_run {es : List (Event ν κ)} {info : ρ}
    (hvalue : r.completedValue = some info) (h : run (step D) r es = some t) :
    t.completedValue = some info :=
  run_invariant (fun _ _ _ hr ht => completedValue_step hr ht) hvalue h

/-! ## Nothing is left to run -/

/-- How many steps of the queues a block will take. -/
def blockWork : Block ν ρ κ → Nat
  | .callback _ _ | .notify _ _ => 1
  -- a response becomes a block that notifies, by way of the pipeline
  | .broadcastResponse _ => 2
  | .responseReceived _ => 4

/-- How many steps of the queues are left. -/
def work (r : LiveRequest ν ρ κ) : Nat :=
  (r.mainQueue.map blockWork).sum + 3 * r.background.length

/-- Nothing is left to run. -/
def Quiet (r : LiveRequest ν ρ κ) : Prop := r.mainQueue = [] ∧ r.background = []

theorem work_async (block : Block ν ρ κ) (r : LiveRequest ν ρ κ) :
    (r.async block).work = r.work + blockWork block := by
  simp only [work, async, List.map_append, List.sum_append, List.map_cons, List.map_nil,
    List.sum_cons, List.sum_nil]
  omega

theorem work_of_mainQueue {block : Block ν ρ κ} {rest : List (Block ν ρ κ)}
    (h : r.mainQueue = block :: rest) :
    r.work = blockWork block + work { r with mainQueue := rest } := by
  simp only [work, h, List.map_cons, List.sum_cons]
  omega

theorem blockWork_pos (block : Block ν ρ κ) : 0 < blockWork block := by
  cases block <;> exact Nat.succ_pos _

/-- Without work both queues are empty. -/
theorem quiet_of_work_eq_zero (h : r.work = 0) : r.Quiet := by
  constructor
  · cases hmain : r.mainQueue with
    | nil => rfl
    | cons block rest =>
      -- a block would be work
      have hpos := blockWork_pos block
      rw [work_of_mainQueue hmain] at h
      omega
  -- nor is anything in the background
  · apply List.eq_nil_of_length_eq_zero
    unfold work at h
    omega

/-- Whatever a block does, less is left afterwards. -/
theorem runBlock_work_lt (block : Block ν ρ κ) (r : LiveRequest ν ρ κ) :
    ∃ t, r.runBlock D block = some t ∧ t.work < blockWork block + r.work := by
  cases hresponse : block.isResponse with
  | false =>
    -- the block has called its hooks, and leaves nothing behind
    have hpos := blockWork_pos block
    refine ⟨_, runBlock_of_hooks hresponse, ?_⟩
    simp only [work]
    omega
  | true =>
    cases block with
    | callback hook info => cases hresponse
    | notify callbacks info => cases hresponse
    | responseReceived raw =>
      -- a response in the pipeline is less work than one on the main queue
      refine ⟨_, rfl, ?_⟩
      unfold responseReceived
      dsimp only
      split
      · simp only [blockWork]
        omega
      · simp only [work, blockWork, List.length_append, List.length_singleton]
        omega
    | broadcastResponse info =>
      -- it is ignored, or becomes a block that notifies
      refine ⟨_, broadcastResponse_eq info r, ?_⟩
      split
      · simp only [blockWork]
        omega
      · rw [work_async]
        simp only [work, blockWork]
        omega

/-- A response that leaves the pipeline has less work before it. -/
theorem processed_work_lt {index : Nat} {info : ρ} (h : r.background[index]? = some info) :
    (LiveRequest.async (.broadcastResponse (D.process info))
      { r with background := r.background.eraseIdx index }).work < r.work := by
  have hlt : index < r.background.length := (List.getElem?_eq_some_iff.mp h).1
  have hlen := List.length_eraseIdx_add_one hlt
  rw [work_async]
  simp only [work, blockWork]
  omega

/-- Every step of the queues leaves less to run. -/
theorem work_lt {e : Event ν κ} (he : e.isQueue = true) (ht : step D r e = some t) :
    t.work < r.work := by
  cases e with
  | onCompletion hook => cases he
  | start => cases he
  | cancel => cases he
  | networkResponds raw => cases he
  -- the response moves from the background to the main queue, where it weighs less
  | processed index =>
    simp only [LiveRequest.step] at ht
    split at ht
    · cases ht
    · next info hindex =>
      cases ht
      exact processed_work_lt hindex
  | runMain =>
    simp only [LiveRequest.step] at ht
    split at ht
    · cases ht
    · next block rest hmain =>
      -- a block is taken off, and what it queues weighs less than it did
      obtain ⟨t', ht', hlt⟩ := runBlock_work_lt (D := D) block { r with mainQueue := rest }
      rw [ht', Option.some.injEq] at ht
      rw [work_of_mainQueue hmain, ← ht]
      exact hlt

/-- The queues are never stuck. -/
theorem exists_queue_step (D : Delegate ν ρ) (h : r.work ≠ 0) :
    ∃ e t, Event.isQueue e = true ∧ step D r e = some t := by
  cases hmain : r.mainQueue with
  | cons block rest =>
    obtain ⟨t, ht, -⟩ := runBlock_work_lt (D := D) block { r with mainQueue := rest }
    refine ⟨.runMain, t, rfl, ?_⟩
    simp only [LiveRequest.step, hmain]
    exact ht
  -- the main queue is empty, so a response is in the pipeline
  | nil =>
    cases hbackground : r.background with
    | nil =>
      rw [work, hmain, hbackground] at h
      exact absurd rfl h
    | cons info rest =>
      refine ⟨.processed 0, LiveRequest.async (.broadcastResponse (D.process info))
        { r with background := r.background.eraseIdx 0 }, rfl, ?_⟩
      simp only [LiveRequest.step, hbackground, List.getElem?_cons_zero]

/-- Steps of the queues, in any order, end. -/
theorem queue_length_le {es : List (Event ν κ)} (hes : ∀ e ∈ es, Event.isQueue e = true)
    (h : run (step D) r es = some t) : es.length ≤ r.work :=
  Nat.le_of_add_right_le (length_le_of_variant (fun _ _ _ he ht => work_lt he ht) hes h)

/-- Once nothing is left to run, an answered request has called all its hooks. -/
theorem Sound.called_of_quiet (h : r.Sound D) (hquiet : r.Quiet)
    (hanswer : r.received ≠ [] ∨ r.cancelled = true) :
    ∃ info, r.completedValue = some info ∧ r.called = r.added.map fun hook => (hook, info) := by
  obtain ⟨hmain, hbackground⟩ := hquiet
  -- an answered request is completed, or a response is underway: then something is left to run
  cases h.genuine.heard hanswer with
  | inl hsome =>
    obtain ⟨info, hvalue⟩ := Option.isSome_iff_exists.mp hsome
    have hdue := ((pays_of_completed hvalue).mp h.pays).2
    rw [scheduled, hmain, List.flatMap_nil, List.append_nil] at hdue
    exact ⟨info, hvalue, hdue⟩
  | inr hunderway =>
    cases hunderway with
    | inl hpipeline => exact absurd hbackground hpipeline
    | inr hblock =>
      obtain ⟨block, hmem, -⟩ := hblock
      rw [hmain] at hmem
      cases hmem

end LiveRequest

end Siesta
