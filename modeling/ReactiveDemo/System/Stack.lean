import ReactiveDemo.Siesta.Response
import ReactiveDemo.Client.Calls
import ReactiveDemo.System.World

/-!
# The app on Siesta

The client and the server with Siesta's requests between them. Here nothing says that a
request reports once, or which responses it reports as failures: the networking provider
calls completion handlers when it likes, with a response of the server to that request or
with an error, as often as it likes; each request has blocks on the main queue and responses
in the pipeline; and the callbacks of `onSuccess` and `onFailure` run when a block calls them.

The blocks of different requests stand in queues of their own, of which any may move next:
`DispatchQueue.main` runs all of them in the order in which they were handed to it, which is
one of the orders here.

## Key results

- `Wired.step`: a request that is pending has called none of its callbacks that answer, and
  any other has called one
- `success_of_completion`: what a success that the server sent comes from
-/

namespace ReactiveDemo

open Transition Server

/-! ## Transformers -/

/-- The header that Rails sends with `render json:`. -/
def jsonContentType : String := "application/json; charset=utf-8"

/-- What Siesta uses of Foundation, and what Rails puts on the wire. -/
structure Foundation (Data : Type) where
  /-- `Data()`. -/
  noData : Data
  /-- `HTTPURLResponse.localizedString(forStatusCode:).capitalized`. -/
  localizedString : Nat → String
  /-- The regular expression made from patterns of content types. -/
  contentTypeMatcher : List String → String → Bool
  /-- `JSONSerialization.jsonObject(with:options:)`. -/
  jsonObject : Data → Option Json
  /-- `String(data:encoding:)`, for the name of an encoding. -/
  string : String → Data → Option String
  /-- Whether there is a `UIImage(data:)`. -/
  isImage : Data → Bool
  /-- The body of `render json:`. -/
  render : Json → Data
  /-- The page that Rails renders for an exception. -/
  errorPage : RubyError → Data
  /-- `*` stands for characters other than slash and plus. -/
  matches_json : contentTypeMatcher ["*/json", "*/*+json"] jsonContentType = true
  matches_text : contentTypeMatcher ["text/*"] jsonContentType = false
  matches_image : contentTypeMatcher ["image/*"] jsonContentType = false

/-- What the standard transformers make of data. -/
inductive Parsed where
  | json (value : Json)
  | text (value : String)
  | image

/-- Content as the app reads it: `jsonDict` and `jsonArray` take anything but JSON as empty. -/
def jsonOf {Data : Type} : Siesta.Content Data Parsed → Json
  | .parsed (.json value) => value
  | _ => .null

variable {Data : Type}

namespace Foundation

/-- `JSONResponseTransformer`: a dictionary or an array. -/
def jsonTransformer (F : Foundation Data) : Siesta.Transformer Data Parsed where
  contentTypeMatcher := F.contentTypeMatcher ["*/json", "*/*+json"]
  transformErrors := true
  processor _ data :=
    match F.jsonObject data with
    | some (.obj fields) => some (.json (.obj fields))
    | some (.arr elems) => some (.json (.arr elems))
    | _ => none

/-- `TextResponseTransformer`. -/
def textTransformer (F : Foundation Data) : Siesta.Transformer Data Parsed where
  contentTypeMatcher := F.contentTypeMatcher ["text/*"]
  transformErrors := true
  processor charset data := (F.string (charset.getD "ISO-8859-1") data).map .text

/-- `ImageResponseTransformer`. -/
def imageTransformer (F : Foundation Data) : Siesta.Transformer Data Parsed where
  contentTypeMatcher := F.contentTypeMatcher ["image/*"]
  transformErrors := false
  processor _ data := if F.isImage data then some .image else none

/-- The pipeline of a `Service`: the standard transformers are in its third stage. -/
def pipeline (F : Foundation Data) : Siesta.Pipeline Data Parsed :=
  [[], [], [F.jsonTransformer, F.textTransformer, F.imageTransformer], [], []]

/-- The delegate of the app's requests. They do not load resources, so none has data. -/
def delegate (F : Foundation Data) :
    Siesta.Delegate (Siesta.Completion Data) (Siesta.ResponseInfo Data Parsed) :=
  Siesta.networkRequestDelegate F.localizedString F.noData none F.pipeline

/-- The server's answer, as the networking provider passes it on. -/
def completion (F : Foundation Data) : Outcome → Siesta.Completion Data
  | .ok response =>
    { response := some
        { statusCode := response.status, contentType := some jsonContentType,
          textEncodingName := some "utf-8" }
      body := some (F.render response.body) }
  | .error e =>
    { response := some
        { statusCode := e.status, contentType := some "text/html; charset=UTF-8",
          textEncodingName := some "utf-8" }
      body := some (F.errorPage e) }

/-- The JSON of the answer is read as it was written. -/
def Carries (F : Foundation Data) : Outcome → Prop
  | .ok response => F.jsonObject (F.render response.body) = some response.body
  | .error _ => True

/-- Data that is JSON or is not, and content types compared with those in use. -/
def reference : Foundation (Option Json) where
  noData := none
  localizedString _ := "Unknown"
  contentTypeMatcher patterns type :=
    type == jsonContentType && patterns == ["*/json", "*/*+json"]
  jsonObject data := data
  string _ _ := none
  isImage _ := false
  render body := some body
  errorPage _ := none
  matches_json := by decide
  matches_text := by decide
  matches_image := by decide

theorem carries_reference (outcome : Outcome) : reference.Carries outcome := by
  cases outcome with
  | ok response => rfl
  | error e => trivial

end Foundation

/-! ## Requests -/

/-- The hooks that the app adds to a request. -/
inductive Hook where
  | onSuccess
  | onFailure
deriving DecidableEq

abbrev Wire (Data : Type) :=
  Siesta.LiveRequest (Siesta.Completion Data) (Siesta.ResponseInfo Data Parsed) Hook

/-- `Resource.request` starts the request, then the app adds its hooks. -/
def issue : Wire Data :=
  (Siesta.LiveRequest.start {}).onCompletion .onSuccess |>.onCompletion .onFailure

/-- The callback that a call of a hook runs: `onSuccess` ignores failures, and `onFailure`
    ignores successes. -/
def callback? (call : Call) (c : Hook × Siesta.ResponseInfo Data Parsed) : Option Event :=
  match c.1, c.2.response with
  | .onSuccess, .success entity => some (Event.succeeded call (jsonOf entity.content))
  | .onFailure, .failure error =>
    some (Event.failed call ⟨error.entity.map fun e => jsonOf e.content, error.userMessage⟩)
  | _, _ => none

/-- The callbacks that calls of hooks run. -/
def callbacks (call : Call) (calls : List (Hook × Siesta.ResponseInfo Data Parsed)) : List Event :=
  calls.filterMap (callback? call)

/-! ## The system -/

structure Stack (Data : Type) where
  client : Process
  db : Database
  inbox : List Reply := []
  /-- The requests that the client has started. -/
  requests : List (Call × Wire Data) := []

namespace Stack

inductive Act (Data : Type) where
  /-- A callback of the client that is no response. -/
  | client (e : Event)
  /-- The server handles a request of the client. -/
  | serve (call : Call) (env : Env)
  /-- The server handles a request of somebody else. -/
  | other (env : Env) (request : HttpRequest)
  /-- The provider passes the reply with this index to the request with that index. -/
  | respond (index reply : Nat)
  /-- The provider passes an error to the request with this index. -/
  | lose (index : Nat) (completion : Siesta.Completion Data)
  /-- A step of the queues for the request with this index. -/
  | queue (index : Nat) (e : Siesta.Event (Siesta.Completion Data) Hook)

/-- The client has run; what it has started is issued. -/
def advance (client : Process) (s : Stack Data) : Stack Data :=
  { s with
    client
    requests := s.requests ++
      (Process.startedFrom s.client.nextCall client).map fun call => (call, issue) }

/-- The provider calls the completion handler of the request with this index. -/
def complete (F : Foundation Data) (index : Nat) (call : Call) (r : Wire Data)
    (c : Siesta.Completion Data) (s : Stack Data) : Option (Stack Data) :=
  (r.step F.delegate (.networkResponds c)).map fun r' =>
    { s with requests := s.requests.set index (call, r') }

/-- The queues move, and the callbacks run that are called. -/
def runQueue (F : Foundation Data) (P : Platform) (index : Nat) (call : Call) (r : Wire Data)
    (e : Siesta.Event (Siesta.Completion Data) Hook) (s : Stack Data) : Option (Stack Data) :=
  (r.step F.delegate e).bind fun r' =>
    (run (Process.step P) s.client (callbacks call (r'.called.drop r.called.length))).map
      fun client => advance client { s with requests := s.requests.set index (call, r') }

/-- One step; `none` when it is not possible, or the client traps. -/
def step (F : Foundation Data) (G : Gems) (P : Platform) (s : Stack Data) :
    Act Data → Option (Stack Data)
  | .client e => if e.isLocal then (s.client.step P e).map fun client => s.advance client else none
  | .serve call env =>
    if call ∈ s.client.outbox then
      let result := handle G env call.request.http s.db
      some { s with
        client := { s.client with outbox := s.client.outbox.erase call }
        db := result.2
        inbox := s.inbox ++ [⟨call, result.1, s.db.thoughts.rows.length⟩] }
    else none
  | .other env request => some { s with db := (handle G env request s.db).2 }
  | .respond index reply =>
    match s.requests[index]?, s.inbox[reply]? with
    | some (call, r), some ⟨call', outcome, _⟩ =>
      if call' = call then s.complete F index call r (F.completion outcome) else none
    | _, _ => none
  | .lose index completion =>
    match s.requests[index]? with
    | some (call, r) =>
      if completion.error.isSome then s.complete F index call r completion else none
    | none => none
  | .queue index e =>
    match s.requests[index]? with
    | some (call, r) => if e.isQueue then s.runQueue F P index call r e else none
    | none => none

/-- The client's process and the server's database at the start. -/
def start (r : Realm) (db : Database) : Stack Data where
  client := Process.launch r
  db := db
  requests := (Process.launch r).pending.map fun call => (call, issue)

end Stack

/-! ## Responses -/

namespace Foundation

variable {F : Foundation Data}

/-- An error that the pipeline has processed is an error still. -/
theorem process_failure {info : Siesta.ResponseInfo Data Parsed}
    {error : Siesta.RequestError Data Parsed} (h : info.response = .failure error)
    (hnew : info.isNew = true) :
    Siesta.IsErrorOf error (F.delegate.process info).response := by
  have hprocess : (F.delegate.process info).response = F.pipeline.process info.response := by
    simp only [delegate, Siesta.networkRequestDelegate, Siesta.transformResponse, hnew, if_true]
  rw [hprocess, h]
  exact Siesta.pipeline_failure F.pipeline error

/-- Siesta reports an error status or an error of the provider as a failure. -/
theorem response_of_isError {c : Siesta.Completion Data}
    (h : Siesta.isError (c.response.map Siesta.HTTPURLResponse.statusCode) = true ∨
      c.error.isSome = true) :
    Siesta.IsErrorOf (.ofResponse F.localizedString c.response c.body c.error)
      (F.delegate.process (F.delegate.interpretResponse c)).response := by
  have hinterpret : F.delegate.interpretResponse c =
      { response := .failure (.ofResponse F.localizedString c.response c.body c.error) } := by
    simp only [delegate, Siesta.networkRequestDelegate, Siesta.interpretResponse]
    rw [if_pos (Bool.or_eq_true_iff.mpr h)]
  rw [hinterpret]
  exact process_failure rfl rfl

/-- A JSON body is parsed by the JSON transformer alone. -/
theorem process_json {response : Siesta.Response Data Parsed}
    (h : response.contentType = some jsonContentType) :
    F.pipeline.process response = F.jsonTransformer.process response := by
  have hstages : F.pipeline.flatten =
      [] ++ F.jsonTransformer :: [F.textTransformer, F.imageTransformer] := rfl
  refine Siesta.pipeline_eq_process hstages h nofun ?_
  -- no other transformer of that stage takes the content type
  intro T hT
  rcases List.mem_pair.mp hT with rfl | rfl
  · exact F.matches_text
  · exact F.matches_image

/-- Every exception is answered with an error status. -/
theorem le_status (e : RubyError) : 400 ≤ e.status := by
  cases e with
  | parameterMissing key => exact le_refl 400
  | _ => decide

/-- `rawObj as? JSONConvertible`. -/
def isConvertible : Json → Bool
  | .obj _ | .arr _ => true
  | _ => false

/-- The JSON transformer takes a body that is an object or an array. -/
theorem processEntity_render {body : Json} (hbody : F.jsonObject (F.render body) = some body)
    {entity : Siesta.Entity Data Parsed} (hentity : entity.content = .data (F.render body)) :
    F.jsonTransformer.processEntity entity =
      if isConvertible body then .success { entity with content := .parsed (.json body) }
      else .failure { userMessage := "Cannot parse server response" } := by
  simp only [Siesta.Transformer.processEntity, hentity, jsonTransformer, hbody]
  cases body <;> rfl

/-- A response that is no error, as it leaves the pipeline. -/
theorem process_completion {response : Server.Response}
    (hbody : F.jsonObject (F.render response.body) = some response.body)
    (hstatus : response.status < 400) (hmodified : response.status ≠ 304) :
    (F.delegate.process (F.delegate.interpretResponse (F.completion (.ok response)))).response =
      if isConvertible response.body then
        .success ⟨.parsed (.json response.body), jsonContentType, some "utf-8"⟩
      else .failure { userMessage := "Cannot parse server response" } := by
  have hinterpret : F.delegate.interpretResponse (F.completion (.ok response)) =
      { response := .success ⟨.data (F.render response.body), jsonContentType, some "utf-8"⟩ } := by
    simp only [delegate, Siesta.networkRequestDelegate, Siesta.interpretResponse, completion]
    rw [if_neg (by simpa [Siesta.isError] using hstatus), if_neg (by simpa using hmodified)]
    rfl
  -- it is no error and there is data, so it enters the pipeline as a success
  have hmatches : (some jsonContentType).any F.jsonTransformer.contentTypeMatcher = true :=
    F.matches_json
  rw [hinterpret]
  simp only [delegate, Siesta.networkRequestDelegate, Siesta.transformResponse, if_true]
  rw [process_json rfl, Siesta.Transformer.process]
  simp only [Siesta.Response.contentType, hmatches, if_true]
  exact processEntity_render hbody rfl

/-- A success that the server sent has the body of a response with another status than an
    error's. -/
theorem success_of_completion {outcome : Outcome} (hcarries : F.Carries outcome)
    {entity : Siesta.Entity Data Parsed}
    (h : (F.delegate.process (F.delegate.interpretResponse (F.completion outcome))).response =
      .success entity) :
    ∃ response, outcome = .ok response ∧ response.status < 400 ∧
      jsonOf entity.content = response.body := by
  -- a success is no failure, whatever its error
  have hfails : ∀ error, Siesta.IsErrorOf error (F.delegate.process
      (F.delegate.interpretResponse (F.completion outcome))).response → False := by
    rintro error ⟨error', heq, -⟩
    rw [h] at heq
    cases heq
  cases outcome with
  | error e =>
    -- the page of an exception has an error status
    refine (hfails _ (response_of_isError (.inl ?_))).elim
    exact decide_eq_true (le_status e)
  | ok response =>
    by_cases hstatus : 400 ≤ response.status
    · refine (hfails _ (response_of_isError (.inl ?_))).elim
      exact decide_eq_true hstatus
    · by_cases hmodified : response.status = 304
      · -- not modified, but the resource has no data
        refine (hfails { userMessage := "No data available" } (process_failure ?_ ?_)).elim
        · simp only [delegate, Siesta.networkRequestDelegate, Siesta.interpretResponse, completion]
          rw [if_neg (by simpa [Siesta.isError] using hstatus), if_pos (by simp [hmodified])]
        · simp only [delegate, Siesta.networkRequestDelegate, Siesta.interpretResponse, completion]
          rw [if_neg (by simpa [Siesta.isError] using hstatus), if_pos (by simp [hmodified])]
      · rw [process_completion hcarries (Nat.lt_of_not_le hstatus) hmodified] at h
        split at h
        · cases h
          exact ⟨response, rfl, Nat.lt_of_not_le hstatus, rfl⟩
        · cases h

end Foundation

/-! ## Callbacks -/

theorem Event.call?_succeeded (call : Call) (body : Json) :
    (Event.succeeded call body).call? = some call := by
  unfold Event.succeeded
  cases call.request <;> rfl

theorem Event.call?_failed (call : Call) (error : RequestError) :
    (Event.failed call error).call? = some call := by
  unfold Event.failed
  cases call.request <;> rfl

theorem Event.call?_of_isLocal {e : Event} (h : e.isLocal = true) : e.call? = none := by
  cases e <;> first | rfl | cases h

/-- Both hooks hear a response, and one of them runs its callback. -/
theorem callbacks_hooks (call : Call) (info : Siesta.ResponseInfo Data Parsed) :
    ∃ e, e.call? = some call ∧
      callbacks call ([Hook.onSuccess, .onFailure].map fun hook => (hook, info)) = [e] := by
  cases hresponse : info.response with
  | success entity =>
    refine ⟨_, Event.call?_succeeded call (jsonOf entity.content), ?_⟩
    simp [callbacks, callback?, hresponse]
  | failure error =>
    refine ⟨_, Event.call?_failed call
      ⟨error.entity.map fun e => jsonOf e.content, error.userMessage⟩, ?_⟩
    simp [callbacks, callback?, hresponse]

theorem callbacks_append (call : Call)
    (cs ds : List (Hook × Siesta.ResponseInfo Data Parsed)) :
    callbacks call (cs ++ ds) = callbacks call cs ++ callbacks call ds := List.filterMap_append

/-- A request has run no callback, or the one that answers to its response. -/
theorem callbacks_called {F : Foundation Data} {r : Wire Data} (hr : r.Sound F.delegate)
    (hhooks : r.added = [.onSuccess, .onFailure]) (call : Call) :
    callbacks call r.called = [] ∨
      ∃ e, e.call? = some call ∧ callbacks call r.called = [e] := by
  cases hvalue : r.completedValue with
  | none =>
    -- before the completion no hook was called
    rw [((Siesta.LiveRequest.pays_of_waiting hvalue).mp hr.pays).1]
    exact .inl rfl
  | some info =>
    -- afterwards the calls are the first of both hooks, with the response, and of the two
    -- callbacks only one answers to it
    have hgrows := (Siesta.LiveRequest.called_prefix hr.pays hvalue).filterMap (callback? call)
    obtain ⟨e, he, heq⟩ := callbacks_hooks call info
    rw [hhooks] at hgrows
    change callbacks call r.called <+: callbacks call _ at hgrows
    rw [heq] at hgrows
    cases List.prefix_cons_iff.mp hgrows with
    | inl hnone => exact .inl hnone
    | inr hone =>
      obtain ⟨rest, hcallbacks, hrest⟩ := hone
      rw [List.prefix_nil.mp hrest] at hcallbacks
      exact .inr ⟨e, he, hcallbacks⟩

/-- The callback runs once. -/
theorem callbacks_drop {F : Foundation Data} {r r' : Wire Data} (hr' : r'.Sound F.delegate)
    (hhooks : r'.added = [.onSuccess, .onFailure]) (hgrows : r.called <+: r'.called)
    (call : Call) :
    callbacks call r'.called = callbacks call r.called ∧
      callbacks call (r'.called.drop r.called.length) = [] ∨
    callbacks call r.called = [] ∧ ∃ e, e.call? = some call ∧ callbacks call r'.called = [e] ∧
      callbacks call (r'.called.drop r.called.length) = [e] := by
  obtain ⟨new, hnew⟩ := hgrows
  -- of the calls before and the new ones together, at most one answers
  have hall := callbacks_called hr' hhooks call
  rw [← hnew, callbacks_append] at hall
  rw [← hnew, List.drop_left, callbacks_append]
  cases hlast : callbacks call new with
  -- the new calls run no callback
  | nil => exact .inl ⟨List.append_nil _, rfl⟩
  | cons e rest =>
    rw [hlast] at hall
    cases hall with
    | inl hnone => simp at hnone
    | inr hone =>
      -- they run one, so those before ran none
      obtain ⟨e', he', heq⟩ := hone
      cases hfirst : callbacks call r.called with
      | nil =>
        rw [hfirst, List.nil_append] at heq
        rw [heq]
        exact .inr ⟨rfl, e', he', rfl, rfl⟩
      | cons e₀ rest₀ => simp [hfirst] at heq

/-! ## The invariant -/

namespace Stack

variable {F : Foundation Data} {G : Gems} {P : Platform} {s s' : Stack Data}

/-- The request has the app's hooks, and hears the provider and the server only. -/
structure Linked (F : Foundation Data) (inbox : List Reply) (call : Call) (r : Wire Data) :
    Prop where
  sound : r.Sound F.delegate
  hooks : r.added = [.onSuccess, .onFailure]
  kept : r.cancelled = false
  heard : ∀ c ∈ r.received, c.error.isSome = true ∨
    ∃ reply ∈ inbox, reply.call = call ∧ c = F.completion reply.outcome

/-- It has run a callback unless it is pending. -/
structure Tracked (F : Foundation Data) (s : Stack Data) (call : Call) (r : Wire Data) : Prop
    extends Linked F s.inbox call r where
  pending : call ∈ s.client.pending ↔ callbacks call r.called = []

structure Wired (F : Foundation Data) (s : Stack Data) : Prop where
  numbered : s.client.Numbered
  nodup : (s.requests.map fun x => x.1.id).Nodup
  lt : ∀ x ∈ s.requests, x.1.id < s.client.nextCall
  tracked : ∀ x ∈ s.requests, Tracked F s x.1 x.2
  issued : s.client.pending ⊆ s.requests.map Prod.fst

/-- A request is tracked as long as the replies stay and it stays pending or not. -/
theorem Tracked.congr {call : Call} {r : Wire Data} (h : Tracked F s call r)
    (hinbox : s.inbox ⊆ s'.inbox)
    (hpending : call ∈ s'.client.pending ↔ call ∈ s.client.pending) : Tracked F s' call r where
  toLinked :=
    ⟨h.sound, h.hooks, h.kept, fun c hc =>
      (h.heard c hc).imp_right fun ⟨reply, hreply, heq⟩ => ⟨reply, hinbox hreply, heq⟩⟩
  pending := hpending.trans h.pending

/-- Steps of the queues bring no news. -/
theorem Linked.queue {inbox : List Reply} {call : Call} {r r' : Wire Data}
    (h : Linked F inbox call r) {e : Siesta.Event (Siesta.Completion Data) Hook}
    (he : e.isQueue = true) (hr' : r.step F.delegate e = some r') : Linked F inbox call r' := by
  obtain ⟨hadded, hreceived, hcancelled, -⟩ := Siesta.LiveRequest.queue_step he hr'
  refine ⟨h.sound.step hr', hadded.trans h.hooks, hcancelled.trans h.kept, ?_⟩
  rw [hreceived]
  exact h.heard

/-- The completion handler hears what is genuine. -/
theorem Linked.networkResponds {inbox : List Reply} {call : Call} {r r' : Wire Data}
    (h : Linked F inbox call r) {c : Siesta.Completion Data}
    (hc : c.error.isSome = true ∨
      ∃ reply ∈ inbox, reply.call = call ∧ c = F.completion reply.outcome)
    (hr' : r.step F.delegate (.networkResponds c) = some r') :
    Linked F inbox call r' ∧ r'.called = r.called := by
  have hsound := h.sound.step hr'
  simp only [Siesta.LiveRequest.step, Option.ite_none_right_eq_some, Option.some.injEq] at hr'
  obtain ⟨-, rfl⟩ := hr'
  refine ⟨⟨hsound, h.hooks, h.kept, fun c' hc' => ?_⟩, rfl⟩
  -- the responses heard before are still genuine, and so is the new one
  cases List.mem_append.mp hc' with
  | inl hold => exact h.heard c' hold
  | inr hnew => exact List.mem_singleton.mp hnew ▸ hc

/-- A request as the app issues it is sound. -/
theorem sound_issue : (issue : Wire Data).Sound F.delegate :=
  have hstart : (Siesta.LiveRequest.start {} : Wire Data).Sound F.delegate :=
    Siesta.LiveRequest.sound_new.step (e := .start) rfl
  (hstart.step (e := .onCompletion .onSuccess) rfl).step (e := .onCompletion .onFailure) rfl

/-- It is pending and has called nobody. -/
theorem tracked_issue {call : Call} (h : call ∈ s.client.pending) : Tracked F s call issue where
  toLinked := ⟨sound_issue, rfl, rfl, fun c hc => by cases hc⟩
  pending := ⟨fun _ => rfl, fun _ => h⟩

/-- What the client has started is issued. -/
theorem Wired.advance {p : Process} (h : Wired F s) (hissued : Process.Issued s.client p) :
    Wired F (s.advance p) := by
  have hpending := Process.pending_eq_startedFrom h.numbered hissued
  have hnumbered := h.numbered.issued hissued
  have hnew : ∀ call ∈ Process.startedFrom s.client.nextCall p, s.client.nextCall ≤ call.id := by
    intro call hcall
    simpa using (List.mem_filter.mp hcall).2
  -- the new requests have numbers above all old ones
  constructor
  -- the client numbers as before
  · exact hnumbered
  · have hmap : ((s.advance p).requests.map fun x => x.1.id) =
        (s.requests.map fun x => x.1.id) ++
          (Process.startedFrom s.client.nextCall p).map Call.id := by
      simp only [Stack.advance, List.map_append, List.map_map]
      rfl
    rw [hmap]
    refine h.nodup.append (hnumbered.nodup.sublist (List.filter_sublist.map Call.id)) ?_
    intro id hold hid
    obtain ⟨x, hx, rfl⟩ := List.mem_map.mp hold
    obtain ⟨call, hcall, heq⟩ := List.mem_map.mp hid
    have := h.lt x hx
    have := hnew call hcall
    omega
  · intro x hx
    obtain ⟨new, -, -, hnext⟩ := hissued
    cases List.mem_append.mp hx with
    | inl hold =>
      have := h.lt x hold
      simp only [Stack.advance]
      omega
    | inr hmem =>
      obtain ⟨call, hcall, rfl⟩ := List.mem_map.mp hmem
      exact hnumbered.lt call (List.mem_of_mem_filter hcall)
  · intro x hx
    cases List.mem_append.mp hx with
    | inl hold =>
      -- an old request is pending as before: it is none of those started now
      refine (h.tracked x hold).congr (List.Subset.refl _) ?_
      simp only [Stack.advance, hpending, List.mem_append]
      refine ⟨fun hmem => hmem.resolve_right fun hstarted => ?_, .inl⟩
      have := hnew _ hstarted
      have := h.lt x hold
      omega
    | inr hmem =>
      -- a request that is started is given its hooks at once, and has received nothing
      obtain ⟨call, hcall, rfl⟩ := List.mem_map.mp hmem
      exact tracked_issue (List.mem_of_mem_filter hcall)
  · intro call hcall
    have hcall : call ∈ p.pending := hcall
    rw [hpending, List.mem_append] at hcall
    simp only [Stack.advance, List.map_append, List.map_map, List.mem_append]
    cases hcall with
    | inl hold => exact .inl (h.issued hold)
    | inr hstarted => exact .inr (List.mem_map.mpr ⟨call, hstarted, rfl⟩)

/-- Where the request with an index has moved, the others are those with other numbers. -/
theorem mem_set_requests (h : Wired F s) {index : Nat} {call : Call} {r r' : Wire Data}
    (hget : s.requests[index]? = some (call, r)) {x : Call × Wire Data}
    (hx : x ∈ s.requests.set index (call, r')) :
    x = (call, r') ∨ (x ∈ s.requests ∧ x.1.id ≠ call.id) := by
  obtain ⟨i, hi⟩ := List.mem_iff_getElem?.mp hx
  obtain ⟨hlt, -⟩ := List.getElem?_eq_some_iff.mp hget
  by_cases hne : index = i
  · rw [hne, List.getElem?_set_self (hne ▸ hlt), Option.some.injEq] at hi
    exact .inl hi.symm
  · rw [List.getElem?_set_ne hne] at hi
    -- another place has another request, and requests differ by their numbers
    refine .inr ⟨List.mem_of_getElem? hi, fun heq => hne ?_⟩
    have hsame : (s.requests.map fun x => x.1.id)[index]? =
        (s.requests.map fun x => x.1.id)[i]? := by
      rw [List.getElem?_map, List.getElem?_map, hget, hi, Option.map_some, Option.map_some, heq]
    exact (List.getElem?_inj (by rwa [List.length_map]) h.nodup).mp hsame

/-- One request may move, and be reported with it. -/
theorem Wired.set (h : Wired F s) {index : Nat} {call : Call} {r r' : Wire Data}
    (hget : s.requests[index]? = some (call, r)) {p : Process} (hnumbered : p.Numbered)
    (hnext : p.nextCall = s.client.nextCall) (hsub : p.pending ⊆ s.client.pending)
    (hothers : ∀ c : Call, c.id ≠ call.id → (c ∈ p.pending ↔ c ∈ s.client.pending))
    (ht : Tracked F { s with client := p } call r') :
    Wired F { s with client := p, requests := s.requests.set index (call, r') } := by
  -- the calls are where they were
  have hfst : (s.requests.set index (call, r')).map Prod.fst = s.requests.map Prod.fst := by
    have hat : (s.requests.map Prod.fst)[index]? = some call := by
      rw [List.getElem?_map, hget]
      rfl
    obtain ⟨hlt, hcall⟩ := List.getElem?_eq_some_iff.mp hat
    rw [List.map_set]
    change (s.requests.map Prod.fst).set index call = _
    rw [← hcall]
    exact List.set_getElem_self hlt
  -- the list keeps its calls; only what the one request has seen is new
  constructor
  · exact hnumbered
  · have hids := congrArg (List.map Call.id) hfst
    rw [List.map_map, List.map_map] at hids
    exact hids ▸ h.nodup
  · intro x hx
    have hmem := List.mem_map_of_mem (f := Prod.fst) hx
    rw [hfst] at hmem
    obtain ⟨y, hy, heq⟩ := List.mem_map.mp hmem
    rw [← heq, hnext]
    exact h.lt y hy
  · intro x hx
    cases mem_set_requests h hget hx with
    -- the request that has moved, or another one
    | inl heq =>
      rw [heq]
      exact ht.congr (List.Subset.refl _) Iff.rfl
    | inr hother =>
      exact (h.tracked x hother.1).congr (List.Subset.refl _) (hothers x.1 hother.2)
  · intro c hc
    rw [hfst]
    exact h.issued (hsub hc)

/-- Nothing here depends on the outbox and the database; replies may be added. -/
theorem Wired.congr (h : Wired F s) {outbox : List Call} {db : Database} {inbox : List Reply}
    (hinbox : s.inbox ⊆ inbox) :
    Wired F { s with client := { s.client with outbox }, db, inbox } where
  numbered := ⟨h.numbered.nodup, h.numbered.lt⟩
  nodup := h.nodup
  lt := h.lt
  tracked x hx := (h.tracked x hx).congr hinbox Iff.rfl
  issued := h.issued

/-- The completion handler of a request may be called with what is genuine. -/
theorem Wired.complete (h : Wired F s) {index : Nat} {call : Call} {r : Wire Data}
    (hget : s.requests[index]? = some (call, r)) {c : Siesta.Completion Data}
    (hc : c.error.isSome = true ∨
      ∃ reply ∈ s.inbox, reply.call = call ∧ c = F.completion reply.outcome)
    (hs : s.complete F index call r c = some s') : Wired F s' := by
  simp only [Stack.complete, Option.map_eq_some_iff] at hs
  obtain ⟨r', hr', rfl⟩ := hs
  have htracked := h.tracked _ (List.mem_of_getElem? hget)
  obtain ⟨hlinked, hcalled⟩ := htracked.toLinked.networkResponds hc hr'
  -- no hook is called yet, so the request stays pending
  refine h.set hget h.numbered rfl (List.Subset.refl _) (fun _ _ => Iff.rfl) ⟨hlinked, ?_⟩
  rw [hcalled]
  exact htracked.pending

/-- The steps of a request's queues run its callback once, when it is pending. -/
theorem Wired.runQueue (h : Wired F s) {index : Nat} {call : Call} {r : Wire Data}
    (hget : s.requests[index]? = some (call, r))
    {e : Siesta.Event (Siesta.Completion Data) Hook} (he : e.isQueue = true)
    (hs : s.runQueue F P index call r e = some s') : Wired F s' := by
  simp only [Stack.runQueue, Option.bind_eq_some_iff, Option.map_eq_some_iff] at hs
  obtain ⟨r', hr', client, hrun, rfl⟩ := hs
  have htracked := h.tracked _ (List.mem_of_getElem? hget)
  -- at most one callback of the app runs in a step
  have hlinked := htracked.toLinked.queue he hr'
  obtain ⟨-, -, -, hgrows⟩ := Siesta.LiveRequest.queue_step he hr'
  rcases callbacks_drop hlinked.sound hlinked.hooks hgrows call with
    ⟨hsame, hnew⟩ | ⟨-, event, hevent, hone, hnew⟩
  · -- nothing that answers was called
    rw [hnew, run_nil, Option.some.injEq] at hrun
    subst hrun
    refine Wired.advance (s := { s with requests := s.requests.set index (call, r') }) ?_ (.refl _)
    refine h.set hget h.numbered rfl (List.Subset.refl _) (fun _ _ => Iff.rfl) ⟨hlinked, ?_⟩
    rw [hsame]
    exact htracked.pending
  · -- the request was pending; its callback takes it off
    rw [hnew, run_cons_eq_some] at hrun
    obtain ⟨client', hstep, hrest⟩ := hrun
    cases hrest
    obtain ⟨-, hissued⟩ := Process.step_issued_response hevent hstep
    refine Wired.advance (s := { s with
      client := s.client.complete call, requests := s.requests.set index (call, r') }) ?_ hissued
    refine h.set hget (h.numbered.complete call) rfl (List.erase_subset) ?_ ?_
    · intro c hc
      exact List.mem_erase_of_ne fun heq => hc (congrArg Call.id heq)
    · refine ⟨hlinked, ?_⟩
      rw [hone]
      refine iff_of_false ?_ (List.cons_ne_nil _ _)
      exact (h.numbered.nodup.of_map _).not_mem_erase

/-- Every step keeps the requests wired: the client issues, the server replies, the provider
    passes replies and errors on, and the queues move. -/
theorem Wired.step {a : Act Data} (h : Wired F s) (hs : s.step F G P a = some s') :
    Wired F s' := by
  cases a with
  | client e =>
    simp only [Stack.step, Option.ite_none_right_eq_some, Option.map_eq_some_iff] at hs
    obtain ⟨hlocal, client, hclient, rfl⟩ := hs
    exact h.advance (Process.step_issued_local (Event.call?_of_isLocal hlocal) hclient)
  | serve call env =>
    simp only [Stack.step, Option.ite_none_right_eq_some, Option.some.injEq] at hs
    obtain ⟨-, rfl⟩ := hs
    -- one reply more
    exact h.congr (List.subset_append_left _ _)
  | other env request =>
    cases hs
    exact h.congr (List.Subset.refl _)
  | respond index reply =>
    simp only [Stack.step] at hs
    split at hs
    · next call r call' outcome mark hget hreply =>
      split at hs
      · next hcall =>
        -- the provider may pass on a reply to this request
        exact h.complete hget (.inr ⟨_, List.mem_of_getElem? hreply, hcall, rfl⟩) hs
      · cases hs
    · cases hs
  | lose index completion =>
    simp only [Stack.step] at hs
    split at hs
    · next call r hget =>
      split at hs
      · next herror => exact h.complete hget (.inl herror) hs
      · cases hs
    · cases hs
  | queue index e =>
    simp only [Stack.step] at hs
    split at hs
    · next call r hget =>
      split at hs
      · next he => exact h.runQueue hget he hs
      · cases hs
    · cases hs

/-- At the start the first fetch, if there is one, has been handed to Siesta. -/
theorem wired_start (r : Realm) (db : Database) : Wired F (start r db) := by
  have hnumbered := Process.numbered_launch r
  have hfst : (start r db : Stack Data).requests.map Prod.fst = (Process.launch r).pending := by
    simp only [start, List.map_map]
    exact List.map_id _
  -- a launched process has started a fetch, or nothing
  constructor
  · exact hnumbered
  · have hids := congrArg (List.map Call.id) hfst
    rw [List.map_map] at hids
    exact hids ▸ hnumbered.nodup
  · intro x hx
    obtain ⟨call, hcall, rfl⟩ := List.mem_map.mp hx
    exact hnumbered.lt call hcall
  · intro x hx
    obtain ⟨call, hcall, rfl⟩ := List.mem_map.mp hx
    exact tracked_issue hcall
  · rw [hfst]
    exact List.Subset.refl _

/-- In every run the requests stay wired. -/
theorem wired_run {r : Realm} {db : Database} {acts : List (Act Data)}
    (h : run (step F G P) (start r db) acts = some s) : Wired F s :=
  run_invariant (fun _ _ _ hs hstep => Wired.step hs hstep) (wired_start r db) h

end Stack

end ReactiveDemo
