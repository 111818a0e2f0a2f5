import ReactiveDemo.Siesta.Request

/-!
# Responses and the transformer pipeline

What `NetworkRequestDelegate` makes of a response of the network, and the transformers that
it passes through: `δ` is the type of raw data, `π` that of parsed content.

## Key results

- `pipeline_failure`: the pipeline leaves an error an error, with its message and its status
- `pipeline_eq_process`: where one transformer takes the content type, the pipeline is that
  transformer
-/

namespace Siesta

variable {δ π : Type}

/-- The content of an entity: the body as it came, or what a transformer made of it. -/
inductive Content (δ π : Type) where
  | data (data : δ)
  | parsed (value : π)

structure Entity (δ π : Type) where
  content : Content δ π
  contentType : String
  charset : Option String := none

structure RequestError (δ π : Type) where
  userMessage : String
  httpStatusCode : Option Nat := none
  entity : Option (Entity δ π) := none

inductive Response (δ π : Type) where
  | success (entity : Entity δ π)
  | failure (error : RequestError δ π)

structure ResponseInfo (δ π : Type) where
  response : Response δ π
  isNew : Bool := true

/-- What Siesta reads of an `HTTPURLResponse`. -/
structure HTTPURLResponse where
  statusCode : Nat
  contentType : Option String := none
  textEncodingName : Option String := none

/-- What the networking provider passes to its completion handler. Of an error this is its
    `localizedDescription`. -/
structure Completion (δ : Type) where
  response : Option HTTPURLResponse := none
  body : Option δ := none
  error : Option String := none

/-! ## From the network -/

/-- `Entity.init(response:content:)`. -/
def Entity.ofResponse (response : Option HTTPURLResponse) (data : δ) : Entity δ π where
  content := .data data
  contentType := (response.bind HTTPURLResponse.contentType).getD "application/octet-stream"
  charset := response.bind HTTPURLResponse.textEncodingName

/-- `RequestError.init(response:content:cause:)`; `localizedString` describes a status. -/
def RequestError.ofResponse (localizedString : Nat → String) (response : Option HTTPURLResponse)
    (content : Option δ) (cause : Option String) : RequestError δ π where
  userMessage :=
    match cause, response with
    | some message, _ => message
    | none, some response => localizedString response.statusCode
    | none, none => "Request failed"
  httpStatusCode := response.map HTTPURLResponse.statusCode
  entity := content.map (Entity.ofResponse response)

def isError : Option Nat → Bool
  | none => false
  | some httpStatusCode => 400 ≤ httpStatusCode

/-- `NetworkRequestDelegate.interpretResponse`. -/
def interpretResponse (localizedString : Nat → String) (noData : δ)
    (latestData : Option (Entity δ π)) (c : Completion δ) : ResponseInfo δ π :=
  let statusCode := c.response.map HTTPURLResponse.statusCode
  if isError statusCode || c.error.isSome then
    { response := .failure (.ofResponse localizedString c.response c.body c.error) }
  else if statusCode = some 304 then
    match latestData with
    | some entity => { response := .success entity, isNew := false }
    | none => { response := .failure { userMessage := "No data available" } }
  else { response := .success (.ofResponse c.response (c.body.getD noData)) }

/-- `ResponseInfo.cancellation`. -/
def cancellation : ResponseInfo δ π :=
  { response := .failure { userMessage := "Request cancelled" } }

/-! ## Transformers -/

def Response.contentType : Response δ π → Option String
  | .success entity => some entity.contentType
  | .failure error => error.entity.map Entity.contentType

/-- A `ContentTypeMatchTransformer` around a `ResponseContentTransformer` that takes data. -/
structure Transformer (δ π : Type) where
  contentTypeMatcher : String → Bool
  transformErrors : Bool
  /-- Parses data with a character set; `none` when it throws. -/
  processor : Option String → δ → Option π

namespace Transformer

/-- `processEntity`. Content that is parsed already is of the wrong type. -/
def processEntity (T : Transformer δ π) (entity : Entity δ π) : Response δ π :=
  match entity.content with
  | .parsed _ => .failure { userMessage := "Cannot parse server response" }
  | .data data =>
    match T.processor entity.charset data with
    | none => .failure { userMessage := "Cannot parse server response" }
    | some value => .success { entity with content := .parsed value }

/-- `processError`: what cannot be parsed is left as it is. -/
def processError (T : Transformer δ π) (error : RequestError δ π) : Response δ π :=
  match T.transformErrors, error.entity with
  | true, some errorData =>
    match T.processEntity errorData with
    | .success errorDataTransformed =>
      .failure { error with entity := some errorDataTransformed }
    | .failure _ => .failure error
  | _, _ => .failure error

def process (T : Transformer δ π) (response : Response δ π) : Response δ π :=
  if response.contentType.any T.contentTypeMatcher then
    match response with
    | .success entity => T.processEntity entity
    | .failure error => T.processError error
  else response

end Transformer

/-- The stages of a pipeline in order, each with its transformers. -/
abbrev Pipeline (δ π : Type) := List (List (Transformer δ π))

/-- `Pipeline.makeProcessor` without caches. -/
def Pipeline.process (stages : Pipeline δ π) (rawResponse : Response δ π) : Response δ π :=
  stages.foldl (fun response stage => stage.foldl (fun r T => T.process r) response) rawResponse

/-- `transformResponse`. -/
def transformResponse (stages : Pipeline δ π) (rawInfo : ResponseInfo δ π) : ResponseInfo δ π :=
  if rawInfo.isNew then { response := stages.process rawInfo.response } else rawInfo

/-- `NetworkRequestDelegate` for a pipeline and a resource's data. -/
def networkRequestDelegate (localizedString : Nat → String) (noData : δ)
    (latestData : Option (Entity δ π)) (stages : Pipeline δ π) :
    Delegate (Completion δ) (ResponseInfo δ π) where
  interpretResponse := interpretResponse localizedString noData latestData
  process := transformResponse stages
  cancellation := cancellation

/-! ## What the pipeline keeps -/

/-- An error with the message and the status of `error`. -/
def IsErrorOf (error : RequestError δ π) (response : Response δ π) : Prop :=
  ∃ error', response = .failure error' ∧ error'.userMessage = error.userMessage ∧
    error'.httpStatusCode = error.httpStatusCode

/-- An error stays one: its entity may be transformed, not its message. -/
theorem Transformer.process_failure (T : Transformer δ π) (error : RequestError δ π) :
    IsErrorOf error (T.process (.failure error)) := by
  unfold Transformer.process
  -- another content type is passed through, and an entity that does not transform is kept
  split
  · simp only [processError]
    split
    · split
      · exact ⟨_, rfl, rfl, rfl⟩
      · exact ⟨error, rfl, rfl, rfl⟩
    · exact ⟨error, rfl, rfl, rfl⟩
  · exact ⟨error, rfl, rfl, rfl⟩

theorem pipeline_eq_foldl (stages : Pipeline δ π) (response : Response δ π) :
    stages.process response = stages.flatten.foldl (fun r T => T.process r) response :=
  List.foldl_flatten.symm

/-- Transformers leave an error an error, and say the same about it. -/
theorem foldl_failure (Ts : List (Transformer δ π)) (error : RequestError δ π) :
    IsErrorOf error (Ts.foldl (fun r T => T.process r) (.failure error)) := by
  induction Ts generalizing error with
  | nil => exact ⟨error, rfl, rfl, rfl⟩
  | cons T Ts ih =>
    -- each transformer in turn says the same
    obtain ⟨error', heq, hmessage, hstatus⟩ := T.process_failure error
    obtain ⟨error'', heq', hmessage', hstatus'⟩ := ih error'
    refine ⟨error'', ?_, hmessage'.trans hmessage, hstatus'.trans hstatus⟩
    rw [List.foldl_cons, heq, heq']

theorem pipeline_failure (stages : Pipeline δ π) (error : RequestError δ π) :
    IsErrorOf error (stages.process (.failure error)) := by
  rw [pipeline_eq_foldl]
  exact foldl_failure stages.flatten error

/-! ## One transformer for a content type -/

theorem Transformer.process_of_not_matches {T : Transformer δ π} {response : Response δ π}
    (h : response.contentType.any T.contentTypeMatcher = false) : T.process response = response := by
  unfold Transformer.process
  rw [h, if_neg Bool.false_ne_true]

/-- No transformer changes the content type, but one that fails has none to show. -/
theorem Transformer.contentType_process (T : Transformer δ π) (response : Response δ π) :
    (T.process response).contentType = response.contentType ∨
      (T.process response).contentType = none := by
  -- an entity is transformed in its content only, or there is an error without one
  have hentity : ∀ entity, (T.processEntity entity).contentType = some entity.contentType ∨
      (T.processEntity entity).contentType = none := by
    intro entity
    unfold processEntity
    split
    · exact .inr rfl
    · split
      · exact .inr rfl
      · exact .inl rfl
  unfold Transformer.process
  split
  · cases response with
    | success entity => exact hentity entity
    | failure error =>
      simp only [processError]
      split
      · next errorData _ hdata =>
        split
        · next transformed heq =>
          -- the entity of the error keeps its type
          have hsome := hentity errorData
          rw [heq] at hsome
          cases hsome with
          | inl hkept =>
            refine .inl ?_
            simp only [Response.contentType, Option.some.injEq] at hkept
            simp only [Response.contentType, hdata, Option.map_some, hkept]
          | inr hnone => cases hnone
        · exact .inl rfl
      · exact .inl rfl
  · exact .inl rfl

/-- Transformers for other content types do nothing. -/
theorem foldl_of_not_matches {Ts : List (Transformer δ π)} {response : Response δ π}
    (h : ∀ T ∈ Ts, response.contentType.any T.contentTypeMatcher = false) :
    Ts.foldl (fun r T => T.process r) response = response := by
  induction Ts with
  | nil => rfl
  | cons T Ts ih =>
    rw [List.foldl_cons, Transformer.process_of_not_matches (h T List.mem_cons_self)]
    exact ih fun T hT => h T (List.mem_cons_of_mem _ hT)

/-- Where no other transformer takes the content type of the response, the pipeline is `T`. -/
theorem pipeline_eq_process {stages : Pipeline δ π} {before after : List (Transformer δ π)}
    {T : Transformer δ π} (hstages : stages.flatten = before ++ T :: after) {type : String}
    {response : Response δ π} (htype : response.contentType = some type)
    (hbefore : ∀ T' ∈ before, T'.contentTypeMatcher type = false)
    (hafter : ∀ T' ∈ after, T'.contentTypeMatcher type = false) :
    stages.process response = T.process response := by
  -- the transformers before `T` pass the response on
  have hfirst : before.foldl (fun r T => T.process r) response = response := by
    apply foldl_of_not_matches
    intro T' hT'
    rw [htype]
    exact hbefore T' hT'
  rw [pipeline_eq_foldl, hstages, List.foldl_append, List.foldl_cons, hfirst]
  apply foldl_of_not_matches
  intro T' hT'
  -- and so do those behind it, whatever `T` has made of it
  cases T.contentType_process response with
  | inl hkept =>
    rw [hkept, htype]
    exact hafter T' hT'
  | inr hnone =>
    rw [hnone]
    rfl

end Siesta
