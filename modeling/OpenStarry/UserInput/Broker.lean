import OpenStarry.Lib.SortKeys
import OpenStarry.Session.Keys

/-!
# Fields of a user-input request

The answers of a surface are checked against the schema a request was registered with.
-/

namespace OpenStarry.UserInput

open Lib Text

/-- What is not part of the repository: `str.lower`, `int` of a text, `repr` of a text and `str` of a
value that is no text. -/
structure Runtime where
  lower : Str → Str
  int : Str → Option Int
  repr : Str → Str
  str : Json → Str

inductive ErrorKind where
  | request
  | notFound
  | conflict
  | validation
  deriving DecidableEq, Repr

/-- What a call may raise: one of the broker's own errors, or something that is none. -/
inductive Raised where
  | userInput (kind : ErrorKind) (message : Str)
  | cancelled
  | typeError
  deriving DecidableEq

inductive Answer where
  | bool (value : Bool)
  | int (value : Int)
  | text (value : Str)
  deriving DecidableEq

abbrev Answers := List (Str × Answer)

def Raised.isUserInput : Raised → Bool
  | userInput _ _ => true
  | _ => false

def invalid {α : Type} (message : Str) : Except Raised α := .error (.userInput .validation message)

variable (env : Runtime)

/-- `str(value)`. -/
def Runtime.text : Json → Str
  | .str s => s
  | value => env.str value

/-- `str(value or default)`. -/
def Runtime.textOr (value : Json) (default : String) : Str :=
  if value.truthy then env.text value else default.toList

def schemaFields (payload : Dict) : Except Raised (List Dict) :=
  match payload.get "clarify_schema" with
  | .obj schema =>
      match Dict.get schema "fields" with
      | .arr [] => invalid "pending user input has no fields".toList
      | .arr fields =>
          fields.mapM fun
            | .obj field => .ok field
            | _ => invalid "pending user input fields are invalid".toList
      | _ => invalid "pending user input has no fields".toList
  | _ => invalid "pending user input has no clarify schema".toList

def requiredText (value : Json) (fieldName : Str) : Except Raised Str :=
  let text := strip (env.textOr value "")
  if text = [] then invalid ("field ".toList ++ env.repr fieldName ++ " is required".toList)
  else if 2000 < text.length then
    invalid ("field ".toList ++ env.repr fieldName ++ " must be at most 2000 characters".toList)
  else .ok text

def trueWords : List Str := ["true", "yes", "1", "on", "是"].map String.toList
def falseWords : List Str := ["false", "no", "0", "off", "否"].map String.toList

def coerceBool (value : Json) (fieldName : Str) : Except Raised Bool :=
  match value with
  | .bool b => .ok b
  | value =>
      let text := env.lower (strip (env.textOr value ""))
      if text ∈ trueWords then .ok true
      else if text ∈ falseWords then .ok false
      else invalid ("field ".toList ++ env.repr fieldName ++ " must be a boolean".toList)

def choicesOf (field : Dict) : Option (List Json) :=
  match field.lookup "choices".toList with
  | none => some []
  | some (.arr items) => some items
  | some (.str s) => some (s.map fun c => .str [c])
  | some (.obj entries) => some (entries.map fun entry => .str entry.1)
  | some _ => none

def fieldType (field : Dict) : Str :=
  let declared := env.lower (strip (env.textOr (field.get "type") "string"))
  if declared = "choice".toList then "enum".toList else declared

def coerceField (field : Dict) (value : Json) : Except Raised Answer :=
  let name := strip (env.textOr (field.get "name") "")
  if fieldType env field = "bool".toList then (coerceBool env value name).map .bool
  else if fieldType env field = "int".toList then
    let notInteger := "field ".toList ++ env.repr name ++ " must be an integer".toList
    match value with
    | .bool _ => invalid notInteger
    | value =>
        match env.int (strip (env.text value)) with
        | some n => .ok (.int n)
        | none => invalid notInteger
  else do
    let text ← requiredText env value name
    if fieldType env field = "enum".toList then
      match choicesOf field with
      | none => .error .typeError
      | some choices =>
          if text ∉ choices.map env.text ∧ field.get "allow_other" ≠ .bool true then
            invalid ("field ".toList ++ env.repr name ++ " must be one of the offered choices".toList)
          else .ok (.text text)
    else if fieldType env field ≠ "string".toList then
      invalid ("field ".toList ++ env.repr name ++ " has unsupported type ".toList ++
        env.repr (fieldType env field))
    else .ok (.text text)

def fieldsByName (fields : List Dict) : List (Str × Dict) :=
  fields.foldl (fun byName field =>
    Keyed.assign Prod.fst (strip (env.textOr (field.get "name") ""), field) byName) []

def validateField (fields : Dict) (named : Str × Dict) : Except Raised (Option (Str × Answer)) :=
  if named.1 = [] then invalid "pending user input has an unnamed field".toList
  else
    match (fields.lookup named.1).filter fun value => value ≠ .null ∧ value ≠ .str [] with
    | none =>
        if named.2.get "required" = .bool true then
          invalid ("field ".toList ++ env.repr named.1 ++ " is required".toList)
        else .ok none
    | some value => (coerceField env named.2 value).map fun answer => some (named.1, answer)

def validateUserInputFields (payload fields : Dict) : Except Raised Answers := do
  let schema ← schemaFields payload
  let byName := fieldsByName env schema
  let unknown := (fields.map Prod.fst).filter fun name => name ∉ byName.map Prod.fst
  match (unknown.insertionSort fun a b => a ≤ b).head? with
  | some name => invalid ("unknown user-input field: ".toList ++ name)
  | none => return (← byName.mapM (validateField env fields)).reduceOption

/-! ### What validation raises -/

def ChoicesGiven (payload : Dict) : Prop :=
  ∀ fields, schemaFields payload = .ok fields → ∀ field ∈ fields, choicesOf field ≠ none

theorem isUserInput_of_invalid {α : Type} {message : Str} {raised : Raised}
    (h : (invalid message : Except Raised α) = .error raised) : raised.isUserInput = true := by
  rw [invalid, Except.error.injEq] at h
  rw [← h]
  rfl

def OnlyUserInput {α : Type} (x : Except Raised α) : Prop :=
  ∀ raised, x = .error raised → raised.isUserInput = true

namespace OnlyUserInput

variable {α β : Type} {x : Except Raised α}

theorem ok (a : α) : OnlyUserInput (.ok a) := by
  intro raised h
  cases h

theorem invalid (message : Str) : OnlyUserInput (UserInput.invalid message : Except Raised α) :=
  fun _ h => isUserInput_of_invalid h

theorem map (hx : OnlyUserInput x) (f : α → β) : OnlyUserInput (x.map f) := by
  intro raised h
  cases x with
  | ok a => cases h
  | error e =>
      have heq : e = raised := Except.error.inj h
      rw [← heq]
      exact hx e rfl

theorem bind {f : α → Except Raised β} (hx : OnlyUserInput x)
    (hf : ∀ a, x = .ok a → OnlyUserInput (f a)) : OnlyUserInput (x >>= f) := by
  cases hcase : x with
  | ok a => exact hf a hcase
  | error e =>
      intro raised h
      have heq : e = raised := Except.error.inj h
      rw [← heq]
      exact hx e hcase

theorem mapM {f : α → Except Raised β} {l : List α} (hf : ∀ a ∈ l, OnlyUserInput (f a)) :
    OnlyUserInput (l.mapM f) := by
  induction l with
  | nil => exact ok []
  | cons a rest ih =>
      obtain ⟨ha, hrest⟩ := List.forall_mem_cons.mp hf
      rw [List.mapM_cons]
      exact bind ha fun b _ => bind (ih hrest) fun bs _ => ok _

end OnlyUserInput

theorem schemaFields_onlyUserInput (payload : Dict) : OnlyUserInput (schemaFields payload) := by
  rw [schemaFields]
  split
  · split
    · exact .invalid _
    · apply OnlyUserInput.mapM
      intro field _
      split
      · exact .ok _
      · exact .invalid _
    · exact .invalid _
  · exact .invalid _

theorem requiredText_onlyUserInput (value : Json) (name : Str) :
    OnlyUserInput (requiredText env value name) := by
  rw [requiredText]
  split_ifs
  · exact .invalid _
  · exact .invalid _
  · exact .ok _

theorem coerceBool_onlyUserInput (value : Json) (name : Str) :
    OnlyUserInput (coerceBool env value name) := by
  unfold coerceBool
  split
  · exact .ok _
  · dsimp only
    split_ifs
    · exact .ok _
    · exact .ok _
    · exact .invalid _

theorem coerceField_onlyUserInput {field : Dict} (hchoices : choicesOf field ≠ none) (value : Json) :
    OnlyUserInput (coerceField env field value) := by
  unfold coerceField
  dsimp only
  split
  · exact (coerceBool_onlyUserInput env value _).map _
  · split
    · split
      · exact .invalid _
      · split
        · exact .ok _
        · exact .invalid _
    · refine (requiredText_onlyUserInput env value _).bind fun text _ => ?_
      split
      · split
        · rename_i hnone
          exact absurd hnone hchoices
        · split
          · exact .invalid _
          · exact .ok _
      · split
        · exact .invalid _
        · exact .ok _

theorem mem_of_mem_fieldsByName {fields : List Dict} {named : Str × Dict}
    (h : named ∈ fieldsByName env fields) : named.2 ∈ fields := by
  have hmem : ∀ (byName : List (Str × Dict)), named ∈ fields.foldl (fun byName field =>
      Keyed.assign Prod.fst (strip (env.textOr (field.get "name") ""), field) byName) byName →
      named.2 ∈ fields ∨ named ∈ byName := by
    clear h
    induction fields with
    | nil => exact fun byName h => Or.inr h
    | cons field rest ih =>
        intro byName h
        rcases ih _ h with h | h
        · exact Or.inl (List.mem_cons_of_mem _ h)
        · rcases Keyed.mem_of_mem_assign h with rfl | h
          · exact Or.inl List.mem_cons_self
          · exact Or.inr h
  rcases hmem [] h with h | h
  · exact h
  · simp at h

theorem validateUserInputFields_onlyUserInput {payload : Dict} (hchoices : ChoicesGiven payload)
    (fields : Dict) : OnlyUserInput (validateUserInputFields env payload fields) := by
  rw [validateUserInputFields]
  refine (schemaFields_onlyUserInput payload).bind fun schema hschema => ?_
  dsimp only
  split
  · exact .invalid _
  · refine (OnlyUserInput.mapM fun named hnamed => ?_).bind fun answers _ => .ok _
    rw [validateField]
    split
    · exact .invalid _
    · split
      · split
        · exact .invalid _
        · exact .ok _
      · have hfield := hchoices schema hschema named.2 (mem_of_mem_fieldsByName env hnamed)
        exact (coerceField_onlyUserInput env hfield _).map _

end OpenStarry.UserInput

/-!
# The user-input broker

Pending requests, their futures and a bounded table of completed ones. Everything but waiting for an
answer happens within one step of the event loop; a waiting task takes one step to wait and, once its
future is done, another one to go on. Cancelling it cancels the future first.
-/

namespace OpenStarry.UserInput

open Lib Text

/-! ### State -/

inductive FutureState where
  | pending
  | result (answers : Answers)
  | cancelled
  deriving DecidableEq

structure PendingUserInput where
  sessionKey : Str
  taskId : Str
  toolUseId : Str
  payload : Dict
  future : FutureState := .pending

structure CompletedUserInput where
  sessionKey : Str
  payload : Dict
  answers : Answers

/-- A task suspended in `wait_for_response`, and whether it has been cancelled with its future already
done. -/
structure Waiter where
  requestId : Str
  mustCancel : Bool := false

structure Broker where
  /-- Every request that was opened, as its waiters still hold it after its entry is gone. -/
  objects : List (Str × PendingUserInput) := []
  /-- The keys of `_pending`. -/
  pending : List Str := []
  completed : List (Str × CompletedUserInput) := []
  waiters : List (Nat × Waiter) := []

/-- What a step of the event loop does. The identifier of a new request is drawn. -/
inductive Action where
  | openRequest (requestId sessionKey taskId toolUseId : Str) (payload : Dict)
  | resolve (sessionKey requestId : Str) (fields : Dict)
  | wait (task : Nat) (requestId : Str)
  | wake (task : Nat)
  | cancelWaiter (task : Nat)
  | cancelRequest (requestId : Str)
  | cancelTask (taskId : Str)

/-- What a step returns, delivers or raises. -/
inductive Outcome where
  | opened (publicPayload : Dict)
  | resolved (replayed : Bool) (answers : Answers)
  | delivered (requestId : Str) (answers : Answers)
  | raised (raised : Raised)
  | quiet

namespace Broker

variable (env : Runtime) (s : Broker)

def pendingRequest (requestId : Str) : Option PendingUserInput :=
  if requestId ∈ s.pending then s.objects.lookup requestId else none

def setFuture (requestId : Str) (request : PendingUserInput) (future : FutureState) : Broker :=
  { s with objects := Keyed.assign Prod.fst (requestId, { request with future }) s.objects }

def popPending (requestId : Str) : Broker :=
  { s with pending := s.pending.filter fun other => other ≠ requestId }

/-! ### Operations -/

def fail (kind : ErrorKind) (message : String) : Outcome :=
  .raised (.userInput kind message.toList)

def publicPayload (requestId taskId : Str) (payload : Dict) : Dict :=
  payload.merge
    [("status".toList, .str "input_required".toList), ("kind".toList, .str "user_input".toList),
      ("paused".toList, .bool true), ("request_id".toList, .str requestId),
      ("run_id".toList, .str taskId)]

def openRequest (requestId sessionKey taskId toolUseId : Str) (payload : Dict) : Broker × Outcome :=
  let sessionKey := Session.canonicalizeSessionKey env.lower sessionKey
  if taskId = [] ∨ toolUseId = [] then
    (s, fail .request "pending user input requires task and tool identities")
  else
    match schemaFields payload with
    | .error raised => (s, .raised raised)
    | .ok _ =>
        if s.pending.any fun other => (s.objects.lookup other).any fun request =>
            request.taskId = taskId && request.toolUseId = toolUseId then
          (s, fail .conflict "this tool call already has a pending user-input request")
        else
          let payload := publicPayload requestId taskId payload
          ({ s with
              objects := Keyed.assign Prod.fst
                (requestId, { sessionKey, taskId, toolUseId, payload }) s.objects
              pending := s.pending ++ [requestId] }, .opened payload)

def remember (requestId : Str) (entry : CompletedUserInput) : Broker :=
  let completed := Keyed.moveToEnd Prod.fst s.completed (requestId, entry)
  { s with completed := completed.drop (completed.length - 256) }

def resolveCompleted (sessionKey : Str) (fields : Dict) (entry : CompletedUserInput) : Outcome :=
  if entry.sessionKey ≠ sessionKey then
    fail .conflict "pending user-input request belongs to another session"
  else
    match validateUserInputFields env entry.payload fields with
    | .error raised => .raised raised
    | .ok answers =>
        if answers ≠ entry.answers then
          fail .conflict "pending user-input request was already answered differently"
        else .resolved true answers

def resolvePending (sessionKey requestId : Str) (fields : Dict) (request : PendingUserInput) :
    Broker × Outcome :=
  if request.sessionKey ≠ sessionKey then
    (s, fail .conflict "pending user-input request belongs to another session")
  else
    match validateUserInputFields env request.payload fields with
    | .error raised => (s, .raised raised)
    | .ok answers =>
        match request.future with
        | .result existing =>
            if existing ≠ answers then
              (s, fail .conflict "pending user-input request was already answered differently")
            else (s, .resolved true answers)
        -- the result of a cancelled future cannot be asked for
        | .cancelled => (s, .raised .cancelled)
        | .pending =>
            ((s.setFuture requestId request (.result answers)).remember requestId
              { sessionKey, payload := request.payload, answers }, .resolved false answers)

def resolve (sessionKey requestId : Str) (fields : Dict) : Broker × Outcome :=
  let sessionKey := Session.canonicalizeSessionKey env.lower sessionKey
  match s.completed.lookup requestId with
  | some entry => (s, resolveCompleted env sessionKey fields entry)
  | none =>
      match s.pendingRequest requestId with
      | none => (s, fail .notFound "pending user-input request was not found")
      | some request => s.resolvePending env sessionKey requestId fields request

def finishWait (requestId : Str) (future : FutureState) (mustCancel : Bool) : Broker × Outcome :=
  match mustCancel, future with
  | false, .result answers => (s.popPending requestId, .delivered requestId answers)
  | _, _ => (s.popPending requestId, .raised .cancelled)

/-- The first step of `wait_for_response`. -/
def wait (task : Nat) (requestId : Str) : Broker × Outcome :=
  match s.pendingRequest requestId with
  | none => (s, fail .notFound "pending user-input request no longer exists")
  | some request =>
      if request.future = .pending then
        ({ s with waiters := Keyed.assign Prod.fst (task, { requestId }) s.waiters }, .quiet)
      else s.finishWait requestId request.future false

def cancelRequest (requestId : Str) : Broker :=
  match s.pendingRequest requestId with
  | none => s
  | some request =>
      if request.future = .pending then
        (s.setFuture requestId request .cancelled).popPending requestId
      else s.popPending requestId

def cancelTask (taskId : Str) : Broker :=
  let requestIds := s.pending.filter fun requestId =>
    (s.objects.lookup requestId).any fun request => request.taskId = taskId
  requestIds.foldl cancelRequest s

def cancelWaiter (task : Nat) (waiter : Waiter) (request : PendingUserInput) : Broker :=
  if request.future = .pending then s.setFuture waiter.requestId request .cancelled
  else { s with waiters := Keyed.assign Prod.fst (task, { waiter with mustCancel := true }) s.waiters }

/-! ### Steps -/

/-- A step that the event loop can take: a drawn identifier is new, a task waits for one request at a
time, and a suspended one goes on only when its future is done. -/
def step : Action → Option (Broker × Outcome)
  | .openRequest requestId sessionKey taskId toolUseId payload =>
      if (s.objects.lookup requestId).isSome then none
      else some (s.openRequest env requestId sessionKey taskId toolUseId payload)
  | .resolve sessionKey requestId fields => some (s.resolve env sessionKey requestId fields)
  | .wait task requestId =>
      if (s.waiters.lookup task).isSome then none else some (s.wait task requestId)
  | .wake task =>
      match s.waiters.lookup task with
      | none => none
      | some waiter =>
          match s.objects.lookup waiter.requestId with
          | none => none
          | some request =>
              if request.future = .pending then none
              else
                some (finishWait { s with waiters := s.waiters.filter fun other => other.1 ≠ task }
                  waiter.requestId request.future waiter.mustCancel)
  | .cancelWaiter task =>
      match s.waiters.lookup task with
      | none => none
      | some waiter =>
          (s.objects.lookup waiter.requestId).map fun request =>
            (s.cancelWaiter task waiter request, .quiet)
  | .cancelRequest requestId => some (s.cancelRequest requestId, .quiet)
  | .cancelTask taskId => some (s.cancelTask taskId, .quiet)

end Broker

end OpenStarry.UserInput
