import ChatMicroservices.PrekeyDatabase

/-!
# Answers to failed requests

Every route of the three services ends in `validateRequest`, in its handler, or in the two error
handlers that are mounted last: the first turns whatever was thrown into an `APIError`, the second
writes the answer. In production an error that is not operational is masked.
-/

namespace ChatMicroservices.ErrorAnswers
open JavaScriptValues
open PrekeyDatabase (FieldError)

/-- What the error handlers read of an object that was thrown. An object that is no `Error` need
not have a text or a stack. -/
structure ErrorObject where
  isAPIError : Bool
  isError : Bool
  statusCode : Value
  message : Option JsString
  isOperational : Value
  stack : Option JsString
  deriving DecidableEq

def status (n : ℕ) : Value := .json (.num (.finite n))

/-- The constructor of `APIError`, which captures a stack unless it is given one. -/
def APIError (captured : JsString) (statusCode : Value) (message : JsString)
    (isOperational : Bool) (stack : JsString) : ErrorObject where
  isAPIError := true
  isError := true
  statusCode := statusCode
  message := some message
  isOperational := .json (.bool isOperational)
  stack := some (if stack = [] then captured else stack)

/-- What `undefined.toString()` throws. -/
def noStack (captured : JsString) : ErrorObject where
  isAPIError := false
  isError := true
  statusCode := .undefined
  message := some (js "Cannot read properties of undefined (reading 'toString')")
  isOperational := .undefined
  stack := some captured

inductive Service where
  | chat | user | notification
  deriving DecidableEq

/-- `error.message || (statusCode === 500 ? 'Internal Server Error' : 'Bad Request')` -/
def messageOr (message : Option JsString) (statusCode : Value) : JsString :=
  match message with
  | none | some [] =>
    if statusCode.strictEq (status 500) then js "Internal Server Error" else js "Bad Request"
  | some message => message

/-- The error that reaches `errorHandler`, the same in the three services. If the middleware
itself throws, Express passes on what it has thrown. -/
def errorMiddleware (captured : JsString) (err : ErrorObject) : ErrorObject :=
  if err.isAPIError then err
  else
    let statusCode :=
      if err.statusCode.truthy then err.statusCode else status (if err.isError then 400 else 500)
    match err.stack with
    | none => noStack captured
    | some stack => APIError captured statusCode (messageOr err.message statusCode) false stack

/-- `config.env || 'development'` in the chat service, `process.env.NODE_ENV ?? 'development'` in
the others. -/
def Service.environment (service : Service) (nodeEnv : Option JsString) : JsString :=
  match service, nodeEnv with
  | _, none | .chat, some [] => js "development"
  | _, some environment => environment

/-- The number that `res.status` accepts; it throws for everything else. -/
def statusOf : Value → Option ℕ
  | .json (.num (.finite q)) =>
    if q.den = 1 ∧ 100 ≤ q.num ∧ q.num ≤ 999 then some q.num.toNat else none
  | _ => none

/-- What the client gets. `failed` is the JSON of `errorHandler`, in which an undefined field is
left out; `unhandled` is the page of the framework. -/
inductive Reply (β : Type) where
  | sent (answer : β)
  | invalid (errors : List FieldError)
  | failed (code : ℕ) (message : Option JsString) (stack : Option JsString)
  | unhandled
  | silent
  deriving DecidableEq

def errorHandler {β : Type} (environment : JsString) (err : ErrorObject) : Reply β :=
  let masked := environment = js "production" ∧ ¬ err.isOperational.truthy
  let statusCode := if masked then status 500 else err.statusCode
  let message := if masked then some (js "Internal Server Error") else err.message
  match statusOf statusCode with
  | some code =>
    .failed code message (if environment = js "development" then err.stack else none)
  | none => .unhandled

/-- How a route ends: its handler answers, `validateRequest` does, an error is passed on, or
nothing of this happens. -/
inductive Verdict (β : Type) where
  | sent (answer : β)
  | invalid (errors : List FieldError)
  | next (error : JsError)
  | silent
  deriving DecidableEq

/-- What a running service adds: its environment, the stack that is captured, and the objects
that libraries and the language throw. -/
structure Runtime where
  service : Service
  nodeEnv : Option JsString
  captured : JsString
  thrown : JsError → ErrorObject

namespace Runtime

/-- The object behind an exception. Only the services throw `APIError`s. -/
def object (runtime : Runtime) : JsError → ErrorObject
  | .apiError statusCode message =>
    APIError runtime.captured (status statusCode) (js message) true []
  | error => { runtime.thrown error with isAPIError := false }

def reply {β : Type} (runtime : Runtime) : Verdict β → Reply β
  | .sent answer => .sent answer
  | .invalid errors => .invalid errors
  | .next error => errorHandler (runtime.service.environment runtime.nodeEnv)
      (errorMiddleware runtime.captured (runtime.object error))
  | .silent => .silent

def Production (runtime : Runtime) : Prop := runtime.nodeEnv = some (js "production")

end Runtime

/-- An exception that is not one of the services' own. -/
def Foreign : JsError → Prop
  | .apiError _ _ => False
  | _ => True

instance : DecidablePred Foreign := fun error => by
  unfold Foreign
  split <;> infer_instance

theorem statusOf_status {n : ℕ} (hmin : 100 ≤ n) (hmax : n ≤ 999) :
    statusOf (status n) = some n := by
  rw [status, statusOf]
  simp only [Rat.den_natCast, Rat.num_natCast, true_and]
  rw [if_pos ⟨by omega, by omega⟩, Int.toNat_natCast]

/-- What the middleware makes of any other error is not operational. -/
theorem not_operational (runtime : Runtime) {error : JsError} (hforeign : Foreign error) :
    (errorMiddleware runtime.captured (runtime.object error)).isOperational.truthy = false := by
  have hobject : (runtime.object error).isAPIError = false := by
    unfold Runtime.object
    split
    · exact hforeign.elim
    · rfl
  rw [errorMiddleware, hobject]
  simp only [Bool.false_eq_true, if_false]
  split <;> rfl

section Production

variable {β : Type} {runtime : Runtime} (h : runtime.Production)
include h

theorem production_environment :
    runtime.service.environment runtime.nodeEnv = js "production" := by
  rw [h]
  cases runtime.service <;> rfl

/-- An error of the services keeps its status and its text, and its stack stays inside. -/
theorem reply_apiError {statusCode : ℕ} (hmin : 100 ≤ statusCode) (hmax : statusCode ≤ 999)
    (message : String) :
    (runtime.reply (.next (.apiError statusCode message)) : Reply β) =
      .failed statusCode (some (js message)) none := by
  have hdevelopment : js "production" ≠ js "development" := by decide
  rw [Runtime.reply, production_environment h, Runtime.object, errorMiddleware,
    if_pos (by rfl), errorHandler]
  simp [APIError, Value.truthy, statusOf_status hmin hmax, hdevelopment]

/-- Any other error is masked, whatever it says. -/
theorem reply_foreign {error : JsError} (hforeign : Foreign error) :
    (runtime.reply (.next error) : Reply β) =
      .failed 500 (some (js "Internal Server Error")) none := by
  have hdevelopment : js "production" ≠ js "development" := by decide
  have hstatus : statusOf (status 500) = some 500 := statusOf_status (by decide) (by decide)
  rw [Runtime.reply, production_environment h, errorHandler]
  simp [not_operational runtime hforeign, hstatus, hdevelopment]

end Production

end ChatMicroservices.ErrorAnswers
