import ChatMicroservices.ForeignErrors
import ChatMicroservices.RestRoutes

/-!
# Failures that differ in their texts

Databases, the broker and libraries describe their failures in texts that are not meant for a
client. Two runs of a route are compared whose calls succeed alike or fail in both. What comes
before a handler keeps such runs together.
-/

namespace ChatMicroservices.FailureCouplings
open JavaScriptValues EffectPrograms ErrorAnswers Authentication RouteValidation RestRoutes
open ForeignErrors
open ChatEffects (AuthUser)
open PrekeyDatabase (FieldError)

/-- A call succeeds with the same value, or fails with any two errors of others. -/
def SameOrFailed {α : Type} : Except JsError α → Except JsError α → Prop :=
  Agree Eq fun error error' => Foreign error ∧ Foreign error'

/-- The token library refuses a token for the same kind of reason. -/
def SameThrown (thrown thrown' : Thrown) : Prop :=
  thrown.isJsonWebTokenError = thrown'.isJsonWebTokenError ∧
    thrown.isTokenExpiredError = thrown'.isTokenExpiredError ∧
    Foreign thrown.error ∧ Foreign thrown'.error

def entryAlike : (op : Entry) → EntryAns op → EntryAns op → Prop
  | .readBody => SameOrFailed
  | .verify _ => Agree Eq SameThrown

/-- The same error in the words of the services, or two errors of others. -/
def SimilarError (documented : ℕ → String → Prop) (error error' : JsError) : Prop :=
  (∃ statusCode message, documented statusCode message ∧
    error = .apiError statusCode message ∧ error' = .apiError statusCode message) ∨
    Foreign error ∧ Foreign error'

/-- Verdicts that a client in production cannot tell apart. None of them leaves it waiting. -/
def SimilarVerdict {β : Type} (documented : ℕ → String → Prop) : Verdict β → Verdict β → Prop
  | .sent answer, .sent answer' => answer = answer'
  | .invalid errors, .invalid errors' => errors = errors'
  | .next error, .next error' => SimilarError documented error error'
  | _, _ => False

section Rules

variable {documented : ℕ → String → Prop} {Op : Type} {Ans : Op → Type} {c : Coupling Ans}
variable {α β : Type}

theorem similar_documented {statusCode : ℕ} {message : String}
    (h : documented statusCode message) :
    SimilarError documented (.apiError statusCode message) (.apiError statusCode message) :=
  .inl ⟨statusCode, message, h, rfl, rfl⟩

theorem agree_similar {V : α → β → Prop} {r : Except JsError α} {r' : Except JsError β}
    (h : Agree V (fun error error' => Foreign error ∧ Foreign error') r r') :
    Agree V (SimilarError documented) r r' :=
  h.mono (fun _ _ ha => ha) fun _ _ he => .inr he

/-- Calls that are awaited. -/
theorem awaitedFor {V : α → β → Prop} {p : Program Ans JsError (Except JsError α)}
    {p' : Program Ans JsError (Except JsError β)}
    (h : p.Coupled c (Agree V fun error error' => Foreign error ∧ Foreign error')
      (SimilarError documented) p') :
    p.attempt.Coupled c V (SimilarError documented) p'.attempt :=
  (h.mono (fun _ _ => agree_similar) fun _ _ he => he).attempt

/-- A call that is awaited. -/
theorem awaited {p : Program Ans JsError (Except JsError α)}
    (h : p.Coupled c SameOrFailed (SimilarError documented) p) :
    p.attempt.Coupled c Eq (SimilarError documented) p.attempt := awaitedFor h

/-- An awaited call and what comes after it. -/
theorem awaited_andThen {W : β → β → Prop} {p : Program Ans JsError (Except JsError α)}
    {f : α → Program Ans JsError β} (h : p.Coupled c SameOrFailed (SimilarError documented) p)
    (hf : ∀ a, (f a).Coupled c W (SimilarError documented) (f a)) :
    (p.attempt.bind f).Coupled c W (SimilarError documented) (p.attempt.bind f) :=
  (awaited h).andThen hf

/-- Synchronous code whose errors are documented or those of others. -/
theorem synchronous {r : Except JsError α}
    (h : ∀ error, r = .error error → SimilarError documented error error) :
    (Program.done r : Program Ans JsError α).Coupled c Eq (SimilarError documented)
      (Program.done r) := by
  cases r with
  | ok a => exact Program.coupled_done rfl
  | error error => exact h error rfl

theorem synchronous_foreign {r : Except JsError α} (h : ThrowsForeign r) :
    (Program.done r : Program Ans JsError α).Coupled c Eq (SimilarError documented)
      (Program.done r) :=
  synchronous fun error herror => .inr ⟨h error herror, h error herror⟩

end Rules

def entryCoupling : Coupling EntryAns := ⟨Eq, sameEffect entryAlike⟩

/-- What the observer of a route compares. -/
def routeCoupling {Op : Type} {Ans : Op → Type} (c : Coupling Ans) : Coupling (RouteAns Ans) :=
  entryCoupling.sum c

/-- A middleware that words its refusals itself, or passes on errors of others. -/
def Careful {β : Type} (documented : ℕ → String → Prop)
    (middleware : Verify → Request → Outcome β) : Prop :=
  ∀ req answer answer', Agree Eq SameThrown answer answer' →
    Agree Eq (SimilarError documented)
      (admitted (middleware (fun _ => answer.map claims) req) answer)
      (admitted (middleware (fun _ => answer'.map claims) req) answer')

/-- The refusals of the chat service. -/
def chatRefusals : List (ℕ × String) :=
  [(401, "Authentication required"), (401, "Invalid or expired token")]

/-- The refusals of the other two services. -/
def refusals : List (ℕ × String) :=
  [(401, "Authentication required. Please log in."),
    (401, "Invalid token. Please log in again."), (401, "Token expired. Please log in again.")]

section Entry

variable {documented : ℕ → String → Prop} {Op : Type} {Ans : Op → Type} {c : Coupling Ans}

theorem chat_careful (h : ∀ p ∈ chatRefusals, documented p.1 p.2) :
    Careful documented ChatService.authMiddleware := by
  intro req answer answer' halike
  unfold ChatService.authMiddleware
  by_cases htoken : (requestToken req).truthy = true
  · simp only [htoken, not_true_eq_false, if_false]
    cases answer with
    | ok user =>
      cases answer' with
      | ok user' => exact halike
      | error thrown' => exact halike.elim
    | error thrown =>
      cases answer' with
      | ok user' => exact halike.elim
      | error thrown' => exact similar_documented (h (401, _) (by simp [chatRefusals]))
  · simp only [htoken]
    exact similar_documented (h (401, _) (by simp [chatRefusals]))

theorem caught_similar (h : ∀ p ∈ refusals, documented p.1 p.2) {thrown thrown' : Thrown}
    (halike : SameThrown thrown thrown') :
    SimilarError documented (caught thrown) (caught thrown') := by
  obtain ⟨hjwt, hexpired, hforeign, hforeign'⟩ := halike
  rw [caught, caught, ← hjwt, ← hexpired]
  split_ifs
  · exact similar_documented (h (401, _) (by simp [refusals]))
  · exact similar_documented (h (401, _) (by simp [refusals]))
  · exact .inr ⟨hforeign, hforeign'⟩

/-- The middleware of the user service and of the notification service differ in what they
attach. -/
theorem verified_careful (h : ∀ p ∈ refusals, documented p.1 p.2) {β : Type} (f : Payload → β) :
    Careful documented fun verify req =>
      match verified verify req with
      | .ok decoded => .proceed (f decoded)
      | .error error => .reject (caught error) := by
  intro req answer answer' halike
  unfold verified
  by_cases htoken : (requestToken req).truthy = true
  · simp only [htoken, not_true_eq_false, if_false]
    cases answer with
    | ok user =>
      cases answer' with
      | ok user' => exact halike
      | error thrown' => exact halike.elim
    | error thrown =>
      cases answer' with
      | ok user' => exact halike.elim
      | error thrown' => exact caught_similar h halike
  · simp only [htoken]
    exact similar_documented (h (401, _) (by simp [refusals]))

theorem readBody_coupled :
    (readBody : Route Ans Value).Coupled (routeCoupling c) Eq (SimilarError documented) readBody :=
  awaited (Program.coupled_callsLeft rfl fun _ _ ha => ha rfl)

theorem authenticate_coupled {β : Type} {middleware : Verify → Request → Outcome β}
    (h : Careful documented middleware) (req : Request) :
    (authenticate middleware req : Route Ans AuthUser).Coupled (routeCoupling c) Eq
      (SimilarError documented) (authenticate middleware req) :=
  Program.Coupled.bind (Program.coupled_callsLeft rfl fun _ _ ha => ha rfl)
    fun answer answer' halike => h req answer answer' halike

theorem validateRequest_coupled {α γ : Type} {chains : Except JsError (α × List FieldError)}
    {handler : α → Route Ans (Verdict γ)} (hchains : ThrowsForeign chains)
    (hhandler : ∀ a, (handler a).Coupled (routeCoupling c) (SimilarVerdict documented)
      (SimilarError documented) (handler a)) :
    (validateRequest chains handler).Coupled (routeCoupling c) (SimilarVerdict documented)
      (SimilarError documented) (validateRequest chains handler) := by
  unfold validateRequest
  split
  · exact .inr ⟨hchains _ rfl, hchains _ rfl⟩
  · split_ifs
    · exact hhandler _
    · exact Program.coupled_done rfl

end Entry

end ChatMicroservices.FailureCouplings
