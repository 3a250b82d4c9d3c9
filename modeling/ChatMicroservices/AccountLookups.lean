import ChatMicroservices.Sessions
import ChatMicroservices.UserSearch

/-!
# The account handlers that only read

`getCurrentUser`, `getUserById`, `search` and `logout` of the user service. The first two pass
their errors to `next`; `search` answers every failure with an empty list.
-/

namespace ChatMicroservices.AccountLookups
open JavaScriptValues EffectPrograms UsersTable Authentication UserSearch
open Sessions (StoredCookie)

inductive Op where
  | findOne (id : Value)
  | getMany (currentUserId searchTerm : JsString)
  | currentTime

@[reducible] def Ans : Op → Type
  | .findOne _ => Except JsError (Option User)
  | .getMany _ _ => Except JsError (List User)
  | .currentTime => ℕ

abbrev Handler (α : Type) := Program Ans JsError α

def perform (op : Op) : Handler (Ans op) := Program.call op

/-- The `data` of an answer about one user. -/
structure UserData where
  id : JsString
  username : JsString
  email : JsString

/-- How a handler ends the request. -/
inductive HttpResult where
  | user (message : String) (data : UserData)
  | found (data : List Found)
  | loggedOut (cleared : StoredCookie) (message : String)
  | next (error : JsError)

/-- The handler's `try { … } catch (error) { next(error) }`. -/
def orNext (p : Handler HttpResult) : Handler HttpResult :=
  p.tryCatch fun error => pure (.next error)

/-- What `getCurrentUser` and `getUserById` do with an id. -/
def answerUser (id : Value) : Handler HttpResult := do
  match ← Program.attempt (perform (.findOne id)) with
  | none => throw (.apiError 404 "User not found")
  | some user => pure (.user "User retrieved successfully" ⟨user.id, user.username, user.email⟩)

def getCurrentUser (user : Option Payload) : Handler HttpResult := orNext do
  match user with
  | none => throw (.apiError 401 "Authentication required")
  | some user => answerUser (user.field "id")

def getUserById (userId : JsString) : Handler HttpResult := orNext do
  if userId = [] then throw (.apiError 400 "User ID is required")
  else answerUser (.json (.str userId))

/-- A parameter that is not a text has no `trim`; that error is caught as well. -/
def search (currentUserId : JsString) : Value → Handler HttpResult
  | .json (.str q) =>
    if q = [] ∨ trim q = [] then pure (.found [])
    else
      Program.tryCatch (do
        let users ← Program.attempt (perform (.getMany currentUserId (searchTerm q)))
        pure (.found (users.map found)))
        fun _ => pure (.found [])
  | _ => pure (.found [])

def logout (production : Bool) : Handler HttpResult := orNext do
  let now ← perform .currentTime
  pure (.loggedOut (Sessions.logout production now) "Logged out successfully")

/-- The handler answers with what the search finds. -/
theorem search_run {σ : Type} {exec : (op : Op) → σ → Ans op × σ}
    {query : JsString → JsString → Except JsError (List User)}
    (h : ∀ id term s, (exec (.getMany id term) s).1 = query id term) (currentUserId : JsString)
    (q : Value) (s : σ) :
    ((search currentUserId q).run exec s).1 =
      .ok (.found (UserSearch.search query currentUserId q)) := by
  unfold search
  split
  · rename_i q
    rw [UserSearch.search]
    split
    · rfl
    · have hquery := h currentUserId (searchTerm q) s
      simp only [Program.bind_eq, Program.attempt, perform, Program.bind_call,
        Program.bind_perform, Program.tryCatch_perform, Program.run]
      rw [hquery]
      cases query currentUserId (searchTerm q) with
      | ok users => rfl
      | error error => rfl
  · rename_i hq
    rw [UserSearch.search]
    · rfl
    · exact hq

end ChatMicroservices.AccountLookups
