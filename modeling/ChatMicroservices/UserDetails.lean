import ChatMicroservices.ConversationList
import ChatMicroservices.ExpiringCaches
import ChatMicroservices.JsonSerialisation
import ChatMicroservices.MicrotaskQueues

/-!
# The names in the list of conversations

`getConversations` asks the user service for the partners of its rows, all at once, and keeps
the answers in a cache that all requests share. Requests overlap: between two awaits of one of
them any of the others may go on.
-/

namespace ChatMicroservices.UserDetails
open JavaScriptValues EffectPrograms InsertionMaps ExpiringCaches MicrotaskQueues
open ConversationList

structure Response where
  status : ℕ
  body : Except JsError Json

/-- `response.ok` -/
def Response.ok (response : Response) : Bool := 200 ≤ response.status ∧ response.status ≤ 299

abbrev Headers : Type := List (JsString × JsString)

/-- The operations of the cache, which wraps each value in an object, and of `fetch`. -/
inductive Op where
  | cacheGet (userId : JsString)
  | cacheSet (userId : JsString) (data : Value)
  | fetch (url : JsString) (headers : Headers)
  | readJson (response : Response)

@[reducible] def Ans : Op → Type
  | .cacheGet _ => Option Value
  | .cacheSet _ _ => Unit
  | .fetch _ _ => Except JsError Response
  | .readJson _ => Except JsError Json

abbrev Handler (α : Type) := Program Ans JsError α

def perform (op : Op) : Handler (Ans op) := Program.call op

def waits : Op → Bool
  | .fetch _ _ | .readJson _ => true
  | .cacheGet _ | .cacheSet _ _ => false

/-- What a request brings along for the user service. -/
structure Caller where
  jwtToken : Option JsString
  requestId : Option JsString

def USER_CACHE_TTL_MS : ℕ := 60000

/-- `process.env.USER_SERVICE_URL || 'http://user:8081'` -/
def serviceUrl : Option JsString → JsString
  | none | some [] => js "http://user:8081"
  | some url => url

def userUrl (userServiceUrl : Option JsString) (userId : JsString) : JsString :=
  serviceUrl userServiceUrl ++ js "/users/" ++ userId

/-- A header that is sent when its value is not empty. -/
def header (name : String) (before : JsString) : Option JsString → Headers
  | none | some [] => []
  | some value => [(js name, before ++ value)]

def Caller.headers (caller : Caller) : Headers :=
  header "Cookie" (js "jwt=") caller.jwtToken ++ header "X-Request-ID" [] caller.requestId

/-- `data?.data || data || null` -/
def resultOf (data : Json) : Value :=
  let inner := (Value.json data).field "data"
  if inner.truthy then inner
  else if (Value.json data).truthy then .json data
  else .json .null

def fetchUserDetails (userServiceUrl : Option JsString) (caller : Caller) (userId : JsString) :
    Handler Value := do
  match ← perform (.cacheGet userId) with
  | some data => pure data
  | none =>
    Program.tryCatch (do
      let response ← Program.attempt
        (perform (.fetch (userUrl userServiceUrl userId) caller.headers))
      if ¬ response.ok then pure (.json .null)
      else
        let data ← Program.attempt (perform (.readJson response))
        let result := resultOf data
        perform (.cacheSet userId result)
        pure result)
      fun _ => pure (.json .null)

/-- An answer of the user service. -/
structure Exchange where
  url : JsString
  response : Response
  time : ℕ

/-- An entry that was put into the cache. -/
structure Stored where
  userId : JsString
  data : Value
  time : ℕ

/-- The cache, and what has been observed of the network and of the cache. -/
structure World (cache : ExpiringCache JsString Value USER_CACHE_TTL_MS) where
  entries : cache.State
  exchanges : List Exchange
  stored : List Stored

/-- What has been observed once a call of `fetch` has been answered. -/
def World.exchanged {cache : ExpiringCache JsString Value USER_CACHE_TTL_MS} (w : World cache)
    (now : ℕ) (url : JsString) : Except JsError Response → World cache
  | .error _ => w
  | .ok response => { w with exchanges := w.exchanges ++ [⟨url, response, now⟩] }

section Execution

variable {cache : ExpiringCache JsString Value USER_CACHE_TTL_MS}
  (userServiceUrl : Option JsString)

/-- The operations at some time, where the user service answers as given. -/
def exec (now : ℕ) (answer : JsString → Headers → Except JsError Response) :
    (op : Op) → World cache → Ans op × World cache
  | .cacheGet userId, w =>
    let (hit, entries) := cache.get now userId w.entries
    (hit, { w with entries := entries })
  | .cacheSet userId data, w =>
    ((), { w with
      entries := cache.set now userId data w.entries
      stored := w.stored ++ [⟨userId, data, now⟩] })
  | .fetch url headers, w => (answer url headers, w.exchanged now url (answer url headers))
  | .readJson response, w => (response.body, w)

/-- A call of `fetchUserDetails`: its outcome, or what is left of it. -/
structure Fetch where
  userId : JsString
  rest : Except JsError Value ⊕ Handler Value

def Fetch.value (fetch : Fetch) : Option Value :=
  match fetch.rest with
  | .inl (.ok value) => some value
  | .inl (.error _) | .inr _ => none

/-- A request in `getConversations`, after its query. -/
structure Batch where
  rows : List ConversationRow
  caller : Caller
  startedAt : ℕ
  results : InsertionMap JsString Value
  fetches : List Fetch

/-- A user id in the rows; the columns of the table hold strings. -/
def partnerId (row : ConversationRow) : JsString :=
  match row.userId with
  | .str userId => userId
  | other => JSON.stringify other

/-- The loop over the user ids: what the cache has, and the ids that it does not have. -/
def lookUp (now : ℕ) : List JsString → cache.State → InsertionMap JsString Value →
    List JsString → InsertionMap JsString Value × List JsString × cache.State
  | [], entries, results, uncached => (results, uncached, entries)
  | id :: ids, entries, results, uncached =>
    match cache.get now id entries with
    | (some data, entries) => lookUp now ids entries (results.set id data) uncached
    | (none, entries) => lookUp now ids entries results (uncached ++ [id])

/-- `uncached.map(id => fetchUserDetails(id, …))`, as far as it goes before the first await. -/
def startFetches (caller : Caller) (now : ℕ)
    (answer : JsString → Headers → Except JsError Response) :
    List JsString → World cache → List Fetch × World cache
  | [], w => ([], w)
  | id :: ids, w =>
    let (rest, w) :=
      runSegment waits (exec now answer) (fetchUserDetails userServiceUrl caller id) w
    let (fetches, w) := startFetches caller now answer ids w
    (⟨id, rest⟩ :: fetches, w)

/-- `fetchUserDetailsBatch` up to its `await`. -/
def startBatch (rows : List ConversationRow) (caller : Caller) (now : ℕ)
    (answer : JsString → Headers → Except JsError Response) (w : World cache) :
    Batch × World cache :=
  let (results, uncached, entries) :=
    lookUp now (rows.map partnerId) w.entries InsertionMap.empty []
  let (fetches, w) :=
    startFetches userServiceUrl caller now answer uncached { w with entries := entries }
  (⟨rows, caller, now, results, fetches⟩, w)

/-- A promise that a call awaits has been settled. -/
def Fetch.resume (now : ℕ) (answer : JsString → Headers → Except JsError Response)
    (fetch : Fetch) (w : World cache) : Fetch × World cache :=
  match fetch.rest with
  | .inl _ => (fetch, w)
  | .inr p =>
    let (rest, w) := runSegment waits (exec now answer) p w
    ({ fetch with rest := rest }, w)

end Execution

/-- The map that `fetchUserDetailsBatch` returns, once every call has returned. -/
def Batch.details (batch : Batch) : Option (InsertionMap JsString Value) :=
  (batch.fetches.mapM fun fetch : Fetch => fetch.value.map fun value => (fetch.userId, value)).map
    batch.results.setAll

/-- `userDetails?.username || 'Unknown User'` -/
def usernameOf (userDetails : Option Value) : Value :=
  let username := (userDetails.getD .undefined).field "username"
  if username.truthy then username else .json (.str (js "Unknown User"))

/-- `conversationsWithUsernames` -/
def Batch.conversations (batch : Batch) : Option (List (ConversationRow × Value)) :=
  batch.details.map fun details =>
    batch.rows.map fun row => (row, usernameOf (details.get (partnerId row)))

structure Service (cache : ExpiringCache JsString Value USER_CACHE_TTL_MS) where
  clock : ℕ
  world : World cache
  batches : List Batch

inductive Event where
  | request (rows : List ConversationRow) (caller : Caller)
  | resume (batch fetch : ℕ)

/-- An event some time after the one before, with what the user service would answer. -/
structure Happening where
  elapsed : ℕ
  answer : JsString → Headers → Except JsError Response
  event : Event

section Runs

variable (userServiceUrl : Option JsString)
  (cache : ExpiringCache JsString Value USER_CACHE_TTL_MS)

def Service.start : Service cache := ⟨0, ⟨cache.empty, [], []⟩, []⟩

variable {cache}

/-- Promises are settled in any order, so any call that waits may go on. -/
def Service.step (service : Service cache) (happening : Happening) : Service cache :=
  let now := service.clock + happening.elapsed
  match happening.event with
  | .request rows caller =>
    let (batch, w) := startBatch userServiceUrl rows caller now happening.answer service.world
    ⟨now, w, service.batches ++ [batch]⟩
  | .resume i j =>
    match service.batches[i]? with
    | none => { service with clock := now }
    | some batch =>
      match batch.fetches[j]? with
      | none => { service with clock := now }
      | some fetch =>
        let (fetch, w) := fetch.resume now happening.answer service.world
        ⟨now, w, service.batches.set i { batch with fetches := batch.fetches.set j fetch }⟩

variable (cache) in
def serviceAfter (run : List Happening) : Service cache :=
  run.foldl (Service.step userServiceUrl) (.start cache)

end Runs

/-- What a call waits for has been settled with this. -/
inductive Stage where
  | responded (answer : Except JsError Response)
  | read (answer : Except JsError Json)

def Stage.program (userId : JsString) : Stage → Handler Value
  | responded answer =>
    Program.tryCatch (do
      let response ← Program.done answer
      if ¬ response.ok then pure (.json .null)
      else
        let data ← Program.attempt (perform (.readJson response))
        let result := resultOf data
        perform (.cacheSet userId result)
        pure result)
      fun _ => pure (.json .null)
  | read answer =>
    Program.tryCatch (do
      let data ← Program.done answer
      let result := resultOf data
      perform (.cacheSet userId result)
      pure result)
      fun _ => pure (.json .null)

section Segments

variable {cache : ExpiringCache JsString Value USER_CACHE_TTL_MS}
  {userServiceUrl : Option JsString} {caller : Caller} {userId : JsString} {now : ℕ}
  {answer : JsString → Headers → Except JsError Response} {w : World cache}

theorem segment_hit {data : Value} (h : (cache.get now userId w.entries).1 = some data) :
    runSegment waits (exec now answer) (fetchUserDetails userServiceUrl caller userId) w =
      (.inl (.ok data), { w with entries := (cache.get now userId w.entries).2 }) := by
  simp [fetchUserDetails, perform, Program.call, runSegment, waits, exec, h]

theorem segment_miss (h : (cache.get now userId w.entries).1 = none) :
    runSegment waits (exec now answer) (fetchUserDetails userServiceUrl caller userId) w =
      (.inr (Stage.program userId
        (.responded (answer (userUrl userServiceUrl userId) caller.headers))),
        World.exchanged { w with entries := (cache.get now userId w.entries).2 } now
          (userUrl userServiceUrl userId)
          (answer (userUrl userServiceUrl userId) caller.headers)) := by
  simp [fetchUserDetails, perform, Program.call, Program.attempt, runSegment, waits, exec, h,
    Stage.program]

theorem segment_failed (e : JsError) (stage : Stage)
    (h : stage = .responded (.error e) ∨ stage = .read (.error e)) :
    runSegment waits (exec now answer) (stage.program userId) w =
      (.inl (.ok (.json .null)), w) := by
  rcases h with rfl | rfl <;> simp [Stage.program, runSegment]

theorem segment_responded (response : Response) :
    runSegment waits (exec now answer) (Stage.program userId (.responded (.ok response))) w =
      (if response.ok then .inr (Stage.program userId (.read response.body))
        else .inl (.ok (.json .null)), w) := by
  by_cases hok : response.ok = true <;>
    simp [Stage.program, runSegment, waits, exec, perform, Program.call, Program.attempt, hok]

theorem segment_read (body : Json) :
    runSegment waits (exec now answer) (Stage.program userId (.read (.ok body))) w =
      (.inl (.ok (resultOf body)), { w with
        entries := cache.set now userId (resultOf body) w.entries
        stored := w.stored ++ [⟨userId, resultOf body, now⟩] }) := by
  simp [Stage.program, runSegment, waits, exec, perform, Program.call]

end Segments

section Soundness

variable {cache : ExpiringCache JsString Value USER_CACHE_TTL_MS}
  (userServiceUrl : Option JsString)

/-- The user service has answered this about a user, with a successful response. -/
def Replied (w : World cache) (userId : JsString) (response : Response) (time : ℕ) : Prop :=
  ∃ exchange ∈ w.exchanges, exchange.url = userUrl userServiceUrl userId ∧
    exchange.response = response ∧ exchange.time ≤ time

/-- The entry is what a successful answer about its user says. -/
def Stored.FromReply (w : World cache) (stored : Stored) : Prop :=
  ∃ response body, Replied userServiceUrl w stored.userId response stored.time ∧
    response.ok = true ∧ response.body = .ok body ∧ stored.data = resultOf body

/-- What is in the cache has been stored, and what has been stored has been answered. -/
structure World.Sound (clock : ℕ) (w : World cache) : Prop where
  entries : ∀ userId data t, cache.entry w.entries userId = some (data, t) →
    ⟨userId, data, t⟩ ∈ w.stored
  stored : ∀ entry ∈ w.stored, entry.time ≤ clock ∧ entry.FromReply userServiceUrl w

/-- Observations are not forgotten. -/
structure World.Extends (w w' : World cache) : Prop where
  exchanges : w.exchanges ⊆ w'.exchanges
  stored : w.stored ⊆ w'.stored

/-- The details have been stored for the user, and were not too old at the given time. -/
def Known (w : World cache) (since : ℕ) (userId : JsString) (data : Value) : Prop :=
  ∃ entry ∈ w.stored, entry.userId = userId ∧ entry.data = data ∧
    since ≤ entry.time + USER_CACHE_TTL_MS

def Stage.Sound (w : World cache) (clock : ℕ) (userId : JsString) : Stage → Prop
  | responded (.ok response) => Replied userServiceUrl w userId response clock
  | read (.ok body) => ∃ response, Replied userServiceUrl w userId response clock ∧
      response.ok = true ∧ response.body = .ok body
  | responded (.error _) | read (.error _) => True

/-- A call that has returned knows the details, or has failed; another one waits. -/
def Fetch.Sound (w : World cache) (clock since : ℕ) (fetch : Fetch) : Prop :=
  (∃ data, fetch.rest = .inl (.ok data) ∧
    (data = .json .null ∨ Known w since fetch.userId data)) ∨
  ∃ stage : Stage, fetch.rest = .inr (stage.program fetch.userId) ∧
    stage.Sound userServiceUrl w clock fetch.userId

structure Batch.Sound (w : World cache) (clock : ℕ) (batch : Batch) : Prop where
  startedAt : batch.startedAt ≤ clock
  results : ∀ userId data, batch.results.get userId = some data →
    Known w batch.startedAt userId data
  fetches : ∀ fetch ∈ batch.fetches, fetch.Sound userServiceUrl w clock batch.startedAt

variable {userServiceUrl} {w w' w'' : World cache} {clock now since : ℕ} {userId : JsString}

theorem World.Extends.refl (w : World cache) : w.Extends w :=
  ⟨List.Subset.refl _, List.Subset.refl _⟩

theorem World.Extends.trans (h : w.Extends w') (h' : w'.Extends w'') : w.Extends w'' :=
  ⟨List.Subset.trans h.exchanges h'.exchanges, List.Subset.trans h.stored h'.stored⟩

theorem Known.extends {data : Value} (h : Known w since userId data) (hw : w.Extends w') :
    Known w' since userId data := by
  obtain ⟨entry, hentry, hknown⟩ := h
  exact ⟨entry, hw.stored hentry, hknown⟩

theorem Replied.extends {response : Response} (h : Replied userServiceUrl w userId response clock)
    (hw : w.Extends w') (hclock : clock ≤ now) : Replied userServiceUrl w' userId response now := by
  obtain ⟨exchange, hmem, hurl, hresponse, htime⟩ := h
  exact ⟨exchange, hw.exchanges hmem, hurl, hresponse, htime.trans hclock⟩

theorem Stage.Sound.extends {stage : Stage} (h : stage.Sound userServiceUrl w clock userId)
    (hw : w.Extends w') (hclock : clock ≤ now) : stage.Sound userServiceUrl w' now userId := by
  rcases stage with (e | response) | (e | body)
  · trivial
  · exact Replied.extends h hw hclock
  · trivial
  · obtain ⟨response, hreplied, hbody⟩ := h
    exact ⟨response, hreplied.extends hw hclock, hbody⟩

theorem Fetch.Sound.extends {fetch : Fetch} (h : fetch.Sound userServiceUrl w clock since)
    (hw : w.Extends w') (hclock : clock ≤ now) : fetch.Sound userServiceUrl w' now since := by
  rcases h with ⟨data, hrest, hdata⟩ | ⟨stage, hrest, hstage⟩
  · exact .inl ⟨data, hrest, hdata.imp_right fun hknown => hknown.extends hw⟩
  · exact .inr ⟨stage, hrest, hstage.extends hw hclock⟩

theorem Batch.Sound.extends {batch : Batch} (h : batch.Sound userServiceUrl w clock)
    (hw : w.Extends w') (hclock : clock ≤ now) : batch.Sound userServiceUrl w' now where
  startedAt := h.startedAt.trans hclock
  results := fun userId data hget => (h.results userId data hget).extends hw
  fetches := fun fetch hfetch => (h.fetches fetch hfetch).extends hw hclock

/-- Time passes, and the cache may have forgotten entries. -/
theorem World.Sound.later (h : w.Sound userServiceUrl clock) (hclock : clock ≤ now)
    {entries : cache.State}
    (hentries : ∀ userId e, cache.entry entries userId = some e →
      cache.entry w.entries userId = some e) :
    World.Sound userServiceUrl now { w with entries := entries } where
  entries := fun userId data t hentry => h.entries userId data t (hentries userId _ hentry)
  stored := fun entry hentry => ⟨(h.stored entry hentry).1.trans hclock, (h.stored entry hentry).2⟩

/-- What the cache has was stored less than its time to live ago. -/
theorem World.Sound.known (h : w.Sound userServiceUrl clock) {data : Value}
    (hhit : (cache.get now userId w.entries).1 = some data) (hsince : since ≤ now) :
    Known w since userId data := by
  obtain ⟨t, hentry, hfresh⟩ := ExpiringCache.entry_of_hit hhit
  exact ⟨_, h.entries userId data t hentry, rfl, rfl, hsince.trans hfresh⟩

theorem Stored.FromReply.extends {entry : Stored} (h : entry.FromReply userServiceUrl w)
    (hw : w.Extends w') : entry.FromReply userServiceUrl w' := by
  obtain ⟨response, body, hreplied, hbody⟩ := h
  exact ⟨response, body, hreplied.extends hw (Nat.le_refl _), hbody⟩

/-- What one segment of a call does to a sound world. -/
structure Advances (userServiceUrl : Option JsString) (now since : ℕ) (w : World cache)
    (fetch : Fetch) (w' : World cache) : Prop where
  world : w'.Sound userServiceUrl now
  fetch : fetch.Sound userServiceUrl w' now since
  observed : w.Extends w'

variable (since) in
theorem advances_exchanged (h : w.Sound userServiceUrl now) (userId : JsString)
    (answer : Except JsError Response) : Advances userServiceUrl now since w
      ⟨userId, .inr ((Stage.responded answer).program userId)⟩
      (w.exchanged now (userUrl userServiceUrl userId) answer) := by
  cases answer with
  | error e => exact ⟨h, .inr ⟨_, rfl, trivial⟩, .refl w⟩
  | ok response =>
    have hw : w.Extends (w.exchanged now (userUrl userServiceUrl userId) (.ok response)) :=
      ⟨List.subset_append_left _ _, List.Subset.refl _⟩
    refine ⟨⟨h.entries, fun entry hentry => ?_⟩, .inr ⟨_, rfl, ?_⟩, hw⟩
    · exact ⟨(h.stored entry hentry).1, (h.stored entry hentry).2.extends hw⟩
    · exact ⟨_, List.mem_append_right _ (List.mem_singleton.mpr rfl), rfl, rfl, Nat.le_refl _⟩

theorem advances_start (h : w.Sound userServiceUrl now) (hsince : since ≤ now) (caller : Caller)
    (answer : JsString → Headers → Except JsError Response) (userId : JsString) :
    let out := runSegment waits (exec now answer) (fetchUserDetails userServiceUrl caller userId) w
    Advances userServiceUrl now since w ⟨userId, out.1⟩ out.2 := by
  have hlater : World.Sound userServiceUrl now
      { w with entries := (cache.get now userId w.entries).2 } :=
    h.later (Nat.le_refl _) fun _ _ => cache.entry_get
  have hkept : w.Extends { w with entries := (cache.get now userId w.entries).2 } :=
    ⟨List.Subset.refl _, List.Subset.refl _⟩
  intro out
  cases hhit : (cache.get now userId w.entries).1 with
  | none =>
    have hadvances := advances_exchanged since hlater userId
      (answer (userUrl userServiceUrl userId) caller.headers)
    rw [show out = _ from segment_miss hhit]
    exact ⟨hadvances.world, hadvances.fetch, hkept.trans hadvances.observed⟩
  | some data =>
    rw [show out = _ from segment_hit hhit]
    exact ⟨hlater, .inl ⟨data, rfl, .inr ((h.known hhit hsince).extends hkept)⟩, hkept⟩

theorem advances_stage (h : w.Sound userServiceUrl now) (hsince : since ≤ now)
    (answer : JsString → Headers → Except JsError Response) {userId : JsString} {stage : Stage}
    (hstage : stage.Sound userServiceUrl w now userId) :
    let out := runSegment waits (exec now answer) (stage.program userId) w
    Advances userServiceUrl now since w ⟨userId, out.1⟩ out.2 := by
  intro out
  rcases stage with (e | response) | (e | body)
  · rw [show out = _ from segment_failed e _ (.inl rfl)]
    exact ⟨h, .inl ⟨_, rfl, .inl rfl⟩, .refl w⟩
  · rw [show out = _ from segment_responded response]
    by_cases hok : response.ok = true
    · rw [if_pos hok]
      refine ⟨h, .inr ⟨_, rfl, ?_⟩, .refl w⟩
      cases hbody : response.body with
      | error e => trivial
      | ok body => exact ⟨response, hstage, hok, hbody⟩
    · rw [if_neg hok]
      exact ⟨h, .inl ⟨_, rfl, .inl rfl⟩, .refl w⟩
  · rw [show out = _ from segment_failed e _ (.inr rfl)]
    exact ⟨h, .inl ⟨_, rfl, .inl rfl⟩, .refl w⟩
  · rw [show out = _ from segment_read body]
    have hw : w.Extends { w with
        entries := cache.set now userId (resultOf body) w.entries
        stored := w.stored ++ [⟨userId, resultOf body, now⟩] } :=
      ⟨List.Subset.refl _, List.subset_append_left _ _⟩
    have hnew : (⟨userId, resultOf body, now⟩ : Stored) ∈
        w.stored ++ [⟨userId, resultOf body, now⟩] :=
      List.mem_append_right _ (List.mem_singleton.mpr rfl)
    obtain ⟨response, hreplied, hok, hbody⟩ := hstage
    refine ⟨⟨fun id data t hentry => ?_, fun entry hentry => ?_⟩, .inl ⟨_, rfl, .inr ?_⟩, hw⟩
    · rcases cache.entry_set hentry with ⟨rfl, heq⟩ | hold
      · obtain ⟨rfl, rfl⟩ := Prod.mk.inj heq
        exact hnew
      · exact hw.stored (h.entries id data t hold)
    · rcases List.mem_append.mp hentry with hold | hlast
      · exact ⟨(h.stored entry hold).1, (h.stored entry hold).2.extends hw⟩
      · obtain rfl := List.mem_singleton.mp hlast
        exact ⟨Nat.le_refl _, response, body, hreplied.extends hw (Nat.le_refl _), hok, hbody, rfl⟩
    · exact ⟨_, hnew, rfl, rfl, hsince.trans (Nat.le_add_right _ _)⟩

theorem advances_resume (h : w.Sound userServiceUrl now) (hsince : since ≤ now)
    (answer : JsString → Headers → Except JsError Response) {fetch : Fetch}
    (hfetch : fetch.Sound userServiceUrl w now since) :
    let out := fetch.resume now answer w
    Advances userServiceUrl now since w out.1 out.2 := by
  obtain ⟨userId, rest⟩ := fetch
  rcases id hfetch with ⟨data, hrest, hdata⟩ | ⟨stage, hrest, hstage⟩
  · obtain rfl : rest = .inl (.ok data) := hrest
    exact ⟨h, hfetch, .refl w⟩
  · obtain rfl : rest = .inr (stage.program userId) := hrest
    exact advances_stage h hsince answer hstage

/-- The loop of the batch collects what the cache knows. -/
theorem lookUp_sound (ids : List JsString) (h : w.Sound userServiceUrl now)
    (results : InsertionMap JsString Value) (uncached : List JsString)
    (hresults : ∀ userId data, results.get userId = some data → Known w now userId data) :
    let out := lookUp now ids w.entries results uncached
    World.Sound userServiceUrl now { w with entries := out.2.2 } ∧
      ∀ userId data, out.1.get userId = some data → Known w now userId data := by
  induction ids generalizing w results uncached with
  | nil => exact ⟨h, hresults⟩
  | cons id ids ih =>
    have hlater : World.Sound userServiceUrl now
        { w with entries := (cache.get now id w.entries).2 } :=
      h.later (Nat.le_refl _) fun _ _ => cache.entry_get
    rw [lookUp]
    split
    · rename_i data entries hget
      rw [hget] at hlater
      refine ih hlater (results.set id data) uncached fun userId data' hdata' => ?_
      rw [InsertionMap.get_set] at hdata'
      split at hdata'
      · rename_i hid
        obtain rfl := Option.some.inj hdata'
        subst hid
        exact h.known (by rw [hget]) (Nat.le_refl _)
      · exact hresults userId data' hdata'
    · rename_i entries hget
      rw [hget] at hlater
      exact ih hlater results (uncached ++ [id]) hresults

theorem startFetches_sound (caller : Caller)
    (answer : JsString → Headers → Except JsError Response) (ids : List JsString)
    (h : w.Sound userServiceUrl now) :
    let out := startFetches userServiceUrl caller now answer ids w
    out.2.Sound userServiceUrl now ∧ w.Extends out.2 ∧
      ∀ fetch ∈ out.1, fetch.Sound userServiceUrl out.2 now now := by
  induction ids generalizing w with
  | nil => exact ⟨h, .refl w, by simp [startFetches]⟩
  | cons id ids ih =>
    have hfirst := advances_start h (Nat.le_refl _) caller answer id
    obtain ⟨hworld, hextends, hfetches⟩ := ih hfirst.world
    refine ⟨hworld, hfirst.observed.trans hextends, fun fetch hfetch => ?_⟩
    rcases List.mem_cons.mp hfetch with rfl | hrest
    · exact hfirst.fetch.extends hextends (Nat.le_refl _)
    · exact hfetches fetch hrest

theorem startBatch_sound (rows : List ConversationRow) (caller : Caller)
    (answer : JsString → Headers → Except JsError Response) (h : w.Sound userServiceUrl now) :
    let out := startBatch userServiceUrl rows caller now answer w
    out.2.Sound userServiceUrl now ∧ w.Extends out.2 ∧ out.1.Sound userServiceUrl out.2 now := by
  obtain ⟨hlooked, hresults⟩ := lookUp_sound (rows.map partnerId) h InsertionMap.empty []
    (by simp)
  obtain ⟨hworld, hextends, hfetches⟩ := startFetches_sound caller answer
    (lookUp now (rows.map partnerId) w.entries InsertionMap.empty []).2.1 hlooked
  have hkept : w.Extends (startBatch userServiceUrl rows caller now answer w).2 :=
    ⟨hextends.exchanges, hextends.stored⟩
  exact ⟨hworld, hkept, Nat.le_refl _,
    fun userId data hget => (hresults userId data hget).extends hkept, hfetches⟩

structure Service.Sound (userServiceUrl : Option JsString) (service : Service cache) : Prop where
  world : service.world.Sound userServiceUrl service.clock
  batches : ∀ batch ∈ service.batches,
    batch.Sound userServiceUrl service.world service.clock

theorem Service.Sound.step {service : Service cache} (h : service.Sound userServiceUrl)
    (happening : Happening) : (service.step userServiceUrl happening).Sound userServiceUrl := by
  have hclock : service.clock ≤ service.clock + happening.elapsed := Nat.le_add_right _ _
  have hlater : service.world.Sound userServiceUrl (service.clock + happening.elapsed) :=
    h.world.later hclock fun _ _ hentry => hentry
  have hidle : Service.Sound userServiceUrl
      { service with clock := service.clock + happening.elapsed } :=
    ⟨hlater, fun batch hbatch => (h.batches batch hbatch).extends (.refl _) hclock⟩
  rw [Service.step]
  split
  · rename_i rows caller _
    obtain ⟨hworld, hextends, hbatch⟩ := startBatch_sound rows caller happening.answer hlater
    refine ⟨hworld, fun batch hmem => ?_⟩
    rcases List.mem_append.mp hmem with hold | hnew
    · exact (h.batches batch hold).extends hextends hclock
    · obtain rfl := List.mem_singleton.mp hnew
      exact hbatch
  · rename_i i j _
    split
    · exact hidle
    · rename_i batch hi
      have hbatch := h.batches batch (List.mem_of_getElem? hi)
      split
      · exact hidle
      · rename_i fetch hj
        have hfetch := hbatch.fetches fetch (List.mem_of_getElem? hj)
        have hnow := hbatch.startedAt.trans hclock
        obtain ⟨hworld, hresumed, hextends⟩ := advances_resume hlater hnow happening.answer
          (hfetch.extends (.refl _) hclock)
        have hrest := hbatch.extends hextends hclock
        refine ⟨hworld, fun other hmem => ?_⟩
        rcases List.mem_or_eq_of_mem_set hmem with hold | rfl
        · exact (h.batches other hold).extends hextends hclock
        · refine ⟨hnow, hrest.results, fun resumed hresumed' => ?_⟩
          rcases List.mem_or_eq_of_mem_set hresumed' with hother | rfl
          · exact hrest.fetches resumed hother
          · exact hresumed

variable (cache userServiceUrl) in
theorem sound_serviceAfter (run : List Happening) :
    (serviceAfter userServiceUrl cache run).Sound userServiceUrl := by
  induction run using List.reverseRecOn with
  | nil =>
    refine ⟨⟨fun userId data t hentry => ?_, fun _ h => ?_⟩, fun _ h => ?_⟩
    · rw [serviceAfter, List.foldl_nil, Service.start, cache.entry_empty] at hentry
      cases hentry
    · cases h
    · cases h
  | append_singleton run happening ih =>
    rw [serviceAfter, List.foldl_append]
    exact ih.step happening

/-- Calls that have returned give one entry each. -/
theorem values_of_done {P : JsString → Value → Prop} {fetches : List Fetch}
    (h : ∀ fetch ∈ fetches, ∃ data, fetch.rest = .inl (.ok data) ∧ P fetch.userId data) :
    ∃ entries, (fetches.mapM fun fetch : Fetch =>
        fetch.value.map fun value => (fetch.userId, value)) = some entries ∧
      ∀ entry ∈ entries, P entry.1 entry.2 := by
  induction fetches with
  | nil => exact ⟨[], rfl, by simp⟩
  | cons fetch fetches ih =>
    obtain ⟨data, hrest, hdata⟩ := h fetch List.mem_cons_self
    obtain ⟨entries, hentries, hall⟩ := ih fun f hf => h f (List.mem_cons_of_mem _ hf)
    have hvalue : fetch.value = some data := by simp [Fetch.value, hrest]
    refine ⟨(fetch.userId, data) :: entries, ?_, fun entry hentry => ?_⟩
    · rw [List.mapM_cons, hvalue, hentries]
      rfl
    · rcases List.mem_cons.mp hentry with rfl | hold
      · exact hdata
      · exact hall entry hold

theorem Batch.Sound.details {batch : Batch} (h : batch.Sound userServiceUrl w clock)
    (hdone : ∀ fetch ∈ batch.fetches, fetch.rest.isLeft = true) :
    ∃ details, batch.details = some details ∧ ∀ userId data, details.get userId = some data →
      data = .json .null ∨ Known w batch.startedAt userId data := by
  have hreturned : ∀ fetch ∈ batch.fetches, ∃ data, fetch.rest = .inl (.ok data) ∧
      (data = .json .null ∨ Known w batch.startedAt fetch.userId data) := by
    intro fetch hfetch
    rcases h.fetches fetch hfetch with hreturned | ⟨stage, hrest, -⟩
    · exact hreturned
    · have hleft := hdone fetch hfetch
      rw [hrest] at hleft
      cases hleft
  obtain ⟨entries, hentries, hall⟩ := values_of_done
    (P := fun userId data => data = .json .null ∨ Known w batch.startedAt userId data) hreturned
  refine ⟨batch.results.setAll entries, by rw [Batch.details, hentries, Option.map_some], ?_⟩
  intro userId data hget
  rw [InsertionMap.get_setAll] at hget
  cases hset : (InsertionMap.empty.setAll entries).get userId with
  | none =>
    rw [hset, Option.none_or] at hget
    exact .inr (h.results userId data hget)
  | some data' =>
    rw [hset, Option.some_or] at hget
    obtain rfl := Option.some.inj hget
    exact hall _ (InsertionMap.mem_of_get_setAll hset)

end Soundness

/-- Whatever the user service answers, and in whatever order, a request sends its rows as soon
as none of its calls waits. Every name in them is taken from a successful answer about the
partner, which was stored no longer than the time to live before the request. -/
theorem conversations_named (cache : ExpiringCache JsString Value USER_CACHE_TTL_MS)
    (userServiceUrl : Option JsString) (run : List Happening) :
    let service := serviceAfter userServiceUrl cache run
    ∀ batch ∈ service.batches, (∀ fetch ∈ batch.fetches, fetch.rest.isLeft = true) →
      ∃ conversations, batch.conversations = some conversations ∧
        conversations.map Prod.fst = batch.rows ∧
        ∀ c ∈ conversations, c.2 = .json (.str (js "Unknown User")) ∨
          ∃ entry ∈ service.world.stored, entry.userId = partnerId c.1 ∧
            entry.FromReply userServiceUrl service.world ∧
            batch.startedAt ≤ entry.time + USER_CACHE_TTL_MS ∧
            c.2 = entry.data.field "username" := by
  intro service batch hbatch hdone
  have hsound := sound_serviceAfter cache userServiceUrl run
  obtain ⟨details, hdetails, hknown⟩ := (hsound.batches batch hbatch).details hdone
  refine ⟨batch.rows.map fun row => (row, usernameOf (details.get (partnerId row))), ?_, ?_, ?_⟩
  · rw [Batch.conversations, hdetails, Option.map_some]
  · rw [List.map_map]
    exact List.map_id _
  · intro c hc
    obtain ⟨row, -, rfl⟩ := List.mem_map.mp hc
    simp only [usernameOf]
    split
    · rename_i htruthy
      cases hget : details.get (partnerId row) with
      | none =>
        rw [hget] at htruthy
        simp at htruthy
      | some data =>
        rw [hget] at htruthy
        rcases hknown (partnerId row) data hget with rfl | ⟨entry, hentry, hid, hdata, htime⟩
        · simp at htruthy
        · refine .inr ⟨entry, hentry, hid, (hsound.world.stored entry hentry).2, htime, ?_⟩
          rw [Option.getD_some, hdata]
    · exact .inl rfl

/-- The user service knows `alice` and `bob`. -/
def knownUsers (url : JsString) (_ : Headers) : Except JsError Response :=
  if url = userUrl none (js "alice") then
    .ok ⟨200, .ok (.obj [(js "data", .obj [(js "username", .str (js "Alice"))])])⟩
  else if url = userUrl none (js "bob") then
    .ok ⟨200, .ok (.obj [(js "data", .obj [(js "username", .str (js "Bob"))])])⟩
  else .ok ⟨404, .error (.failure "User not found")⟩

def rowOf (userId : String) : ConversationRow := ⟨.str (js userId), js userId, js "hi", 0, 0⟩

/-- The second request comes while the first still waits for the name of `bob`, and finds
`alice` in the cache. -/
def overlapping : List Happening :=
  [⟨0, knownUsers, .request [rowOf "alice", rowOf "bob"] ⟨some (js "token"), none⟩⟩,
    ⟨1, knownUsers, .resume 0 0⟩, ⟨1, knownUsers, .resume 0 0⟩,
    ⟨1, knownUsers, .request [rowOf "alice", rowOf "carol"] ⟨none, some (js "r2")⟩⟩,
    ⟨1, knownUsers, .resume 0 1⟩, ⟨1, knownUsers, .resume 1 0⟩, ⟨1, knownUsers, .resume 0 1⟩]

theorem conversations_named_overlapping :
    let service := serviceAfter none (leastRecentlyUsed JsString Value 500 _) overlapping
    service.batches.map (fun batch => (batch.results.rows.length, batch.fetches.length)) =
        [(0, 2), (1, 1)] ∧
      service.batches.map (fun batch => batch.conversations.map (List.map Prod.snd)) =
        [some [.json (.str (js "Alice")), .json (.str (js "Bob"))],
          some [.json (.str (js "Alice")), .json (.str (js "Unknown User"))]] ∧
      ∀ batch ∈ service.batches, ∃ conversations, batch.conversations = some conversations ∧
        conversations.map Prod.fst = batch.rows := by
  have hdone : ((serviceAfter none (leastRecentlyUsed JsString Value 500 _) overlapping).batches.all
      fun batch => batch.fetches.all fun fetch => fetch.rest.isLeft) = true := by decide +kernel
  refine ⟨by decide +kernel, by decide +kernel, fun batch hbatch => ?_⟩
  obtain ⟨conversations, hsome, hrows, -⟩ := conversations_named _ none overlapping batch hbatch
    (List.all_eq_true.mp (List.all_eq_true.mp hdone batch hbatch))
  exact ⟨conversations, hsome, hrows⟩

end ChatMicroservices.UserDetails
