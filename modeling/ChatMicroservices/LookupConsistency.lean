import ChatMicroservices.ReceiverLookups

/-!
# Lookups are not mixed up

What waits in the queues and in the correlation maps is about the receivers of the messages that
are being handled. Every event and every effect of a message keeps this, so a message that has
been handled has published at most one notification, with an address of its own receiver.
-/

namespace ChatMicroservices.LookupConsistency
open JavaScriptValues EffectPrograms ConcurrentPrograms OpenPools MessageNotification
  ReceiverLookups
open ChatEffects (Ans Handler NotificationPayload perform)
open CorrelationMap (Client Tracks)
open DetailsResponder (Delivery)
open ReplyRouting (nodeUuid)
open UsersTable (Table User)

section Invariants

variable {ι Node : Type} [DecidableEq ι] {formats : Formats} {uuid : Node × ℕ ↪ JsString}
  {node : ι → Node} {args : ι → IncomingMessageNotification} {w w' : World ι Node} {i : ι}

/-- The promise of message `i` has been resolved with the value. -/
def Answered (node : ι → Node) (i : ι) (v : Value) (w : World ι Node) : Prop :=
  ∃ call, w.calls i = some call ∧ (call, v) ∈ (w.clients (node i)).invocations

/-- The notification of a message whose lookup has come to a value. -/
def noticeOf (args : IncomingMessageNotification) (v : Value) : NotificationPayload :=
  notificationPayload (notifyArgs args v)

/-- The queues and the correlation maps tell of the lookups of messages, and what comes of one is
about the receiver of its message. -/
structure Consistent (formats : Formats) (uuid : Node × ℕ ↪ JsString) (node : ι → Node)
    (args : ι → IncomingMessageNotification) (w : World ι Node) : Prop where
  tracks : ∀ n, Tracks (nodeUuid uuid n) none (w.clients n)
  called : ∀ i call, w.calls i = some call → call < (w.clients (node i)).calls
  distinct : ∀ i j call, node i = node j → w.calls i = some call → w.calls j = some call → i = j
  requested : ∀ r ∈ w.requests, ∃ i call, w.calls i = some call ∧
    r.correlationId = some (uuid (node i, call)) ∧ r.content = requestText (args i).receiverId
  replied : ∀ r ∈ w.responses, ∃ i call v, w.calls i = some call ∧
    r.correlationId = some (uuid (node i, call)) ∧ JSON.parse r.content = .ok v ∧
      Contact formats w.users (args i).receiverId ((Value.json v).field "email")
  contact : ∀ i v, Answered node i v w →
    Contact formats w.users (args i).receiverId (v.field "email")
  waiting : ∀ i call, w.calls i = some call → (∃ v, (call, v) ∈ (w.clients (node i)).invocations) ∨
    (w.clients (node i)).correlationMap.get (uuid (node i, call)) = some ⟨call, call⟩
  published : ∀ i, w.publishedBy i = [] ∨
    ∃ v, Answered node i v w ∧ w.publishedBy i = [noticeOf (args i) v]

/-- What is there of message `i` is the same, and nothing that was answered is lost. -/
structure SameFor (i : ι) (w w' : World ι Node) : Prop where
  users : w.users.rows <+: w'.users.rows
  invocations : ∀ n, (w.clients n).invocations <+: (w'.clients n).invocations
  calls : w'.calls i = w.calls i
  published : w'.publishedBy i = w.publishedBy i
  refused : i ∈ w'.refused ↔ i ∈ w.refused
  online : i ∈ w'.online ↔ i ∈ w.online

theorem SameFor.refl (i : ι) (w : World ι Node) : SameFor i w w where
  users := List.prefix_rfl
  invocations _ := List.prefix_rfl
  calls := rfl
  published := rfl
  refused := Iff.rfl
  online := Iff.rfl

theorem SameFor.trans {w'' : World ι Node} (h : SameFor i w w') (h' : SameFor i w' w'') :
    SameFor i w w'' where
  users := h.users.trans h'.users
  invocations n := (h.invocations n).trans (h'.invocations n)
  calls := h'.calls.trans h.calls
  published := h'.published.trans h.published
  refused := h'.refused.trans h.refused
  online := h'.online.trans h.online

def lookups (formats : Formats) (uuid : Node × ℕ ↪ JsString) (node : ι → Node)
    (args : ι → IncomingMessageNotification) : Protocol ι (World ι Node) where
  inv := Consistent formats uuid node args
  rely := SameFor
  guar j w w' := ∀ i, i ≠ j → SameFor i w w'
  rely_refl := SameFor.refl
  rely_trans _ _ _ _ h h' := h.trans h'
  compatible := fun hij _ _ _ h => h _ hij

theorem Answered.same {v : Value} (h : Answered node i v w) (hsame : SameFor i w w') :
    Answered node i v w' := by
  obtain ⟨call, hcall, hv⟩ := h
  exact ⟨call, hsame.calls.trans hcall, (hsame.invocations _).subset hv⟩

omit [DecidableEq ι] in
theorem answered_of_answer {v : Value} (h : w.answer node i = some v) : Answered node i v w := by
  obtain ⟨call, hcall, hv⟩ := Option.bind_eq_some_iff.mp h
  obtain ⟨before, after, hsplit, -⟩ := List.lookup_eq_some_iff.mp hv
  exact ⟨call, hcall, hsplit ▸ List.mem_append_right _ List.mem_cons_self⟩

theorem consistent_start (users : Table) : Consistent formats uuid node args (start users) where
  tracks _ := CorrelationMap.fresh_tracks
  called := nofun
  distinct := nofun
  requested := nofun
  replied := nofun
  contact := by
    rintro i v ⟨call, hcall, -⟩
    cases hcall
  waiting := nofun
  published _ := .inl rfl

/-- Messages of the queues may be lost. -/
theorem Consistent.lose (h : Consistent formats uuid node args w) {requests : List Delivery}
    {responses : List Response} (hrequests : ∀ r ∈ requests, r ∈ w.requests)
    (hresponses : ∀ r ∈ responses, r ∈ w.responses) :
    Consistent formats uuid node args { w with requests, responses } where
  tracks := h.tracks
  called := h.called
  distinct := h.distinct
  requested r hr := h.requested r (hrequests r hr)
  replied r hr := h.replied r (hresponses r hr)
  contact := h.contact
  waiting := h.waiting
  published := h.published

/-- Nothing of a message is in the queues. -/
theorem sameFor_queues (i : ι) (w : World ι Node) (requests : List Delivery)
    (responses : List Response) : SameFor i w { w with requests, responses } where
  users := List.prefix_rfl
  invocations _ := List.prefix_rfl
  calls := rfl
  published := rfl
  refused := Iff.rfl
  online := Iff.rfl

theorem Consistent.grow (h : Consistent formats uuid node args w) {users : Table}
    (hgrows : w.users.rows <+: users.rows) :
    Consistent formats uuid node args { w with users } where
  tracks := h.tracks
  called := h.called
  distinct := h.distinct
  requested := h.requested
  replied r hr := by
    obtain ⟨i, call, v, hcall, hid, hparse, hcontact⟩ := h.replied r hr
    exact ⟨i, call, v, hcall, hid, hparse, hcontact.mono hgrows⟩
  contact i v hv := (h.contact i v hv).mono hgrows
  waiting := h.waiting
  published := h.published

variable [DecidableEq Node]

/-- A client that settles a call keeps everything, if what it has got is about the receiver. -/
theorem Consistent.setClient (h : Consistent formats uuid node args w) {n : Node} {s : Client}
    {answered : Option (ℕ × Value)}
    (hs : Settles (nodeUuid uuid n) answered (w.clients n) s)
    (hanswered : ∀ i call v, node i = n → w.calls i = some call → answered = some (call, v) →
      Contact formats w.users (args i).receiverId (v.field "email")) :
    Consistent formats uuid node args (w.setClient n s) ∧ ∀ i, SameFor i w (w.setClient n s) := by
  have hself : ((w.setClient n s).clients n) = s := Function.update_self ..
  have hother : ∀ m, m ≠ n → (w.setClient n s).clients m = w.clients m := fun m hm =>
    Function.update_of_ne hm ..
  have hinvocations : ∀ m, (w.clients m).invocations <+:
      ((w.setClient n s).clients m).invocations := by
    intro m
    by_cases hm : m = n
    · rw [hm, hself, hs.invocations]
      exact List.prefix_append _ _
    · rw [hother m hm]
  have hsame : ∀ i, SameFor i w (w.setClient n s) := fun i =>
    ⟨List.prefix_rfl, hinvocations, rfl, rfl, Iff.rfl, Iff.rfl⟩
  refine ⟨?_, hsame⟩
  constructor
  case tracks =>
    intro m
    by_cases hm : m = n
    · rw [hm, hself]
      exact hs.tracks
    · rw [hother m hm]
      exact h.tracks m
  case called =>
    intro i call hcall
    by_cases hm : node i = n
    · rw [hm, hself, hs.calls, ← hm]
      exact h.called i call hcall
    · rw [hother _ hm]
      exact h.called i call hcall
  case distinct => exact h.distinct
  case requested => exact h.requested
  case replied => exact h.replied
  case contact =>
    rintro i v ⟨call, hcall, hv⟩
    by_cases hm : node i = n
    · rw [hm, hself, hs.invocations] at hv
      rcases List.mem_append.mp hv with hv | hv
      · exact h.contact i v ⟨call, hcall, hm ▸ hv⟩
      · exact hanswered i call v hm hcall (Option.mem_toList.mp hv)
    · rw [hother _ hm] at hv
      exact h.contact i v ⟨call, hcall, hv⟩
  case waiting =>
    intro i call hcall
    rcases h.waiting i call hcall with ⟨v, hv⟩ | hwaits
    · exact .inl ⟨v, (hinvocations _).subset hv⟩
    · by_cases hm : node i = n
      · subst hm
        rw [hself]
        rcases hs.kept _ _ hwaits with hkept | ⟨other, v, hid, rfl⟩
        · exact .inr hkept
        · obtain rfl := (nodeUuid uuid (node i)).injective hid
          refine .inl ⟨v, ?_⟩
          rw [hs.invocations]
          exact List.mem_append_right _ List.mem_cons_self
      · rw [hother _ hm]
        exact .inr hwaits
  case published =>
    intro i
    rcases h.published i with hnone | ⟨v, hv, hone⟩
    · exact .inl hnone
    · exact .inr ⟨v, hv.same (hsame i), hone⟩

theorem Consistent.serve (h : Consistent formats uuid node args w) (k : ℕ) (c : Service) :
    Consistent formats uuid node args (step formats uuid w (.serve k c)) := by
  cases hk : w.requests[k]? with
  | none =>
    simp only [step, hk]
    exact h
  | some msg =>
    obtain ⟨i, call, hcall, hid, hcontent⟩ := h.requested msg (List.mem_of_getElem? hk)
    simp only [step, hk]
    refine { h with requested := fun r hr => h.requested r ?_, replied := fun r hr => ?_ }
    · split at hr
      · exact List.mem_of_mem_eraseIdx hr
      · exact hr
    · rcases List.mem_append.mp hr with hr | hr
      · exact h.replied r hr
      · obtain ⟨s, hs, rfl⟩ := List.mem_map.mp hr
        obtain ⟨hsid, v, hparse, hcontact⟩ := handle_sent hcontent c (List.mem_filter.mp hs).1
        exact ⟨i, call, v, hcall, hsid.trans hid, hparse, hcontact⟩

theorem Consistent.deliver (h : Consistent formats uuid node args w) (k : ℕ) (n : Node) :
    Consistent formats uuid node args (step formats uuid w (.deliver k n)) ∧
      ∀ i, SameFor i w (step formats uuid w (.deliver k n)) := by
  cases hk : w.responses[k]? with
  | none =>
    simp only [step, hk]
    exact ⟨h, fun i => .refl i w⟩
  | some r =>
    obtain ⟨i, call, v, hcall, hid, hparse, hcontact⟩ := h.replied r (List.mem_of_getElem? hk)
    simp only [step, hk]
    have hrest : Consistent formats uuid node args { w with responses := w.responses.eraseIdx k } :=
      h.lose (fun _ hr => hr) fun _ hr => List.mem_of_mem_eraseIdx hr
    obtain ⟨answered, hs, hanswered⟩ := settles_onMessage (h.tracks n) r.correlationId r.content
    suffices hdelivered : _ from
      have hclient := hrest.setClient hs hdelivered
      ⟨hclient.1, fun i => (sameFor_queues i w _ _).trans (hclient.2 i)⟩
    intro j other u hj hother hsome
    -- The call with this correlation id is the one that the reply is about.
    obtain ⟨hother', -, user, hparse', rfl⟩ := hanswered other u hsome
    have huuid : (node i, call) = (n, other) :=
      uuid.injective (Option.some.inj (hid.symm.trans hother'))
    obtain ⟨hn, rfl⟩ := Prod.mk.inj huuid
    obtain rfl := h.distinct j i call (hj.trans hn.symm) hother hcall
    obtain rfl : v = user := by
      rw [hparse] at hparse'
      exact Except.ok.inj hparse'
    exact hcontact

theorem Consistent.timeout (h : Consistent formats uuid node args w) (n : Node) (call : ℕ) :
    Consistent formats uuid node args (step formats uuid w (.timeout n call)) ∧
      ∀ i, SameFor i w (step formats uuid w (.timeout n call)) := by
  obtain ⟨answered, hs, hnull, -⟩ := settles_timeout (h.tracks n) call
  refine h.setClient hs fun i other v _ _ hsome => .inl ?_
  obtain ⟨-, -, rfl⟩ := hnull other v hsome
  rfl

theorem register_grows (users : Table) (row : User) :
    users.rows <+: ((users.insert row).getD users).rows := by
  cases hinsert : users.insert row with
  | none => exact List.prefix_rfl
  | some users' =>
    rw [Option.getD_some, Table.insert_eq_some hinsert]
    exact List.prefix_append _ _

/-- Whatever happens at the broker and in the user service, the messages may rely on it. -/
theorem moves_tolerated : Tolerates (lookups formats uuid node args) (Moves formats uuid) := by
  have hevent : ∀ (w : World ι Node) (event : Event Node),
      Consistent formats uuid node args w →
      Consistent formats uuid node args (step formats uuid w event) ∧
        ∀ i, SameFor i w (step formats uuid w event) := by
    intro w event h
    cases event with
    | serve k c =>
      refine ⟨h.serve k c, fun i => ?_⟩
      simp only [step]
      split
      · exact .refl i w
      · exact sameFor_queues i w _ _
    | deliver k n => exact h.deliver k n
    | timeout n call => exact h.timeout n call
    | loseRequest k =>
      exact ⟨h.lose (fun _ hr => List.mem_of_mem_eraseIdx hr) fun _ hr => hr,
        fun i => sameFor_queues i w _ _⟩
    | loseResponse k =>
      exact ⟨h.lose (fun _ hr => hr) fun _ hr => List.mem_of_mem_eraseIdx hr,
        fun i => sameFor_queues i w _ _⟩
    | register row =>
      exact ⟨h.grow (register_grows w.users row), fun i =>
        ⟨register_grows w.users row, fun _ => List.prefix_rfl, rfl, rfl, Iff.rfl, Iff.rfl⟩⟩
  constructor
  · rintro w w' h ⟨event, rfl⟩
    exact (hevent w event h).1
  · rintro i w w' h ⟨event, rfl⟩
    exact (hevent w event h).2 i

/-- What is left to do once the lookup has been started. -/
def concluding (args : IncomingMessageNotification) : Handler Unit :=
  .perform .awaitCallback fun v => .perform (.publish (noticeOf args v)) fun _ => .done (.ok ())

theorem handleMessageReceived_eq (args : IncomingMessageNotification) :
    handleMessageReceived args =
      .perform (.isOnline args.receiverId) fun online =>
        if online then .done (.ok ())
        else .perform .registerCallback fun id =>
          .perform (.sendRequest id args.receiverId) fun sent =>
            match sent with
            | .ok _ => concluding args
            | .error e => .perform (.unhandledRejection e) fun _ => concluding args := by
  have hnotify : ∀ v, notifyReceiver (notifyArgs args v) =
      .perform (.publish (noticeOf args v)) fun _ => .done (.ok ()) := by
    intro v
    refine congrArg (Program.perform _) (funext fun sent => ?_)
    cases sent with
    | ok u => rfl
    | error e => rfl
  have hlookup : ∀ e, ((perform (.unhandledRejection e) : Handler Unit).bind fun _ =>
      perform .awaitCallback) =
      .perform (.unhandledRejection e) fun _ => perform .awaitCallback := fun _ => rfl
  refine congrArg (Program.perform _) (funext fun online => ?_)
  cases online with
  | true => rfl
  | false =>
    refine congrArg (Program.perform _) (funext fun id => ?_)
    refine congrArg (Program.perform _) (funext fun sent => ?_)
    cases sent with
    | ok u =>
      refine congrArg (Program.perform _) (funext fun v => ?_)
      exact hnotify v
    | error e =>
      refine congrArg (Program.perform _) (funext fun _ => ?_)
      refine congrArg (Program.perform _) (funext fun v => ?_)
      exact hnotify v

/-- Nothing has been done for message `i`. -/
structure Unhandled (i : ι) (w : World ι Node) : Prop where
  calls : w.calls i = none
  published : w.publishedBy i = []

/-- The lookup of message `i` has been started, and its notification is still to come. -/
structure LookingUp (node : ι → Node) (uuid : Node × ℕ ↪ JsString) (i : ι) (id : JsString)
    (w : World ι Node) : Prop where
  calls : ∃ call, w.calls i = some call ∧ id = uuid (node i, call)
  published : w.publishedBy i = []

/-- What is to be found of a message that has been handled. -/
def Handled (node : ι → Node) (args : ι → IncomingMessageNotification) (i : ι)
    (r : Except JsError Unit) (w : World ι Node) : Prop :=
  r = .ok () ∧ (i ∈ w.online ∨ ∃ v, Answered node i v w ∧
    (w.publishedBy i = [noticeOf (args i) v] ∨ i ∈ w.refused))

omit [DecidableEq Node] in
theorem Handled.same {r : Except JsError Unit} (h : Handled node args i r w)
    (hsame : SameFor i w w') : Handled node args i r w' := by
  obtain ⟨hr, honline | ⟨v, hv, hpublished | hrefused⟩⟩ := h
  · exact ⟨hr, .inl (hsame.online.mpr honline)⟩
  · exact ⟨hr, .inr ⟨v, hv.same hsame, .inl (hsame.published.trans hpublished)⟩⟩
  · exact ⟨hr, .inr ⟨v, hv.same hsame, .inr (hsame.refused.mpr hrefused)⟩⟩

omit [DecidableEq Node] in
theorem publishedBy_accept (w : World ι Node) (i : ι) (payload : NotificationPayload) (j : ι) :
    (w.accept i payload).publishedBy j =
      if j = i then w.publishedBy j ++ [payload] else w.publishedBy j := by
  unfold World.publishedBy World.accept
  rw [List.filter_append, List.map_append]
  by_cases h : j = i
  · subst h
    simp
  · simp [h, Ne.symm h]

/-- A message whose lookup is started. -/
theorem Consistent.call (h : Consistent formats uuid node args w) (hi : w.calls i = none) :
    Consistent formats uuid node args (w.call uuid node i) ∧
      ∀ j, j ≠ i → SameFor j w (w.call uuid node i) := by
  have hself : (w.call uuid node i).clients (node i) =
      CorrelationMap.getUserDetails (nodeUuid uuid (node i)) (w.clients (node i)) :=
    Function.update_self ..
  have hother : ∀ m, m ≠ node i → (w.call uuid node i).clients m = w.clients m := fun m hm =>
    Function.update_of_ne hm ..
  have hinvocations : ∀ m,
      ((w.call uuid node i).clients m).invocations = (w.clients m).invocations := by
    intro m
    by_cases hm : m = node i
    · rw [hm, hself]
      rfl
    · rw [hother m hm]
  have hnew : (w.call uuid node i).calls i = some (w.clients (node i)).calls :=
    Function.update_self ..
  have hold : ∀ j, j ≠ i → (w.call uuid node i).calls j = w.calls j := fun j hj =>
    Function.update_of_ne hj ..
  have hkept : ∀ {j call}, w.calls j = some call → j ≠ i ∧ (w.call uuid node i).calls j =
      some call := by
    intro j call hcall
    have hj : j ≠ i := by
      rintro rfl
      cases hi.symm.trans hcall
    exact ⟨hj, (hold j hj).trans hcall⟩
  have hanswered : ∀ {j v}, Answered node j v (w.call uuid node i) → Answered node j v w := by
    rintro j v ⟨call, hcall, hv⟩
    rw [hinvocations] at hv
    by_cases hj : j = i
    · subst hj
      obtain rfl := Option.some.inj (hnew.symm.trans hcall)
      have hlt := (h.tracks (node j)).invoked_lt _ (List.mem_map_of_mem (f := Prod.fst) hv)
      exact absurd hlt (Nat.lt_irrefl _)
    · exact ⟨call, (hold j hj).symm.trans hcall, hv⟩
  have hsame : ∀ j, j ≠ i → SameFor j w (w.call uuid node i) := fun j hj =>
    ⟨List.prefix_rfl, fun m => (hinvocations m).symm ▸ List.prefix_rfl, hold j hj, rfl, Iff.rfl,
      Iff.rfl⟩
  refine ⟨?_, hsame⟩
  constructor
  case tracks =>
    intro m
    by_cases hm : m = node i
    · rw [hm, hself]
      exact (h.tracks (node i)).getUserDetails
    · rw [hother m hm]
      exact h.tracks m
  case called =>
    intro j call hcall
    have hle : ∀ m, (w.clients m).calls ≤ ((w.call uuid node i).clients m).calls := by
      intro m
      by_cases hm : m = node i
      · rw [hm, hself]
        exact Nat.le_succ _
      · rw [hother m hm]
    by_cases hj : j = i
    · subst hj
      obtain rfl := Option.some.inj (hnew.symm.trans hcall)
      rw [hself]
      exact Nat.lt_succ_self _
    · exact (h.called j call ((hold j hj).symm.trans hcall)).trans_le (hle _)
  case distinct =>
    intro j k call hnode hj hk
    by_cases hji : j = i
    · by_cases hki : k = i
      · rw [hji, hki]
      · subst hji
        obtain rfl := Option.some.inj (hnew.symm.trans hj)
        have hlt := h.called k _ ((hold k hki).symm.trans hk)
        rw [← hnode] at hlt
        exact absurd hlt (Nat.lt_irrefl _)
    · by_cases hki : k = i
      · subst hki
        obtain rfl := Option.some.inj (hnew.symm.trans hk)
        have hlt := h.called j _ ((hold j hji).symm.trans hj)
        rw [hnode] at hlt
        exact absurd hlt (Nat.lt_irrefl _)
      · exact h.distinct j k call hnode ((hold j hji).symm.trans hj) ((hold k hki).symm.trans hk)
  case requested =>
    intro r hr
    obtain ⟨j, call, hcall, hrest⟩ := h.requested r hr
    exact ⟨j, call, (hkept hcall).2, hrest⟩
  case replied =>
    intro r hr
    obtain ⟨j, call, v, hcall, hrest⟩ := h.replied r hr
    exact ⟨j, call, v, (hkept hcall).2, hrest⟩
  case contact => exact fun j v hv => h.contact j v (hanswered hv)
  case waiting =>
    intro j call hcall
    rw [hinvocations]
    by_cases hj : j = i
    · subst hj
      obtain rfl := Option.some.inj (hnew.symm.trans hcall)
      rw [hself, CorrelationMap.get_getUserDetails]
      exact .inr (if_pos rfl)
    · have hbefore := (hold j hj).symm.trans hcall
      refine (h.waiting j call hbefore).imp_right fun hwaits => ?_
      by_cases hnode : node j = node i
      · have hlt := h.called j call hbefore
        rw [hnode] at hwaits hlt ⊢
        rw [hself, CorrelationMap.get_getUserDetails, if_neg]
        · exact hwaits
        · intro hid
          obtain rfl := (nodeUuid uuid (node i)).injective hid
          exact Nat.lt_irrefl _ hlt
      · rw [hother _ hnode]
        exact hwaits
  case published =>
    intro j
    rcases h.published j with hnone | ⟨v, hv, hone⟩
    · exact .inl hnone
    · have hj : j ≠ i := by
        obtain ⟨call, hcall, -⟩ := hv
        exact (hkept hcall).1
      exact .inr ⟨v, hv.same (hsame j hj), hone⟩

omit [DecidableEq Node] in
/-- A message whose request is sent. -/
theorem Consistent.request (h : Consistent formats uuid node args w) {id : JsString}
    (hi : ∃ call, w.calls i = some call ∧ id = uuid (node i, call)) :
    Consistent formats uuid node args (w.request id (args i).receiverId) := by
  refine { h with requested := fun r hr => ?_ }
  rcases List.mem_append.mp hr with hr | hr
  · exact h.requested r hr
  · obtain rfl := List.mem_singleton.mp hr
    obtain ⟨call, hcall, rfl⟩ := hi
    exact ⟨i, call, hcall, rfl, rfl⟩

omit [DecidableEq Node] in
/-- A message whose notification is accepted. -/
theorem Consistent.accept (h : Consistent formats uuid node args w) {v : Value}
    (hv : Answered node i v w) (hi : w.publishedBy i = []) :
    Consistent formats uuid node args (w.accept i (noticeOf (args i) v)) := by
  refine { h with published := fun j => ?_ }
  rw [publishedBy_accept]
  by_cases hj : j = i
  · subst hj
    rw [if_pos rfl, hi]
    exact .inr ⟨v, hv, rfl⟩
  · rw [if_neg hj]
    exact h.published j

/-- From a started lookup on. -/
theorem safe_concluding {id : JsString} (h : LookingUp node uuid i id w) :
    Safe (exec uuid node) Anything (lookups formats uuid node args) i (Handled node args i)
      (concluding (args i)) w := by
  intro w₁ hsame₁ h₁ _ c v w₂ heffect
  obtain ⟨answer, hanswer, hresult⟩ := Option.map_eq_some_iff.mp heffect
  obtain ⟨rfl, rfl⟩ := Prod.mk.inj hresult
  refine ⟨h₁, fun j _ => .refl j w₁, ?_⟩
  intro w₂ hsame₂ h₂ _ c sent w₃ heffect
  have hv : Answered node i answer w₂ := (answered_of_answer hanswer).same hsame₂
  have hpublished : w₂.publishedBy i = [] :=
    hsame₂.published.trans (hsame₁.published.trans h.published)
  simp only [exec] at heffect
  cases hsend : c.notifications.sendToQueue with
  | ok u =>
    rw [hsend] at heffect
    obtain ⟨rfl, rfl⟩ := Prod.mk.inj (Option.some.inj heffect)
    have hdone : Handled node args i (.ok ()) (w₂.accept i (noticeOf (args i) answer)) := by
      refine ⟨rfl, .inr ⟨answer, hv, .inl ?_⟩⟩
      rw [publishedBy_accept, if_pos rfl, hpublished]
      rfl
    refine ⟨h₂.accept hv hpublished, fun j hj => ?_, fun w₄ hsame _ => hdone.same hsame⟩
    refine ⟨List.prefix_rfl, fun _ => List.prefix_rfl, rfl, ?_, Iff.rfl, Iff.rfl⟩
    rw [publishedBy_accept, if_neg hj]
  | error e =>
    rw [hsend] at heffect
    obtain ⟨rfl, rfl⟩ := Prod.mk.inj (Option.some.inj heffect)
    have hdone : Handled node args i (.ok ()) (w₂.refuse i) :=
      ⟨rfl, .inr ⟨answer, hv, .inr (List.mem_append_right _ List.mem_cons_self)⟩⟩
    refine ⟨{ h₂ with }, fun j hj => ?_, fun w₄ hsame _ => hdone.same hsame⟩
    exact ⟨List.prefix_rfl, fun _ => List.prefix_rfl, rfl, rfl, by simp [World.refuse, hj], Iff.rfl⟩

theorem safe_handleMessageReceived (h : Unhandled i w) :
    Safe (exec uuid node) Anything (lookups formats uuid node args) i (Handled node args i)
      (handleMessageReceived (args i)) w := by
  rw [handleMessageReceived_eq]
  intro w₁ hsame₁ h₁ _ c online w₂ heffect
  obtain ⟨rfl, rfl⟩ := Prod.mk.inj (Option.some.inj heffect)
  cases honline : c.isOnline with
  | true =>
    have hdone : Handled node args i (.ok ()) (w₁.skip i) :=
      ⟨rfl, .inl (List.mem_append_right _ List.mem_cons_self)⟩
    refine ⟨{ h₁ with }, fun j hj => ?_, fun w₃ hsame _ => hdone.same hsame⟩
    exact ⟨List.prefix_rfl, fun _ => List.prefix_rfl, rfl, rfl, Iff.rfl, by simp [World.skip, hj]⟩
  | false =>
    refine ⟨h₁, fun j _ => .refl j w₁, ?_⟩
    intro w₂ hsame₂ h₂ _ c id w₃ heffect
    obtain ⟨rfl, rfl⟩ := Prod.mk.inj (Option.some.inj heffect)
    have hcalls : w₂.calls i = none := hsame₂.calls.trans (hsame₁.calls.trans h.calls)
    have hpublished : w₂.publishedBy i = [] :=
      hsame₂.published.trans (hsame₁.published.trans h.published)
    obtain ⟨h₃, hothers⟩ := h₂.call hcalls
    refine ⟨h₃, hothers, ?_⟩
    have hlooking : LookingUp node uuid i (uuid (node i, (w₂.clients (node i)).calls))
        (w₂.call uuid node i) := ⟨⟨_, Function.update_self .., rfl⟩, hpublished⟩
    intro w₄ hsame₄ h₄ _ c sent w₅ heffect
    have hlooking' : LookingUp node uuid i (uuid (node i, (w₂.clients (node i)).calls)) w₄ := by
      obtain ⟨call, hcall, hid⟩ := hlooking.calls
      exact ⟨⟨call, hsame₄.calls.trans hcall, hid⟩, hsame₄.published.trans hpublished⟩
    simp only [exec] at heffect
    cases hsend : c.request.sendToQueue with
    | ok u =>
      rw [hsend] at heffect
      obtain ⟨rfl, rfl⟩ := Prod.mk.inj (Option.some.inj heffect)
      exact ⟨h₄.request hlooking'.calls, fun j _ => sameFor_queues j w₄ _ _,
        safe_concluding ⟨hlooking'.calls, hlooking'.published⟩⟩
    | error e =>
      rw [hsend] at heffect
      obtain ⟨rfl, rfl⟩ := Prod.mk.inj (Option.some.inj heffect)
      refine ⟨h₄, fun j _ => .refl j w₄, ?_⟩
      intro w₅ hsame₅ h₅ _ c u w₆ heffect
      obtain ⟨rfl, rfl⟩ := Prod.mk.inj (Option.some.inj heffect)
      refine ⟨h₅, fun j _ => .refl j w₅, ?_⟩
      exact (safe_concluding hlooking').rely hsame₅

/-- Whatever the nodes, the broker and the user service do. -/
theorem handled_run {users : Table} {q : Pool ι Ans JsError Unit (World ι Node)}
    (run : OpenSteps (exec uuid node) (Moves formats uuid) (messages users args) q) :
    Consistent formats uuid node args q.shared ∧
      ∀ i r, q.result i = some r → Handled node args i r q.shared := by
  have hsafe : ∀ i, Safe (exec uuid node) Anything (lookups formats uuid node args) i
      (Handled node args i) (handleMessageReceived (args i)) (start users) :=
    fun i => safe_handleMessageReceived ⟨rfl, rfl⟩
  have hinv : Consistent formats uuid node args (start users) := consistent_start users
  exact ⟨(run.safe moves_tolerated hinv hsafe).1, fun i r hr =>
    run.post moves_tolerated hinv hsafe hr⟩

/-- What the broker has accepted stays. -/
theorem published_run {p q : Pool ι Ans JsError Unit (World ι Node)}
    (run : OpenSteps (exec uuid node) (Moves formats uuid) p q) :
    p.shared.published <+: q.shared.published := by
  refine run.along (R := fun w w' => w.published <+: w'.published) (fun _ => List.prefix_rfl)
    List.IsPrefix.trans (fun {i c op w a w'} heffect => ?_) ?_
  · cases op with
    | isOnline userId =>
      obtain ⟨rfl, rfl⟩ := Prod.mk.inj (Option.some.inj heffect)
      split <;> exact List.prefix_rfl
    | registerCallback | unhandledRejection e =>
      obtain ⟨rfl, rfl⟩ := Prod.mk.inj (Option.some.inj heffect)
      exact List.prefix_rfl
    | sendRequest id userId =>
      simp only [exec] at heffect
      split at heffect
      all_goals
        obtain ⟨rfl, rfl⟩ := Prod.mk.inj (Option.some.inj heffect)
        exact List.prefix_rfl
    | awaitCallback =>
      obtain ⟨v, -, hv⟩ := Option.map_eq_some_iff.mp heffect
      obtain ⟨rfl, rfl⟩ := Prod.mk.inj hv
      exact List.prefix_rfl
    | publish payload =>
      simp only [exec] at heffect
      split at heffect
      · obtain ⟨rfl, rfl⟩ := Prod.mk.inj (Option.some.inj heffect)
        exact List.prefix_append _ _
      · obtain ⟨rfl, rfl⟩ := Prod.mk.inj (Option.some.inj heffect)
        exact List.prefix_rfl
    | _ => cases heffect
  · rintro w w' ⟨event, rfl⟩
    cases event with
    | serve k c | deliver k n =>
      simp only [step]
      split <;> exact List.prefix_rfl
    | _ => exact List.prefix_rfl

/-- A lookup that waits has its timeout armed, which ends it. -/
theorem Consistent.expires (h : Consistent formats uuid node args w) {call : ℕ}
    (hcall : w.calls i = some call) (hwaits : ∀ v, ¬ Answered node i v w) :
    call ∈ (w.clients (node i)).timers ∧
      Answered node i (.json .null) (step formats uuid w (.timeout (node i) call)) := by
  have hget : (w.clients (node i)).correlationMap.get (nodeUuid uuid (node i) call) =
      some ⟨call, call⟩ := by
    rcases h.waiting i call hcall with ⟨v, hv⟩ | hget
    · exact absurd ⟨call, hcall, hv⟩ (hwaits v)
    · exact hget
  have harmed := (h.tracks (node i)).armed _ _ hget nofun
  refine ⟨harmed, call, hcall, ?_⟩
  obtain ⟨answered, hs, -, hexpires⟩ := settles_timeout (h.tracks (node i)) call
  obtain rfl := hexpires harmed (hget ▸ Option.some_ne_none _)
  have hclient : (step formats uuid w (.timeout (node i) call)).clients (node i) =
      CorrelationMap.step (nodeUuid uuid (node i)) resolve (w.clients (node i)) (.timeout call) :=
    Function.update_self ..
  rw [hclient, hs.invocations]
  exact List.mem_append_right _ List.mem_cons_self

end Invariants

end ChatMicroservices.LookupConsistency
