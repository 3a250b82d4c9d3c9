import ChatMicroservices.ConcurrentPrograms
import ChatMicroservices.HandlerFootprints

/-!
# Message statuses under concurrent receipts

Any number of `messageDelivered` events, `markRead` events and `markAsRead` requests,
interleaved statement by statement. The bulk updates only raise statuses; the find-then-save
of `messageDelivered` can overwrite `Seen`, and is the only effect that can.
-/

namespace ChatMicroservices.StatusMonotonicity
open JavaScriptValues EffectPrograms ConcurrentPrograms KeyedTables MessagesTable ChatEffects
open SocketHandlers MessageController HandlerFootprints

/-- A request or an event that writes statuses. -/
inductive StatusWriter where
  | messageDelivered (user : AuthUser) (args : List Value)
  | markRead (user : AuthUser) (args : List Value)
  | markAsRead (user : AuthUser) (senderId : Value)

def StatusWriter.program : StatusWriter → Handler Unit
  | messageDelivered user args => listener user .messageDelivered args
  | markRead user args => listener user .markRead args
  | markAsRead user senderId => do
    let _ ← MessageController.markAsRead user senderId

/-- Every effect meets its own conditions: the clock, the failures, the surroundings. -/
def interleaved {ι : Type} : Semantics ι (Conditions × Surroundings) (World Table) Ans :=
  fun _ c op w => some (exec (postgres c.1) c.2 op w)

def StatusFootprint (op : Op) : Prop := DeliveredFootprint op ∨ ∃ userId, ReadFootprint userId op

theorem program_issues (writer : StatusWriter) : writer.program.Issues StatusFootprint := by
  cases writer with
  | messageDelivered user args =>
    exact (logged_issues (handleMessageDelivered_issues user.id _)).mono fun _ h => .inl h
  | markRead user args =>
    exact (logged_issues (handleMarkRead_issues user.id _)).mono fun _ h => .inr ⟨_, h⟩
  | markAsRead user senderId =>
    refine Program.Issues.bind ((markAsRead_issues user senderId).mono fun _ h => ?_)
      fun _ => trivial
    exact .inr ⟨_, h⟩

/-- Every message is still there, with a status that is not lower. -/
def StatusesRise (w w' : World Table) : Prop :=
  ∀ m ∈ w.db.rows, ∃ m' ∈ w'.db.rows, m'.id = m.id ∧ m.status ≤ m'.status

theorem statusesRise_refl (w : World Table) : StatusesRise w w :=
  fun m hm => ⟨m, hm, rfl, le_refl _⟩

theorem statusesRise_trans {a b c : World Table} (h : StatusesRise a b)
    (h' : StatusesRise b c) : StatusesRise a c := by
  intro m hm
  obtain ⟨m₁, hm₁, hid₁, hle₁⟩ := h m hm
  obtain ⟨m₂, hm₂, hid₂, hle₂⟩ := h' m₁ hm₁
  exact ⟨m₂, hm₂, hid₂.trans hid₁, hle₁.trans hle₂⟩

/-- No `UPDATE` to `Delivered` meets a row that is `Seen`. -/
def NotOverSeen {ι : Type} : ι → Op → World Table → Prop
  | _, .update id changes, w =>
    changes.status = some .delivered → ∀ m ∈ w.db.rows, m.id = id → m.status ≠ .seen
  | _, _, _ => True

theorem statusesRise_updateWhere {w w' : World Table} {p : Message → Bool}
    {changes : Changes} {now : ℕ} (h : w'.db = updateWhere w.db p changes now)
    (hle : ∀ m ∈ w.db.rows, p m = true → m.status ≤ changes.status.getD m.status) :
    StatusesRise w w' := by
  intro m hm
  refine ⟨if p m then changes.apply now m else m, ?_, ?_⟩
  · rw [h]
    exact KeyedTable.mem_update.mpr ⟨m, hm, rfl⟩
  · split
    · rename_i hp
      exact ⟨rfl, hle m hm hp⟩
    · exact ⟨rfl, le_refl _⟩

theorem interleaved_rises {ι : Type} (i : ι) (c : Conditions × Surroundings) (op : Op)
    (w : World Table) (a : Ans op) (w' : World Table) (hop : StatusFootprint op)
    (hok : NotOverSeen i op w) (h : interleaved i c op w = some (a, w')) :
    StatusesRise w w' := by
  obtain rfl : (exec (postgres c.1) c.2 op w).2 = w' := congrArg Prod.snd (Option.some.inj h)
  rcases exec_db c.1 c.2 op w with hdb | ⟨id, row, rfl, ht⟩ | ⟨id, changes, rfl, hdb⟩ |
    ⟨senderId, receiverId, rfl, hdb⟩
  · intro m hm
    exact ⟨m, hdb ▸ hm, rfl, le_refl _⟩
  · obtain ⟨hrows, -⟩ := KeyedTable.insert_eq_some ht
    intro m hm
    exact ⟨m, hrows ▸ List.mem_append_left _ hm, rfl, le_refl _⟩
  · refine statusesRise_updateWhere hdb fun m hm hid => ?_
    rcases hop with hstatus | ⟨_, hread⟩
    · rcases hstatus with hnone | hdelivered
      · simp [hnone]
      · have hseen := hok hdelivered m hm (of_decide_eq_true hid)
        simpa [hdelivered] using MessageStatus.le_delivered hseen
    · exact hread.elim
  · exact statusesRise_updateWhere hdb fun m _ _ => MessageStatus.le_seen m.status

/-- The condition is exact: an `UPDATE` that breaks it and goes through lowers a status. -/
theorem not_rises_over_seen {c : Conditions} (here : Surroundings) {id : JsString}
    {changes : Changes} {w : World Table} {m : Message} (hstatus : changes.status = some .delivered)
    (hm : m ∈ w.db.rows) (hid : m.id = id) (hseen : m.status = .seen)
    (hc : c.failure .update = none) :
    ¬ StatusesRise w (exec (postgres c) here (.update id changes) w).2 := by
  intro h
  obtain ⟨m', hm', hid', hle⟩ := h m hm
  have hrows : (exec (postgres c) here (.update id changes) w).2.db =
      updateWhere w.db (fun m => m.id = id) (changes.encoded StoredTexts.toWellFormed) c.now := by
    simp [exec, statements, hc]
  rw [hrows] at hm'
  obtain ⟨n, hn, rfl⟩ := KeyedTable.mem_update.mp hm'
  have hnid : n.id = id := by
    have hkey : (if decide (n.id = id) = true then
        (changes.encoded StoredTexts.toWellFormed).apply c.now n else n).id = n.id := by
      split <;> rfl
    rw [← hkey, hid', hid]
  simp [hnid, Changes.apply, hstatus, hseen] at hle
  exact absurd hle (by decide)

section Runs

variable {ι : Type} [DecidableEq ι]

/-- All events and requests before their first statement. -/
def start (writers : ι → StatusWriter) (w : World Table) :
    Pool ι Ans JsError Unit (World Table) :=
  ⟨w, fun i => (writers i).program⟩

/-- Between any two states of a run whose updates never meet a `Seen` row, no status
decreases. -/
theorem status_never_decreases (writers : ι → StatusWriter) (w : World Table)
    {q r : Pool ι Ans JsError Unit (World Table)}
    (h : Steps interleaved NotOverSeen (start writers w) q)
    (h' : Steps interleaved NotOverSeen q r) : StatusesRise q.shared r.shared := by
  have hstart : ∀ i, ((start writers w).threads i).Issues StatusFootprint :=
    fun i => program_issues (writers i)
  obtain ⟨-, hq⟩ := h.moves_along statusesRise_refl statusesRise_trans interleaved_rises hstart
  exact (h'.moves_along statusesRise_refl statusesRise_trans interleaved_rises hq).1

end Runs

/-- A message from `alice` to `bob` that `bob`'s device has not confirmed yet. -/
def unconfirmed : Message :=
  (encryptedMessage alice.id (.json (.str bob.id)) (js "x")).toRow (js "m1") 0

def oneMessage : World Table := ⟨⟨[unconfirmed], by decide⟩, TypingTimers.empty⟩

/-- `bob`'s device confirms the message while `bob` opens the conversation. -/
def bobsEvents : Bool → StatusWriter
  | false => .messageDelivered bob [.json (.obj [(js "messageId", .str (js "m1"))])]
  | true => .markRead bob [.json (.obj [(js "senderId", .str alice.id)])]

def statuses (q : Pool Bool Ans JsError Unit (World Table)) : List MessageStatus :=
  q.shared.db.rows.map Message.status

instance {ι : Type} (i : ι) (op : Op) (w : World Table) : Decidable (NotOverSeen i op w) := by
  unfold NotOverSeen
  split <;> infer_instance

instance (w w' : World Table) : Decidable (StatusesRise w w') :=
  inferInstanceAs (Decidable (∀ m ∈ w.db.rows, ∃ m' ∈ w'.db.rows, _ ∧ _))

def turn (i : Bool) : Bool × Conditions × Surroundings := (i, calm, quiet)

/-- `bob`'s receipt runs to its end. -/
def confirmed : Pool Bool Ans JsError Unit (World Table) :=
  reach interleaved NotOverSeen [turn false, turn false, turn false, turn false]
    (start bobsEvents oneMessage)

/-- When the conversation is opened after that, the status only rises. -/
theorem confirmed_then_seen :
    statuses confirmed = [.delivered] ∧
      statuses (reach interleaved NotOverSeen [turn true, turn true] confirmed) = [.seen] ∧
      StatusesRise confirmed.shared
        (reach interleaved NotOverSeen [turn true, turn true] confirmed).shared :=
  ⟨by decide, by decide,
    status_never_decreases bobsEvents oneMessage (steps_reach _ _) (steps_reach _ _)⟩

/-- The conversation is opened after the first read of the receipt. -/
def openedBetween : Pool Bool Ans JsError Unit (World Table) :=
  reach interleaved Anything [turn false, turn true] (start bobsEvents oneMessage)

/-- The rest of the receipt makes the message `Delivered` again. -/
theorem seen_then_delivered :
    Steps interleaved Anything (start bobsEvents oneMessage) openedBetween ∧
      statuses openedBetween = [.seen] ∧
      ∃ r, Steps interleaved Anything openedBetween r ∧ statuses r = [.delivered] ∧
        ¬ StatusesRise openedBetween.shared r.shared :=
  ⟨steps_reach _ _, by decide, reach interleaved Anything [turn false, turn false] openedBetween,
    steps_reach _ _, by decide, by decide⟩

end ChatMicroservices.StatusMonotonicity
