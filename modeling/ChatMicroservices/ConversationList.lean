import ChatMicroservices.MessagesTable
import ChatMicroservices.RelationalQueries

/-!
# The list of conversations

The query of `getConversations`, clause by clause, and what it is for: one row for each partner
with a newest message of the pair and the number of messages that the user has not seen.
-/

namespace ChatMicroservices.ConversationList
open JavaScriptValues MessagesTable RelationalQueries

/-- A row of `all_messages`; the columns of `ranked_messages` are these and `rn`. -/
structure MessageRow where
  userId : Json
  lastMessageSenderId : JsString
  lastMessage : JsString
  lastMessageTime : ℕ
  deriving DecidableEq

structure ConversationRow where
  userId : Json
  lastMessageSenderId : JsString
  lastMessage : JsString
  lastMessageTime : ℕ
  unreadCount : ℕ
  deriving DecidableEq

/-- `ORDER BY "lastMessageTime" DESC` -/
def MessageRow.Newest (a b : MessageRow) : Prop := b.lastMessageTime ≤ a.lastMessageTime

/-- `ORDER BY rm."lastMessageTime" DESC` -/
def ConversationRow.Newest (a b : ConversationRow) : Prop :=
  b.lastMessageTime ≤ a.lastMessageTime

instance : Std.Refl MessageRow.Newest := ⟨fun row => Nat.le_refl row.lastMessageTime⟩

/-- How the query arranges rows with the same time. -/
structure Ties where
  ranked : Sorter MessageRow.Newest
  listed : Sorter ConversationRow.Newest

def sentRow (m : Message) : MessageRow :=
  ⟨m.receiverId, m.senderId, m.message, m.createdAt⟩

def receivedRow (m : Message) : MessageRow :=
  ⟨.str m.senderId, m.senderId, m.message, m.createdAt⟩

def allMessages (t : Table) (userId : JsString) : List MessageRow :=
  (t.rows.filter fun m => m.senderId = userId).map sentRow ++
    (t.rows.filter fun m => m.receiverId = .str userId).map receivedRow

def unreadCounts (t : Table) (userId : JsString) : List (Json × ℕ) :=
  groupCount (fun m => .str m.senderId)
    (t.rows.filter fun m => m.receiverId = .str userId ∧ m.status ≠ .seen)

/-- The columns that are selected, with `COALESCE(uc."unreadCount", 0)`. -/
def conversationRow (rm : MessageRow) (uc : Option (Json × ℕ)) : ConversationRow where
  userId := rm.userId
  lastMessageSenderId := rm.lastMessageSenderId
  lastMessage := rm.lastMessage
  lastMessageTime := rm.lastMessageTime
  unreadCount := (uc.map Prod.snd).getD 0

def getConversations (ties : Ties) (t : Table) (userId : JsString) : List ConversationRow :=
  ties.listed.sort
    ((leftJoin MessageRow.userId Prod.fst
      (firstRows MessageRow.userId ties.ranked (allMessages t userId))
      (unreadCounts t userId)).map fun row => conversationRow row.1 row.2)

/-- A message that one of the two sent to the other. -/
def Between (userId : JsString) (partner : Json) (m : Message) : Prop :=
  m.senderId = userId ∧ m.receiverId = partner ∨
    .str m.senderId = partner ∧ m.receiverId = .str userId

/-- A message of the partner that the user has not seen. -/
def unreadBy (userId : JsString) (partner : Json) (m : Message) : Bool :=
  .str m.senderId = partner ∧ m.receiverId = .str userId ∧ m.status ≠ .seen

/-- The row shows the message. -/
structure Shows (row : ConversationRow) (m : Message) : Prop where
  senderId : row.lastMessageSenderId = m.senderId
  message : row.lastMessage = m.message
  createdAt : row.lastMessageTime = m.createdAt

/-- `m` is a newest message of the pair. -/
structure Last (t : Table) (userId : JsString) (partner : Json) (m : Message) : Prop where
  mem : m ∈ t.rows
  between : Between userId partner m
  newest : ∀ m' ∈ t.rows, Between userId partner m' → m'.createdAt ≤ m.createdAt

structure IsConversationList (t : Table) (userId : JsString) (list : List ConversationRow) :
    Prop where
  once : (list.map ConversationRow.userId).Nodup
  partners : ∀ partner, partner ∈ list.map ConversationRow.userId ↔
    ∃ m ∈ t.rows, Between userId partner m
  last : ∀ row ∈ list, ∃ m, Last t userId row.userId m ∧ Shows row m
  unread : ∀ row ∈ list, row.unreadCount = t.rows.countP (unreadBy userId row.userId)
  descending : list.Pairwise ConversationRow.Newest

section Query

variable {t : Table} {userId : JsString} {ties : Ties}

/-- The rows of `all_messages` are the messages that the user sent or received. -/
theorem mem_allMessages {row : MessageRow} : row ∈ allMessages t userId ↔
    (∃ m ∈ t.rows, m.senderId = userId ∧ sentRow m = row) ∨
      ∃ m ∈ t.rows, m.receiverId = .str userId ∧ receivedRow m = row := by
  simp only [allMessages, List.mem_append, List.mem_map, List.mem_filter, decide_eq_true_eq,
    and_assoc]

/-- A row of `all_messages` is a message between the user and the row's partner. -/
theorem between_of_mem_allMessages {row : MessageRow} (h : row ∈ allMessages t userId) :
    ∃ m ∈ t.rows, Between userId row.userId m ∧ row.lastMessageSenderId = m.senderId ∧
      row.lastMessage = m.message ∧ row.lastMessageTime = m.createdAt := by
  rcases mem_allMessages.mp h with ⟨m, hm, hsender, rfl⟩ | ⟨m, hm, hreceiver, rfl⟩
  · exact ⟨m, hm, .inl ⟨hsender, rfl⟩, rfl, rfl, rfl⟩
  · exact ⟨m, hm, .inr ⟨rfl, hreceiver⟩, rfl, rfl, rfl⟩

/-- A message between the two has a row with the partner and its time. -/
theorem mem_allMessages_of_between {partner : Json} {m : Message} (hm : m ∈ t.rows)
    (h : Between userId partner m) :
    ∃ row ∈ allMessages t userId, row.userId = partner ∧ row.lastMessageTime = m.createdAt := by
  rcases h with ⟨hsender, hreceiver⟩ | ⟨hsender, hreceiver⟩
  · exact ⟨sentRow m, mem_allMessages.mpr (.inl ⟨m, hm, hsender, rfl⟩), hreceiver, rfl⟩
  · exact ⟨receivedRow m, mem_allMessages.mpr (.inr ⟨m, hm, hreceiver, rfl⟩), hsender, rfl⟩

/-- The rows before they are ordered: a first row for each partner, with its count. -/
theorem conversations_perm : (getConversations ties t userId).Perm
    ((firstRows MessageRow.userId ties.ranked (allMessages t userId)).map fun rm =>
      conversationRow rm
        ((unreadCounts t userId).find? fun group => group.1 = rm.userId)) := by
  have hkeys : ((unreadCounts t userId).map Prod.fst).Nodup := by
    rw [unreadCounts, map_fst_groupCount]
    exact keys_nodup _
  rw [getConversations, leftJoin_eq hkeys, List.map_map]
  exact ties.listed.perm _

theorem mem_getConversations {row : ConversationRow} : row ∈ getConversations ties t userId ↔
    ∃ rm ∈ firstRows MessageRow.userId ties.ranked (allMessages t userId),
      conversationRow rm ((unreadCounts t userId).find? fun group => group.1 = rm.userId) =
        row := by
  rw [conversations_perm.mem_iff, List.mem_map]

theorem userIds_perm : ((getConversations ties t userId).map ConversationRow.userId).Perm
    (keys MessageRow.userId (allMessages t userId)) := by
  have hrows : (getConversations ties t userId).Perm _ := conversations_perm
  have hperm := hrows.map ConversationRow.userId
  rw [List.map_map] at hperm
  rw [← map_key_firstRows MessageRow.userId ties.ranked]
  exact hperm

/-- The groups of `unread_counts` count the messages that the user has not seen. -/
theorem unreadCounts_find? (partner : Json) :
    (((unreadCounts t userId).find? fun group => group.1 = partner).map Prod.snd).getD 0 =
      t.rows.countP (unreadBy userId partner) := by
  rw [unreadCounts, count_groupCount, List.countP_filter]
  refine List.countP_congr fun m _ => ?_
  simp only [unreadBy, Bool.and_eq_true, decide_eq_true_eq]

theorem mem_partners (partner : Json) :
    partner ∈ (getConversations ties t userId).map ConversationRow.userId ↔
      ∃ m ∈ t.rows, Between userId partner m := by
  rw [userIds_perm.mem_iff, mem_keys]
  constructor
  · rintro ⟨row, hrow, rfl⟩
    obtain ⟨m, hm, hbetween, -⟩ := between_of_mem_allMessages hrow
    exact ⟨m, hm, hbetween⟩
  · rintro ⟨m, hm, hbetween⟩
    obtain ⟨row, hrow, hpartner, -⟩ := mem_allMessages_of_between hm hbetween
    exact ⟨row, hrow, hpartner⟩

theorem last_of_mem {row : ConversationRow} (h : row ∈ getConversations ties t userId) :
    ∃ m, Last t userId row.userId m ∧ Shows row m := by
  obtain ⟨rm, hrm, rfl⟩ := mem_getConversations.mp h
  obtain ⟨hmem, hfirst⟩ := mem_firstRows hrm
  obtain ⟨m, hm, hbetween, hsender, hmessage, htime⟩ := between_of_mem_allMessages hmem
  refine ⟨m, ⟨hm, hbetween, fun m' hm' hbetween' => ?_⟩, ⟨hsender, hmessage, htime⟩⟩
  obtain ⟨row', hrow', hpartner, htime'⟩ := mem_allMessages_of_between hm' hbetween'
  have hnewest : row'.lastMessageTime ≤ rm.lastMessageTime := hfirst row' hrow' hpartner
  rw [htime, htime'] at hnewest
  exact hnewest

theorem unreadCount_of_mem {row : ConversationRow} (h : row ∈ getConversations ties t userId) :
    row.unreadCount = t.rows.countP (unreadBy userId row.userId) := by
  obtain ⟨rm, -, rfl⟩ := mem_getConversations.mp h
  exact unreadCounts_find? rm.userId

theorem getConversations_isConversationList (ties : Ties) (t : Table) (userId : JsString) :
    IsConversationList t userId (getConversations ties t userId) where
  once := userIds_perm.nodup_iff.mpr (keys_nodup _)
  partners := mem_partners
  last _ hrow := last_of_mem hrow
  unread _ hrow := unreadCount_of_mem hrow
  descending := ties.listed.pairwise _

/-- The number that the list shows for a partner, which is none for a user it does not show. -/
def badge (list : List ConversationRow) (partner : Json) : ℕ :=
  ((list.find? fun row => row.userId = partner).map ConversationRow.unreadCount).getD 0

theorem badge_getConversations (partner : Json) :
    badge (getConversations ties t userId) partner = t.rows.countP (unreadBy userId partner) := by
  rw [badge]
  cases hfind : (getConversations ties t userId).find? fun row => row.userId = partner with
  | some row =>
    have hpartner : row.userId = partner := by simpa using List.find?_some hfind
    rw [← hpartner]
    exact unreadCount_of_mem (List.mem_of_find?_eq_some hfind)
  | none =>
    -- Without a message of the pair there is none to count.
    refine (List.countP_eq_zero.mpr fun m hm hunread => ?_).symm
    have hbetween : Between userId partner m := by
      simp only [unreadBy, decide_eq_true_eq] at hunread
      exact .inr ⟨hunread.1, hunread.2.1⟩
    obtain ⟨row, hrow, hpartner⟩ := List.mem_map.mp ((mem_partners partner).mpr ⟨m, hm, hbetween⟩)
    simpa [hpartner] using List.find?_eq_none.mp hfind row hrow

end Query

end ChatMicroservices.ConversationList
