import ChatMicroservices.ChatEffects
import ChatMicroservices.DoubleRounding
import ChatMicroservices.JavaScriptOperators
import ChatMicroservices.JsonRoundTrip
import ChatMicroservices.RelationalQueries

/-!
# The pages of a conversation

`fetchConversation` reads a limit and an offset from the query string, asks the database for
the newest messages of the two users in that window, and answers them in chronological order.
-/

namespace ChatMicroservices.ConversationPages
open JavaScriptValues JavaScriptOperators JSON EffectPrograms MessagesTable RelationalQueries
open ChatEffects (AuthUser)

/-- `Number(req.query.key)`, for the values that the query has for a key. -/
def queryNumber : List JsString → Option Number
  | [] => none
  | values => stringToNumber (List.intercalate (js ",") values)

theorem queryNumber_singleton (s : JsString) : queryNumber [s] = stringToNumber s := by
  change stringToNumber (List.intercalate (js ",") [s]) = stringToNumber s
  rw [List.intercalate_singleton]

/-- `n || otherwise` -/
def numberOr (otherwise : ℚ) : Option Number → Number
  | none => .finite otherwise
  | some (.finite q) => .finite (if q = 0 then otherwise else q)
  | some (.infinite negative) => .infinite negative

/-- `Math.min(n, bound)` -/
def mathMin (bound : ℚ) : Number → Number
  | .finite q => .finite (min q bound)
  | .infinite negative => if negative then .infinite true else .finite bound

/-- `Math.max(n, bound)` -/
def mathMax (bound : ℚ) : Number → Number
  | .finite q => .finite (max q bound)
  | .infinite negative => if negative then .finite bound else .infinite false

def pageLimit (values : List JsString) : Number :=
  mathMin 200 (numberOr 50 (queryNumber values))

def pageOffset (values : List JsString) : Number :=
  mathMax 0 (numberOr 0 (queryNumber values))

/-- `a + b`; `none` is `NaN`. -/
def plus : Number → Number → Option Number
  | .finite a, .finite b => some (toDouble (a + b))
  | .finite _, .infinite negative | .infinite negative, .finite _ => some (.infinite negative)
  | .infinite a, .infinite b => if a = b then some (.infinite a) else none

/-- `n < total` -/
def isBelow (total : ℕ) : Option Number → Bool
  | none => false
  | some (.finite q) => q < total
  | some (.infinite negative) => negative

structure Pagination where
  total : ℕ
  limit : Number
  offset : Number
  hasMore : Bool
  deriving DecidableEq

/-- How the handler ends the request. -/
inductive HttpResult where
  | json (status : ℕ) (message : String) (data : List Message) (pagination : Pagination)
  | next (error : JsError)
  deriving DecidableEq

inductive Op where
  | getManyAndCount (senderId receiverId : JsString) (skip take : Number)

@[reducible] def Ans : Op → Type
  | .getManyAndCount _ _ _ _ => Except JsError (List Message × ℕ)

def fetchConversation (user : AuthUser) (receiverId : JsString) (limit offset : List JsString) :
    Program Ans JsError HttpResult :=
  let limit := pageLimit limit
  let offset := pageOffset offset
  Program.tryCatch (do
    let (messages, total) ← Program.attempt
      (Program.call (.getManyAndCount user.id receiverId offset limit))
    let pagination := ⟨total, limit, offset, isBelow total (plus offset limit)⟩
    pure (.json 200 "Conversation fetched successfully" messages.reverse pagination))
    fun error => pure (.next error)

/-- `ORDER BY "createdAt" DESC` -/
def Newest (a b : Message) : Prop := b.createdAt ≤ a.createdAt

instance : Std.Refl Newest := ⟨fun m => Nat.le_refl m.createdAt⟩

instance : DecidableRel Newest := fun a b => inferInstanceAs (Decidable (b.createdAt ≤ a.createdAt))

instance : Std.Total Newest := ⟨fun a b => Nat.le_total b.createdAt a.createdAt⟩

instance : IsTrans Message Newest := ⟨fun _ _ _ h h' => Nat.le_trans h' h⟩

/-- How one query is answered: the rows in some order with the newest first, cut by `OFFSET`
and `LIMIT`. What these do with other numbers is left open. -/
structure Database where
  sorter : Sorter Newest
  cut : Number → Number → List Message → Except JsError (List Message)
  cut_natCast : ∀ (skip take : ℕ) (rows : List Message),
    cut (.finite skip) (.finite take) rows = .ok ((rows.drop skip).take take)

/-- The rows that the query selects. -/
def conversation (t : Table) (senderId receiverId : JsString) : List Message :=
  t.rows.filter fun m => m.senderId = senderId ∧ m.receiverId = .str receiverId ∨
    m.senderId = receiverId ∧ m.receiverId = .str senderId

/-- The queries are answered one after the other, each by a database of its own. -/
def exec (dbs : ℕ → Database) (t : Table) : (op : Op) → ℕ → Ans op × ℕ
  | .getManyAndCount senderId receiverId skip take, n =>
    (((dbs n).cut skip take ((dbs n).sorter.sort (conversation t senderId receiverId))).map
      fun messages => (messages, (conversation t senderId receiverId).length), n + 1)

theorem isSpace_of_isDigit {u : UInt16} (h : isDigit u = true) : isSpace u = false := by
  have hrange : 0x30 ≤ u.toNat ∧ u.toNat ≤ 0x39 := by
    simpa [isDigit, UInt16.le_iff_toNat_le] using h
  obtain ⟨n, rfl⟩ : ∃ n : ℕ, u = UInt16.ofNat n := ⟨u.toNat, by simp⟩
  have hall : ∀ n ≤ 0x39, 0x30 ≤ n → isSpace (UInt16.ofNat n) = false := by decide
  have hmod : (UInt16.ofNat n).toNat = n % 65536 := by simp
  rw [hmod] at hrange
  have hsame : UInt16.ofNat n = UInt16.ofNat (n % 65536) := by
    apply UInt16.toNat_inj.mp
    simp
  rw [hsame]
  exact hall _ hrange.2 hrange.1

theorem trim_of_digits {s : JsString} (h : ∀ u ∈ s, isDigit u = true) : trim s = s := by
  have hspace : ∀ u ∈ s, ¬ isSpace u = true := fun u hu => by
    simp [isSpace_of_isDigit (h u hu)]
  have hstart : trimStart s = s := by
    cases s with
    | nil => rfl
    | cons u rest => exact List.dropWhile_cons_of_neg (hspace u List.mem_cons_self)
  rw [trim, hstart, trimEnd]
  cases hs : s.getLast? with
  | none => rw [List.getLast?_eq_none_iff.mp hs]; rfl
  | some u =>
    have hmem : u ∈ s := List.mem_of_getLast? hs
    have hne : s ≠ [] := List.ne_nil_of_mem hmem
    have hlast : s.getLast hne = u := by
      rw [List.getLast?_eq_some_getLast hne] at hs
      exact Option.some.inj hs
    exact List.rdropWhile_eq_self_iff.mpr fun _ => by
      rw [hlast]
      exact hspace u hmem

theorem decimalLiteral_digits {s : JsString} (h : Digits s) :
    decimalLiteral s = some (decimalValue s) := by
  have htake : s.takeWhile isDigit = s := List.takeWhile_eq_self_iff.mpr h.2
  have hdrop : s.dropWhile isDigit = [] := List.dropWhile_eq_nil_iff.mpr h.2
  have hne : s ++ [] ≠ [] := by simpa using h.1
  simp only [decimalLiteral, htake, hdrop, if_neg hne]
  simp [exponentPart]

/-- The conversion of a text of digits is the double that is nearest to their value. -/
theorem stringToNumber_digits {s : JsString} (h : Digits s) :
    stringToNumber s = some (toDouble (decimalValue s)) := by
  have hliteral : signedLiteral false s = some (toDouble (decimalValue s)) := by
    have hne : s ≠ js "Infinity" := by
      intro hs
      have hhead := h.2 0x49 (by rw [hs]; decide)
      revert hhead
      decide
    rw [signedLiteral, if_neg hne, decimalLiteral_digits h]
    rfl
  rw [stringToNumber, trim_of_digits h.2]
  cases s with
  | nil => exact absurd rfl h.1
  | cons u rest =>
    cases rest with
    | nil => exact hliteral
    | cons v rest =>
      have hu := h.2 u (by simp)
      have hv := h.2 v (by simp)
      have hne : ∀ w : UInt16, isDigit w = false → u ≠ w ∧ v ≠ w := by
        intro w hw
        constructor <;> intro heq
        · rw [heq, hw] at hu; cases hu
        · rw [heq, hw] at hv; cases hv
      simp only [trimmedToNumber, (hne 0x2D (by decide)).1, (hne 0x2B (by decide)).1,
        (hne 0x78 (by decide)).2, (hne 0x58 (by decide)).2, (hne 0x6F (by decide)).2,
        (hne 0x4F (by decide)).2, (hne 0x62 (by decide)).2, (hne 0x42 (by decide)).2,
        or_self, and_false, if_false]
      exact hliteral

theorem decimalValue_append_singleton (s : JsString) (u : UInt16) :
    decimalValue (s ++ [u]) = 10 * decimalValue s + (u.toNat - 0x30) := by
  simp [decimalValue, List.foldl_append]

theorem decimalValue_natText (n : ℕ) : decimalValue (js (toString n)) = n := by
  rw [natText_eq]
  have hdigit : ∀ d < 10, (UInt16.ofNat (Nat.digitChar d).toNat).toNat - 0x30 = d := by decide
  induction n using Nat.strongRecOn with
  | ind n ih =>
    rw [Nat.toDigits_eq_if (by decide)]
    split
    · rename_i hlt
      simpa [decimalValue] using hdigit n hlt
    · rename_i hge
      rw [List.map_append, List.map_singleton, decimalValue_append_singleton,
        ih (n / 10) (by omega), hdigit (n % 10) (Nat.mod_lt n (by decide))]
      omega

end ChatMicroservices.ConversationPages
