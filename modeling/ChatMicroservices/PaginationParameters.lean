import ChatMicroservices.ConversationPages
import ChatMicroservices.NotificationController

/-!
# Pagination parameters

What the two endpoints that answer pages make of the texts in a query string. Neither of them
checks for all of what a page needs: the one lets fractions through and limits below one, the
other also lets through numbers below zero and what is not a number.
-/

namespace ChatMicroservices.PaginationParameters
open JavaScriptValues JSON EffectPrograms ConversationPages DoubleRounding
open NotificationController (getNotifications paramOr parseInt signed)
open NotificationsTable (ParsedInt)
open ChatEffects (AuthUser)

/-- A non-negative integer. -/
def IsCount (n : Number) : Prop := ∃ k : ℕ, n = .finite k

/-- An integer between 1 and 200. -/
def IsPageLimit (n : Number) : Prop := ∃ k : ℕ, n = .finite k ∧ 1 ≤ k ∧ k ≤ 200

def SaneConversationQuery : ConversationPages.Op → Prop
  | .getManyAndCount _ _ skip take => IsCount skip ∧ IsPageLimit take

def SaneNotificationsQuery : NotificationsTable.Op → Prop
  | .find _ skip take => (∃ n, skip = some n ∧ IsCount n) ∧ ∃ n, take = some n ∧ IsCount n
  | _ => True

/-- Whoever sends the values, both endpoints pass a page to the database. -/
structure Sane (limit offset : List JsString) : Prop where
  conversation : ∀ user receiverId,
    (fetchConversation user receiverId limit offset).Issues SaneConversationQuery
  notifications : ∀ userId, (getNotifications userId limit offset).Issues SaneNotificationsQuery

/-- The conversion is not a number, is zero or at least 200, or is a positive integer. -/
def LimitSane : Option Number → Prop
  | none => True
  | some (.infinite negative) => negative = false
  | some (.finite q) => q = 0 ∨ 200 ≤ q ∨ ∃ k : ℕ, q = k

/-- The conversion is not a number, is not positive, or is an integer. -/
def OffsetSane : Option Number → Prop
  | none => True
  | some (.infinite negative) => negative = true
  | some (.finite q) => q ≤ 0 ∨ ∃ k : ℕ, q = k

/-- After white space and a sign the text has digits; they have a double as their value, which
is zero if the sign is a minus. -/
def CountText (text : JsString) : Prop :=
  let (negative, text) := signed (trimStart text)
  let digits := text.takeWhile isDigit
  digits ≠ [] ∧ decimalValue digits < overflowBound ∧ (negative = true → decimalValue digits = 0)

structure SaneValues (limit offset : List JsString) : Prop where
  fetchLimit : LimitSane (queryNumber limit)
  fetchOffset : OffsetSane (queryNumber offset)
  notificationsLimit : CountText (paramOr limit "20")
  notificationsOffset : CountText (paramOr offset "0")

theorem isPageLimit_iff (n : Option Number) :
    IsPageLimit (mathMin 200 (numberOr 50 n)) ↔ LimitSane n := by
  cases n with
  | none => exact iff_of_true ⟨50, by norm_num [numberOr, mathMin], by norm_num⟩ trivial
  | some n =>
    cases n with
    | infinite negative =>
      cases negative with
      | false => exact iff_of_true ⟨200, rfl, by norm_num⟩ rfl
      | true =>
        refine iff_of_false ?_ (by simp [LimitSane])
        rintro ⟨k, hk, -⟩
        cases hk
    | finite q =>
      simp only [numberOr, mathMin, IsPageLimit, LimitSane, Number.finite.injEq]
      by_cases hzero : q = 0
      · rw [if_pos hzero]
        exact iff_of_true ⟨50, by norm_num, by norm_num⟩ (.inl hzero)
      · rw [if_neg hzero]
        constructor
        · rintro ⟨k, hk, -, -⟩
          rcases le_total 200 q with hlarge | hsmall
          · exact .inr (.inl hlarge)
          · exact .inr (.inr ⟨k, by rw [← hk, min_eq_left hsmall]⟩)
        · rintro (hq | hlarge | ⟨k, rfl⟩)
          · exact absurd hq hzero
          · exact ⟨200, min_eq_right hlarge, by norm_num⟩
          · have hpos : 1 ≤ k := Nat.one_le_iff_ne_zero.mpr fun h => hzero (by rw [h]; rfl)
            rcases le_total k 200 with hsmall | hlarge
            · have hcast : (k : ℚ) ≤ 200 := by exact_mod_cast hsmall
              exact ⟨k, min_eq_left hcast, hpos, hsmall⟩
            · have hcast : (200 : ℚ) ≤ k := by exact_mod_cast hlarge
              exact ⟨200, min_eq_right hcast, by norm_num⟩

theorem isCount_iff (n : Option Number) : IsCount (mathMax 0 (numberOr 0 n)) ↔ OffsetSane n := by
  cases n with
  | none => exact iff_of_true ⟨0, rfl⟩ trivial
  | some n =>
    cases n with
    | infinite negative =>
      cases negative with
      | false =>
        refine iff_of_false ?_ (by simp [OffsetSane])
        rintro ⟨k, hk⟩
        cases hk
      | true => exact iff_of_true ⟨0, rfl⟩ rfl
    | finite q =>
      have hsame : (if q = 0 then 0 else q) = q := by
        split
        · rename_i hzero
          exact hzero.symm
        · rfl
      simp only [numberOr, mathMax, IsCount, OffsetSane, Number.finite.injEq, hsame]
      constructor
      · rintro ⟨k, hk⟩
        rcases le_total q 0 with hneg | hpos
        · exact .inl hneg
        · exact .inr ⟨k, by rw [← hk, max_eq_left hpos]⟩
      · rintro (hneg | ⟨k, rfl⟩)
        · exact ⟨0, by rw [max_eq_right hneg]; rfl⟩
        · exact ⟨k, max_eq_left (Nat.cast_nonneg k)⟩

theorem fetchConversation_sane (limit offset : List JsString) :
    (∀ user receiverId,
      (fetchConversation user receiverId limit offset).Issues SaneConversationQuery) ↔
      LimitSane (queryNumber limit) ∧ OffsetSane (queryNumber offset) := by
  have hissues : ∀ user receiverId,
      (fetchConversation user receiverId limit offset).Issues SaneConversationQuery ↔
        IsCount (pageOffset offset) ∧ IsPageLimit (pageLimit limit) := by
    intro user receiverId
    constructor
    · intro h
      exact h.1
    · intro h
      refine Program.Issues.tryCatch ?_ fun _ => trivial
      exact Program.Issues.bind (Program.Issues.attempt ⟨h, fun _ => trivial⟩) fun _ => trivial
  simp only [hissues, pageOffset, pageLimit, isPageLimit_iff, isCount_iff]
  constructor
  · intro h
    exact (h ChatEffects.alice []).symm
  · intro h user receiverId
    exact h.symm

theorem isCount_toDouble_iff (value : ℕ) : IsCount (toDouble value) ↔ value < overflowBound := by
  rw [← toDouble_finite_iff]
  constructor
  · rintro ⟨k, hk⟩
    exact ⟨k, hk⟩
  · rintro ⟨r, hr⟩
    rcases toDouble_natCast_cases value with hk | hinfinite
    · exact hk
    · rw [hr] at hinfinite
      cases hinfinite

theorem isCount_toDouble_neg_iff (value : ℕ) : IsCount (toDouble (-value)) ↔ value = 0 := by
  constructor
  · rintro ⟨k, hk⟩
    by_contra hne
    rcases toDouble_neg_natCast (Nat.pos_of_ne_zero hne) with hinfinite | ⟨r, hr, hfinite⟩
    · rw [hk] at hinfinite
      cases hinfinite
    · rw [hk] at hfinite
      obtain rfl : (k : ℚ) = r := by simpa using hfinite
      exact absurd hr (not_lt.mpr (Nat.cast_nonneg k))
  · rintro rfl
    exact ⟨0, rfl⟩

theorem isCount_parseInt_iff (text : JsString) :
    (∃ n, parseInt text = some n ∧ IsCount n) ↔ CountText text := by
  have hsome : ∀ n, (∃ n', some n = some n' ∧ IsCount n') ↔ IsCount n := by
    intro n
    simp only [Option.some.injEq, exists_eq_left']
  unfold parseInt CountText
  cases signed (trimStart text) with
  | mk negative rest =>
    by_cases hdigits : rest.takeWhile isDigit = []
    · simp [hdigits]
    · simp only [if_neg hdigits, hsome]
      cases negative with
      | false =>
        rw [if_neg Bool.false_ne_true, isCount_toDouble_iff]
        simp [hdigits]
      | true =>
        rw [if_pos rfl, isCount_toDouble_neg_iff]
        constructor
        · intro hzero
          exact ⟨hdigits, hzero ▸ overflowBound_pos, fun _ => hzero⟩
        · intro h
          exact h.2.2 rfl

theorem getNotifications_sane (limit offset : List JsString) :
    (∀ userId, (getNotifications userId limit offset).Issues SaneNotificationsQuery) ↔
      CountText (paramOr limit "20") ∧ CountText (paramOr offset "0") := by
  have hissues : ∀ userId, (getNotifications userId limit offset).Issues SaneNotificationsQuery ↔
      (∃ n, parseInt (paramOr offset "0") = some n ∧ IsCount n) ∧
        ∃ n, parseInt (paramOr limit "20") = some n ∧ IsCount n := by
    intro userId
    constructor
    · intro h
      exact h.1
    · intro h
      refine Program.Issues.tryCatch ?_ fun _ => trivial
      exact Program.Issues.bind (Program.Issues.attempt ⟨h, fun _ => trivial⟩) fun _ => trivial
  simp only [hissues, isCount_parseInt_iff]
  constructor
  · intro h
    exact (h []).symm
  · intro h userId
    exact h.symm

theorem sane_iff (limit offset : List JsString) : Sane limit offset ↔ SaneValues limit offset := by
  constructor
  · intro h
    obtain ⟨hlimit, hoffset⟩ := (fetchConversation_sane limit offset).mp h.conversation
    obtain ⟨htake, hskip⟩ := (getNotifications_sane limit offset).mp h.notifications
    exact ⟨hlimit, hoffset, htake, hskip⟩
  · intro h
    exact ⟨(fetchConversation_sane limit offset).mpr ⟨h.fetchLimit, h.fetchOffset⟩,
      (getNotifications_sane limit offset).mpr ⟨h.notificationsLimit, h.notificationsOffset⟩⟩

/-- A negative limit reaches the database from both endpoints, and a fraction as the offset of
a conversation does as well. -/
theorem sane_fails : ¬ Sane [js "-5"] [] ∧ ¬ Sane [] [js "1.5"] ∧
    pageLimit [js "-5"] = .finite (-5) ∧ pageOffset [js "1.5"] = .finite (3 / 2) ∧
    parseInt (paramOr [js "-5"] "20") = some (.finite (-5)) ∧
    parseInt (paramOr [js "ten"] "20") = none := by
  have hlimit : pageLimit [js "-5"] = .finite (-5) := by decide +kernel
  have hoffset : pageOffset [js "1.5"] = .finite (3 / 2) := by decide +kernel
  have htake : parseInt (paramOr [js "-5"] "20") = some (.finite (-5)) := by decide +kernel
  have htext : parseInt (paramOr [js "ten"] "20") = none := by decide +kernel
  refine ⟨fun h => ?_, fun h => ?_, hlimit, hoffset, htake, htext⟩
  · obtain ⟨-, k, hk, -⟩ := (h.conversation ChatEffects.alice []).1
    rw [hlimit] at hk
    have hneg : (-5 : ℚ) = k := by simpa using hk
    have hpos : (0 : ℚ) ≤ k := Nat.cast_nonneg k
    linarith
  · obtain ⟨⟨k, hk⟩, -⟩ := (h.conversation ChatEffects.alice []).1
    rw [hoffset] at hk
    have hhalf : (3 / 2 : ℚ) = k := by simpa using hk
    have htwice : (3 : ℚ) = (2 * k : ℕ) := by
      push_cast
      linarith
    have hodd : 3 = 2 * k := by exact_mod_cast htwice
    omega

end ChatMicroservices.PaginationParameters
