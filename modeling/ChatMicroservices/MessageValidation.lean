import ChatMicroservices.MessageController
import ChatMicroservices.PrekeyValidation

/-!
# Validation of `POST /send`

The checks in front of `sendMessage`, on a body whose fields are strings. `trim` replaces the
receiver in the body; the message is measured as it was sent.
-/

namespace ChatMicroservices.MessageValidation
open JavaScriptValues EffectPrograms ChatEffects MessageController
open PrekeyDatabase (FieldError)
open PrekeyValidation (lengthInCharacters)

def isHex (u : UInt16) : Bool := (JSON.hexDigit u).isSome

def isDash (u : UInt16) : Bool := u = 0x2D

/-- `1` to `8` -/
def isVersion (u : UInt16) : Bool := 0x31 ≤ u ∧ u ≤ 0x38

/-- `8`, `9`, `a` or `b` -/
def isVariant (u : UInt16) : Bool := u = 0x38 ∨ u = 0x39 ∨ u = 0x41 ∨ u = 0x42 ∨ u = 0x61 ∨ u = 0x62

/-- The units of the text satisfy the conditions one by one. -/
def follows : List (UInt16 → Bool) → JsString → Bool
  | [], [] => true
  | p :: pattern, u :: s => p u && follows pattern s
  | _, _ => false

def hexDigits (n : ℕ) : List (UInt16 → Bool) := List.replicate n isHex

def uuidPattern : List (UInt16 → Bool) :=
  hexDigits 8 ++ [isDash] ++ hexDigits 4 ++ [isDash, isVersion] ++ hexDigits 3 ++
    [isDash, isVariant] ++ hexDigits 3 ++ [isDash] ++ hexDigits 12

/-- Thirty-two times the same digit, with the dashes of a UUID. -/
def monotone (digit : UInt16 → Bool) : List (UInt16 → Bool) :=
  List.replicate 8 digit ++ [isDash] ++ List.replicate 4 digit ++ [isDash] ++
    List.replicate 4 digit ++ [isDash] ++ List.replicate 4 digit ++ [isDash] ++
      List.replicate 12 digit

/-- `isUUID`: a UUID of some version, the nil or the max UUID, in either case. -/
def isUUID (s : JsString) : Bool :=
  follows uuidPattern s || follows (monotone fun u => u = 0x30) s ||
    follows (monotone fun u => u = 0x66 ∨ u = 0x46) s

example : isUUID (js "7d444840-9dc0-41d1-b245-5ffdce74fad2") = true ∧
    isUUID (js "7d444840-9dc0-91d1-b245-5ffdce74fad2") = false := by decide +kernel

def receiverIdErrors (receiverId : JsString) : List FieldError :=
  (if receiverId ≠ [] then [] else [⟨"receiverId", "Receiver ID is required"⟩]) ++
    if isUUID receiverId then [] else [⟨"receiverId", "Receiver ID must be a valid UUID"⟩]

def messageErrors (message : JsString) : List FieldError :=
  (if message ≠ [] then [] else [⟨"message", "Message is required"⟩]) ++
    if lengthInCharacters message ≤ 5000 then []
    else [⟨"message", "Message exceeds maximum length of 5000 characters"⟩]

def sendMessageValidation (receiverId message : JsString) : List FieldError :=
  receiverIdErrors (trim receiverId) ++ messageErrors message

def sendBody (receiverId message : JsString) : Value :=
  .json (.obj [(js "receiverId", .str receiverId), (js "message", .str message)])

inductive SendAnswer where
  | invalid (errors : List FieldError)
  | handled (result : HttpResult)

/-- The route `POST /send` for an authenticated user. -/
def postSend (user : AuthUser) (receiverId message : JsString) : Handler SendAnswer :=
  let errors := sendMessageValidation receiverId message
  if errors = [] then
    (sendMessage user (sendBody (trim receiverId) message)).bind fun result =>
      pure (.handled result)
  else pure (.invalid errors)

theorem sendMessageValidation_eq_nil {receiverId message : JsString} :
    sendMessageValidation receiverId message = [] ↔
      trim receiverId ≠ [] ∧ isUUID (trim receiverId) = true ∧ message ≠ [] ∧
        lengthInCharacters message ≤ 5000 := by
  rw [sendMessageValidation, receiverIdErrors, messageErrors]
  simp only [List.append_eq_nil_iff, ite_eq_left_iff, reduceCtorEq, imp_false, not_not, and_assoc]

theorem follows_all {P : UInt16 → Prop} {pattern : List (UInt16 → Bool)}
    (h : ∀ p ∈ pattern, ∀ u, p u = true → P u) {s : JsString} (hs : follows pattern s = true) :
    ∀ u ∈ s, P u := by
  induction pattern generalizing s with
  | nil =>
    cases s with
    | nil => exact fun u hu => absurd hu List.not_mem_nil
    | cons u s => cases hs
  | cons p pattern ih =>
    cases s with
    | nil => cases hs
    | cons v s =>
      rw [follows, Bool.and_eq_true] at hs
      intro u hu
      rcases List.mem_cons.mp hu with rfl | hu
      · exact h p (List.mem_cons_self ..) u hs.1
      · exact ih (fun p hp => h p (List.mem_cons_of_mem _ hp)) hs.2 u hu

/-- From the dash to the letter `f`, where there is no white space. -/
def InRange (u : UInt16) : Prop := 0x2D ≤ u ∧ u ≤ 0x66

theorem InRange.not_isSpace {u : UInt16} (h : InRange u) : isSpace u = false := by
  simp only [InRange, UInt16.le_iff_toNat_le, UInt16.reduceToNat] at h
  simp only [isSpace, decide_eq_false_iff_not, UInt16.le_iff_toNat_le, ← UInt16.toNat_inj,
    UInt16.reduceToNat]
  omega

theorem inRange_of_isHex {u : UInt16} (h : isHex u = true) : InRange u := by
  rw [isHex, JSON.hexDigit] at h
  simp only [InRange, JSON.isDigit, UInt16.le_iff_toNat_le, UInt16.reduceToNat,
    decide_eq_true_eq] at h ⊢
  split at h
  · omega
  · split at h
    · omega
    · split at h
      · omega
      · cases h

theorem inRange_of_isDash {u : UInt16} (h : isDash u = true) : InRange u := by
  rw [of_decide_eq_true h]
  exact ⟨by decide, by decide⟩

theorem inRange_of_isVersion {u : UInt16} (h : isVersion u = true) : InRange u := by
  obtain ⟨hlow, hhigh⟩ := of_decide_eq_true h
  exact ⟨UInt16.le_trans (by decide) hlow, UInt16.le_trans hhigh (by decide)⟩

theorem inRange_of_isVariant {u : UInt16} (h : isVariant u = true) : InRange u := by
  rcases of_decide_eq_true h with rfl | rfl | rfl | rfl | rfl | rfl
  all_goals exact ⟨by decide, by decide⟩

theorem uuidPattern_inRange {p : UInt16 → Bool} (hp : p ∈ uuidPattern) (u : UInt16)
    (hu : p u = true) : InRange u := by
  have hcases : p = isHex ∨ p = isDash ∨ p = isVersion ∨ p = isVariant := by
    simp only [uuidPattern, hexDigits, List.mem_append, List.mem_replicate, List.mem_cons,
      List.not_mem_nil, or_false] at hp
    tauto
  rcases hcases with rfl | rfl | rfl | rfl
  · exact inRange_of_isHex hu
  · exact inRange_of_isDash hu
  · exact inRange_of_isVersion hu
  · exact inRange_of_isVariant hu

theorem monotone_inRange {digit p : UInt16 → Bool} (h : ∀ u, digit u = true → InRange u)
    (hp : p ∈ monotone digit) (u : UInt16) (hu : p u = true) : InRange u := by
  have hcases : p = digit ∨ p = isDash := by
    simp only [monotone, List.mem_append, List.mem_replicate, List.mem_cons,
      List.not_mem_nil, or_false] at hp
    tauto
  rcases hcases with rfl | rfl
  · exact h u hu
  · exact inRange_of_isDash hu

theorem isUUID_inRange {s : JsString} (h : isUUID s = true) : ∀ u ∈ s, InRange u := by
  rw [isUUID, Bool.or_eq_true, Bool.or_eq_true] at h
  rcases h with (h | h) | h
  · exact follows_all (fun _ hp => uuidPattern_inRange hp) h
  · have hnil : ∀ u : UInt16, decide (u = 0x30) = true → InRange u := by
      intro u hu
      rw [of_decide_eq_true hu]
      exact ⟨by decide, by decide⟩
    exact follows_all (fun _ hp => monotone_inRange hnil hp) h
  · have hmax : ∀ u : UInt16, decide (u = 0x66 ∨ u = 0x46) = true → InRange u := by
      intro u hu
      rcases of_decide_eq_true hu with rfl | rfl
      all_goals exact ⟨by decide, by decide⟩
    exact follows_all (fun _ hp => monotone_inRange hmax hp) h

theorem trim_of_isUUID {s : JsString} (h : isUUID s = true) : trim s = s :=
  trim_eq_self fun u hu => (isUUID_inRange h u hu).not_isSpace

theorem ne_nil_of_isUUID {s : JsString} (h : isUUID s = true) : s ≠ [] := by
  rintro rfl
  cases h

end ChatMicroservices.MessageValidation
