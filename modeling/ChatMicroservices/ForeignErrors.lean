import ChatMicroservices.AuthController
import ChatMicroservices.PrekeyController
import ChatMicroservices.RouteValidation

/-!
# Errors of the language

The operators of the language and the validation library throw errors of their own, never one
that a service words itself.
-/

namespace ChatMicroservices.ForeignErrors
open JavaScriptValues JavaScriptOperators ErrorAnswers AuthValidation RouteValidation
open PrekeyBundles PrekeyController
open AuthController (CaseMapping uname)
open EmailTemplates (toText join)
open MessageValidation (isUUID)
open PrekeyDatabase (Prekey)

/-- Every exception of a step is one of the language or of a library. -/
def ThrowsForeign {α : Type} (r : Except JsError α) : Prop :=
  ∀ error, r = .error error → Foreign error

theorem throwsForeign_ok {α : Type} (a : α) : ThrowsForeign (.ok a) := fun _ h => (by cases h)

theorem throwsForeign_error {α : Type} {error : JsError} (h : Foreign error) :
    ThrowsForeign (.error error : Except JsError α) := fun _ he => Except.error.inj he ▸ h

theorem ThrowsForeign.bind {α β : Type} {r : Except JsError α} {f : α → Except JsError β}
    (hr : ThrowsForeign r) (hf : ∀ a, ThrowsForeign (f a)) : ThrowsForeign (r >>= f) := by
  intro error herror
  cases r with
  | ok a => exact hf a error herror
  | error e => exact hr error (congrArg Except.error (Except.error.inj herror))

theorem ThrowsForeign.map {α β : Type} {r : Except JsError α} (hr : ThrowsForeign r)
    (f : α → β) : ThrowsForeign (r.map f) := by
  intro error herror
  cases r with
  | ok a => cases herror
  | error e => exact hr error (congrArg Except.error (Except.error.inj herror))

theorem ThrowsForeign.mapM {α β : Type} {f : α → Except JsError β}
    (hf : ∀ a, ThrowsForeign (f a)) (xs : List α) : ThrowsForeign (xs.mapM f) := by
  induction xs with
  | nil => exact throwsForeign_ok []
  | cons x xs ih =>
    rw [List.mapM_cons]
    exact (hf x).bind fun b => ih.bind fun bs => throwsForeign_ok (b :: bs)

theorem get_throwsForeign (v : Value) (key : String) : ThrowsForeign (v.get key) := by
  rw [Value.get]
  split_ifs
  · exact throwsForeign_error trivial
  · exact throwsForeign_ok _

theorem destructure_throwsForeign (v : Value) (source key : String) :
    ThrowsForeign (v.destructure source key) := by
  rw [Value.destructure]
  split_ifs
  · exact throwsForeign_error trivial
  · exact throwsForeign_ok _

mutual

theorem toText_throwsForeign : (v : Json) → ThrowsForeign (toText v)
  | .null | .bool _ | .num _ | .str _ => by
    rw [toText]
    exact throwsForeign_ok _
  | .arr xs => by
    rw [toText]
    exact join_throwsForeign xs
  | .obj fields => by
    rw [toText]
    split
    · exact throwsForeign_ok _
    · exact throwsForeign_error trivial

theorem join_throwsForeign : (xs : List Json) → ThrowsForeign (join xs)
  | [] => throwsForeign_ok _
  | [x] => by
    rw [join]
    split
    · exact throwsForeign_ok _
    · exact toText_throwsForeign x
  | x :: y :: rest => by
    have hothers : ∀ first, ThrowsForeign (do
        let others ← join (y :: rest)
        .ok (first ++ js "," ++ others)) := fun first =>
      (join_throwsForeign (y :: rest)).bind fun others => throwsForeign_ok _
    rw [join]
    split
    · exact hothers []
    · exact (toText_throwsForeign x).bind hothers

end

theorem hasProperty_throwsForeign (key : String) (v : Json) :
    ThrowsForeign (hasProperty key v) := by
  unfold hasProperty
  split
  · exact throwsForeign_ok _
  · exact throwsForeign_ok _
  all_goals exact throwsForeign_error trivial

theorem lengthOf_throwsForeign (v : Value) : ThrowsForeign (lengthOf v) := by
  unfold lengthOf
  split
  · exact throwsForeign_ok _
  · exact throwsForeign_ok _
  · exact get_throwsForeign v "length"

theorem iterate_throwsForeign (source : String) (v : Value) :
    ThrowsForeign (iterate source v) := by
  unfold iterate
  split
  · exact throwsForeign_ok _
  · exact throwsForeign_ok _
  · exact throwsForeign_error trivial

mutual

theorem toNumber_throwsForeign : (v : Json) → ThrowsForeign (toNumber v)
  | .null | .bool _ | .num _ | .str _ => by
    rw [toNumber]
    exact throwsForeign_ok _
  | .obj fields => by
    rw [toNumber]
    split_ifs
    · exact throwsForeign_ok _
    · exact throwsForeign_error trivial
  | .arr xs => by
    rw [toNumber]
    exact joinedToNumber_throwsForeign xs

theorem joinedToNumber_throwsForeign : (xs : List Json) → ThrowsForeign (joinedToNumber xs)
  | [] | [.null] | [.bool _] => by
    rw [joinedToNumber]
    exact throwsForeign_ok _
  | [.num n] | [.str s] | [.arr xs] | [.obj fields] => by
    rw [joinedToNumber]
    · exact toNumber_throwsForeign _
    · simp
    · simp
  | x :: y :: rest => by
    rw [joinedToNumber]
    split_ifs
    · exact throwsForeign_ok _
    · exact throwsForeign_error trivial

end

theorem isPositive_throwsForeign (v : Value) : ThrowsForeign (isPositive v) := by
  unfold isPositive
  split
  · exact (toNumber_throwsForeign _).map _
  · exact throwsForeign_ok _
  · exact throwsForeign_ok _

theorem elementText_throwsForeign (v : Json) : ThrowsForeign (elementText v) := by
  unfold elementText
  split
  · exact throwsForeign_ok _
  · rw [objectText]
    split
    · exact throwsForeign_ok _
    · exact throwsForeign_error trivial
  · exact toText_throwsForeign v

theorem fieldTexts_throwsForeign (v : Value) : ThrowsForeign (fieldTexts v) := by
  have hvalue : ∀ v : Json, ThrowsForeign (valueText v) := by
    intro v
    unfold valueText
    split
    · exact elementText_throwsForeign _
    · exact elementText_throwsForeign _
  unfold fieldTexts
  split
  · exact ThrowsForeign.mapM hvalue _
  · exact (hvalue _).map _
  · exact throwsForeign_ok _
  · exact throwsForeign_ok _

theorem sanitize_throwsForeign (f : JsString → Json) (v : Value) :
    ThrowsForeign (sanitize f v) := by
  refine (fieldTexts_throwsForeign v).bind fun texts => ?_
  split
  · exact throwsForeign_ok _
  · exact throwsForeign_ok _

theorem check_throwsForeign (field message : String) (valid : JsString → Bool) (v : Value) :
    ThrowsForeign (check field message valid v) :=
  (fieldTexts_throwsForeign v).bind fun _ => throwsForeign_ok _

theorem uuidChain_throwsForeign (field required valid : String) (v : Value) :
    ThrowsForeign (uuidChain field required valid v) :=
  (sanitize_throwsForeign _ v).bind fun _ => (check_throwsForeign _ _ _ _).bind fun _ =>
    (check_throwsForeign _ _ _ _).bind fun _ => throwsForeign_ok _

theorem messageChain_throwsForeign (message : Value) : ThrowsForeign (messageChain message) :=
  (check_throwsForeign _ _ _ _).bind fun _ => (check_throwsForeign _ _ _ _).bind fun _ =>
    throwsForeign_ok _

theorem sendMessageValidation_throwsForeign (body : Value) :
    ThrowsForeign (sendMessageValidation body) :=
  (uuidChain_throwsForeign _ _ _ _).bind fun _ => (messageChain_throwsForeign _).bind fun _ =>
    throwsForeign_ok _

theorem createNotificationValidation_throwsForeign (body : Value) :
    ThrowsForeign (createNotificationValidation body) := by
  have htype : ∀ v, ThrowsForeign (typeChain v) := fun v =>
    (sanitize_throwsForeign _ v).bind fun _ => (check_throwsForeign _ _ _ _).bind fun _ =>
      (check_throwsForeign _ _ _ _).bind fun _ => throwsForeign_ok _
  have htitle : ∀ v, ThrowsForeign (titleChain v) := fun v =>
    (sanitize_throwsForeign _ v).bind fun _ => (check_throwsForeign _ _ _ _).bind fun _ =>
      (check_throwsForeign _ _ _ _).bind fun _ => throwsForeign_ok _
  exact (uuidChain_throwsForeign _ _ _ _).bind fun _ => (htype _).bind fun _ =>
    (htitle _).bind fun _ => (messageChain_throwsForeign _).bind fun _ => throwsForeign_ok _

theorem registrationValidation_throwsForeign (rules : EmailRules) (body : Value) :
    ThrowsForeign (registrationValidation rules body) := by
  have husername : ∀ v, ThrowsForeign (usernameChain v) := fun v =>
    (sanitize_throwsForeign _ v).bind fun _ => (check_throwsForeign _ _ _ _).bind fun _ =>
      (check_throwsForeign _ _ _ _).bind fun _ => (check_throwsForeign _ _ _ _).bind fun _ =>
        throwsForeign_ok _
  have hemail : ∀ v, ThrowsForeign (emailChain rules v) := fun v =>
    (sanitize_throwsForeign _ v).bind fun _ => (check_throwsForeign _ _ _ _).bind fun _ =>
      (check_throwsForeign _ _ _ _).bind fun _ => (sanitize_throwsForeign _ _).bind fun _ =>
        (check_throwsForeign _ _ _ _).bind fun _ => throwsForeign_ok _
  have hpassword : ∀ v, ThrowsForeign (passwordChain v) := fun v =>
    (check_throwsForeign _ _ _ _).bind fun _ => (check_throwsForeign _ _ _ _).bind fun _ =>
      (check_throwsForeign _ _ _ _).bind fun _ => throwsForeign_ok _
  exact (husername _).bind fun _ => (hemail _).bind fun _ => (hpassword _).bind fun _ =>
    throwsForeign_ok _

theorem loginValidation_throwsForeign (rules : EmailRules) (body : Value) :
    ThrowsForeign (loginValidation rules body) := by
  have hemail : ∀ v, ThrowsForeign (loginEmailChain rules v) := fun v =>
    (sanitize_throwsForeign _ v).bind fun _ => (check_throwsForeign _ _ _ _).bind fun _ =>
      (check_throwsForeign _ _ _ _).bind fun _ => (sanitize_throwsForeign _ _).bind fun _ =>
        throwsForeign_ok _
  have hpassword : ∀ v, ThrowsForeign (loginPasswordChain v) := fun v =>
    (check_throwsForeign _ _ _ _).bind fun _ => throwsForeign_ok _
  exact (hemail _).bind fun _ => (hpassword _).bind fun _ => throwsForeign_ok _

theorem uname_throwsForeign (case : CaseMapping) (username : Value) :
    ThrowsForeign (uname case username) := by
  unfold uname
  split
  · exact (toText_throwsForeign _).map _
  · exact throwsForeign_ok _
  · exact throwsForeign_ok _

theorem find_throwsForeign {p : Prekey → Except JsError Bool} (hp : ∀ b, ThrowsForeign (p b))
    (bundles : List Prekey) : ThrowsForeign (find p bundles) := by
  induction bundles with
  | nil => exact throwsForeign_ok _
  | cons b bundles ih =>
    refine (hp b).bind fun found => ?_
    split_ifs
    · exact throwsForeign_ok _
    · exact ih

theorem chosenBundle_throwsForeign (bundles : List Prekey) :
    ThrowsForeign (chosenBundle bundles) := by
  have hpublished : ∀ b : Prekey, ThrowsForeign (isPrekeyBundle b.bundle) := fun b =>
    hasProperty_throwsForeign _ _
  have hstocked : ∀ b, ThrowsForeign (hasOneTimePreKey b) := fun b => by
    refine (hpublished b).bind fun published => ?_
    split_ifs
    · exact (get_throwsForeign _ _).bind fun preKeys => (lengthOf_throwsForeign preKeys).bind
        fun length => isPositive_throwsForeign length
    · exact throwsForeign_ok _
  refine (find_throwsForeign hstocked bundles).bind fun stocked => ?_
  cases stocked with
  | some b => exact throwsForeign_ok _
  | none => exact find_throwsForeign hpublished bundles

theorem consumeOneTimePreKey_throwsForeign (bundle : Json) :
    ThrowsForeign (consumeOneTimePreKey bundle) := by
  refine (get_throwsForeign _ _).bind fun identityKey => ?_
  refine (get_throwsForeign _ _).bind fun registrationId => ?_
  refine (get_throwsForeign _ _).bind fun signedPreKey => ?_
  refine (get_throwsForeign _ _).bind fun preKeys => ?_
  refine (lengthOf_throwsForeign preKeys).bind fun length => ?_
  split_ifs
  · exact throwsForeign_ok _
  · exact (iterate_throwsForeign _ preKeys).bind fun remaining => throwsForeign_ok _

end ChatMicroservices.ForeignErrors
