import ChatMicroservices.JsonSerialisation
import ChatMicroservices.PrekeyController

/-!
# Validation of `POST /prekeys`

The checks in front of `publishPrekey`. `trim` has replaced the device in the body by a
string, or by an array of strings when it was an array.
-/

namespace ChatMicroservices.PrekeyValidation
open JavaScriptValues JavaScriptOperators JSON EffectPrograms PrekeyDatabase PrekeyController

/-- The texts that the checks of a device look at. -/
def texts : Value → List JsString
  | .json (.str s) => [s]
  | .json (.arr xs) => xs.filterMap fun | .str s => some s | _ => none
  | _ => [[]]

def isVariation (u : UInt16) : Bool := u = 0xFE0E ∨ u = 0xFE0F

/-- A surrogate pair counts once, and so does a character with its variation selector. -/
def lengthInCharacters (s : JsString) : ℕ :=
  (codePoints s).length - (s.zip s.tail).countP fun p => ¬ isVariation p.1 ∧ isVariation p.2

theorem codePoints_ascii {s : JsString} (h : ∀ u ∈ s, u < 0x80) :
    (codePoints s).length = s.length := by
  induction s using codePoints.induct with
  | case1 => rfl
  | case2 u => rfl
  | case3 u v rest hpair ih =>
    -- A unit below 128 begins no surrogate pair.
    have hu : u < 0x80 := h u (by simp)
    have hhigh : (0xD800 : UInt16) ≤ u := hpair.1.1
    simp only [UInt16.lt_iff_toNat_lt, UInt16.le_iff_toNat_le] at hu hhigh
    simp at hu hhigh
    omega
  | case4 u v rest hpair ih =>
    have hrest : ∀ w ∈ v :: rest, w < 0x80 := fun w hw => h w (List.mem_cons_of_mem _ hw)
    rw [codePoints, if_neg hpair, List.length_cons, ih hrest, List.length_cons (a := u)]

theorem isVariation_ascii {u : UInt16} (h : u < 0x80) : isVariation u = false := by
  simp only [isVariation, decide_eq_false_iff_not, UInt16.lt_iff_toNat_lt,
    ← UInt16.toNat_inj] at h ⊢
  simp at h ⊢
  omega

theorem lengthInCharacters_ascii {s : JsString} (h : ∀ u ∈ s, u < 0x80) :
    lengthInCharacters s = s.length := by
  have hplain : ((s.zip s.tail).countP fun p => ¬ isVariation p.1 ∧ isVariation p.2) = 0 := by
    rw [List.countP_eq_zero]
    intro p hp
    have hmem := (List.of_mem_zip hp).2
    simp [isVariation_ascii (h p.2 (List.mem_of_mem_tail hmem))]
  rw [lengthInCharacters, hplain, codePoints_ascii h, Nat.sub_zero]

def deviceIdErrors (deviceId : Value) : List FieldError :=
  (if ∀ s ∈ texts deviceId, s ≠ [] then [] else [⟨"deviceId", "deviceId is required"⟩]) ++
    if ∀ s ∈ texts deviceId, lengthInCharacters s ≤ 255 then []
    else [⟨"deviceId", "deviceId must be at most 255 characters"⟩]

/-- `typeof val === 'object' && val !== null`, within the size limit. -/
def fitsBundle : Value → Bool
  | .json (.obj fields) => (stringify (.obj fields)).length ≤ 20000
  | .json (.arr xs) => (stringify (.arr xs)).length ≤ 20000
  | _ => false

/-- `notEmpty` also looks into arrays; no bundle that passes there is refused here. -/
def bundleErrors (bundle : Value) : List FieldError :=
  (match bundle with
    | .undefined | .json .null | .json (.str []) => [⟨"bundle", "bundle is required"⟩]
    | _ => []) ++
    if fitsBundle bundle then []
    else [⟨"bundle", "bundle must be a JSON object and not exceed 20KB"⟩]

def publishPrekeyValidation (body : Value) : List FieldError :=
  deviceIdErrors (body.field "deviceId") ++ bundleErrors (body.field "bundle")

/-- The route `POST /prekeys` for the user that `authenticated` has found. -/
def postPrekeys (userId : JsString) (body : Value) : Handler Unit :=
  let errors := publishPrekeyValidation body
  if errors = [] then publishPrekey (some userId) body else perform (.respond (.invalid errors))

/-- An accepted bundle is an object or an array. -/
theorem bundle_of_valid {body : Value} (h : publishPrekeyValidation body = []) :
    ∃ bundle, body.field "bundle" = .json bundle ∧
      ((∃ fields, bundle = .obj fields) ∨ ∃ xs, bundle = .arr xs) := by
  have hfits : fitsBundle (body.field "bundle") = true := by
    simp only [publishPrekeyValidation, bundleErrors, List.append_eq_nil_iff] at h
    by_contra hn
    simp [hn] at h
  unfold fitsBundle at hfits
  split at hfits
  · rename_i fields hb
    exact ⟨_, hb, .inl ⟨fields, rfl⟩⟩
  · rename_i xs hb
    exact ⟨_, hb, .inr ⟨xs, rfl⟩⟩
  · cases hfits

end ChatMicroservices.PrekeyValidation
