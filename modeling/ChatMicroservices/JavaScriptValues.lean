import Mathlib.Data.Rat.Floor
import Mathlib.Data.Int.Log
import Mathlib.Data.List.DropRight

/-!
# JavaScript values that cross the services' boundaries

Strings are sequences of UTF-16 units, so lengths and trimming are those of the
language and lone surrogates are allowed. A request or an event can carry any JSON
value where the TypeScript type says `string`; a missing property or argument is
`undefined`, and an acknowledgement argument can be a callback.
-/

namespace ChatMicroservices.JavaScriptValues

abbrev JsString := List UInt16

/-- The text of a source literal. Every literal of the sources is in the basic plane. -/
def js (s : String) : JsString := s.toList.map fun c => UInt16.ofNat c.toNat

/-- `WhiteSpace` and `LineTerminator`, the units that `String.prototype.trim` removes. -/
def isSpace (u : UInt16) : Bool :=
  (0x09 ≤ u ∧ u ≤ 0x0D) ∨ u = 0x20 ∨ u = 0xA0 ∨ u = 0x1680 ∨ (0x2000 ≤ u ∧ u ≤ 0x200A) ∨
    u = 0x2028 ∨ u = 0x2029 ∨ u = 0x202F ∨ u = 0x205F ∨ u = 0x3000 ∨ u = 0xFEFF

def trimStart (s : JsString) : JsString := s.dropWhile isSpace

def trimEnd (s : JsString) : JsString := s.rdropWhile isSpace

def trim (s : JsString) : JsString := trimEnd (trimStart s)

/-- No unit at either end would be trimmed. -/
def Trimmed (s : JsString) : Prop :=
  (∀ u ∈ s.head?, isSpace u = false) ∧ ∀ u ∈ s.getLast?, isSpace u = false

instance (s : JsString) : Decidable (Trimmed s) :=
  inferInstanceAs (Decidable ((∀ u ∈ s.head?, isSpace u = false) ∧
    ∀ u ∈ s.getLast?, isSpace u = false))

private theorem trimEnd_prefix (s : JsString) : trimEnd s <+: s :=
  List.rdropWhile_prefix isSpace s

private theorem head_trimStart (s : JsString) (u : UInt16) (h : u ∈ (trimStart s).head?) :
    isSpace u = false := by
  have hne : trimStart s ≠ [] := by
    intro hs
    simp [hs] at h
  have hu : (trimStart s).head hne = u := by
    rw [List.head?_eq_some_head hne] at h
    exact Option.some.inj h
  have hn := List.head_dropWhile_not isSpace hne
  exact hu ▸ hn

theorem trim_trimmed (s : JsString) : Trimmed (trim s) := by
  constructor
  · intro u hu
    obtain ⟨rest, hr⟩ := trimEnd_prefix (trimStart s)
    refine head_trimStart s u ?_
    rw [← hr]
    change u ∈ (trimEnd (trimStart s)).head? at hu
    cases ht : trimEnd (trimStart s) with
    | nil => simp [ht] at hu
    | cons v vs => simpa [ht] using hu
  · intro u hu
    have hne : trim s ≠ [] := by
      intro hs
      simp [hs] at hu
    have hl : (trim s).getLast hne = u := by
      rw [List.getLast?_eq_some_getLast hne] at hu
      exact Option.some.inj hu
    have hn := List.rdropWhile_last_not isSpace (trimStart s) hne
    exact hl ▸ Bool.eq_false_iff.mpr hn

theorem trim_eq_self {s : JsString} (h : ∀ u ∈ s, isSpace u = false) : trim s = s := by
  have hstart : trimStart s = s := by
    rw [trimStart, List.dropWhile_eq_self_iff]
    intro hl hspace
    exact absurd hspace (Bool.eq_false_iff.mp (h _ (List.getElem_mem hl)))
  rw [trim, hstart, trimEnd, List.rdropWhile_eq_self_iff]
  intro hl hspace
  exact absurd hspace (Bool.eq_false_iff.mp (h _ (List.getLast_mem hl)))

/-- A number other than `NaN`, which JSON cannot express. -/
inductive Number where
  | finite (q : ℚ)
  | infinite (negative : Bool)
  deriving DecidableEq

inductive Json where
  | null
  | bool (b : Bool)
  | num (n : Number)
  | str (s : JsString)
  | arr (xs : List Json)
  | obj (fields : List (JsString × Json))

namespace Json

mutual

def decEq : (a b : Json) → Decidable (a = b)
  | null, null => isTrue rfl
  | bool a, bool b => decidable_of_iff (a = b) (by simp)
  | num a, num b => decidable_of_iff (a = b) (by simp)
  | str a, str b => decidable_of_iff (a = b) (by simp)
  | arr a, arr b => @decidable_of_iff _ (a = b) (by simp) (decEqList a b)
  | obj a, obj b => @decidable_of_iff _ (a = b) (by simp) (decEqFields a b)
  | null, bool _ | null, num _ | null, str _ | null, arr _ | null, obj _
  | bool _, null | bool _, num _ | bool _, str _ | bool _, arr _ | bool _, obj _
  | num _, null | num _, bool _ | num _, str _ | num _, arr _ | num _, obj _
  | str _, null | str _, bool _ | str _, num _ | str _, arr _ | str _, obj _
  | arr _, null | arr _, bool _ | arr _, num _ | arr _, str _ | arr _, obj _
  | obj _, null | obj _, bool _ | obj _, num _ | obj _, str _ | obj _, arr _ =>
    isFalse (by simp)

def decEqList : (a b : List Json) → Decidable (a = b)
  | [], [] => isTrue rfl
  | [], _ :: _ | _ :: _, [] => isFalse (by simp)
  | x :: xs, y :: ys =>
    @decidable_of_iff _ (x = y ∧ xs = ys) (by simp)
      (@instDecidableAnd _ _ (decEq x y) (decEqList xs ys))

def decEqFields : (a b : List (JsString × Json)) → Decidable (a = b)
  | [], [] => isTrue rfl
  | [], _ :: _ | _ :: _, [] => isFalse (by simp)
  | (k, x) :: xs, (l, y) :: ys =>
    @decidable_of_iff _ (k = l ∧ x = y ∧ xs = ys) (by simp [and_assoc])
      (@instDecidableAnd _ _ _ (@instDecidableAnd _ _ (decEq x y) (decEqFields xs ys)))

end

instance : DecidableEq Json := decEq

end Json

/-- The value of a property of an object; a repeated key is shadowed by the first. -/
def lookup (key : JsString) : List (JsString × Json) → Option Json
  | [] => none
  | (k, v) :: rest => if k = key then some v else lookup key rest

/-- Assign a property: in place when the key is there, at the end otherwise. -/
def assign (key : JsString) (value : Json) : List (JsString × Json) → List (JsString × Json)
  | [] => [(key, value)]
  | (k, v) :: rest => if k = key then (k, value) :: rest else (k, v) :: assign key value rest

@[simp] theorem lookup_assign_self (key : JsString) (value : Json)
    (fields : List (JsString × Json)) : lookup key (assign key value fields) = some value := by
  induction fields with
  | nil => simp [assign, lookup]
  | cons f fields ih =>
    obtain ⟨k, v⟩ := f
    by_cases hk : k = key <;> simp [assign, lookup, hk, ih]

theorem lookup_assign_of_ne {key other : JsString} (h : key ≠ other) (value : Json)
    (fields : List (JsString × Json)) :
    lookup other (assign key value fields) = lookup other fields := by
  induction fields with
  | nil => simp [assign, lookup, h]
  | cons f fields ih =>
    obtain ⟨k, v⟩ := f
    by_cases hk : k = key
    · subst hk
      simp [assign, lookup, h]
    · by_cases ho : k = other
      · subst ho
        simp [assign, lookup, hk]
      · simp [assign, lookup, hk, ho, ih]

/-- What a variable of a handler can hold. -/
inductive Value where
  | undefined
  | json (v : Json)
  | function
  deriving DecidableEq

/-- The exceptions of the handlers. `failure` is any error of a library or of a service. -/
inductive JsError where
  | typeError (message : String)
  | syntaxError (message : String)
  | apiError (statusCode : ℕ) (message : String)
  | failure (message : String)
  deriving DecidableEq

/-- Steps in sequence return only what every one of them returns. -/
theorem ok_of_bind {ε α β : Type} {x : Except ε α} {f : α → Except ε β} {b : β}
    (h : x >>= f = .ok b) : ∃ a, x = .ok a ∧ f a = .ok b := by
  cases x with
  | error e => exact nomatch h
  | ok a => exact ⟨a, rfl, h⟩

namespace Value

def Nullish : Value → Prop
  | undefined | json .null => True
  | _ => False

instance : DecidablePred Nullish := fun v => by
  unfold Nullish
  split <;> infer_instance

/-- What the engine calls a value that has no properties. -/
def nullishName : Value → String
  | json .null => "null"
  | _ => "undefined"

/-- The exception of `v.key` on `undefined` and on `null`. -/
def accessError (v : Value) (key : String) : JsError :=
  let name := v.nullishName
  .typeError s!"Cannot read properties of {name} (reading '{key}')"

/-- The exception of `const { key } = source`. -/
def destructureError (v : Value) (source key : String) : JsError :=
  let name := v.nullishName
  .typeError s!"Cannot destructure property '{key}' of '{source}' as it is {name}."

/-- `Boolean(v)`: the falsy JSON values are `null`, `false`, zero and the empty string. -/
def truthy : Value → Bool
  | undefined | json .null => false
  | json (.bool b) => b
  | json (.num n) => n ≠ .finite 0
  | json (.str s) => s ≠ []
  | json (.arr _) | json (.obj _) | function => true

/-- `===`. Arrays and objects that were parsed apart are never the same reference. -/
def strictEq : Value → Value → Bool
  | undefined, undefined => true
  | json .null, json .null => true
  | json (.bool a), json (.bool b) => a = b
  | json (.num a), json (.num b) => a = b
  | json (.str a), json (.str b) => a = b
  | _, _ => false

/-- The property `key` of a value that has properties. None of the keys that the services
read is inherited from a prototype. -/
def field (v : Value) (key : String) : Value :=
  match v with
  | json (.obj fields) => ((lookup (js key) fields).map json).getD undefined
  | _ => undefined

/-- `v.key`, which throws on `undefined` and on `null`. -/
def get (v : Value) (key : String) : Except JsError Value :=
  if v.Nullish then .error (v.accessError key) else .ok (v.field key)

/-- `const { key } = source`, where `source` has the value `v`. -/
def destructure (v : Value) (source key : String) : Except JsError Value :=
  if v.Nullish then .error (v.destructureError source key) else .ok (v.field key)

theorem field_of_nullish {v : Value} (h : v.Nullish) (key : String) :
    v.field key = undefined := by
  unfold Nullish at h
  split at h
  · rfl
  · rfl
  · exact h.elim

theorem get_of_not_nullish {v : Value} (h : ¬ v.Nullish) (key : String) :
    v.get key = .ok (v.field key) := if_neg h

theorem destructure_of_nullish {v : Value} (h : v.Nullish) (source key : String) :
    v.destructure source key = .error (v.destructureError source key) := if_pos h

theorem destructure_of_not_nullish {v : Value} (h : ¬ v.Nullish) (source key : String) :
    v.destructure source key = .ok (v.field key) := if_neg h

/-- `v` when `v && typeof v === 'string'`. -/
def nonEmptyString : Value → Option JsString
  | json (.str s) => if s = [] then none else some s
  | _ => none

/-- `typeof v === 'string'` -/
def isString : Value → Bool
  | json (.str _) => true
  | _ => false

/-- What is stored for a parameter; a driver sends `NULL` for what is not a JSON value. -/
def column : Value → Json
  | json v => v
  | undefined | function => .null

@[simp] theorem field_undefined (key : String) : undefined.field key = undefined := rfl

@[simp] theorem field_null (key : String) : (json .null).field key = undefined := rfl

@[simp] theorem strictEq_str (a b : JsString) :
    strictEq (json (.str a)) (json (.str b)) = decide (a = b) := rfl

@[simp] theorem truthy_str (s : JsString) : truthy (json (.str s)) = decide (s ≠ []) := rfl

@[simp] theorem truthy_undefined : truthy undefined = false := rfl

@[simp] theorem truthy_null : truthy (json .null) = false := rfl

/-- A value strictly equal to a string is that string. -/
theorem eq_str_of_strictEq {v : Value} {s : JsString} (h : strictEq v (json (.str s)) = true) :
    v = json (.str s) := by
  unfold strictEq at h
  split at h <;> simp_all

theorem strictEq_str_right (v : Value) (s : JsString) :
    strictEq v (json (.str s)) = decide (v = json (.str s)) := by
  by_cases h : v = json (.str s)
  · simp [h]
  · have hn : strictEq v (json (.str s)) ≠ true := fun he => h (eq_str_of_strictEq he)
    simp [h, hn]

theorem strictEq_str_left (s : JsString) (v : Value) :
    strictEq (json (.str s)) v = decide (v = json (.str s)) := by
  unfold strictEq
  split <;> simp_all [eq_comm]

/-- Strictly equal values are equal, and are no arrays. -/
theorem eq_of_strictEq {a b : Value} (h : strictEq a b = true) :
    a = b ∧ ∀ xs, b ≠ json (.arr xs) := by
  unfold strictEq at h
  split at h <;> simp_all

/-- A truthy property of a payload is a JSON value, so it is what its column stores. -/
theorem json_column_field {v : Value} {key : String} (h : (v.field key).truthy = true) :
    json (v.field key).column = v.field key := by
  unfold field at h ⊢
  split at h
  · cases hl : lookup (js key) ‹_› with
    | none => simp [hl] at h
    | some x => rfl
  · cases h

theorem eq_of_nonEmptyString {v : Value} {s : JsString} (h : v.nonEmptyString = some s) :
    v = json (.str s) := by
  unfold nonEmptyString at h
  split at h
  · split at h
    · cases h
    · rw [Option.some.inj h]
  · cases h

/-- A value that is stored as a string is that string. -/
theorem eq_str_of_column {v : Value} {s : JsString} (h : v.column = .str s) :
    v = json (.str s) := by
  cases v with
  | json v => exact congrArg json h
  | undefined => cases h
  | function => cases h

end Value

end ChatMicroservices.JavaScriptValues
