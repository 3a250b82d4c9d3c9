import ChatMicroservices.JsonParsing

/-!
# Operators on stored JSON values

What the language does with a JSON value that turns out not to be of its declared type:
the `in` operator, `length`, comparison with zero, and the two spread operators.
-/

namespace ChatMicroservices.JavaScriptOperators
open JavaScriptValues JSON

/-- The value of a literal with a radix prefix, without the prefix. -/
def radixValue (radix : ℕ) (digits : JsString) : Option ℕ :=
  if digits = [] then none
  else digits.foldlM (fun n u => do
    let d ← hexDigit u
    if d.toNat < radix then some (radix * n + d.toNat) else none) 0

/-- A decimal literal without sign; digits may be missing on one side of the point. -/
def decimalLiteral (s : JsString) : Option ℚ := do
  let whole := s.takeWhile isDigit
  let rest := s.dropWhile isDigit
  let (fraction, rest) := match rest with
    | [] => ([], [])
    | u :: tail =>
      if u = 0x2E then (tail.takeWhile isDigit, tail.dropWhile isDigit) else ([], u :: tail)
  if whole ++ fraction = [] then none
  else
    let (exponent, rest) ← exponentPart rest
    if rest = [] then some (decimalValue (whole ++ fraction) * 10 ^ (exponent - fraction.length))
    else none

def signedLiteral (negative : Bool) (s : JsString) : Option Number :=
  if s = js "Infinity" then some (.infinite negative)
  else (decimalLiteral s).map fun q => toDouble (if negative then -q else q)

def trimmedToNumber : JsString → Option Number
  | [] => some (.finite 0)
  | [u] => signedLiteral false [u]
  | u :: v :: rest =>
    if u = 0x2D then signedLiteral true (v :: rest)
    else if u = 0x2B then signedLiteral false (v :: rest)
    else if u = 0x30 ∧ (v = 0x78 ∨ v = 0x58) then (radixValue 16 rest).map fun n => toDouble n
    else if u = 0x30 ∧ (v = 0x6F ∨ v = 0x4F) then (radixValue 8 rest).map fun n => toDouble n
    else if u = 0x30 ∧ (v = 0x62 ∨ v = 0x42) then (radixValue 2 rest).map fun n => toDouble n
    else signedLiteral false (u :: v :: rest)

/-- `Number(s)` of a string; `none` is `NaN`. -/
def stringToNumber (s : JsString) : Option Number := trimmedToNumber (trim s)

/-- The exception of an object whose own `toString` is not callable. -/
def conversionError : JsError := .typeError "Cannot convert object to primitive value"

mutual

/-- Conversion to a string does not throw. -/
def hasText : Json → Bool
  | .obj fields => (lookup (js "toString") fields).isNone
  | .arr xs => haveTexts xs
  | .null | .bool _ | .num _ | .str _ => true

def haveTexts : List Json → Bool
  | [] => true
  | x :: xs => hasText x && haveTexts xs

end

mutual

/-- `Number(v)`. An array is converted through the text of its elements; the text of a
single number is read back as that number, and a comma makes the result `NaN`. -/
def toNumber : Json → Except JsError (Option Number)
  | .null => .ok (some (.finite 0))
  | .bool b => .ok (some (.finite (if b then 1 else 0)))
  | .num n => .ok (some n)
  | .str s => .ok (stringToNumber s)
  | .obj fields => if hasText (.obj fields) then .ok none else .error conversionError
  | .arr xs => joinedToNumber xs

def joinedToNumber : List Json → Except JsError (Option Number)
  | [] | [.null] => .ok (some (.finite 0))
  | [.bool _] => .ok none
  | [x] => toNumber x
  | x :: y :: rest => if haveTexts (x :: y :: rest) then .ok none else .error conversionError

end

def positive : Number → Bool
  | .finite q => 0 < q
  | .infinite negative => ¬ negative

/-- `v > 0` -/
def isPositive : Value → Except JsError Bool
  | .json v => (toNumber v).map fun n => n.any positive
  | .undefined | .function => .ok false

@[simp] theorem isPositive_num (n : Number) :
    isPositive (.json (.num n)) = .ok (positive n) := rfl

/-- `key in v` for a key that is neither inherited nor an index. -/
def hasProperty (key : String) : Json → Except JsError Bool
  | .obj fields => .ok (lookup (js key) fields).isSome
  | .arr _ => .ok false
  | .null | .bool _ | .num _ | .str _ =>
    .error (.typeError s!"Cannot use 'in' operator to search for '{key}'")

/-- `v.length` -/
def lengthOf : Value → Except JsError Value
  | .json (.str s) => .ok (.json (.num (.finite s.length)))
  | .json (.arr xs) => .ok (.json (.num (.finite xs.length)))
  | v => v.get "length"

/-- A string as its iterator yields it: a surrogate pair is one element. -/
def codePoints : JsString → List JsString
  | [] => []
  | [u] => [[u]]
  | u :: v :: rest =>
    if (0xD800 ≤ u ∧ u ≤ 0xDBFF) ∧ 0xDC00 ≤ v ∧ v ≤ 0xDFFF then [u, v] :: codePoints rest
    else [u] :: codePoints (v :: rest)

/-- `[...source]`, where `source` has the value `v`. -/
def iterate (source : String) : Value → Except JsError (List Json)
  | .json (.arr xs) => .ok xs
  | .json (.str s) => .ok ((codePoints s).map .str)
  | _ => .error (.typeError s!"{source} is not iterable")

/-- The own properties of a value, in their order. -/
def spread : Json → List (JsString × Json)
  | .obj fields => fields
  | .arr xs => xs.zipIdx.map fun x => (js (toString x.2), x.1)
  | .str s => s.zipIdx.map fun u => (js (toString u.2), .str [u.1])
  | .null | .bool _ | .num _ => []

private theorem lookup_eq_none {key : JsString} {fields : List (JsString × Json)}
    (h : ∀ f ∈ fields, f.1 ≠ key) : lookup key fields = none := by
  induction fields with
  | nil => rfl
  | cons f fields ih =>
    obtain ⟨k, v⟩ := f
    have hk : k ≠ key := h (k, v) List.mem_cons_self
    rw [lookup, if_neg hk]
    exact ih fun f hf => h f (List.mem_cons_of_mem _ hf)

private theorem isDigit_of_mem_index {n : ℕ} {u : UInt16} (h : u ∈ js (toString n)) :
    isDigit u = true := by
  obtain ⟨ch, hch, rfl⟩ := List.mem_map.mp h
  have hdigit : ch.isDigit = true := by
    refine Nat.isDigit_of_mem_toDigits (b := 10) (n := n) (by omega) (by omega) ?_
    simpa using hch
  simp only [Char.isDigit, Bool.and_eq_true, decide_eq_true_eq] at hdigit
  have hlow : 48 ≤ ch.toNat := UInt32.le_iff_toNat_le.mp hdigit.1
  have hhigh : ch.toNat ≤ 57 := UInt32.le_iff_toNat_le.mp hdigit.2
  have hto : (UInt16.ofNat ch.toNat).toNat = ch.toNat := by
    rw [UInt16.toNat_ofNat']
    omega
  simp only [isDigit, decide_eq_true_eq, UInt16.le_iff_toNat_le, hto]
  exact ⟨hlow, hhigh⟩

/-- The own property of a value for a key that is no index. -/
theorem field_eq_spread {key : String} (h : ∃ u ∈ js key, isDigit u = false) (v : Json) :
    (Value.json v).field key = ((lookup (js key) (spread v)).map .json).getD .undefined := by
  obtain ⟨u, hu, hdigit⟩ := h
  have hindex : ∀ n : ℕ, js (toString n) ≠ js key := by
    intro n hn
    rw [← hn] at hu
    rw [isDigit_of_mem_index hu] at hdigit
    cases hdigit
  have hnone : (∀ f ∈ spread v, ∃ n : ℕ, f.1 = js (toString n)) →
      lookup (js key) (spread v) = none := by
    intro hf
    refine lookup_eq_none fun f hmem => ?_
    obtain ⟨n, hn⟩ := hf f hmem
    exact hn ▸ hindex n
  cases v with
  | obj fields => rfl
  | null | bool b | num n => rfl
  | arr xs =>
    rw [hnone]
    · rfl
    · intro f hf
      obtain ⟨x, -, rfl⟩ := List.mem_map.mp hf
      exact ⟨x.2, rfl⟩
  | str s =>
    rw [hnone]
    · rfl
    · intro f hf
      obtain ⟨x, -, rfl⟩ := List.mem_map.mp hf
      exact ⟨x.2, rfl⟩

/-- An object under construction, and whether `__proto__` still reaches the setter of
`Object.prototype`. -/
structure Target where
  fields : List (JsString × Json)
  hasSetter : Bool

namespace Target

/-- `{}` -/
def empty : Target := ⟨[], true⟩

/-- Objects and `null` become the prototype, and the setter goes out of reach when `null` does
or an object with a `__proto__` of its own. Other values are ignored. -/
def keepsSetter : Json → Bool
  | .null => false
  | .obj fields => (lookup (js "__proto__") fields).isNone
  | .bool _ | .num _ | .str _ | .arr _ => true

/-- `target[key] = value` -/
def set (t : Target) (key : JsString) (value : Json) : Target :=
  if key = js "__proto__" ∧ t.hasSetter then { t with hasSetter := keepsSetter value }
  else { t with fields := assign key value t.fields }

/-- `Object.assign(target, source)`, to which the spread operator of objects is compiled. -/
def assignAll (t : Target) (source : Json) : Target :=
  (spread source).foldl (fun t f => t.set f.1 ((lookup f.1 (spread source)).getD .null)) t

theorem set_of_ne {key : JsString} (h : key ≠ js "__proto__") (t : Target) (value : Json) :
    (t.set key value).fields = assign key value t.fields := by
  rw [set, if_neg fun hand => h hand.1]

theorem lookup_set_of_ne {key other : JsString} (h : key ≠ other) (t : Target) (value : Json) :
    lookup other (t.set key value).fields = lookup other t.fields := by
  unfold set
  split
  · rfl
  · exact lookup_assign_of_ne h value t.fields

private theorem lookup_setAll (w : JsString → Json) {key : JsString}
    (fs : List (JsString × Json)) (h : key = js "__proto__" → key ∉ fs.map Prod.fst)
    (t : Target) :
    lookup key (fs.foldl (fun t f => t.set f.1 (w f.1)) t).fields =
      if key ∈ fs.map Prod.fst then some (w key) else lookup key t.fields := by
  induction fs generalizing t with
  | nil => rfl
  | cons f fs ih =>
    obtain ⟨k, v⟩ := f
    have hrest : key = js "__proto__" → key ∉ fs.map Prod.fst := fun heq hmem =>
      h heq (List.mem_cons_of_mem _ hmem)
    rw [List.foldl_cons, ih hrest]
    by_cases hk : k = key
    · subst hk
      have hne : k ≠ js "__proto__" := fun heq => h heq List.mem_cons_self
      simp [set_of_ne hne]
    · have hmem : key ∈ ((k, v) :: fs).map Prod.fst ↔ key ∈ fs.map Prod.fst := by
        simp [Ne.symm hk]
      simp only [lookup_set_of_ne hk, hmem]

theorem lookup_isSome {key : JsString} {fields : List (JsString × Json)} :
    (lookup key fields).isSome ↔ key ∈ fields.map Prod.fst := by
  induction fields with
  | nil => simp [lookup]
  | cons f fields ih =>
    obtain ⟨k, v⟩ := f
    by_cases hk : k = key
    · simp [lookup, hk]
    · simp [lookup, hk, ih, Ne.symm hk]

/-- What is assigned hides what was there, apart from a `__proto__` of the source. -/
theorem lookup_assignAll {key : JsString} {source : Json}
    (h : key = js "__proto__" → lookup key (spread source) = none) (t : Target) :
    lookup key (t.assignAll source).fields =
      (lookup key (spread source)).or (lookup key t.fields) := by
  have habsent : key = js "__proto__" → key ∉ (spread source).map Prod.fst := by
    intro heq hmem
    have hsome := lookup_isSome.mpr hmem
    rw [h heq] at hsome
    cases hsome
  rw [assignAll, lookup_setAll (fun k => (lookup k (spread source)).getD .null) _ habsent]
  split
  · rename_i hmem
    obtain ⟨v, hv⟩ := Option.isSome_iff_exists.mp (lookup_isSome.mpr hmem)
    simp [hv]
  · rename_i hmem
    have hnone : lookup key (spread source) = none := by
      simpa using mt lookup_isSome.mp hmem
    rw [hnone, Option.none_or]

end Target

end ChatMicroservices.JavaScriptOperators
