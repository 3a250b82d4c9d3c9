import ChatMicroservices.JavaScriptOperators

/-!
# Values in a json column

A value is written to a json column as `JSON.stringify` has it and read back with
`JSON.parse`. JSON has no text for the infinite numbers that a client can send as `1e999`:
they are stored as `null`, at any depth. Everything else is read back as it was written.
-/

namespace ChatMicroservices.JsonColumns
open JavaScriptValues JavaScriptOperators

mutual

/-- What a json column holds for a value. -/
def stored : Json → Json
  | .null => .null
  | .bool b => .bool b
  | .num (.finite q) => .num (.finite q)
  | .num (.infinite _) => .null
  | .str s => .str s
  | .arr xs => .arr (storedElements xs)
  | .obj fields => .obj (storedMembers fields)

def storedElements : List Json → List Json
  | [] => []
  | x :: xs => stored x :: storedElements xs

def storedMembers : List (JsString × Json) → List (JsString × Json)
  | [] => []
  | (key, x) :: fields => (key, stored x) :: storedMembers fields

end

theorem storedElements_eq (xs : List Json) : storedElements xs = xs.map stored := by
  induction xs with
  | nil => rfl
  | cons x xs ih => rw [storedElements, ih, List.map_cons]

theorem storedMembers_eq (fields : List (JsString × Json)) :
    storedMembers fields = fields.map fun f => (f.1, stored f.2) := by
  induction fields with
  | nil => rfl
  | cons f fields ih => rw [storedMembers, ih, List.map_cons]

@[simp] theorem stored_obj (fields : List (JsString × Json)) :
    stored (.obj fields) = .obj (storedMembers fields) := rfl

@[simp] theorem stored_arr (xs : List Json) : stored (.arr xs) = .arr (xs.map stored) := by
  rw [stored, storedElements_eq]

@[simp] theorem stored_str (s : JsString) : stored (.str s) = .str s := rfl

mutual

/-- A value that was read from a column is stored as it is. -/
theorem stored_stored : (v : Json) → stored (stored v) = stored v
  | .null | .bool _ | .num (.finite _) | .num (.infinite _) | .str _ => rfl
  | .arr xs => congrArg Json.arr (storedElements_stored xs)
  | .obj fields => congrArg Json.obj (storedMembers_stored fields)

theorem storedElements_stored : (xs : List Json) →
    storedElements (storedElements xs) = storedElements xs
  | [] => rfl
  | x :: xs => congrArg₂ List.cons (stored_stored x) (storedElements_stored xs)

theorem storedMembers_stored : (fields : List (JsString × Json)) →
    storedMembers (storedMembers fields) = storedMembers fields
  | [] => rfl
  | (key, x) :: fields =>
    congrArg₂ List.cons (congrArg (Prod.mk key) (stored_stored x)) (storedMembers_stored fields)

end

theorem lookup_storedMembers (key : JsString) (fields : List (JsString × Json)) :
    lookup key (storedMembers fields) = (lookup key fields).map stored := by
  induction fields with
  | nil => rfl
  | cons f fields ih =>
    obtain ⟨k, v⟩ := f
    by_cases hk : k = key
    · simp [storedMembers, lookup, hk]
    · simp [storedMembers, lookup, hk, ih]

/-- The properties of the column are the properties of the value, stored. -/
theorem spread_stored (v : Json) : spread (stored v) = storedMembers (spread v) := by
  cases v with
  | null | bool _ => rfl
  | num n => cases n <;> rfl
  | str s =>
    rw [stored_str, spread, storedMembers_eq, List.map_map]
    rfl
  | arr xs =>
    rw [stored_arr, spread, spread, storedMembers_eq, List.zipIdx_map, List.map_map, List.map_map]
    rfl
  | obj fields => rfl

theorem lookup_spread_stored (key : JsString) (v : Json) :
    lookup key (spread (stored v)) = (lookup key (spread v)).map stored := by
  rw [spread_stored, lookup_storedMembers]

theorem storedMembers_assign (key : JsString) (value : Json) (fields : List (JsString × Json)) :
    storedMembers (assign key value fields) = assign key (stored value) (storedMembers fields) := by
  induction fields with
  | nil => rfl
  | cons f fields ih =>
    obtain ⟨k, v⟩ := f
    by_cases hk : k = key
    · simp [storedMembers, assign, hk]
    · simp [storedMembers, assign, hk, ih]

/-- A column can hold the value as it is. -/
def Storable (v : Json) : Prop := stored v = v

instance : DecidablePred Storable := fun v => inferInstanceAs (Decidable (stored v = v))

theorem storable_stored (v : Json) : Storable (stored v) := stored_stored v

theorem storable_arr {xs : List Json} : Storable (.arr xs) ↔ ∀ x ∈ xs, Storable x := by
  rw [Storable, stored_arr, Json.arr.injEq]
  nth_rewrite 2 [← List.map_id xs]
  exact List.map_inj_left

theorem Storable.spread {v : Json} (h : Storable v) :
    storedMembers (JavaScriptOperators.spread v) = JavaScriptOperators.spread v := by
  rw [← spread_stored, h]

theorem Storable.lookup {v : Json} (h : Storable v) {key : JsString} {x : Json}
    (hx : JavaScriptValues.lookup key (JavaScriptOperators.spread v) = some x) : Storable x := by
  have hsame := lookup_spread_stored key v
  rw [h, hx, Option.map_some, Option.some.injEq] at hsame
  exact hsame.symm

theorem storable_empty : Storable (.obj Target.empty.fields) := rfl

theorem storable_set {t : Target} (ht : Storable (.obj t.fields)) (key : JsString) {value : Json}
    (hvalue : Storable value) : Storable (.obj (t.set key value).fields) := by
  unfold Target.set
  split
  · exact ht
  · have hfields : storedMembers t.fields = t.fields := Json.obj.inj ht
    have hassign := storedMembers_assign key value t.fields
    rw [hfields, hvalue] at hassign
    exact congrArg Json.obj hassign

/-- What is assembled from stored values is stored as it is. -/
theorem storable_assignAll {source : Json} (hsource : Storable source) {t : Target}
    (ht : Storable (.obj t.fields)) : Storable (.obj (t.assignAll source).fields) := by
  have hvalue : ∀ key, Storable ((JavaScriptValues.lookup key
      (JavaScriptOperators.spread source)).getD .null) := by
    intro key
    cases hl : JavaScriptValues.lookup key (JavaScriptOperators.spread source) with
    | none => rfl
    | some x => exact hsource.lookup hl
  unfold Target.assignAll
  generalize JavaScriptOperators.spread source = fields at hvalue ⊢
  have hfold : ∀ fs : List (JsString × Json), ∀ t : Target, Storable (.obj t.fields) →
      Storable (.obj (fs.foldl (fun t f =>
        t.set f.1 ((JavaScriptValues.lookup f.1 fields).getD .null)) t).fields) := by
    intro fs
    induction fs with
    | nil => exact fun t ht => ht
    | cons f fs ih => exact fun t ht => ih _ (storable_set ht f.1 (hvalue f.1))
  exact hfold fields t ht

end ChatMicroservices.JsonColumns
