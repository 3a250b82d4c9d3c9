import ChatMicroservices.JsonColumns

/-!
# Prekey bundles and the consumption of one-time prekeys

The column `bundle` holds a published bundle or an encrypted backup. A client can publish
any JSON, so both functions are modelled on all of it; the lemmas are about well-formed
bundles, whose `preKeys`, when there are any, are an array. New bundles are assembled with
`Object.assign`, which takes over every property but a `__proto__`.
-/

namespace ChatMicroservices.PrekeyBundles
open JavaScriptValues JavaScriptOperators JsonColumns

def isPrekeyBundle (b : Json) : Except JsError Bool := hasProperty "preKeys" b

/-- A published bundle is an object. -/
theorem obj_of_published {b : Json} (h : isPrekeyBundle b = .ok true) :
    ∃ fields, b = .obj fields := by
  cases b with
  | obj fields => exact ⟨fields, rfl⟩
  | arr xs => cases h
  | null | bool _ | num _ | str _ => cases h

/-- The bundle that a response carries. A property that the stored bundle lacks stays
`undefined` and is not serialised. -/
structure ClientBundle where
  identityKey : Value
  registrationId : Value
  signedPreKey : Value
  preKeys : List Json
  deriving DecidableEq

structure PreKeyConsumptionResult where
  consumed : Bool
  clientBundle : ClientBundle
  storedBundle : Option Json
  deriving DecidableEq

/-- `{ ...bundle, preKeys: remaining }` -/
def withPreKeys (bundle : Json) (remaining : List Json) : Json :=
  .obj ((Target.empty.assignAll bundle).set (js "preKeys") (.arr remaining)).fields

/-- A copy of a bundle has its properties, apart from a `__proto__`. -/
theorem lookup_copy {key : JsString} {bundle : Json}
    (h : key = js "__proto__" → lookup key (spread bundle) = none) :
    lookup key (Target.empty.assignAll bundle).fields = lookup key (spread bundle) := by
  rw [Target.lookup_assignAll h]
  exact Option.or_none

theorem lookup_withPreKeys {key : JsString} (hne : key ≠ js "preKeys") {bundle : Json}
    (h : key = js "__proto__" → lookup key (spread bundle) = none) (remaining : List Json) :
    lookup key (spread (withPreKeys bundle remaining)) = lookup key (spread bundle) := by
  rw [withPreKeys, spread, Target.lookup_set_of_ne (Ne.symm hne), lookup_copy h]

theorem lookup_preKeys (bundle : Json) (remaining : List Json) :
    lookup (js "preKeys") (spread (withPreKeys bundle remaining)) = some (.arr remaining) := by
  rw [withPreKeys, spread, Target.set_of_ne (by decide), lookup_assign_self]

/-- An `undefined` prekey would be serialised as `null`. -/
def consumeOneTimePreKey (bundle : Json) : Except JsError PreKeyConsumptionResult := do
  let identityKey ← (Value.json bundle).get "identityKey"
  let registrationId ← (Value.json bundle).get "registrationId"
  let signedPreKey ← (Value.json bundle).get "signedPreKey"
  let preKeys ← (Value.json bundle).get "preKeys"
  let length ← lengthOf preKeys
  if length.strictEq (.json (.num (.finite 0))) then
    pure ⟨false, ⟨identityKey, registrationId, signedPreKey, []⟩, none⟩
  else do
    let remaining ← iterate "bundle.preKeys" preKeys
    pure ⟨true, ⟨identityKey, registrationId, signedPreKey, [remaining.headD .null]⟩,
      some (withPreKeys bundle remaining.tail)⟩

/-- The stored bundle differs from the old one in its prekeys only. -/
theorem storedBundle_eq {bundle stored : Json} {result : PreKeyConsumptionResult}
    (h : consumeOneTimePreKey bundle = .ok result) (hs : result.storedBundle = some stored) :
    ∃ remaining, stored = withPreKeys bundle remaining := by
  obtain ⟨identityKey, -, h⟩ := ok_of_bind h
  obtain ⟨registrationId, -, h⟩ := ok_of_bind h
  obtain ⟨signedPreKey, -, h⟩ := ok_of_bind h
  obtain ⟨preKeys, -, h⟩ := ok_of_bind h
  obtain ⟨length, -, h⟩ := ok_of_bind h
  split at h
  · cases h
    cases hs
  · obtain ⟨remaining, -, h⟩ := ok_of_bind h
    cases h
    exact ⟨remaining.tail, (Option.some.inj hs).symm⟩

/-- The test for the property looks at the own properties. -/
theorem published_eq {b : Json} {published : Bool} (h : isPrekeyBundle b = .ok published) :
    (lookup (js "preKeys") (spread b)).isSome = published := by
  cases b with
  | obj fields => exact Except.ok.inj h
  | arr xs =>
    obtain rfl : false = published := Except.ok.inj h
    have hfield : (Value.json (.arr xs)).field "preKeys" = _ := field_eq_spread (by decide) _
    cases hl : lookup (js "preKeys") (spread (.arr xs)) with
    | none => rfl
    | some v =>
      rw [hl] at hfield
      cases hfield
  | null | bool _ | num _ | str _ => cases h

/-- An own property that is no index makes a value an object. -/
theorem isPrekeyBundle_of_lookup {b : Json} (h : (lookup (js "preKeys") (spread b)).isSome) :
    isPrekeyBundle b = .ok true := by
  have hfield : (Value.json b).field "preKeys" = _ := field_eq_spread (by decide) b
  obtain ⟨v, hv⟩ := Option.isSome_iff_exists.mp h
  rw [hv] at hfield
  cases b with
  | obj fields => exact congrArg Except.ok h
  | null | bool _ | num _ | str _ | arr _ => cases hfield

/-- Whether a bundle is published can be seen in its column. -/
theorem isPrekeyBundle_stored (b : Json) : isPrekeyBundle (stored b) = isPrekeyBundle b := by
  cases b with
  | obj fields =>
    have hlookup := lookup_storedMembers (js "preKeys") fields
    simp [isPrekeyBundle, hasProperty, hlookup]
  | num n => cases n <;> rfl
  | null | bool _ | str _ | arr _ => rfl

/-- An object in a json column whose `preKeys`, if it has the property, are an array. -/
structure WellFormed (b : Json) : Prop where
  storable : Storable b
  object : ∃ fields, b = .obj fields ∧
    ∀ v, lookup (js "preKeys") fields = some v → ∃ xs, v = .arr xs

/-- The one-time prekeys that a bundle still has. -/
def poolOf : Json → List Json
  | .obj fields =>
    match lookup (js "preKeys") fields with
    | some (.arr xs) => xs
    | _ => []
  | _ => []

/-- The identity material of a bundle next to the prekeys that are handed out. -/
def clientBundle (bundle : Json) (preKeys : List Json) : ClientBundle where
  identityKey := (Value.json bundle).field "identityKey"
  registrationId := (Value.json bundle).field "registrationId"
  signedPreKey := (Value.json bundle).field "signedPreKey"
  preKeys := preKeys

/-- Indices are no prekeys. -/
theorem poolOf_eq (b : Json) : poolOf b =
    match lookup (js "preKeys") (spread b) with
    | some (.arr xs) => xs
    | _ => [] := by
  have hfield : (Value.json b).field "preKeys" = _ := field_eq_spread (by decide) b
  cases b with
  | obj fields => rfl
  | null | bool _ | num _ | str _ | arr _ =>
    cases hl : lookup (js "preKeys") (spread _) with
    | none => rfl
    | some v =>
      rw [hl] at hfield
      cases hfield

theorem poolOf_congr {b b' : Json}
    (h : lookup (js "preKeys") (spread b') = lookup (js "preKeys") (spread b)) :
    poolOf b' = poolOf b := by
  rw [poolOf_eq, poolOf_eq, h]

/-- The pool of a column is the pool that was written, stored. -/
theorem poolOf_stored (b : Json) : poolOf (stored b) = (poolOf b).map stored := by
  rw [poolOf_eq, poolOf_eq, lookup_spread_stored]
  cases lookup (js "preKeys") (spread b) with
  | none => rfl
  | some v =>
    cases v with
    | arr xs => rw [Option.map_some, stored_arr]
    | num n => cases n <;> rfl
    | null | bool _ | str _ | obj _ => rfl

/-- The prekeys of a column can be stored again. -/
theorem storable_pool {b : Json} (h : Storable b) : Storable (.arr (poolOf b)) := by
  rw [Storable, stored_arr, ← poolOf_stored, h]

@[simp] theorem poolOf_withPreKeys (b : Json) (xs : List Json) :
    poolOf (withPreKeys b xs) = xs := by
  rw [poolOf_eq, lookup_preKeys]

theorem storable_withPreKeys {b : Json} (hb : Storable b) {xs : List Json}
    (hxs : Storable (.arr xs)) : Storable (withPreKeys b xs) :=
  storable_set (storable_assignAll hb storable_empty) (js "preKeys") hxs

theorem wellFormed_withPreKeys {b : Json} (hb : Storable b) {xs : List Json}
    (hxs : Storable (.arr xs)) : WellFormed (withPreKeys b xs) := by
  refine ⟨storable_withPreKeys hb hxs, _, rfl, fun v hv => ⟨xs, ?_⟩⟩
  exact Option.some.inj (hv.symm.trans (lookup_preKeys b xs))

/-- A well-formed bundle is not published, or it has a pool. -/
theorem WellFormed.cases {b : Json} (h : WellFormed b) :
    (isPrekeyBundle b = .ok false ∧ poolOf b = []) ∨
      ∃ fields, b = .obj fields ∧ lookup (js "preKeys") fields = some (.arr (poolOf b)) ∧
        isPrekeyBundle b = .ok true := by
  obtain ⟨-, fields, rfl, hv⟩ := h
  cases hl : lookup (js "preKeys") fields with
  | none => exact .inl ⟨by simp [isPrekeyBundle, hasProperty, hl], by simp [poolOf, hl]⟩
  | some v =>
    obtain ⟨xs, rfl⟩ := hv v hl
    refine .inr ⟨fields, rfl, ?_, ?_⟩
    · simp [poolOf, hl]
    · simp [isPrekeyBundle, hasProperty, hl]

theorem WellFormed.isPrekeyBundle_ok {b : Json} (h : WellFormed b) :
    ∃ published, isPrekeyBundle b = .ok published := by
  rcases h.cases with ⟨hb, -⟩ | ⟨_, -, -, hb⟩
  · exact ⟨false, hb⟩
  · exact ⟨true, hb⟩

/-- A bundle with a prekey is published. -/
theorem WellFormed.published {b : Json} (h : WellFormed b) (hpool : poolOf b ≠ []) :
    isPrekeyBundle b = .ok true := by
  rcases h.cases with ⟨-, hn⟩ | ⟨_, -, -, hb⟩
  · exact absurd hn hpool
  · exact hb

private theorem get_obj (fields : List (JsString × Json)) (key : String) :
    (Value.json (.obj fields)).get key = .ok ((Value.json (.obj fields)).field key) :=
  Value.get_of_not_nullish (by simp [Value.Nullish]) key

/-- Consumption takes the first prekey, if the pool has one. -/
theorem consumeOneTimePreKey_eq {b : Json} (h : WellFormed b)
    (hb : isPrekeyBundle b = .ok true) :
    consumeOneTimePreKey b = .ok
      (match poolOf b with
      | [] => ⟨false, clientBundle b [], none⟩
      | k :: ks => ⟨true, clientBundle b [k], some (withPreKeys b ks)⟩) := by
  rcases h.cases with ⟨hn, -⟩ | ⟨fields, rfl, hl, -⟩
  · rw [hn] at hb
    cases hb
  · have hkeys : (Value.json (.obj fields)).field "preKeys" =
        .json (.arr (poolOf (.obj fields))) := by
      simp [Value.field, hl]
    generalize poolOf (.obj fields) = pool at hkeys
    unfold consumeOneTimePreKey
    simp only [get_obj, hkeys, lengthOf]
    cases pool with
    | nil => rfl
    | cons k ks =>
      have hne : Value.strictEq (.json (.num (.finite ((ks.length : ℚ) + 1))))
          (.json (.num (.finite 0))) = false := by
        simpa [Value.strictEq] using Nat.cast_add_one_ne_zero (R := ℚ) ks.length
      simp [bind, Except.bind, pure, Except.pure, hne, iterate, clientBundle]

/-- A column can hold what consumption leaves of one. -/
theorem WellFormed.consumed {b : Json} (h : WellFormed b) {k : Json} {ks : List Json}
    (hpool : poolOf b = k :: ks) : WellFormed (withPreKeys b ks) := by
  refine wellFormed_withPreKeys h.storable ?_
  have hall := storable_arr.mp (storable_pool h.storable)
  rw [hpool] at hall
  exact storable_arr.mpr fun x hx => hall x (List.mem_cons_of_mem k hx)

/-- The bundles agree on every property but `preKeys`, and on whether they are published. -/
structure SameButPool (b b' : Json) : Prop where
  fields : ∀ key, key ≠ js "preKeys" → lookup key (spread b') = lookup key (spread b)
  published : isPrekeyBundle b' = isPrekeyBundle b

theorem SameButPool.refl (b : Json) : SameButPool b b := ⟨fun _ _ => rfl, rfl⟩

theorem SameButPool.trans {a b c : Json} (h : SameButPool a b) (h' : SameButPool b c) :
    SameButPool a c :=
  ⟨fun key hk => (h'.fields key hk).trans (h.fields key hk), h'.published.trans h.published⟩

/-- Only a `__proto__` of its own is lost when a bundle is copied. -/
theorem sameButPool_withPreKeys {b : Json} (hb : isPrekeyBundle b = .ok true)
    (hproto : lookup (js "__proto__") (spread b) = none) (xs : List Json) :
    SameButPool b (withPreKeys b xs) := by
  refine ⟨fun key hk => lookup_withPreKeys hk (fun heq => heq ▸ hproto) xs, ?_⟩
  rw [hb]
  exact isPrekeyBundle_of_lookup (by rw [lookup_preKeys]; rfl)

/-- `{ ...existingBundle, ...bundle }` -/
def merge (existingBundle bundle : Json) : Json :=
  .obj ((Target.empty.assignAll existingBundle).assignAll bundle).fields

theorem lookup_merge {key : JsString} {existingBundle bundle : Json}
    (hold : key = js "__proto__" → lookup key (spread existingBundle) = none)
    (hnew : key = js "__proto__" → lookup key (spread bundle) = none) :
    lookup key (spread (merge existingBundle bundle)) =
      (lookup key (spread bundle)).or (lookup key (spread existingBundle)) := by
  rw [merge, spread, Target.lookup_assignAll hnew, lookup_copy hold]

/-- `{ ...bundle, _encryptedKeyBundle: encryptedBundle }` -/
def withBackup (bundle encryptedBundle : Json) : Json :=
  .obj ((Target.empty.assignAll bundle).set (js "_encryptedKeyBundle") encryptedBundle).fields

theorem lookup_withBackup {key : JsString} (hne : key ≠ js "_encryptedKeyBundle") {bundle : Json}
    (h : key = js "__proto__" → lookup key (spread bundle) = none) (encryptedBundle : Json) :
    lookup key (spread (withBackup bundle encryptedBundle)) = lookup key (spread bundle) := by
  rw [withBackup, spread, Target.lookup_set_of_ne (Ne.symm hne), lookup_copy h]

theorem lookup_backup (bundle encryptedBundle : Json) :
    lookup (js "_encryptedKeyBundle") (spread (withBackup bundle encryptedBundle)) =
      some encryptedBundle := by
  rw [withBackup, spread, Target.set_of_ne (by decide), lookup_assign_self]

/-- The backup is written next to what the column holds already. -/
theorem stored_withBackup {b : Json} (hb : Storable b) (encryptedBundle : Json) :
    stored (withBackup b encryptedBundle) = withBackup b (stored encryptedBundle) := by
  have hcopy : storedMembers (Target.empty.assignAll b).fields =
      (Target.empty.assignAll b).fields := Json.obj.inj (storable_assignAll hb storable_empty)
  simp only [withBackup, stored_obj, Target.set_of_ne (by decide : js "_encryptedKeyBundle" ≠ _),
    storedMembers_assign, hcopy]

theorem poolOf_withBackup (b encryptedBundle : Json) :
    poolOf (withBackup b encryptedBundle) = poolOf b :=
  poolOf_congr (lookup_withBackup (by decide) (fun h => absurd h (by decide)) _)

theorem WellFormed.withBackup {b : Json} (h : WellFormed b) {encryptedBundle : Json}
    (he : Storable encryptedBundle) :
    WellFormed (PrekeyBundles.withBackup b encryptedBundle) := by
  obtain ⟨fields, rfl, hv⟩ := h.object
  refine ⟨?_, _, rfl, fun v hl => hv v ?_⟩
  · rw [Storable, PrekeyBundles.stored_withBackup h.storable, he]
  · exact (lookup_withBackup (by decide) (fun h => absurd h (by decide)) _).symm.trans hl

/-- The column is well-formed after a backup, whatever the client sends. -/
theorem WellFormed.stored_withBackup {b : Json} (h : WellFormed b) (encryptedBundle : Json) :
    WellFormed (stored (PrekeyBundles.withBackup b encryptedBundle)) := by
  rw [PrekeyBundles.stored_withBackup h.storable]
  exact h.withBackup (storable_stored encryptedBundle)

/-- The bundle of a device that has none yet. -/
theorem wellFormed_empty : WellFormed (.obj []) :=
  ⟨rfl, [], rfl, fun v hv => by cases hv⟩

end ChatMicroservices.PrekeyBundles
