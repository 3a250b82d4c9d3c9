import ChatMicroservices.PrekeySessions

/-!
# What is published can be served

Publications are checked for their size only, while `getPrekeyBundle` expects a complete
bundle with an array of prekeys. If every publication leaves its device with a bundle that
can be served, and its prekeys in the column are published ones, every `getPrekeyBundle` is
answered, with a complete bundle as soon as the user has published one on any device.
-/

namespace ChatMicroservices.PublishedBundles
open JavaScriptValues JavaScriptOperators JsonColumns KeyedTables PrekeyBundles PrekeyDatabase
open PrekeyController PrekeyValidation SequentialPrograms PrekeyPools PrekeyDevices
open PrekeyRequests PrekeyOutcomes BundleOutcomes PrekeySessions

/-- The identity material of a bundle is there. -/
def Complete (b : Json) : Prop :=
  ∀ key ∈ ["identityKey", "registrationId", "signedPreKey"],
    (Value.json b).field key ≠ .undefined

instance (b : Json) : Decidable (Complete b) :=
  inferInstanceAs (Decidable (∀ key ∈ _, (Value.json b).field key ≠ .undefined))

def isArray : Value → Bool
  | .json (.arr _) => true
  | _ => false

/-- Prekeys are an array, or `length` says that there are none. -/
def Drawable (preKeys : Value) : Prop :=
  isArray preKeys = true ∨ lengthOf preKeys = .ok (.json (.num (.finite 0)))

instance (preKeys : Value) : Decidable (Drawable preKeys) :=
  inferInstanceAs (Decidable (_ ∨ _))

/-- The bundle is not published, or `getPrekeyBundle` can serve it. -/
def Servable (b : Json) : Prop :=
  isPrekeyBundle b = .ok false ∨
    isPrekeyBundle b = .ok true ∧ Complete b ∧ Drawable ((Value.json b).field "preKeys")

instance (b : Json) : Decidable (Servable b) := inferInstanceAs (Decidable (_ ∨ _))

theorem Servable.isPrekeyBundle_ok {b : Json} (h : Servable b) :
    ∃ published, isPrekeyBundle b = .ok published := by
  rcases h with hb | ⟨hb, -, -⟩
  · exact ⟨false, hb⟩
  · exact ⟨true, hb⟩

theorem poolOf_eq_field (b : Json) :
    poolOf b = match (Value.json b).field "preKeys" with
      | .json (.arr xs) => xs
      | _ => [] := by
  rw [PrekeyBundles.poolOf_eq, field_eq_spread (by decide)]
  cases lookup (js "preKeys") (spread b) with
  | none => rfl
  | some v => cases v <;> rfl

private theorem wellFormed_of_isArray {b : Json} (hs : Storable b)
    (hb : isPrekeyBundle b = .ok true) (h : isArray ((Value.json b).field "preKeys") = true) :
    WellFormed b := by
  obtain ⟨fields, rfl⟩ := obj_of_published hb
  refine ⟨hs, fields, rfl, fun v hv => ?_⟩
  simp only [Value.field, hv, Option.map_some, Option.getD_some] at h
  cases v with
  | arr xs => exact ⟨xs, rfl⟩
  | null | bool _ | num _ | str _ | obj _ => cases h

private theorem poolOf_of_length {b : Json}
    (h : lengthOf ((Value.json b).field "preKeys") = .ok (.json (.num (.finite 0)))) :
    poolOf b = [] := by
  rw [poolOf_eq_field]
  split
  · rename_i xs hxs
    rw [hxs] at h
    simp only [lengthOf, Except.ok.injEq, Value.json.injEq, Json.num.injEq, Number.finite.injEq,
      Nat.cast_eq_zero] at h
    exact List.length_eq_zero_iff.mp h
  · rfl

/-- The consumption of a bundle that can be served takes its first prekey, if it has one. -/
theorem Servable.consume {b : Json} (h : Servable b) (hs : Storable b)
    (hb : isPrekeyBundle b = .ok true) :
    consumeOneTimePreKey b = .ok
      (match poolOf b with
      | [] => ⟨false, clientBundle b [], none⟩
      | k :: ks => ⟨true, clientBundle b [k], some (withPreKeys b ks)⟩) := by
  rcases h with hn | ⟨-, -, harray | hlength⟩
  · rw [hn] at hb
    cases hb
  · exact consumeOneTimePreKey_eq (wellFormed_of_isArray hs hb harray) hb
  · rw [poolOf_of_length hlength]
    obtain ⟨fields, rfl⟩ := obj_of_published hb
    have hget : ∀ key, (Value.json (.obj fields)).get key =
        .ok ((Value.json (.obj fields)).field key) :=
      Value.get_of_not_nullish (by simp [Value.Nullish])
    simp only [consumeOneTimePreKey, hget, bind, Except.bind, hlength]
    rfl

theorem Servable.hasOneTimePreKey {r : Prekey} (h : Servable r.bundle)
    (hs : Storable r.bundle) : hasOneTimePreKey r = .ok (Stocked r) := by
  rcases h with hb | ⟨hb, -, harray | hlength⟩
  · have hpool : poolOf r.bundle = [] := by
      have hnone := published_eq hb
      rw [Option.isSome_eq_false_iff, Option.isNone_iff_eq_none] at hnone
      rw [PrekeyBundles.poolOf_eq, hnone]
    simp [PrekeyController.hasOneTimePreKey, hb, Stocked, hpool, bind, Except.bind, pure,
      Except.pure]
  · exact hasOneTimePreKey_eq (wellFormed_of_isArray hs hb harray)
  · have hpool := poolOf_of_length hlength
    obtain ⟨fields, hr⟩ := obj_of_published hb
    have hget : (Value.json r.bundle).get "preKeys" =
        .ok ((Value.json r.bundle).field "preKeys") := by
      refine Value.get_of_not_nullish ?_ _
      simp [hr, Value.Nullish]
    simp [PrekeyController.hasOneTimePreKey, hb, hget, hlength, Stocked, hpool, bind,
      Except.bind, positive]

/-- Among rows that can be served the choice succeeds, and it finds a published row if there
is one. -/
theorem chosenBundle_servable {rows : List Prekey} (h : ∀ r ∈ rows, Servable r.bundle)
    (hs : ∀ r ∈ rows, Storable r.bundle) : ∃ chosen, chosenBundle rows = .ok chosen ∧
    (chosen = none → ∀ r ∈ rows, isPrekeyBundle r.bundle = .ok false) := by
  refine ⟨_, chosenBundle_eq (fun r hr => (h r hr).hasOneTimePreKey (hs r hr))
    fun r hr => (h r hr).isPrekeyBundle_ok, fun hnone r hr => ?_⟩
  rw [Option.or_eq_none_iff] at hnone
  have hno := List.find?_eq_none.mp hnone.2 r hr
  obtain ⟨published, hp⟩ := (h r hr).isPrekeyBundle_ok
  cases published with
  | false => exact hp
  | true => simp [Published, hp] at hno

private theorem lookup_preKeys_merge (a b : Json) :
    lookup (js "preKeys") (spread (merge a b)) =
      (lookup (js "preKeys") (spread b)).or (lookup (js "preKeys") (spread a)) :=
  lookup_merge (fun h => absurd h (by decide)) fun h => absurd h (by decide)

theorem isPrekeyBundle_merge (a b : Json) : isPrekeyBundle (merge a b) =
    .ok ((lookup (js "preKeys") (spread b)).or (lookup (js "preKeys") (spread a))).isSome := by
  rw [← lookup_preKeys_merge]
  rfl

theorem poolOf_merge {a b x : Json} (h : x ∈ poolOf (merge a b)) :
    x ∈ poolOf b ∨ x ∈ poolOf a := by
  rw [PrekeyBundles.poolOf_eq, lookup_preKeys_merge] at h
  rw [PrekeyBundles.poolOf_eq, PrekeyBundles.poolOf_eq]
  cases hb : lookup (js "preKeys") (spread b) with
  | none =>
    rw [hb, Option.none_or] at h
    exact .inr h
  | some v =>
    rw [hb, Option.some_or] at h
    exact .inl h

/-- Bundles with the same properties can be served alike. -/
theorem Servable.congr {b b' : Json} (h : Servable b)
    (hpublished : isPrekeyBundle b' = isPrekeyBundle b)
    (hfields : ∀ key ∈ ["identityKey", "registrationId", "signedPreKey", "preKeys"],
      (Value.json b').field key = (Value.json b).field key) : Servable b' := by
  rcases h with hb | ⟨hb, hcomplete, hdrawable⟩
  · exact .inl (hpublished.trans hb)
  · refine .inr ⟨hpublished.trans hb, fun key hkey => ?_, ?_⟩
    · rw [hfields key (by simp at hkey ⊢; tauto)]
      exact hcomplete key hkey
    · rw [hfields "preKeys" (by simp)]
      exact hdrawable

theorem isPrekeyBundle_backup {b : Json} {published : Bool} (h : isPrekeyBundle b = .ok published)
    (encryptedBundle : Json) :
    isPrekeyBundle (withBackup b encryptedBundle) = .ok published := by
  have hkept : lookup (js "preKeys") (spread (withBackup b encryptedBundle)) =
      lookup (js "preKeys") (spread b) :=
    lookup_withBackup (by decide) (fun h => absurd h (by decide)) encryptedBundle
  rw [← published_eq h, ← hkept]
  rfl

theorem servable_withBackup {b : Json} (h : Servable b) (encryptedBundle : Json) :
    Servable (withBackup b encryptedBundle) := by
  refine h.congr ?_ fun key hkey => ?_
  · obtain ⟨published, hb⟩ := h.isPrekeyBundle_ok
    rw [hb, isPrekeyBundle_backup hb]
  · have hnamed : (∃ u ∈ js key, JSON.isDigit u = false) ∧
        js key ≠ js "_encryptedKeyBundle" ∧ js key ≠ js "__proto__" := by
      simp only [List.mem_cons, List.not_mem_nil, or_false] at hkey
      rcases hkey with rfl | rfl | rfl | rfl <;> decide
    rw [field_eq_spread hnamed.1, field_eq_spread hnamed.1,
      lookup_withBackup hnamed.2.1 fun h => absurd h hnamed.2.2]

theorem isPrekeyBundle_withPreKeys (b : Json) (remaining : List Json) :
    isPrekeyBundle (withPreKeys b remaining) = .ok true :=
  isPrekeyBundle_of_lookup (by rw [lookup_preKeys]; rfl)

theorem servable_withPreKeys {b : Json} (h : Servable b) (hb : isPrekeyBundle b = .ok true)
    (remaining : List Json) : Servable (withPreKeys b remaining) := by
  rcases h with hn | ⟨-, hcomplete, -⟩
  · rw [hn] at hb
    cases hb
  · refine .inr ⟨isPrekeyBundle_withPreKeys b remaining, fun key hkey => ?_, .inl ?_⟩
    · have hnamed : (∃ u ∈ js key, JSON.isDigit u = false) ∧ js key ≠ js "preKeys" ∧
          js key ≠ js "__proto__" := by
        simp only [List.mem_cons, List.not_mem_nil, or_false] at hkey
        rcases hkey with rfl | rfl | rfl <;> decide
      rw [field_eq_spread hnamed.1, lookup_withPreKeys hnamed.2.1 fun h => absurd h hnamed.2.2,
        ← field_eq_spread hnamed.1]
      exact hcomplete key hkey
    · rw [field_eq_spread (by decide), lookup_preKeys]
      rfl

/-- An accepted publication leaves its device with a bundle that can be served, and what is
stored of its prekeys are published prekeys. -/
def LeavesServable (c : Course) (t : Table) : Request → Prop :=
  IfPublishes c fun u d bundle => Servable (afterPublish (devices t (u, d)) bundle).bundle ∧
    ∀ k ∈ poolOf bundle, stored k ∈ poolOf bundle

instance (c : Course) (t : Table) (request : Request) :
    Decidable (LeavesServable c t request) :=
  inferInstanceAs (Decidable (IfPublishes c _ request))

/-- The one-time prekeys that have been published for the device. -/
def publishedKeys (c : Course) (u d : JsString) (log : Log) : List Json :=
  (log.filterMap (publicationOf c u d)).flatMap poolOf

/-- A bundle with prekeys has been published for the device. -/
def HasPublished (c : Course) (u d : JsString) (log : Log) : Prop :=
  ∃ x ∈ log, ∃ bundle ∈ publicationOf c u d x, isPrekeyBundle bundle = .ok true

instance (c : Course) (u d : JsString) (log : Log) : Decidable (HasPublished c u d log) :=
  inferInstanceAs (Decidable (∃ x ∈ log, ∃ bundle ∈ publicationOf c u d x, _))

/-- What a session keeps for one device. -/
structure Serviceable (c : Course) (u d : JsString) (log : Log) (old : Option Record) : Prop where
  servable : ∀ r, old = some r → Servable r.bundle
  pool : ∀ r, old = some r → ∀ k ∈ poolOf r.bundle, k ∈ publishedKeys c u d log
  published : HasPublished c u d log → ∃ r, old = some r ∧ isPrekeyBundle r.bundle = .ok true

theorem publishedKeys_append (c : Course) (u d : JsString) (log : Log)
    (x : Entry Request (List Answer) Table) : publishedKeys c u d (log ++ [x]) =
      publishedKeys c u d log ++ ((publicationOf c u d x).toList.flatMap poolOf) := by
  cases h : publicationOf c u d x <;>
    simp [publishedKeys, List.filterMap_append, h]

theorem hasPublished_append {c : Course} {u d : JsString} {log : Log}
    {x : Entry Request (List Answer) Table} (h : HasPublished c u d (log ++ [x])) :
    HasPublished c u d log ∨ ∃ bundle, publicationOf c u d x = some bundle ∧
      isPrekeyBundle bundle = .ok true := by
  obtain ⟨y, hy, bundle, hbundle, hb⟩ := h
  rcases List.mem_append.mp hy with hy | hy
  · exact .inl ⟨y, hy, bundle, hbundle, hb⟩
  · obtain rfl := List.mem_singleton.mp hy
    exact .inr ⟨bundle, hbundle, hb⟩

section Steps

variable {c : Course} {u d : JsString} {log : Log} {x : Entry Request (List Answer) Table}
  {old : Option Record}

/-- An entry that publishes nothing for the device and adds no prekey. -/
theorem Serviceable.keeps (h : Serviceable c u d log old) (hx : publicationOf c u d x = none)
    {new : Option Record} (hservable : ∀ r, new = some r → Servable r.bundle)
    (hpool : ∀ r, new = some r → ∀ k ∈ poolOf r.bundle,
      ∃ r₀, old = some r₀ ∧ k ∈ poolOf r₀.bundle)
    (hpublished : ∀ r, old = some r → isPrekeyBundle r.bundle = .ok true →
      ∃ r', new = some r' ∧ isPrekeyBundle r'.bundle = .ok true) :
    Serviceable c u d (log ++ [x]) new := by
  refine ⟨hservable, fun r hr k hk => ?_, fun hpub => ?_⟩
  · obtain ⟨r₀, hr₀, hk⟩ := hpool r hr k hk
    rw [publishedKeys_append]
    exact List.mem_append_left _ (h.pool r₀ hr₀ k hk)
  · rcases hasPublished_append hpub with hpub | ⟨bundle, hbundle, -⟩
    · obtain ⟨r, hr, hb⟩ := h.published hpub
      exact hpublished r hr hb
    · rw [hx] at hbundle
      cases hbundle

theorem Serviceable.publish (h : Serviceable c u d log old)
    (hold : ∀ r ∈ old, Storable r.bundle) {bundle : Json}
    (hx : publicationOf c u d x = some bundle)
    (hservable : Servable (afterPublish old bundle).bundle)
    (hkeys : ∀ k ∈ poolOf bundle, stored k ∈ poolOf bundle) :
    Serviceable c u d (log ++ [x]) (some (afterPublish old bundle)) := by
  refine ⟨?_, ?_, fun hpub => ⟨_, rfl, ?_⟩⟩
  · rintro r ⟨⟩
    exact hservable
  · rintro r ⟨⟩ k hk
    rw [publishedKeys_append, hx]
    have hnew : ∀ x ∈ poolOf bundle,
        stored x ∈ publishedKeys c u d log ++ (some bundle).toList.flatMap poolOf := by
      intro x hx
      refine List.mem_append_right _ ?_
      simpa using hkeys x hx
    cases old with
    | none =>
      rw [afterPublish, poolOf_stored] at hk
      obtain ⟨x, hx, rfl⟩ := List.mem_map.mp hk
      exact hnew x hx
    | some r =>
      rw [afterPublish, poolOf_stored] at hk
      obtain ⟨x, hx, rfl⟩ := List.mem_map.mp hk
      rcases poolOf_merge hx with hx | hx
      · exact hnew x hx
      · have hstorable : stored x = x := storable_arr.mp (storable_pool (hold r rfl)) x hx
        rw [hstorable]
        exact List.mem_append_left _ (h.pool r rfl x hx)
  · rcases hasPublished_append hpub with hpub | ⟨bundle', hbundle', hb⟩
    · obtain ⟨r, rfl, hr⟩ := h.published hpub
      have hsome := published_eq hr
      simp only [afterPublish, isPrekeyBundle_stored, isPrekeyBundle_merge]
      cases lookup (js "preKeys") (spread bundle) <;> simp [hsome]
    · obtain rfl := Option.some.inj (hx.symm.trans hbundle')
      cases old with
      | none =>
        rw [afterPublish, isPrekeyBundle_stored]
        exact hb
      | some r =>
        have hsome := published_eq hb
        simp [afterPublish, isPrekeyBundle_stored, isPrekeyBundle_merge, Option.isSome_or, hsome]

/-- A consumption only takes prekeys away. -/
theorem Servable.remaining {b : Json} (h : Servable b) (hs : Storable b)
    (hb : isPrekeyBundle b = .ok true) {result : PreKeyConsumptionResult}
    (hconsume : consumeOneTimePreKey b = .ok result)
    {remaining : List Json} (hstored : result.storedBundle = some (withPreKeys b remaining)) :
    ∀ k ∈ remaining, k ∈ poolOf b := by
  have hresult := h.consume hs hb
  rw [hconsume] at hresult
  cases hpool : poolOf b with
  | nil =>
    rw [hpool, Except.ok.injEq] at hresult
    rw [hresult] at hstored
    cases hstored
  | cons first rest =>
    rw [hpool, Except.ok.injEq] at hresult
    rw [hresult, Option.some.injEq] at hstored
    have hrest : rest = remaining := by
      have hpools := congrArg poolOf hstored
      simpa using hpools
    exact fun k hk => List.mem_cons_of_mem first (hrest ▸ hk)

end Steps

theorem Serviceable.step {c : Course} {n m : ℕ} {u d : JsString} {log : Log} {t' : Table}
    {request : Request} {answers : List Answer} {old new : Option Record}
    (h : Serviceable c u d log old) (hold : ∀ r ∈ old, Storable r.bundle)
    (hstep : DeviceStep c n m u d t' request answers old new)
    (hok : ∀ body bundle, request = .postPrekeys u body → PublishAccepted c body d bundle →
      Servable (afterPublish old bundle).bundle ∧
        ∀ k ∈ poolOf bundle, stored k ∈ poolOf bundle) :
    Serviceable c u d (log ++ [⟨request, n, m, answers, t'⟩]) new := by
  cases hstep with
  | other _ hpublication =>
    exact h.keeps hpublication h.servable (fun r hr k hk => ⟨r, hr, hk⟩)
      fun r hr hb => ⟨r, hr, hb⟩
  | @published body bundle _ _ accepted hpublication =>
    obtain ⟨hservable, hkeys⟩ := hok body bundle rfl accepted
    exact h.publish hold hpublication hservable hkeys
  | @consumed _ old result remaining hpublished hconsume hstored =>
    have hservable := h.servable old rfl
    have hs : Storable old.bundle := hold old rfl
    have hremaining := hservable.remaining hs hpublished hconsume hstored
    have hstorable : stored (withPreKeys old.bundle remaining) =
        withPreKeys old.bundle remaining :=
      storable_withPreKeys hs (storable_arr.mpr fun x hx =>
        storable_arr.mp (storable_pool hs) x (hremaining x hx))
    rw [afterConsumption, hstorable]
    refine h.keeps rfl ?_ ?_ ?_
    · rintro r ⟨⟩
      exact servable_withPreKeys hservable hpublished remaining
    · rintro r ⟨⟩ k hk
      rw [poolOf_withPreKeys] at hk
      exact ⟨old, rfl, hremaining k hk⟩
    · rintro r ⟨⟩ -
      exact ⟨_, rfl, isPrekeyBundle_withPreKeys old.bundle remaining⟩
  | @backedUp userId body _ _ k accepted hk hm hbackup rate =>
    have hbefore : Storable ((old.map Record.bundle).getD (.obj [])) := by
      cases old with
      | none => rfl
      | some r => exact hold r rfl
    rw [afterBackup, stored_withBackup hbefore]
    refine h.keeps rfl ?_ ?_ ?_
    · rintro r ⟨⟩
      refine servable_withBackup ?_ _
      cases old with
      | none => exact .inl rfl
      | some r => exact h.servable r rfl
    · rintro r ⟨⟩ k hk
      rw [poolOf_withBackup] at hk
      cases old with
      | none => cases hk
      | some r => exact ⟨r, rfl, hk⟩
    · rintro r ⟨⟩ hr
      exact ⟨_, rfl, isPrekeyBundle_backup hr _⟩

theorem session_serviceable {c : Course} {log : Log} {n : ℕ} {t : Table}
    (h : PrekeySession c (LeavesServable c) KeyedTable.empty log n t) (u d : JsString) :
    Serviceable c u d log (devices t (u, d)) := by
  induction h with
  | start =>
    refine ⟨fun r hr => (by cases hr), fun r hr => (by cases hr), ?_⟩
    rintro ⟨x, hx, -⟩
    cases hx
  | serve before hok served ih =>
    have ht := session_regular regular_empty before
    refine ih.step (fun r hr => devices_storable ht hr) ((serve_step ht served).device u d) ?_
    rintro body bundle rfl accepted
    exact IfPublishes.accepted hok accepted

/-- A bundle as an initiator needs it, with a prekey out of `keys` or with none. -/
structure WellServed (bundle : ClientBundle) (keys : List Json) : Prop where
  identityKey : bundle.identityKey ≠ .undefined
  registrationId : bundle.registrationId ≠ .undefined
  signedPreKey : bundle.signedPreKey ≠ .undefined
  single : bundle.preKeys.length ≤ 1
  published : ∀ k ∈ bundle.preKeys, k ∈ keys

theorem Servable.wellServed {b : Json} (h : Servable b) (hs : Storable b)
    (hb : isPrekeyBundle b = .ok true) {keys : List Json} (hkeys : ∀ k ∈ poolOf b, k ∈ keys)
    {result : PreKeyConsumptionResult}
    (hresult : consumeOneTimePreKey b = .ok result) : WellServed result.clientBundle keys := by
  have hconsume := h.consume hs hb
  rw [hresult, Except.ok.injEq] at hconsume
  rcases h with hn | ⟨-, hcomplete, -⟩
  · rw [hn] at hb
    cases hb
  · have hidentity := hcomplete "identityKey" (by simp)
    have hregistration := hcomplete "registrationId" (by simp)
    have hsigned := hcomplete "signedPreKey" (by simp)
    cases hpool : poolOf b with
    | nil =>
      rw [hpool] at hconsume
      rw [hconsume]
      exact ⟨hidentity, hregistration, hsigned, by simp [clientBundle], by simp [clientBundle]⟩
    | cons k ks =>
      rw [hpool] at hconsume hkeys
      rw [hconsume]
      exact ⟨hidentity, hregistration, hsigned, by simp [clientBundle],
        by simpa [clientBundle] using hkeys k List.mem_cons_self⟩

/-- In a session all of whose publications leave bundles that can be served, and while the
database works, the next `getPrekeyBundle` is answered: with 'no bundle' as long as the user
has published none on any device, or with a complete bundle and at most one of the prekeys
that were published for its device. -/
theorem published_served (c : Course) {log : Log} {n : ℕ} {t : Table}
    (h : PrekeySession c (LeavesServable c) KeyedTable.empty log n t) {u : JsString}
    (hu : u ≠ []) (hcalm : ∀ k, n ≤ k → (c.conditions k).failure = none) :
    ∃ answer m t', serve c.conditions (.getPrekeyBundle u) n t = some ([answer], m, t') ∧
      ((answer = .next (.apiError 404 "No prekey bundle found for user") ∧
          ∀ d, ¬ HasPublished c u d log) ∨
        ∃ d bundle, answer = .bundle u d bundle ∧
          WellServed bundle (publishedKeys c u d log)) := by
  have ht : Regular t := session_regular regular_empty h
  have hrows : ∀ r ∈ listing u t.rows, Servable r.bundle ∧ r ∈ t.rows ∧ r.userId = u := by
    intro r hr
    obtain ⟨hmem, rfl⟩ := mem_listing.mp hr
    have hrec := devices_of_mem ht hmem
    exact ⟨(session_serviceable h r.userId r.deviceId).servable _ hrec, hmem, rfl⟩
  obtain ⟨chosen, hchosen, hnone⟩ := chosenBundle_servable (fun r hr => (hrows r hr).1)
    fun r hr => ht.storable r (hrows r hr).2.1
  obtain ⟨answers, m, t', hserve⟩ := serve_total c (.getPrekeyBundle u) n ht
  cases (getPrekeyBundle_serves c.conditions u n ht).apply hserve with
  | refused _ reason =>
    cases reason with
    | unnamed h => exact absurd h hu
    | failed hk h => exact absurd (hcalm _ hk) h
    | unchosen hx =>
      rw [hchosen] at hx
      cases hx
    | unconsumed hr hx =>
      obtain ⟨hlisted, hpublished⟩ := chosenBundle_some hr
      obtain ⟨hservable, hmem, -⟩ := hrows _ hlisted
      rw [hservable.consume (ht.storable _ hmem) hpublished] at hx
      cases hx
  | missing hmissing =>
    refine ⟨_, m, t, hserve, .inl ⟨rfl, fun d hpub => ?_⟩⟩
    rw [hchosen, Except.ok.injEq] at hmissing
    obtain ⟨rec, hrec, hb⟩ := (session_serviceable h u d).published hpub
    obtain ⟨r, hrow, rfl⟩ := Option.map_eq_some_iff.mp hrec
    obtain ⟨hr, hpair⟩ := (deviceRow_eq_some ht).mp hrow
    have hlisted : r ∈ listing u t.rows := mem_listing.mpr ⟨hr, congrArg Prod.fst hpair⟩
    have hno := hnone hmissing r hlisted
    rw [record] at hb
    rw [hno] at hb
    cases hb
  | @served r result _ hr hconsume _ =>
    obtain ⟨hlisted, hpublished⟩ := chosenBundle_some hr
    obtain ⟨hservable, hmem, rfl⟩ := hrows r hlisted
    refine ⟨_, m, t', hserve, .inr ⟨r.deviceId, result.clientBundle, rfl, ?_⟩⟩
    have hkeys := (session_serviceable h r.userId r.deviceId).pool _ (devices_of_mem ht hmem)
    exact hservable.wellServed (ht.storable r hmem) hpublished hkeys hconsume

/-- A complete bundle with these prekeys. -/
def completeWith (preKeys : List Json) : Json :=
  .obj [(js "identityKey", .str (js "idk")), (js "registrationId", .num (.finite 7)),
    (js "signedPreKey", .obj [(js "publicKey", .str (js "spk"))]), (js "preKeys", .arr preKeys)]

def completeBundle : Json := completeWith [PrekeyConservation.prekey "a"]

/-- A complete bundle for the laptop, and then another one for the phone. -/
def publishedFor (phone : Json) (ok : Table → Request → Prop)
    [∀ t request, Decidable (ok t request)] : Log × ℕ × Table :=
  sessionOf (serve steady.conditions) ok KeyedTable.empty
    [.postPrekeys (js "bob") (publication "laptop" completeBundle),
      .postPrekeys (js "bob") (publication "phone" phone)]

/-- The bundle of the phone is an empty array, which is no published bundle. -/
def served : Log × ℕ × Table := publishedFor (.arr []) (LeavesServable steady)

theorem served_laptop :
    served.1.map (fun x => x.answer.map Answer.status) = [[200], [200]] ∧
      ∃ answer m t', serve steady.conditions (.getPrekeyBundle (js "bob")) served.2.1 served.2.2 =
          some ([answer], m, t') ∧
        ((answer = .next (.apiError 404 "No prekey bundle found for user") ∧
            ∀ d, ¬ HasPublished steady (js "bob") d served.1) ∨
          ∃ d bundle, answer = .bundle (js "bob") d bundle ∧
            WellServed bundle (publishedKeys steady (js "bob") d served.1)) :=
  ⟨by decide +kernel,
    published_served steady (session_sessionOf _) (by decide) fun _ _ => rfl⟩

/-- The bundle of the phone has prekeys that are `null`. -/
def blocked : Log × ℕ × Table := publishedFor (.obj [(js "preKeys", .null)]) AnyRequest

/-- The bundle of the phone is complete, and its prekey is a number beyond all doubles. -/
def infinite : Log × ℕ × Table :=
  publishedFor (completeWith [.num (.infinite false)]) AnyRequest

theorem blocked_laptop :
    PrekeySession steady AnyRequest KeyedTable.empty blocked.1 blocked.2.1 blocked.2.2 ∧
      blocked.1.map (fun x => x.answer.map Answer.status) = [[200], [200]] ∧
      HasPublished steady (js "bob") (js "laptop") blocked.1 ∧
      (¬ ∃ answer m t', serve steady.conditions (.getPrekeyBundle (js "bob")) blocked.2.1
          blocked.2.2 = some ([answer], m, t') ∧
        (answer = .next (.apiError 404 "No prekey bundle found for user") ∨
          ∃ d bundle, answer = .bundle (js "bob") d bundle)) ∧
      PrekeySession steady AnyRequest KeyedTable.empty infinite.1 infinite.2.1 infinite.2.2 ∧
      infinite.1.map (fun x => x.answer.map Answer.status) = [[200], [200]] ∧
      ¬ ∃ answer m t', serve steady.conditions (.getPrekeyBundle (js "bob")) infinite.2.1
          infinite.2.2 = some ([answer], m, t') ∧
        (answer = .next (.apiError 404 "No prekey bundle found for user") ∨
          ∃ d bundle, answer = .bundle (js "bob") d bundle ∧
            WellServed bundle (publishedKeys steady (js "bob") d infinite.1)) := by
  have hthrows : (serve steady.conditions (.getPrekeyBundle (js "bob")) blocked.2.1
      blocked.2.2).map Prod.fst = some [.next (Value.accessError (.json .null) "length")] := by
    decide +kernel
  have hnull : (serve steady.conditions (.getPrekeyBundle (js "bob")) infinite.2.1
      infinite.2.2).map Prod.fst = some [.bundle (js "bob") (js "phone")
        (clientBundle (completeWith []) [.null])] := by
    decide +kernel
  have hunpublished : .null ∉ publishedKeys steady (js "bob") (js "phone") infinite.1 := by
    decide +kernel
  refine ⟨session_sessionOf _, by decide +kernel, by decide +kernel, ?_, session_sessionOf _,
    by decide +kernel, ?_⟩
  · rintro ⟨answer, m, t', hserve, hanswer⟩
    rw [hserve] at hthrows
    obtain rfl : answer = .next (Value.accessError (.json .null) "length") := by
      simpa using hthrows
    rcases hanswer with h | ⟨d, bundle, h⟩
    · cases h
    · cases h
  · rintro ⟨answer, m, t', hserve, hanswer⟩
    rw [hserve] at hnull
    obtain rfl := List.head_eq_of_cons_eq (Option.some.inj hnull)
    rcases hanswer with h | ⟨d, bundle, h, hserved⟩
    · cases h
    · cases h
      exact hunpublished (hserved.published .null List.mem_cons_self)

end ChatMicroservices.PublishedBundles
