import ChatMicroservices.BundleOutcomes

/-!
# What `getPrekeyBundle` reveals

Two tables that agree on the public part of their rows, with the first prekeys of each pool,
are compared under any course of failures. As many requests as there are common prekeys get
the same answers from both, so nothing else of a row reaches a client.
-/

namespace ChatMicroservices.BundleConfidentiality
open JavaScriptValues JavaScriptOperators JsonColumns EffectPrograms SequentialPrograms KeyedTables
open PrekeyBundles PrekeyDatabase PrekeyController PrekeyPools PrekeyProtocol PrekeyHandOut
open PrekeyConservation PrekeyRequests BundleOutcomes

/-- What initiators may learn of a row in `k` requests. -/
structure Agree (k : ℕ) (r r' : Prekey) : Prop where
  userId : r'.userId = r.userId
  deviceId : r'.deviceId = r.deviceId
  published : isPrekeyBundle r'.bundle = isPrekeyBundle r.bundle
  identity : isPrekeyBundle r.bundle = .ok true →
    clientBundle r'.bundle [] = clientBundle r.bundle []
  pool : isPrekeyBundle r.bundle = .ok true →
    (poolOf r'.bundle).take k = (poolOf r.bundle).take k

/-- Tables of well-formed rows that agree in the listing of every user. -/
structure Agreeing (k : ℕ) (t t' : Table) : Prop where
  wellFormed : ∀ r ∈ t.rows, WellFormed r.bundle
  wellFormed' : ∀ r ∈ t'.rows, WellFormed r.bundle
  rows : ∀ u, List.Forall₂ (Agree k) (listing u t.rows) (listing u t'.rows)

theorem Agree.weaken {k : ℕ} {r r' : Prekey} (h : Agree (k + 1) r r') : Agree k r r' := by
  refine ⟨h.userId, h.deviceId, h.published, h.identity, fun hb => ?_⟩
  have hpool := congrArg (List.take k) (h.pool hb)
  rwa [List.take_take, List.take_take, min_eq_left (by omega)] at hpool

theorem Agreeing.weaken {k : ℕ} {t t' : Table} (h : Agreeing (k + 1) t t') : Agreeing k t t' :=
  ⟨h.wellFormed, h.wellFormed', fun u => (h.rows u).imp fun _ _ hr => hr.weaken⟩

theorem Agree.published_eq {k : ℕ} {r r' : Prekey} (h : Agree k r r') :
    Published r' = Published r := by
  rw [Published, Published, h.published]

section Rows

variable {k : ℕ} {r r' : Prekey}

/-- Both pools are empty, or both start with the same prekey. -/
theorem Agree.pools (h : Agree (k + 1) r r') (hb : isPrekeyBundle r.bundle = .ok true) :
    (poolOf r.bundle = [] ∧ poolOf r'.bundle = []) ∨
      ∃ x xs xs', poolOf r.bundle = x :: xs ∧ poolOf r'.bundle = x :: xs' ∧
        xs'.take k = xs.take k := by
  have hpool := h.pool hb
  cases hp : poolOf r.bundle with
  | nil =>
    cases hp' : poolOf r'.bundle with
    | nil => exact .inl ⟨rfl, rfl⟩
    | cons x' xs' => simp [hp, hp'] at hpool
  | cons x xs =>
    cases hp' : poolOf r'.bundle with
    | nil => simp [hp, hp'] at hpool
    | cons x' xs' =>
      rw [hp, hp', List.take_succ_cons, List.take_succ_cons, List.cons.injEq] at hpool
      exact .inr ⟨x, xs, xs', rfl, hpool.1 ▸ rfl, hpool.2⟩

theorem Agree.stocked_eq (h : Agree (k + 1) r r') (hwf : WellFormed r.bundle)
    (hwf' : WellFormed r'.bundle) : Stocked r' = Stocked r := by
  by_cases hb : isPrekeyBundle r.bundle = .ok true
  · rcases h.pools hb with ⟨hp, hp'⟩ | ⟨x, xs, xs', hp, hp', -⟩
    · simp [Stocked, hp, hp']
    · simp [Stocked, hp, hp']
  · have hb' : isPrekeyBundle r'.bundle ≠ .ok true := h.published ▸ hb
    have hp : poolOf r.bundle = [] := by
      by_contra hne
      exact hb (hwf.published hne)
    have hp' : poolOf r'.bundle = [] := by
      by_contra hne
      exact hb' (hwf'.published hne)
    simp [Stocked, hp, hp']

theorem Agree.clientBundle_eq (h : Agree k r r') (hb : isPrekeyBundle r.bundle = .ok true)
    (preKeys : List Json) : clientBundle r'.bundle preKeys = clientBundle r.bundle preKeys :=
  congrArg (fun bundle : ClientBundle => { bundle with preKeys := preKeys }) (h.identity hb)

/-- The identity material of a bundle is not in its prekeys. -/
theorem clientBundle_withPreKeys (b : Json) (ys : List Json) :
    clientBundle (withPreKeys b ys) [] = clientBundle b [] := by
  have hkeep : ∀ key : String, js key ≠ js "preKeys" ∧ js key ≠ js "__proto__" ∧
      (∃ u ∈ js key, JSON.isDigit u = false) →
        (Value.json (withPreKeys b ys)).field key = (Value.json b).field key := by
    rintro key ⟨hne, hproto, hnamed⟩
    rw [field_eq_spread hnamed, field_eq_spread hnamed,
      lookup_withPreKeys hne fun h => absurd h hproto]
  rw [clientBundle, clientBundle, hkeep "identityKey" (by decide),
    hkeep "registrationId" (by decide), hkeep "signedPreKey" (by decide)]

/-- Consumption on both sides leaves rows that agree on one prekey less. -/
theorem Agree.consume (h : Agree (k + 1) r r') (hb : isPrekeyBundle r.bundle = .ok true)
    {xs xs' : List Json} (hwf : WellFormed (withPreKeys r.bundle xs))
    (hwf' : WellFormed (withPreKeys r'.bundle xs')) (hxs : xs'.take k = xs.take k) (now : ℕ) :
    Agree k ((consumption r xs).apply now r) ((consumption r' xs').apply now r') := by
  have hbundle : ((consumption r xs).apply now r).bundle = withPreKeys r.bundle xs :=
    hwf.storable
  have hbundle' : ((consumption r' xs').apply now r').bundle = withPreKeys r'.bundle xs' :=
    hwf'.storable
  have hpublished : ∀ b ys, isPrekeyBundle (withPreKeys b ys) = .ok true :=
    fun b ys => isPrekeyBundle_of_lookup (by rw [lookup_preKeys]; rfl)
  refine ⟨h.userId, h.deviceId, ?_, fun _ => ?_, fun _ => ?_⟩
  · rw [hbundle, hbundle', hpublished, hpublished]
  · rw [hbundle, hbundle', clientBundle_withPreKeys, clientBundle_withPreKeys, h.identity hb]
  · rw [hbundle, hbundle', poolOf_withPreKeys, poolOf_withPreKeys]
    exact hxs

end Rows

section Listings

variable {k : ℕ} {l l' : List Prekey}

theorem find_published (h : List.Forall₂ (Agree k) l l') :
    Option.Rel (Agree k) (l.find? Published) (l'.find? Published) := by
  induction h with
  | nil => exact .none
  | @cons r r' l l' hr _ ih =>
    rw [List.find?_cons, List.find?_cons, hr.published_eq]
    cases Published r with
    | true => exact .some hr
    | false => exact ih

/-- Change the row with one id. -/
def changeRow (id : JsString) (f : Prekey → Prekey) (r : Prekey) : Prekey :=
  if r.id = id then f r else r

theorem map_changeRow_of_not_mem {id : JsString} {f : Prekey → Prekey}
    (h : id ∉ l.map Prekey.id) : l.map (changeRow id f) = l := by
  refine (List.map_congr_left fun r hr => ?_).trans (List.map_id l)
  exact if_neg fun hid : r.id = id => h (hid ▸ List.mem_map_of_mem hr)

/-- The first row with a prekey is at the same place in both listings, and a change of these
two rows that keeps them in agreement keeps the listings in agreement. -/
theorem find_stocked (h : List.Forall₂ (Agree (k + 1)) l l')
    (hwf : ∀ r ∈ l, WellFormed r.bundle) (hwf' : ∀ r ∈ l', WellFormed r.bundle)
    (hids : (l.map Prekey.id).Nodup) (hids' : (l'.map Prekey.id).Nodup) :
    (l.find? Stocked = none ∧ l'.find? Stocked = none) ∨
      ∃ r r', l.find? Stocked = some r ∧ l'.find? Stocked = some r' ∧ Agree (k + 1) r r' ∧
        ∀ f f', Agree k (f r) (f' r') →
          List.Forall₂ (Agree k) (l.map (changeRow r.id f)) (l'.map (changeRow r'.id f')) := by
  induction h with
  | nil => exact .inl ⟨rfl, rfl⟩
  | @cons r r' l l' hr hrest ih =>
    have hstocked := hr.stocked_eq (hwf r List.mem_cons_self) (hwf' r' List.mem_cons_self)
    rw [List.map_cons, List.nodup_cons] at hids hids'
    rw [List.find?_cons, List.find?_cons, hstocked]
    cases Stocked r with
    | true =>
      refine .inr ⟨r, r', rfl, rfl, hr, fun f f' hf => ?_⟩
      rw [List.map_cons, List.map_cons, map_changeRow_of_not_mem hids.1,
        map_changeRow_of_not_mem hids'.1]
      refine .cons ?_ (hrest.imp fun _ _ h => h.weaken)
      rwa [changeRow, changeRow, if_pos rfl, if_pos rfl]
    | false =>
      rcases ih (fun s hs => hwf s (List.mem_cons_of_mem r hs))
        (fun s hs => hwf' s (List.mem_cons_of_mem r' hs)) hids.2 hids'.2 with
        hnone | ⟨s, s', hs, hs', hagree, hchange⟩
      · exact .inl hnone
      · refine .inr ⟨s, s', hs, hs', hagree, fun f f' hf => .cons ?_ (hchange f f' hf)⟩
        have hne : r.id ≠ s.id := fun heq =>
          hids.1 (heq ▸ List.mem_map_of_mem (List.mem_of_find?_eq_some hs))
        have hne' : r'.id ≠ s'.id := fun heq =>
          hids'.1 (heq ▸ List.mem_map_of_mem (List.mem_of_find?_eq_some hs'))
        rw [changeRow, changeRow, if_neg hne, if_neg hne']
        exact hr.weaken

end Listings

/-- After the consumption on both sides the tables agree on one prekey less. -/
theorem Agreeing.consume {k : ℕ} {t t' : Table} {u : JsString} {r r' : Prekey}
    (h : Agreeing (k + 1) t t') (hr : r ∈ t.rows) (hr' : r' ∈ t'.rows) (hu : r.userId = u)
    (hu' : r'.userId = u) {xs xs' : List Json} (hxs : WellFormed (withPreKeys r.bundle xs))
    (hxs' : WellFormed (withPreKeys r'.bundle xs')) (now : ℕ)
    (hrows : List.Forall₂ (Agree k)
      ((listing u t.rows).map (changeRow r.id ((consumption r xs).apply now)))
      ((listing u t'.rows).map (changeRow r'.id ((consumption r' xs').apply now)))) :
    Agreeing k ((Write.update r.id (consumption r xs) now).apply t)
      ((Write.update r'.id (consumption r' xs') now).apply t') := by
  have hwf : ∀ {t : Table} {r : Prekey} {xs : List Json}, (∀ r ∈ t.rows, WellFormed r.bundle) →
      WellFormed (withPreKeys r.bundle xs) →
      ∀ s ∈ ((Write.update r.id (consumption r xs) now).apply t).rows, WellFormed s.bundle := by
    intro t r xs ht hxs s hs
    rw [update_rows, List.mem_map] at hs
    obtain ⟨s₀, hs₀, rfl⟩ := hs
    split
    · change WellFormed (stored (withPreKeys r.bundle xs))
      have hstorable : stored (withPreKeys r.bundle xs) = withPreKeys r.bundle xs := hxs.storable
      rwa [hstorable]
    · exact ht s₀ hs₀
  refine ⟨hwf h.wellFormed hxs, hwf h.wellFormed' hxs', fun v => ?_⟩
  rw [listing_update, listing_update]
  by_cases hv : v = u
  · exact hv ▸ hrows
  · -- the rows of another user do not change
    have hother : ∀ {t : Table} {r : Prekey}, r ∈ t.rows → r.userId = u →
        r.id ∉ (listing v t.rows).map Prekey.id := by
      intro t r hr hu hid
      obtain ⟨s, hs, hid⟩ := List.mem_map.mp hid
      obtain ⟨hs, hsv⟩ := mem_listing.mp hs
      obtain rfl := t.eq_of_key_eq hs hr hid
      exact hv (hsv.symm.trans hu)
    have hmap := map_changeRow_of_not_mem (f := (consumption r xs).apply now) (hother hr hu)
    have hmap' := map_changeRow_of_not_mem (f := (consumption r' xs').apply now) (hother hr' hu')
    unfold changeRow at hmap hmap'
    rw [hmap, hmap']
    exact (h.rows v).imp fun _ _ hs => hs.weaken

/-- Both requests have given the same answer, with at most one prekey, and the tables agree
on `k` prekeys. -/
structure Same (k : ℕ) (s s' : Database Unit) : Prop where
  answers : s'.answers () = s.answers ()
  few : (handedOut (s.answers ())).length ≤ 1
  tables : Agreeing k s.prekeys s'.prekeys

/-- The outcome of the `try` block in both runs: the same exception, with nothing changed,
or the same answer. -/
def Twin (k : ℕ) (t t' : Table) : Except JsError Unit → Database Unit → Except JsError Unit →
    Database Unit → Prop
  | .ok _, s, .ok _, s' => Same k s s'
  | .error x, s, .error x', s' => x' = x ∧ s.prekeys = t ∧ s'.prekeys = t' ∧
    s.answers () = [] ∧ s'.answers () = []
  | .ok _, _, .error _, _ | .error _, _, .ok _, _ => False

section Runs

variable {e : ℕ → Conditions} {k n : ℕ} {t t' : Table} {s s' : Database Unit}

theorem alike_commit {writes writes' : List Write} {f f' : Unit → Handler Unit}
    (hs : InTransaction t writes s) (hs' : InTransaction t' writes' s')
    (hok : ∀ v v', v.prekeys = writes.foldl (fun t w => w.apply t) t → v.answers () = [] →
      v'.prekeys = writes'.foldl (fun t w => w.apply t) t' → v'.answers () = [] →
      Alike alone e (Twin k t t') (f ()) v (f' ()) v' (n + 1)) :
    Alike alone e (Twin k t t') ((Program.attempt (perform .commitTransaction)).bind f) s
      ((Program.attempt (perform .commitTransaction)).bind f') s' n := by
  cases hf : (e n).failure with
  | some x =>
    refine ⟨.error x, s.endTransaction (), .error x, s'.endTransaction (), ?_, ?_,
      rfl, hs.prekeys, hs'.prekeys, hs.unanswered, hs'.unanswered⟩
    · simp [alone, exec, hs.pending, hf]
    · simp [alone, exec, hs'.pending, hf]
  | none =>
    refine ⟨.ok (), s.commit (), .ok (), s'.commit (), ?_, ?_,
      hok _ _ ?_ hs.unanswered ?_ hs'.unanswered⟩
    · simp [alone, exec, hs.pending, hf]
    · simp [alone, exec, hs'.pending, hf]
    · simp [Database.commit, Database.view, hs.pending, hs.prekeys]
    · simp [Database.commit, Database.view, hs'.pending, hs'.prekeys]

/-- Both runs commit and give the same answer. -/
theorem alike_answer {writes writes' : List Write} {a : Answer}
    (hs : InTransaction t writes s) (hs' : InTransaction t' writes' s')
    (ha : (handedOut [a]).length ≤ 1)
    (hagree : Agreeing k (writes.foldl (fun t w => w.apply t) t)
      (writes'.foldl (fun t w => w.apply t) t')) :
    Alike alone e (Twin k t t')
      ((Program.attempt (perform .commitTransaction)).bind fun _ => perform (.respond a)) s
      ((Program.attempt (perform .commitTransaction)).bind fun _ => perform (.respond a)) s' n := by
  refine alike_commit hs hs' fun v v' hv hanswers hv' hanswers' => ?_
  have hanswer := respond_unanswered hanswers a
  have hanswer' := respond_unanswered hanswers' a
  refine ⟨(), v.respond () a, (), v'.respond () a, rfl, rfl, ⟨?_, ?_, ?_⟩⟩
  · rw [hanswer, hanswer']
  · rw [hanswer]
    exact ha
  · rw [respond_prekeys, respond_prekeys, hv, hv']
    exact hagree

/-- Both runs save what is left of the pools of related rows. -/
theorem alike_save {r r' : Prekey} {x : Json} {xs xs' : List Json} {f f' : Unit → Handler Unit}
    (hs : InTransaction t [] s) (hs' : InTransaction t' [] s') (hr : r ∈ t.rows)
    (hr' : r' ∈ t'.rows) (hpool : poolOf r.bundle = x :: xs) (hpool' : poolOf r'.bundle = x :: xs')
    (hok : ∀ now v v', InTransaction t [.update r.id (consumption r xs) now] v →
      InTransaction t' [.update r'.id (consumption r' xs') now] v' →
      Alike alone e (Twin k t t') (f ()) v (f' ()) v' (n + 2)) :
    Alike alone e (Twin k t t')
      ((save .queryRunner { r with bundle := withPreKeys r.bundle xs }).bind f) s
      ((save .queryRunner { r' with bundle := withPreKeys r'.bundle xs' }).bind f') s' n := by
  have hfind : ∀ {t : Table} {s : Database Unit} {r : Prekey}, InTransaction t [] s → r ∈ t.rows →
      (s.view () .queryRunner).find r.id = some r := by
    intro t s r hs hr
    rw [hs.view]
    exact KeyedTable.find_eq_some.mpr ⟨hr, rfl⟩
  have hne : ∀ (r : Prekey) (xs : List Json), consumption r xs ≠ PrekeyChanges.none := by
    intro r xs
    simp [consumption, PrekeyChanges.none]
  refine ⟨(e n).outcome (some r), s, (e n).outcome (some r'), s', ?_, ?_, ?_⟩
  · simp only [alone, exec, hfind hs hr]
  · simp only [alone, exec, hfind hs' hr']
  · cases hf : (e n).failure with
    | some y =>
      simp only [Conditions.outcome, hf]
      exact ⟨rfl, hs.prekeys, hs'.prekeys, hs.unanswered, hs'.unanswered⟩
    | none =>
      simp only [Conditions.outcome, hf, Program.bind_ok, changesFrom_consumed hpool,
        changesFrom_consumed hpool', if_neg (hne r xs), if_neg (hne r' xs')]
      cases hf' : (e (n + 1)).failure with
      | some y =>
        refine ⟨.error y, s, .error y, s', ?_, ?_,
          rfl, hs.prekeys, hs'.prekeys, hs.unanswered, hs'.unanswered⟩
        · simp [alone, exec, hf']
        · simp [alone, exec, hf']
      | none =>
        refine ⟨.ok (), _, .ok (), _, ?_, ?_,
          hok (e (n + 1)).now _ _ (hs.write _) (hs'.write _)⟩
        · simp [alone, exec, hf', available, changesFrom_consumed hpool]
        · simp [alone, exec, hf', available, changesFrom_consumed hpool']

theorem noBundle_alike (h : Agreeing (k + 1) t t') (hs : InTransaction t [] s)
    (hs' : InTransaction t' [] s') : Alike alone e (Twin k t t') noBundle s noBundle s' n :=
  alike_answer hs hs' (by simp [handedOut]) h.weaken

/-- The rows that are chosen in two related listings. -/
structure Chosen (k : ℕ) (l l' : List Prekey) (r r' : Prekey) : Prop where
  chosen : chosenBundle l = .ok (some r)
  chosen' : chosenBundle l' = .ok (some r')
  agree : Agree (k + 1) r r'
  change : poolOf r.bundle ≠ [] → ∀ f f', Agree k (f r) (f' r') →
    List.Forall₂ (Agree k) (l.map (changeRow r.id f)) (l'.map (changeRow r'.id f'))

theorem chosenBundle_alike {l l' : List Prekey} (h : List.Forall₂ (Agree (k + 1)) l l')
    (hwf : ∀ r ∈ l, WellFormed r.bundle) (hwf' : ∀ r ∈ l', WellFormed r.bundle)
    (hids : (l.map Prekey.id).Nodup) (hids' : (l'.map Prekey.id).Nodup) :
    (chosenBundle l = .ok none ∧ chosenBundle l' = .ok none) ∨ ∃ r r', Chosen k l l' r r' := by
  have hchosen := chosenBundle_wellFormed hwf
  have hchosen' := chosenBundle_wellFormed hwf'
  rcases find_stocked h hwf hwf' hids hids' with ⟨hn, hn'⟩ | ⟨r, r', hr, hr', hagree, hchange⟩
  · rw [hn, Option.none_or] at hchosen
    rw [hn', Option.none_or] at hchosen'
    have hfound := find_published h
    cases hp : l.find? Published with
    | none =>
      rw [hp] at hfound hchosen
      cases hp' : l'.find? Published with
      | none => exact .inl ⟨hchosen, hp' ▸ hchosen'⟩
      | some r' =>
        rw [hp'] at hfound
        cases hfound
    | some r =>
      rw [hp] at hfound hchosen
      cases hp' : l'.find? Published with
      | none =>
        rw [hp'] at hfound
        cases hfound
      | some r' =>
        rw [hp'] at hfound hchosen'
        have hagree : Agree (k + 1) r r' := Option.rel_some_some.mp hfound
        refine .inr ⟨r, r', hchosen, hchosen', hagree, fun hpool => ?_⟩
        have hunstocked := List.find?_eq_none.mp hn r (List.mem_of_find?_eq_some hp)
        exact absurd (by simpa [Stocked] using hpool) hunstocked
  · rw [hr, Option.some_or] at hchosen
    rw [hr', Option.some_or] at hchosen'
    exact .inr ⟨r, r', hchosen, hchosen', hagree, fun _ => hchange⟩

theorem consumeFrom_alike {u : JsString} {r r' : Prekey} (h : Agreeing (k + 1) t t')
    (hs : InTransaction t [] s) (hs' : InTransaction t' [] s')
    (hc : Chosen k (listing u t.rows) (listing u t'.rows) r r') :
    Alike alone e (Twin k t t') (consumeFrom r) s (consumeFrom r') s' n := by
  obtain ⟨hlisted, hb⟩ := chosenBundle_some hc.chosen
  obtain ⟨hlisted', hb'⟩ := chosenBundle_some hc.chosen'
  obtain ⟨hr, hu⟩ := mem_listing.mp hlisted
  obtain ⟨hr', hu'⟩ := mem_listing.mp hlisted'
  have hresult := consumeOneTimePreKey_eq (h.wellFormed r hr) hb
  have hresult' := consumeOneTimePreKey_eq (h.wellFormed' r' hr') hb'
  unfold consumeFrom
  rcases hc.agree.pools hb with ⟨hp, hp'⟩ | ⟨x, xs, xs', hp, hp', hxs⟩
  · rw [hp] at hresult
    rw [hp'] at hresult'
    simp only [hresult, hresult', sync, Program.bind_eq, Program.bind_ok]
    rw [hc.agree.clientBundle_eq hb, respondBundle, respondBundle, hc.agree.userId,
      hc.agree.deviceId]
    exact alike_answer hs hs' (by simp [handedOut, clientBundle]) h.weaken
  · rw [hp] at hresult
    rw [hp'] at hresult'
    simp only [hresult, hresult', sync, Program.bind_eq, Program.bind_ok]
    refine alike_save hs hs' hr hr' hp hp' fun now v v' hv hv' => ?_
    rw [hc.agree.clientBundle_eq hb, respondBundle, respondBundle, hc.agree.userId,
      hc.agree.deviceId]
    refine alike_answer hv hv' (by simp [handedOut, clientBundle]) ?_
    have hwf := (h.wellFormed r hr).consumed hp
    have hwf' := (h.wellFormed' r' hr').consumed hp'
    exact h.consume hr hr' hu hu' hwf hwf' now
      (hc.change (by simp [hp]) _ _ (hc.agree.consume hb hwf hwf' hxs now))

theorem locked_alike (u : JsString) (h : Agreeing (k + 1) t t') (hs : InTransaction t [] s)
    (hs' : InTransaction t' [] s') :
    Alike alone e (Twin k t t')
      (if listing u t.rows = [] then noBundle
      else (sync (chosenBundle (listing u t.rows))).bind fun chosen =>
        match chosen with
        | none => noBundle
        | some chosen => (sync (isPrekeyBundle chosen.bundle)).bind fun published =>
          if published then consumeFrom chosen else noBundle) s
      (if listing u t'.rows = [] then noBundle
      else (sync (chosenBundle (listing u t'.rows))).bind fun chosen =>
        match chosen with
        | none => noBundle
        | some chosen => (sync (isPrekeyBundle chosen.bundle)).bind fun published =>
          if published then consumeFrom chosen else noBundle) s' n := by
  have hrows := h.rows u
  by_cases hempty : listing u t.rows = []
  · have hempty' : listing u t'.rows = [] := by
      rwa [hempty, List.forall₂_nil_left_iff] at hrows
    rw [if_pos hempty, if_pos hempty']
    exact noBundle_alike h hs hs'
  · have hempty' : listing u t'.rows ≠ [] := by
      intro hnil
      rw [hnil, List.forall₂_nil_right_iff] at hrows
      exact hempty hrows
    rw [if_neg hempty, if_neg hempty']
    have hwf : ∀ r ∈ listing u t.rows, WellFormed r.bundle :=
      fun r hr => h.wellFormed r (mem_listing.mp hr).1
    have hwf' : ∀ r ∈ listing u t'.rows, WellFormed r.bundle :=
      fun r hr => h.wellFormed' r (mem_listing.mp hr).1
    rcases chosenBundle_alike hrows hwf hwf' (listing_ids_nodup u) (listing_ids_nodup u) with
      ⟨hnone, hnone'⟩ | ⟨r, r', hc⟩
    · simp only [hnone, hnone', sync, Program.bind_ok]
      exact noBundle_alike h hs hs'
    · simp only [hc.chosen, hc.chosen', sync, Program.bind_ok, (chosenBundle_some hc.chosen).2,
        (chosenBundle_some hc.chosen').2, if_true]
      exact consumeFrom_alike h hs hs' hc

theorem handOut_alike (u : JsString) (h : Agreeing (k + 1) t t') (hs : InTransaction t [] s)
    (hs' : InTransaction t' [] s') :
    Alike alone e (Twin k t t') (handOut u) s (handOut u) s' n := by
  cases hf : (e n).failure with
  | some x =>
    refine ⟨.error x, s, .error x, s', ?_, ?_,
      rfl, hs.prekeys, hs'.prekeys, hs.unanswered, hs'.unanswered⟩
    · simp [alone, exec, hf]
    · simp [alone, exec, hf]
  | none =>
    refine ⟨.ok (listing u t.rows),
      { s with locks := s.locks.acquire () ((listing u t.rows).map Prekey.id) },
      .ok (listing u t'.rows),
      { s' with locks := s'.locks.acquire () ((listing u t'.rows).map Prekey.id) }, ?_, ?_, ?_⟩
    · simp [alone, exec, hf, hs.view, available]
    · simp [alone, exec, hf, hs'.view, available]
    · exact locked_alike u h ⟨hs.prekeys, hs.pending, hs.unanswered⟩
        ⟨hs'.prekeys, hs'.pending, hs'.unanswered⟩

theorem rollbackAndForward_alike (x : JsError) (h : Agreeing k t t') (hprekeys : s.prekeys = t)
    (hprekeys' : s'.prekeys = t') (hanswers : s.answers () = []) (hanswers' : s'.answers () = []) :
    Alike alone e (fun _ v _ v' => Same k v v') (rollbackAndForward x) s (rollbackAndForward x)
      s' n := by
  have hforward : Same k ((s.endTransaction ()).respond () (.next x))
      ((s'.endTransaction ()).respond () (.next x)) := by
    have hended : (s.endTransaction ()).answers () = [] := hanswers
    have hended' : (s'.endTransaction ()).answers () = [] := hanswers'
    have hanswer := respond_unanswered hended (.next x)
    have hanswer' := respond_unanswered hended' (.next x)
    refine ⟨hanswer'.trans hanswer.symm, ?_, ?_⟩
    · rw [hanswer]
      exact Nat.zero_le 1
    · rw [respond_prekeys, respond_prekeys]
      exact hprekeys ▸ hprekeys' ▸ h
  refine ⟨(e n).outcome (), s.endTransaction (), (e n).outcome (), s'.endTransaction (), rfl, rfl,
    ?_⟩
  cases hf : (e n).failure with
  | none =>
    simp only [Conditions.outcome, hf]
    exact ⟨_, _, _, _, rfl, rfl, hforward⟩
  | some y =>
    simp only [Conditions.outcome, hf]
    exact ⟨_, _, _, _, rfl, rfl, hforward⟩

/-- An exception of the `try` block is the same in both runs. -/
theorem caught_alike (u : JsString) (h : Agreeing (k + 1) t t') (hs : InTransaction t [] s)
    (hs' : InTransaction t' [] s') :
    Alike alone e (fun _ v _ v' => Same k v v')
      (Program.tryCatch (handOut u) rollbackAndForward) s
      (Program.tryCatch (handOut u) rollbackAndForward) s' n := by
  refine (handOut_alike u h hs hs').tryCatch fun r v r' v' m htwin => ?_
  cases r with
  | ok _ =>
    cases r' with
    | ok _ => exact htwin
    | error _ => exact htwin.elim
  | error x =>
    cases r' with
    | ok _ => exact htwin.elim
    | error x' =>
      obtain ⟨rfl, hv, hv', hanswers, hanswers'⟩ := htwin
      exact rollbackAndForward_alike x' h.weaken hv hv' hanswers hanswers'

/-- One request gets the same answer from both tables and uses up at most one prekey. -/
theorem getPrekeyBundle_alike (u : JsString) (h : Agreeing (k + 1) t t') :
    Alike alone e (fun _ v _ v' => Same k v v') (getPrekeyBundle u) (untouched Unit t)
      (getPrekeyBundle u) (untouched Unit t') n := by
  have hrefused : Same k (untouched Unit t) (untouched Unit t') :=
    ⟨rfl, Nat.zero_le 1, h.weaken⟩
  have hstarted : ∀ t : Table, InTransaction t [] { untouched Unit t with
      pending := Function.update (untouched Unit t).pending () (some []) } :=
    fun t => ⟨rfl, by simp, rfl⟩
  unfold getPrekeyBundle
  split
  · exact ⟨_, _, _, _, rfl, rfl, rfl, Nat.zero_le 1, h.weaken⟩
  · refine ⟨(e n).outcome (), untouched Unit t, (e n).outcome (), untouched Unit t', rfl, rfl, ?_⟩
    cases hf : (e n).failure with
    | some x =>
      simp only [Conditions.outcome, hf]
      exact hrefused
    | none =>
      simp only [Conditions.outcome, hf]
      cases hf' : (e (n + 1)).failure with
      | some x =>
        refine ⟨.error x, untouched Unit t, .error x, untouched Unit t', ?_, ?_, hrefused⟩
        · simp [alone, exec, hf']
        · simp [alone, exec, hf']
      | none =>
        refine ⟨.ok (), { untouched Unit t with
            pending := Function.update (untouched Unit t).pending () (some []) }, .ok (),
          { untouched Unit t' with
            pending := Function.update (untouched Unit t').pending () (some []) }, ?_, ?_, ?_⟩
        · simp [alone, exec, hf']
        · simp [alone, exec, hf']
        · refine Alike.tryFinally (caught_alike u h (hstarted t) (hstarted t')) ?_
          intro r v r' v' m hsame
          refine ⟨(e m).outcome (), v, (e m).outcome (), v', rfl, rfl, ?_⟩
          cases hf'' : (e m).failure with
          | none =>
            simp only [Conditions.outcome, hf'']
            exact hsame
          | some x =>
            simp only [Conditions.outcome, hf'']
            exact hsame

end Runs

/-- The responses to requests for bundles, one after another. -/
def responses (e : ℕ → Conditions) : List JsString → ℕ → Table → Option (List (List Answer))
  | [], _, _ => some []
  | u :: users, n, t =>
    (serve e (.getPrekeyBundle u) n t).bind fun (answers, m, t') =>
      (responses e users m t').map (answers :: ·)

theorem serve_alike {k : ℕ} {t t' : Table} (h : Agreeing (k + 1) t t') (e : ℕ → Conditions)
    (u : JsString) (n : ℕ) :
    ∃ answers m v v', serve e (.getPrekeyBundle u) n t = some (answers, m, v) ∧
      serve e (.getPrekeyBundle u) n t' = some (answers, m, v') ∧
      (handedOut answers).length ≤ 1 ∧ Agreeing k v v' := by
  obtain ⟨r, r', m, s, s', hrun, hrun', hsame⟩ := (getPrekeyBundle_alike (e := e) (n := n) u h).runs
  refine ⟨s.answers (), m, s.prekeys, s'.prekeys, ?_, ?_, hsame.few, hsame.tables⟩
  · rw [serve, Request.handler, hrun, Option.map_some]
  · rw [serve, Request.handler, hrun', Option.map_some, hsame.answers]

/-- As many requests as the tables have prekeys in common get the same responses from both,
each with at most one one-time prekey. -/
theorem responses_agree {k : ℕ} {t t' : Table} (h : Agreeing k t t') (e : ℕ → Conditions)
    (users : List JsString) (hlength : users.length ≤ k) (n : ℕ) :
    ∃ rs, responses e users n t = some rs ∧ responses e users n t' = some rs ∧
      ∀ answers ∈ rs, (handedOut answers).length ≤ 1 := by
  induction users generalizing k t t' n with
  | nil => exact ⟨[], rfl, rfl, by simp⟩
  | cons u users ih =>
    obtain ⟨k, rfl⟩ : ∃ m, k = m + 1 := Nat.exists_eq_add_one.mpr (by simp at hlength; omega)
    obtain ⟨answers, m, v, v', hserve, hserve', hfew, hagree⟩ := serve_alike h e u n
    obtain ⟨rs, hrs, hrs', hrest⟩ := ih hagree (by simpa using hlength) m
    refine ⟨answers :: rs, ?_, ?_, ?_⟩
    · simp [responses, hserve, hrs]
    · simp [responses, hserve', hrs']
    · intro a ha
      rcases List.mem_cons.mp ha with rfl | ha
      · exact hfew
      · exact hrest a ha

/-- A laptop that has only a backup. -/
def laptop (backup : Json) : Prekey :=
  ⟨js "r1", js "bob", js "laptop", withBackup (.obj []) backup, some 3, 0, 0⟩

/-- A phone with two known prekeys and unknown further ones. -/
def phone (secrets : List Json) (backup : Json) : Prekey :=
  ⟨js "r2", js "bob", js "phone",
    withBackup (published ([prekey "a", prekey "b"] ++ secrets)) backup, none, 5, 5⟩

def withSecrets (secrets : List Json) (backup : Json) : Table :=
  ⟨[laptop backup, phone secrets backup], by simp [laptop, phone, js]⟩

theorem withSecrets_wellFormed {secrets : List Json} {backup : Json}
    (hsecrets : Storable (.arr secrets)) (hbackup : Storable backup) :
    ∀ r ∈ (withSecrets secrets backup).rows, WellFormed r.bundle := by
  intro r hr
  simp only [withSecrets, List.mem_cons, List.not_mem_nil, or_false] at hr
  rcases hr with rfl | rfl
  · exact wellFormed_empty.withBackup hbackup
  · refine (wellFormed_published (storable_arr.mpr fun x hx => ?_)).withBackup hbackup
    rcases List.mem_append.mp hx with hx | hx
    · simp only [List.mem_cons, List.not_mem_nil, or_false] at hx
      rcases hx with rfl | rfl
      · rfl
      · rfl
    · exact storable_arr.mp hsecrets x hx

theorem listing_withSecrets (u : JsString) (secrets : List Json) (backup : Json) :
    listing u (withSecrets secrets backup).rows =
      if u = js "bob" then [phone secrets backup, laptop backup] else [] := by
  by_cases hu : u = js "bob"
  · simp [hu, listing, withSecrets, laptop, phone]
  · simp [hu, listing, withSecrets, laptop, phone, Ne.symm hu]

/-- Neither the further prekeys nor the backups are public. -/
theorem withSecrets_agreeing {secrets secrets' : List Json} {backup backup' : Json}
    (hsecrets : Storable (.arr secrets)) (hsecrets' : Storable (.arr secrets'))
    (hbackup : Storable backup) (hbackup' : Storable backup') :
    Agreeing 2 (withSecrets secrets backup) (withSecrets secrets' backup') := by
  refine ⟨withSecrets_wellFormed hsecrets hbackup, withSecrets_wellFormed hsecrets' hbackup',
    fun u => ?_⟩
  rw [listing_withSecrets, listing_withSecrets]
  split
  · refine .cons ⟨rfl, rfl, rfl, fun _ => ?_, fun _ => ?_⟩
      (.cons ⟨rfl, rfl, rfl, fun _ => ?_, fun _ => ?_⟩ .nil)
    · rfl
    · rfl
    · rfl
    · rfl
  · exact .nil

theorem twoRequests_agree :
    ∃ rs, responses (fun _ => calm) [js "bob", js "bob"] 0 (withSecrets [] (.str (js "x"))) =
        some rs ∧
      responses (fun _ => calm) [js "bob", js "bob"] 0
        (withSecrets [prekey "c"] (.str (js "y"))) = some rs ∧
      ∀ answers ∈ rs, (handedOut answers).length ≤ 1 :=
  responses_agree (withSecrets_agreeing (storable_arr.mpr (by decide))
    (storable_arr.mpr (by decide)) (storable_stored (.str (js "x")))
    (storable_stored (.str (js "y")))) _
    [js "bob", js "bob"] (Nat.le_refl 2) 0

end ChatMicroservices.BundleConfidentiality
