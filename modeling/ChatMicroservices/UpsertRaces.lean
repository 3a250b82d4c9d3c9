import ChatMicroservices.PrekeySessions
import ChatMicroservices.PrekeyUpserts

/-!
# A publication next to a backup

One `publishPrekey` and one `storeSignalKeys` for the same device, interleaved statement by
statement. Both write the whole bundle that they have read before, so the later `UPDATE` can
undo the earlier one; and if both find no row, the device gets two. In runs whose writes are
compatible, both results are there once both requests have answered with 200, if their column
can hold what the requests store.
-/

namespace ChatMicroservices.UpsertRaces
open JavaScriptValues JavaScriptOperators JsonColumns EffectPrograms ConcurrentPrograms
open KeyedTables SequentialPrograms PrekeyBundles PrekeyDatabase PrekeyController PrekeyHandOut
open PrekeyConservation PrekeyDevices PrekeyRequests PrekeyUpserts

/-- The requests in runs all of whose writes are compatible. -/
abbrev upserts (u d : JsString) (asText : Value → Option JsString) :
    Semantics Party Conditions (Database Party) Ans :=
  restrict (reading asText) (Compatible u d)

/-- Request `i` keeps the protocol and ends in a state of `post`. -/
abbrev Upserting (u d : JsString) (bundles : Party → Json) (asText : Value → Option JsString)
    (i : Party) {α : Type} (post : Except JsError α → Database Party → Prop) (p : Handler α)
    (s : Database Party) : Prop :=
  Safe (upserts u d asText) Anything (protocol u d bundles) i post p s

variable {u d : JsString} {bundles : Party → Json} {asText : Value → Option JsString}
  {i : Party} {α : Type} {post : Except JsError α → Database Party → Prop}

theorem safe_query {op : Op} {next : Ans op → Handler α} {s : Database Party}
    (hquery : ∀ c t a t', exec i c op t = some (a, t') → t' = t)
    (hnext : ∀ t (c : Conditions) a, Rely u d bundles i s t → Inv u d bundles t →
      c.asText = asText → exec i c op t = some (a, t) →
      Upserting u d bundles asText i post (next a) t) :
    Upserting u d bundles asText i post (.perform op next) s := by
  intro t hst ht _ c a v hx
  obtain ⟨-, hx⟩ := restrict_eq_some.mp hx
  obtain rfl := hquery _ _ _ _ hx
  exact ⟨ht, (protocol u d bundles).rely_refl _ _, hnext _ _ a hst ht rfl hx⟩

/-- A request may answer with 200 once its bundle is stored. -/
theorem safe_respond {s : Database Party} (a : Answer) (hs : s.answers i = [])
    (hdone : Answer.isOk a = true → Done u d bundles i s.prekeys) :
    Upserting u d bundles asText i (fun _ _ => True) (perform (.respond a)) s := by
  intro t hst ht _ c x v hx
  obtain ⟨-, hx⟩ := restrict_eq_some.mp hx
  simp only [reading, exec, Option.some.injEq, Prod.mk.injEq] at hx
  obtain ⟨-, rfl⟩ := hx
  have hother : ∀ j, j ≠ i → (t.respond i a).answers j = t.answers j :=
    fun j hj => Function.update_of_ne hj _ _
  refine ⟨⟨ht.readable, fun j hj => ?_⟩, ⟨hother _ ?_, fun _ _ hf => hf⟩, fun _ _ _ => trivial⟩
  · by_cases hji : j = i
    · subst hji
      obtain ⟨b, hb, hok⟩ := hj
      simp only [Database.respond, Function.update_self, hst.answers, hs, List.nil_append,
        List.mem_singleton] at hb
      exact hst.facts _ (.done _) (hdone (hb ▸ hok))
    · rw [hother j hji] at hj
      exact ht.done j hj
  · cases i <;> decide

/-- A request that has found a row, and how it has found it. -/
structure Owner (u d : JsString) (bundles : Party → Json) (i : Party) (id : JsString)
    (s : Database Party) : Prop where
  unanswered : s.answers i = []
  found : ∃ r ∈ rowsOf u d s.prekeys, r.id = id
  claimed : Claimed u d bundles i id s.prekeys

theorem Owner.rely {id : JsString} {s t : Database Party} (h : Owner u d bundles i id s)
    (hst : Rely u d bundles i s t) : Owner u d bundles i id t :=
  ⟨hst.answers.trans h.unanswered, hst.facts _ (.found i id) h.found,
    hst.facts _ (.claimed i id) h.claimed⟩

/-- A row of the device with the bundle of the request is all that it has to store. -/
theorem Owner.done {id : JsString} {s : Database Party} (h : Owner u d bundles i id s)
    {row : Prekey} (hmem : row ∈ s.prekeys.rows) (hid : row.id = id)
    (hcarries : Carries bundles i row) : Done u d bundles i s.prekeys := by
  rcases h.claimed with hholds | hdone
  · refine hholds.mono fun r hr hrid => ?_
    obtain rfl := s.prekeys.eq_of_key_eq (mem_rowsOf.mp hr).1 hmem (hrid.trans hid.symm)
    exact hcarries
  · exact hdone

/-- What a request knows when its row is saved. -/
def Saved (u d : JsString) (bundles : Party → Json) (i : Party) (r : Except JsError Unit)
    (s : Database Party) : Prop :=
  s.answers i = [] ∧ (r = .ok () → Done u d bundles i s.prekeys)

theorem safe_failed {s : Database Party} (hs : s.answers i = []) (e : JsError) :
    Upserting u d bundles asText i (Saved u d bundles i) (.done (.error e)) s :=
  fun _ hst _ => ⟨hst.answers.trans hs, fun h => by cases h⟩

theorem safe_saved {s : Database Party} (hs : s.answers i = [])
    (hdone : Done u d bundles i s.prekeys) :
    Upserting u d bundles asText i (Saved u d bundles i) (.done (.ok ())) s :=
  fun _ hst _ => ⟨hst.answers.trans hs, fun _ => hst.facts _ (.done i) hdone⟩

/-- `save` of a row that was found before, with the properties of the request. -/
theorem safe_save (entity : Prekey) {s : Database Party} (hs : Owner u d bundles i entity.id s)
    (hcarries : Retains i.keys (bundles i) entity.bundle)
    (hstorable : StorableAt i.keys (bundles i)) :
    Upserting u d bundles asText i (Saved u d bundles i) (save .dataSource entity) s := by
  refine safe_query (fun c t a t' hx => by simp_all [exec]) fun t c a hst _ _ hx => ?_
  have ht := hs.rely hst
  simp only [exec, Option.some.injEq, Prod.mk.injEq, and_true] at hx
  subst hx
  cases hf : c.failure with
  | some e =>
    simp only [Conditions.outcome, hf]
    exact safe_failed ht.unanswered e
  | none =>
    simp only [Conditions.outcome, hf, Program.bind_ok]
    cases hfind : (t.view i .dataSource).find entity.id with
    | none =>
      obtain ⟨r, hr, hrid⟩ := ht.found
      exact absurd hrid (KeyedTable.find_eq_none.mp hfind r (mem_rowsOf.mp hr).1)
    | some row =>
      have hview : t.view i .dataSource = t.prekeys := by simp [Database.view]
      rw [hview] at hfind
      obtain ⟨hmem, hid⟩ := KeyedTable.find_eq_some.mp hfind
      -- a bundle that `save` does not write is the stored one
      have hsame : (changesFrom entity row).bundle = none →
          Done u d bundles i t.prekeys := by
        intro hnone
        refine ht.done hmem hid ?_
        rwa [Carries, ← differing_eq_none.mp hnone]
      have hnew : ∀ b, (changesFrom entity row).bundle = some b →
          Retains i.keys (bundles i) (stored b) :=
        fun b hb => (eq_of_differing hb ▸ hcarries).stored hstorable
      dsimp only
      split
      · rename_i hnone
        exact safe_saved ht.unanswered (hsame (by rw [hnone]; rfl))
      · intro v htv hv _ c' a' w hx
        obtain ⟨hretains, hx⟩ := restrict_eq_some.mp hx
        have hv' := ht.rely htv
        rcases exec_update hx with ⟨e, rfl, rfl⟩ | ⟨rfl, -, rfl⟩
        · exact ⟨hv, (protocol u d bundles).rely_refl _ _, safe_failed hv'.unanswered e⟩
        · have hdone : Done u d bundles i
              ((Write.update entity.id (changesFrom entity row) c'.now).apply v.prekeys) :=
            done_update hnew (fun h => htv.facts _ (.done i) (hsame h)) hv'.claimed
          have hharmless := harmless_update hretains hdone
          obtain ⟨hinv, hrely⟩ := hharmless.keeps hv hv'.unanswered
          rw [write_dataSource]
          exact ⟨hinv, hrely, safe_saved hv'.unanswered hdone⟩

/-- A new row that is harmless and has what the request must store. -/
theorem safe_insert {s : Database Party} {row : NewPrekey} (hs : s.answers i = [])
    (hadd : ∀ t (c : Conditions) r, Rely u d bundles i s t →
      Compatible u d i c (.insert .dataSource none row) t →
      row.toRow { c with asText := asText } none = .ok r →
      r.id ∉ t.prekeys.rows.map Prekey.id →
      Harmless u d bundles i t.prekeys ((Write.insert r).apply t.prekeys) ∧
        Done u d bundles i ((Write.insert r).apply t.prekeys)) :
    Upserting u d bundles asText i (Saved u d bundles i)
      (Program.attempt (perform (.insert .dataSource none row))) s := by
  intro t hst ht _ c a v hx
  obtain ⟨hcompat, hx⟩ := restrict_eq_some.mp hx
  have hunanswered : t.answers i = [] := hst.answers.trans hs
  rcases exec_insert hx with ⟨e, rfl, rfl⟩ | ⟨r, rfl, hrow, hid, rfl⟩
  · exact ⟨ht, (protocol u d bundles).rely_refl _ _, safe_failed hunanswered e⟩
  · obtain ⟨hharmless, hdone⟩ := hadd t c r hst hcompat hrow hid
    obtain ⟨hinv, hrely⟩ := hharmless.keeps ht hunanswered
    exact ⟨hinv, hrely, safe_saved hunanswered hdone⟩

/-- An exception comes before the answer. -/
def Caught (i : Party) (r : Except JsError Unit) (s : Database Party) : Prop :=
  ∀ e, r = .error e → s.answers i = []

/-- The row is saved, and then the request answers. -/
theorem safe_answered {s : Database Party} {p : Handler Unit} {a : Answer}
    (h : Upserting u d bundles asText i (Saved u d bundles i) p s) (hs : Inv u d bundles s) :
    Upserting u d bundles asText i (Caught i) (p.bind fun _ => perform (.respond a)) s := by
  refine Safe.bind h (fun _ t _ ht => ?_) (fun e t _ ht => ?_) hs
  · have hanswered : Upserting u d bundles asText i (fun _ _ => True) (perform (.respond a)) t :=
      safe_respond a ht.1 fun _ => ht.2 rfl
    intro v hv hinv hop c x w hx
    obtain ⟨hw, hg, hdone⟩ := hanswered v hv hinv hop c x w hx
    exact ⟨hw, hg, fun _ _ _ _ he => by cases he⟩
  · exact fun _ _ => ht.1

/-- The query for the row of the device. -/
theorem safe_findOne {s : Database Party} {deviceId : Value} (hd : asText deviceId = some d)
    (hs : s.answers i = []) {f : Option Prekey → Handler Unit}
    (hnone : ∀ t, t.answers i = [] → Inv u d bundles t → rowsOf u d t.prekeys = [] →
      Upserting u d bundles asText i (Caught i) (f none) t)
    (hsome : ∀ t existing, Owner u d bundles i existing.id t → Inv u d bundles t →
      Upserting u d bundles asText i (Caught i) (f (some existing)) t) :
    Upserting u d bundles asText i (Caught i)
      ((Program.attempt (perform (.findOne u deviceId))).bind f) s := by
  refine safe_query (fun c t a t' hx => by simp_all [exec]) fun t c a hst ht hread hx => ?_
  have hunanswered : t.answers i = [] := hst.answers.trans hs
  simp only [exec, Option.some.injEq, Prod.mk.injEq, and_true] at hx
  subst hx
  cases hf : c.failure with
  | some e =>
    simp only [Conditions.outcome, hf]
    exact fun v hv _ _ _ => hv.answers.trans hunanswered
  | none =>
    simp only [Conditions.outcome, hf]
    rcases select_rowsOf (c := c) (t := t.prekeys) (u := u) (hread ▸ hd) with
      ⟨hempty, hselect⟩ | ⟨existing, hmem, hselect⟩
    · rw [hselect]
      exact hnone t hunanswered ht hempty
    · rw [hselect]
      exact hsome t existing
        ⟨hunanswered, ⟨existing, hmem, rfl⟩, ht.readable.claimed hmem⟩ ht

theorem storeBundle_safe {deviceId bundle : Value} (hd : asText deviceId = some d)
    (hbundle : bundles .publisher = bundle.column)
    (hcomplete : ∀ key ∈ Party.publisher.keys, (lookup (js key) (spread bundle.column)).isSome)
    (hstorable : StorableAt Party.publisher.keys bundle.column) {s : Database Party}
    (hs : s.answers .publisher = []) : Upserting u d bundles asText .publisher
      (Caught .publisher) (storeBundle u deviceId bundle) s := by
  refine safe_findOne hd hs (fun t ht hinv hempty => ?_) fun t existing howner hinv => ?_
  · refine safe_answered (safe_insert ht fun v c r htv hearlier hrow hid => ?_) hinv
    obtain ⟨d', hd', -, rfl⟩ := NewPrekey.toRow_eq_ok hrow
    obtain rfl := Option.some.inj (hd.symm.trans hd')
    have hunclaimed := htv.facts _ .unclaimed (.inl hempty)
    refine ⟨harmless_insert_publication hid rfl rfl hunclaimed hearlier,
      done_insert_publication hid rfl rfl ?_⟩
    rw [Carries, hbundle]
    exact Retains.stored (fun _ _ => rfl) hstorable
  · refine safe_answered (safe_save { existing with
      bundle := merge existing.bundle bundle.column } howner (fun key hkey => ?_)
        (hbundle ▸ hstorable)) hinv
    have hproto : js key ≠ js "__proto__" := by
      simp only [Party.keys, List.mem_cons, List.not_mem_nil, or_false] at hkey
      rcases hkey with rfl | rfl | rfl <;> decide
    rw [lookup_merge (fun h => absurd h hproto) fun h => absurd h hproto, hbundle]
    exact Option.or_eq_left_of_isSome (hcomplete key hkey)

theorem publishPrekey_safe {body : Value} (hd : asText (body.field "deviceId") = some d)
    (hbundle : bundles .publisher = (body.field "bundle").column)
    (hcomplete : ∀ key ∈ Party.publisher.keys,
      (lookup (js key) (spread (body.field "bundle").column)).isSome)
    (hstorable : StorableAt Party.publisher.keys (body.field "bundle").column)
    {s : Database Party} (hs : s.answers .publisher = []) (hinv : Inv u d bundles s) :
    Upserting u d bundles asText .publisher (fun _ _ => True) (publishPrekey (some u) body) s := by
  have hcaught : ∀ e, Upserting u d bundles asText .publisher (Caught .publisher)
      (.done (.error e)) s := fun e t ht _ _ _ => ht.answers.trans hs
  refine Safe.tryCatch (?_ : Upserting u d bundles asText .publisher (Caught .publisher) _ s)
    (fun _ _ _ _ => trivial) (fun e t _ ht => safe_respond (.next e) (ht e rfl) fun h => ?_) hinv
  · by_cases hbody : body.Nullish
    · simp only [readField, Value.destructure_of_nullish hbody]
      exact hcaught _
    · simp only [readField, Value.destructure_of_not_nullish hbody, sync, Program.bind_eq,
        Program.bind_ok]
      split
      · exact hcaught _
      · exact hcaught _
      · rename_i hsome
        obtain rfl := Option.some.inj hsome
        split
        · exact hcaught _
        · exact storeBundle_safe hd hbundle hcomplete hstorable hs
  · cases h

theorem checkRate_safe (last : Option ℕ) {id : JsString} {s : Database Party}
    (hs : Owner u d bundles i id s) :
    Upserting u d bundles asText i (fun _ t => Owner u d bundles i id t) (checkRate last) s := by
  cases last with
  | none => exact fun t ht _ => hs.rely ht
  | some last =>
    refine safe_query (fun c t a t' hx => by simp_all [exec]) fun t c now hst _ _ _ => ?_
    dsimp only [Program.bind_ok]
    split
    · exact fun v hv _ => (hs.rely hst).rely hv
    · exact fun v hv _ => (hs.rely hst).rely hv

theorem storeBackup_safe {deviceId encryptedBundle : Value} (hd : asText deviceId = some d)
    (hbundle : bundles .backup = withBackup (.obj []) encryptedBundle.column)
    (hstorable : Storable encryptedBundle.column) {s : Database Party}
    (hs : s.answers .backup = []) : Upserting u d bundles asText .backup (Caught .backup)
      (storeBackup u deviceId encryptedBundle) s := by
  have hcarries : ∀ b, Retains Party.backup.keys (bundles .backup)
      (withBackup b encryptedBundle.column) := by
    intro b key hkey
    obtain rfl := List.mem_singleton.mp hkey
    rw [hbundle, lookup_backup, lookup_backup]
  have hfixed : StorableAt Party.backup.keys (bundles .backup) := by
    intro key hkey v hv
    obtain rfl := List.mem_singleton.mp hkey
    rw [hbundle, lookup_backup] at hv
    exact Option.some.inj hv ▸ hstorable
  unfold storeBackup
  cases checkBackup deviceId encryptedBundle with
  | error e => exact fun t ht _ _ _ => ht.answers.trans hs
  | ok _ =>
    refine safe_findOne hd hs (fun t ht hinv hempty => ?_) fun t existing howner hinv => ?_
    · refine safe_query (fun c t a t' hx => by simp_all [exec]) fun v c now htv hv _ _ => ?_
      refine safe_answered (safe_insert (htv.answers.trans ht)
        fun w c r _ hlater hrow hid => ?_) hv
      obtain ⟨d', hd', -, rfl⟩ := NewPrekey.toRow_eq_ok hrow
      obtain rfl := Option.some.inj (hd.symm.trans hd')
      have hrow := (hcarries (.obj [])).stored hfixed
      exact ⟨harmless_insert_backup hid rfl rfl hrow hlater,
        done_insert_backup hid rfl rfl hrow hlater⟩
    · refine (checkRate_safe existing.lastBackupTimestamp howner).bind (fun _ v hv hv' => ?_)
        (fun e v _ hv _ _ => hv.unanswered) hinv
      refine safe_query (fun c t a t' hx => by simp_all [exec]) fun w c now hvw hw _ _ => ?_
      exact safe_answered (safe_save { existing with
        bundle := withBackup existing.bundle encryptedBundle.column
        lastBackupTimestamp := some now } (hv'.rely hvw) (hcarries existing.bundle) hfixed) hw

theorem storeSignalKeys_safe {body : Value} (hd : asText (body.field "deviceId") = some d)
    (hbundle : bundles .backup = withBackup (.obj []) (body.field "encryptedBundle").column)
    (hstorable : Storable (body.field "encryptedBundle").column) {s : Database Party}
    (hs : s.answers .backup = []) (hinv : Inv u d bundles s) : Upserting u d bundles asText
      .backup (fun _ _ => True) (storeSignalKeys (some u) body) s := by
  have hcaught : ∀ e, Upserting u d bundles asText .backup (Caught .backup)
      (.done (.error e)) s := fun e t ht _ _ _ => ht.answers.trans hs
  unfold storeSignalKeys readField
  by_cases hbody : body.Nullish
  · rw [Value.destructure_of_nullish hbody]
    exact fun _ _ _ => trivial
  · simp only [Value.destructure_of_not_nullish hbody, sync, Program.bind_eq, Program.bind_ok]
    refine Safe.tryCatch (?_ : Upserting u d bundles asText .backup (Caught .backup) _ s)
      (fun _ _ _ _ => trivial) (fun e t _ ht => safe_respond (.next e) (ht e rfl) fun h => ?_)
      hinv
    · split
      · exact hcaught _
      · exact hcaught _
      · rename_i hsome
        obtain rfl := Option.some.inj hsome
        exact storeBackup_safe hd hbundle hstorable hs
    · cases h

/-- What each request stores. -/
def contribution (published encryptedBundle : Json) : Party → Json
  | .publisher => published
  | .backup => withBackup (.obj []) encryptedBundle

/-- A publication and a backup of one user. -/
def startBoth (u : JsString) (publication backup : Value) (t : Table) :
    Pool Party Ans JsError Unit (Database Party) where
  shared := untouched Party t
  threads
    | .publisher => publishPrekey (some u) publication
    | .backup => storeSignalKeys (some u) backup

theorem field_key {key : String} (hkey : key ∈ i.keys) (b : Json) :
    (Value.json b).field key = ((lookup (js key) (spread b)).map .json).getD .undefined := by
  refine field_eq_spread ?_ b
  cases i with
  | publisher =>
    simp only [Party.keys, List.mem_cons, List.not_mem_nil, or_false] at hkey
    rcases hkey with rfl | rfl | rfl <;> decide
  | backup =>
    obtain rfl := List.mem_singleton.mp hkey
    decide

theorem lookup_of_field {key : String} (hkey : key ∈ i.keys) {b : Json}
    (h : (Value.json b).field key ≠ .undefined) : (lookup (js key) (spread b)).isSome := by
  rw [field_key hkey] at h
  cases hl : lookup (js key) (spread b) with
  | none => simp [hl] at h
  | some v => rfl

/-- A reader gets the backup that leads the rows of the device. -/
theorem fetchKeys_reads {t : Table} {published encryptedBundle : Json}
    (h : Done u d (contribution published encryptedBundle) .backup t)
    (htruthy : (Value.json encryptedBundle).truthy = true) {deviceId : Value}
    (hdevice : deviceId.truthy = true) {e : ℕ → Conditions} {n : ℕ}
    (hread : (e n).asText deviceId = some d) (hcalm : (e n).failure = none) :
    Leads alone e (fun r _ s => r = .ok () ∧
        s.answers () = [.keys d (.json encryptedBundle)] ∧ s.prekeys = t)
      (fetchKeys u deviceId) n (untouched Unit t) := by
  obtain ⟨r, hr, hcarries, hlatest⟩ := latest_rowsOf hread h
  have hbackup : (Value.json r.bundle).field "_encryptedKeyBundle" = .json encryptedBundle := by
    have hkey : "_encryptedKeyBundle" ∈ Party.backup.keys := List.mem_cons_self
    rw [field_key hkey, hcarries _ hkey, contribution, lookup_backup]
    rfl
  unfold fetchKeys
  rw [if_neg (by simp [hdevice])]
  refine leads_findLatest (fun x hx => by simp [hx] at hcalm) fun _ => ?_
  rw [untouched_prekeys, hlatest]
  dsimp only
  rw [hbackup, if_pos htruthy, (mem_rowsOf.mp hr).2.2]
  exact (leads_respond _).mpr ⟨rfl, rfl, rfl⟩

theorem getSignalKeys_reads {t : Table} {published encryptedBundle : Json}
    (h : Done u d (contribution published encryptedBundle) .backup t)
    (htruthy : (Value.json encryptedBundle).truthy = true) (hu : u ≠ []) {deviceId : Value}
    (hdevice : deviceId.truthy = true) {e : ℕ → Conditions} {n : ℕ}
    (hread : (e n).asText deviceId = some d) (hcalm : (e n).failure = none) :
    ∃ m, serve e (.getSignalKeys (some u) deviceId) n t =
      some ([.keys d (.json encryptedBundle)], m, t) := by
  have hserves : Serves e (Request.getSignalKeys (some u) deviceId).handler
      (fun answers _ t' => answers = [.keys d (.json encryptedBundle)] ∧ t' = t) n t := by
    have hfetch := fetchKeys_reads h htruthy hdevice hread hcalm
    obtain ⟨first, rest, rfl⟩ := List.exists_cons_of_ne_nil hu
    exact hfetch.tryCatch (fun _ _ _ _ hq => hq.2) fun _ _ _ _ hq => by cases hq.1
  obtain ⟨answers, m, t', hserve, rfl, rfl⟩ := serves_iff.mp hserves
  exact ⟨m, hserve⟩

/-- A publication and a backup of one device that start on a table with at most one row for
it, interleaved in any order in which all writes are compatible. Once both have answered with
200, a reader of the device gets the backup, and a published bundle with the properties of
the publication is stored, if their column can hold these. -/
theorem upserts_kept {publication backup : Value} {published encryptedBundle : Json}
    (hu : u ≠ []) (hpublisher : asText (publication.field "deviceId") = some d)
    (hbackup : asText (backup.field "deviceId") = some d)
    (hpublished : publication.field "bundle" = .json published)
    (hencrypted : backup.field "encryptedBundle" = .json encryptedBundle)
    (hcomplete : ∀ key ∈ Party.publisher.keys, (Value.json published).field key ≠ .undefined)
    (htruthy : (Value.json encryptedBundle).truthy = true)
    (hstorable : StorableAt Party.publisher.keys published ∧ Storable encryptedBundle)
    {t : Table} (hsingle : (rowsOf u d t).length ≤ 1)
    {q : Pool Party Ans JsError Unit (Database Party)}
    (h : Steps (upserts u d asText) Anything (startBoth u publication backup t) q)
    (hok : ∀ i, ∃ a ∈ q.shared.answers i, Answer.isOk a = true) {deviceId : Value}
    (hdevice : deviceId.truthy = true) {e : ℕ → Conditions} {n : ℕ}
    (hread : (e n).asText deviceId = some d) (hcalm : (e n).failure = none) :
    (∃ m, serve e (.getSignalKeys (some u) deviceId) n q.shared.prekeys =
      some ([.keys d (.json encryptedBundle)], m, q.shared.prekeys)) ∧
    ∃ r ∈ rowsOf u d q.shared.prekeys, isPrekeyBundle r.bundle = .ok true ∧
      ∀ key ∈ ["identityKey", "signedPreKey", "preKeys"],
        (Value.json r.bundle).field key = (Value.json published).field key := by
  have hinv : Inv u d (contribution published encryptedBundle) (untouched Party t) :=
    ⟨.inl hsingle, fun i hi => by obtain ⟨a, ha, -⟩ := hi; cases ha⟩
  have hsafe : ∀ i, Upserting u d (contribution published encryptedBundle) asText i
      (fun _ _ => True) ((startBoth u publication backup t).threads i) (untouched Party t) := by
    intro i
    cases i with
    | publisher =>
      refine publishPrekey_safe hpublisher ?_ ?_ ?_ rfl hinv
      · rw [hpublished]
        rfl
      · rw [hpublished]
        exact fun key hkey => lookup_of_field hkey (hcomplete key hkey)
      · rw [hpublished]
        exact hstorable.1
    | backup =>
      refine storeSignalKeys_safe hbackup ?_ ?_ rfl hinv
      · rw [hencrypted]
        rfl
      · rw [hencrypted]
        exact hstorable.2
  obtain ⟨hq, -⟩ := h.safe (P := protocol u d (contribution published encryptedBundle)) hinv hsafe
  refine ⟨getSignalKeys_reads (hq.done .backup (hok .backup)) htruthy hu hdevice hread hcalm, ?_⟩
  obtain ⟨r, hr, hcarries⟩ := hq.done .publisher (hok .publisher)
  have hkeys := hcarries "preKeys" (by decide)
  refine ⟨r, hr, isPrekeyBundle_of_lookup ?_, fun key hkey => ?_⟩
  · rw [hkeys]
    exact lookup_of_field (i := .publisher) (by decide) (hcomplete "preKeys" (by decide))
  · rw [field_key (i := .publisher) hkey, field_key (i := .publisher) hkey, hcarries key hkey]
    rfl

def renewed : Json :=
  .obj [(js "identityKey", .str (js "idk")), (js "signedPreKey", .str (js "spk")),
    (js "preKeys", .arr [prekey "b"])]

def backedUp : Json := (PrekeyReuse.backupBody.field "encryptedBundle").column

/-- The phone of `bob` publishes and stores a backup at the same time. -/
def phoneUpserts (semantics : Semantics Party Conditions (Database Party) Ans) (t : Table)
    (schedule : List (Party × Conditions)) : Pool Party Ans JsError Unit (Database Party) :=
  reach semantics Anything schedule
    (startBoth (js "bob") (PrekeySessions.publication "phone" renewed) PrekeyReuse.backupBody t)

theorem phoneUpserts_run (semantics : Semantics Party Conditions (Database Party) Ans) (t : Table)
    (schedule : List (Party × Conditions)) : Steps semantics Anything
      (startBoth (js "bob") (PrekeySessions.publication "phone" renewed) PrekeyReuse.backupBody t)
      (phoneUpserts semantics t schedule) :=
  steps_reach schedule _

/-- Neither request finds a row, and the row of the backup is the later one. -/
def twoRows : Pool Party Ans JsError Unit (Database Party) :=
  let later := { calm with now := 12, newId := js "r4" }
  phoneUpserts (upserts (js "bob") (js "phone") calm.asText) KeyedTable.empty
    [(.publisher, calm), (.backup, calm), (.publisher, calm), (.backup, later),
      (.backup, later), (.publisher, calm), (.backup, later)]

theorem twoRows_kept :
    twoRows.shared.prekeys.rows.map Prekey.createdAt = [10, 12] ∧
      (∃ m, serve (fun _ => calm) (.getSignalKeys (some (js "bob")) (.json (.str (js "phone")))) 0
        twoRows.shared.prekeys =
          some ([.keys (js "phone") (.json backedUp)], m, twoRows.shared.prekeys)) ∧
      ∃ r ∈ rowsOf (js "bob") (js "phone") twoRows.shared.prekeys,
        isPrekeyBundle r.bundle = .ok true ∧
          ∀ key ∈ ["identityKey", "signedPreKey", "preKeys"],
            (Value.json r.bundle).field key = (Value.json renewed).field key :=
  ⟨by decide +kernel,
    upserts_kept (by decide) rfl rfl rfl rfl (by decide) rfl ⟨by decide, by decide⟩ (by decide)
      (phoneUpserts_run _ _ _)
      (fun i => by cases i <;> decide +kernel) rfl rfl rfl⟩

def onePhone : Table :=
  ⟨[⟨js "r1", js "bob", js "phone", PrekeyConservation.published [prekey "a"], none, 0, 0⟩],
    by decide⟩

/-- The publication has read the row before the backup is stored, and writes it after that. -/
def lost : Pool Party Ans JsError Unit (Database Party) :=
  phoneUpserts (reading calm.asText) onePhone
    [(.publisher, calm), (.backup, calm), (.backup, calm), (.backup, calm), (.backup, calm),
      (.backup, calm), (.publisher, calm), (.publisher, calm), (.publisher, calm)]

theorem lost_backup :
    (rowsOf (js "bob") (js "phone") onePhone).length ≤ 1 ∧
      Steps (reading calm.asText) Anything
        (startBoth (js "bob") (PrekeySessions.publication "phone" renewed) PrekeyReuse.backupBody
          onePhone) lost ∧
      (∀ i, ∃ a ∈ lost.shared.answers i, Answer.isOk a = true) ∧
      ¬ ∃ m, serve (fun _ => calm)
        (.getSignalKeys (some (js "bob")) (.json (.str (js "phone")))) 0 lost.shared.prekeys =
          some ([.keys (js "phone") (.json backedUp)], m, lost.shared.prekeys) := by
  refine ⟨by decide, phoneUpserts_run _ _ _, fun i => by cases i <;> decide +kernel, ?_⟩
  rintro ⟨m, h⟩
  have hanswers : (serve (fun _ => calm)
      (.getSignalKeys (some (js "bob")) (.json (.str (js "phone")))) 0 lost.shared.prekeys).map
        Prod.fst = some [.keys (js "phone") (.json backedUp)] := congrArg (Option.map Prod.fst) h
  exact absurd hanswers (by decide +kernel)

end ChatMicroservices.UpsertRaces
