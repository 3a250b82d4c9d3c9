import ChatMicroservices.PrekeyConservation

/-!
# Backups next to prekey consumption

`getPrekeyBundle` requests interleaved with `storeSignalKeys` backups of the same user. A
backup writes back the whole bundle that it read before, without a lock. No prekey is handed
out twice as long as no prekey was consumed between the two statements; otherwise the
backup restores the consumed prekey.
-/

namespace ChatMicroservices.PrekeyReuse
open JavaScriptValues JsonColumns EffectPrograms ConcurrentPrograms KeyedTables OrderedPools
open PrekeyBundles PrekeyDatabase PrekeyController PrekeyPools PrekeyProtocol PrekeyHandOut
open PrekeyConservation

variable {ι : Type}

/-- The `UPDATE` of a backup meets a row whose one-time prekeys are those of the bundle that
it writes: none was consumed since the backup read the row. -/
def BackupIsCurrent : ι → Op → Database ι → Prop
  | _, .update .dataSource id changes, s => ∀ r ∈ s.prekeys.rows, r.id = id →
    poolOf ((changes.bundle.map stored).getD r.bundle) = poolOf r.bundle
  | _, _, _ => True

instance (i : ι) (op : Op) (s : Database ι) : Decidable (BackupIsCurrent i op s) := by
  unfold BackupIsCurrent
  split <;> infer_instance

/-- A table whose prekeys are those of `s`, and that takes no row from under a lock. -/
structure Harmless (userId : JsString) (i : ι) (s : Database ι) (t : Table) : Prop where
  pool : remaining userId t.rows = remaining userId s.prekeys.rows
  wellFormed : ∀ r ∈ t.rows, r.userId = userId → WellFormed r.bundle
  ids : ∀ id ∈ s.prekeys.rows.map Prekey.id, id ∈ t.rows.map Prekey.id
  others : ∀ j, j ≠ i → Covers userId j s → stocked userId t.rows = stocked userId s.prekeys.rows

variable {userId : JsString} {total : List (JsString × Json)} {i : ι}

theorem Harmless.inv {s : Database ι} {t : Table} (h : Harmless userId i s t)
    (hs : Inv userId total (fun _ _ => True) s) :
    Inv userId total (fun _ _ => True) { s with prekeys := t } :=
  ⟨h.pool.trans hs.pool, h.wellFormed, trivial, hs.once, hs.single, hs.settled⟩

theorem Harmless.guarantee {s : Database ι} {t : Table} (h : Harmless userId i s t) :
    Guarantee userId False i s { s with prekeys := t } where
  others j hj := ⟨fun _ => Iff.rfl, rfl, rfl, List.prefix_refl _, id, h.ids, h.others j hj⟩
  history := List.prefix_refl _
  unchanged := False.elim

theorem harmless_insert {s : Database ι} (hs : Inv userId total (fun _ _ => True) s)
    {r : Prekey} (hwf : WellFormed r.bundle) (hpool : poolOf r.bundle = []) :
    Harmless userId i s ((Write.insert r).apply s.prekeys) := by
  simp only [Write.apply]
  cases hi : s.prekeys.insert r with
  | none => exact ⟨rfl, hs.wellFormed, fun _ => id, fun _ _ _ => rfl⟩
  | some t =>
    obtain ⟨hrows, -⟩ := KeyedTable.insert_eq_some hi
    have hstocked : stocked userId t.rows = stocked userId s.prekeys.rows := by
      rw [hrows, stocked_append_empty hpool]
    refine ⟨remaining_congr hstocked, fun r' hr' hu => ?_, fun id hid => ?_,
      fun _ _ _ => hstocked⟩
    · rw [Option.getD_some, hrows, List.mem_append, List.mem_singleton] at hr'
      rcases hr' with hr' | rfl
      · exact hs.wellFormed r' hr' hu
      · exact hwf
    · rw [Option.getD_some, hrows, List.map_append]
      exact List.mem_append_left _ hid

theorem harmless_update {s : Database ι} (hs : Inv userId total (fun _ _ => True) s)
    {id : JsString} {changes : PrekeyChanges} (now : ℕ)
    (hwf : ∀ b, changes.bundle = some b → WellFormed (stored b))
    (havailable : s.locks.Available i id)
    (hcurrent : BackupIsCurrent i (.update .dataSource id changes) s) :
    Harmless userId i s ((Write.update id changes now).apply s.prekeys) := by
  refine ⟨?_, fun r hr hu => ?_, fun id' hid => ?_, fun j hj hcovers => ?_⟩
  · rw [remaining, remaining, pools_update_of_same hcurrent]
  · rw [update_rows, List.mem_map] at hr
    obtain ⟨r₀, hr₀, rfl⟩ := hr
    split
    · rename_i hid
      simp only [hid, if_true] at hu
      cases hb : changes.bundle with
      | none =>
        simp only [PrekeyChanges.apply_bundle, hb, Option.map_none, Option.getD_none]
        exact hs.wellFormed r₀ hr₀ hu
      | some b =>
        simp only [PrekeyChanges.apply_bundle, hb, Option.map_some, Option.getD_some]
        exact hwf b hb
    · rename_i hid
      simp only [hid, if_false] at hu
      exact hs.wellFormed r₀ hr₀ hu
  · rw [update_rows, List.map_map]
    obtain ⟨r, hr, rfl⟩ := List.mem_map.mp hid
    refine List.mem_map.mpr ⟨r, hr, ?_⟩
    simp only [Function.comp_apply]
    split <;> rfl
  · -- a row that `j` has locked is not available, so the updated row has no prekey
    refine stocked_update_of_empty fun r hr hid hu => ?_
    have hempty : poolOf r.bundle = [] := by
      by_contra hne
      have hlock := hcovers r (mem_stocked.mpr ⟨hr, hu, by simpa [Stocked] using hne⟩)
      exact hj (Locks.holder_unique hlock (hid ▸ havailable))
    exact ⟨hempty, (hcurrent r hr hid).trans hempty⟩

variable [DecidableEq ι]

/-- A backup has committed nothing when it ends, and answered nothing when it fails. -/
def BackedUp (i : ι) (r : Except JsError Unit) (s : Database ι) : Prop :=
  match r with
  | .ok _ => i ∉ s.history
  | .error _ => Fresh i s

abbrev backupProtocol (userId : JsString) (total : List (JsString × Json)) :
    Protocol ι (Database ι) :=
  protocol userId total (fun _ _ => True) False

omit [DecidableEq ι] in
theorem fresh_prekeys {s : Database ι} {t : Table} (h : Fresh i s) :
    Fresh i { s with prekeys := t } := ⟨h.absent, h.unanswered⟩

/-- A request that has found a row; no row is ever deleted. -/
structure Found (id : JsString) (i : ι) (s : Database ι) : Prop where
  fresh : Fresh i s
  row : id ∈ s.prekeys.rows.map Prekey.id

omit [DecidableEq ι] in
theorem Found.rely {id : JsString} {s t : Database ι} (h : Found id i s)
    (hst : Rely userId i s t) : Found id i t :=
  ⟨h.fresh.rely hst, hst.ids id h.row⟩

theorem Found.exec_silent {id : JsString} {op : Op} {c : Conditions} {a : Ans op}
    {s t : Database ι} (h : Found id i s) (hx : exec i c op s = some (a, t)) (hop : Silent op) :
    Found id i t :=
  ⟨h.fresh.exec_silent hx hop, (PrekeyProtocol.exec_silent hx hop).1.prekeys ▸ h.row⟩

/-- `save` of a row that was found before. -/
theorem safe_saveBackup (entity : Prekey) {s : Database ι} (hs : Found entity.id i s)
    (hwf : WellFormed (stored entity.bundle)) :
    Safe exec BackupIsCurrent (backupProtocol userId total) i (fun _ t => Fresh i t)
      (save .dataSource entity) s := by
  refine safe_silent (.reread .dataSource entity.id) trivial fun t c a v hst ht hx hv => ?_
  have hfresh : Fresh i v := (hs.rely hst).fresh.exec_silent hx trivial
  simp only [exec, Option.some.injEq, Prod.mk.injEq] at hx
  obtain ⟨rfl, rfl⟩ := hx
  cases hf : c.failure with
  | some e =>
    simp only [Conditions.outcome, hf]
    exact fun u hu _ => hfresh.rely hu
  | none =>
    simp only [Conditions.outcome, hf, Program.bind_ok]
    cases hfind : (t.view i .dataSource).find entity.id with
    | none =>
      obtain ⟨r, hr, hrid⟩ := List.mem_map.mp (hs.rely hst).row
      exact absurd hrid (KeyedTable.find_eq_none.mp hfind r hr)
    | some row =>
      dsimp only
      split
      · exact fun u hu _ => hfresh.rely hu
      · intro u hu hinv hcurrent c' a' w hx'
        have hwritten : ∀ b, (changesFrom entity row).bundle = some b → WellFormed (stored b) :=
          fun b hb => eq_of_differing hb ▸ hwf
        rcases exec_update hx' with ⟨e, rfl, rfl⟩ | ⟨rfl, havailable, rfl⟩
        · exact ⟨hinv, (Local.refl i w).guarantee, fun z hz _ => (hfresh.rely hu).rely hz⟩
        · have hharmless := harmless_update hinv c'.now hwritten havailable hcurrent
          rw [write_dataSource]
          exact ⟨hharmless.inv hinv, hharmless.guarantee,
            fun z hz _ => (fresh_prekeys (hfresh.rely hu)).rely hz⟩

theorem checkRate_safe (last : Option ℕ) {id : JsString} {s : Database ι} (hs : Found id i s) :
    Safe exec BackupIsCurrent (backupProtocol userId total) i (fun _ t => Found id i t)
      (checkRate last) s := by
  cases last with
  | none => exact fun t ht _ => hs.rely ht
  | some last =>
    refine safe_silent .now trivial fun t c a v hst ht hx hv => ?_
    have hfound : Found id i v := (hs.rely hst).exec_silent hx trivial
    dsimp only [Program.bind_ok]
    split
    · exact fun u hu _ => hfound.rely hu
    · exact fun u hu _ => hfound.rely hu

/-- The last statement of a backup is its answer, which carries no bundle. -/
theorem safe_message {s : Database ι} (hs : Fresh i s) (status : ℕ) (message : String) :
    Safe exec BackupIsCurrent (backupProtocol userId total) i (BackedUp i)
      (perform (.respond (.message status message))) s := by
  refine safe_respond hs.unanswered (fun _ _ _ _ _ h => by cases h) ?_
  intro t hst u hu _
  exact hu.absent (hs.rely hst).absent

theorem safe_found {existing : Prekey} (encryptedBundle : Json) {s : Database ι} (hs : Fresh i s)
    (hinv : Inv userId total (fun _ _ => True) s) (hmem : existing ∈ s.prekeys.rows)
    (huser : existing.userId = userId) :
    Safe exec BackupIsCurrent (backupProtocol userId total) i (BackedUp i)
      ((checkRate existing.lastBackupTimestamp).bind fun _ =>
        (perform .now).bind fun now =>
          (save .dataSource { existing with
            bundle := withBackup existing.bundle encryptedBundle
            lastBackupTimestamp := some now }).bind fun _ =>
            perform (.respond (.message 200 "Encrypted keys updated"))) s := by
  have hwf : WellFormed (stored (withBackup existing.bundle encryptedBundle)) :=
    (hinv.wellFormed existing hmem huser).stored_withBackup encryptedBundle
  have hfound : Found existing.id i s := ⟨hs, List.mem_map_of_mem hmem⟩
  refine (checkRate_safe existing.lastBackupTimestamp hfound).bind (fun _ t _ ht => ?_)
    (fun e t _ ht => ht.fresh) hinv
  refine safe_silent .now trivial fun u c now v htu _ hx hv => ?_
  have hlater : Found existing.id i v := (ht.rely htu).exec_silent hx trivial
  exact (safe_saveBackup { existing with
      bundle := withBackup existing.bundle encryptedBundle
      lastBackupTimestamp := some now } hlater hwf).bind
    (fun _ w _ hw => safe_message hw 200 "Encrypted keys updated") (fun e w _ hw => hw) hv

theorem safe_notFound {deviceId : Value} (encryptedBundle : Json) {s : Database ι}
    (hs : Fresh i s) :
    Safe exec BackupIsCurrent (backupProtocol userId total) i (BackedUp i)
      ((perform .now).bind fun now =>
        (Program.attempt (perform (.insert .dataSource none
          ⟨userId, deviceId, withBackup (.obj []) encryptedBundle, some now⟩))).bind fun _ =>
          perform (.respond (.message 200 "Encrypted keys stored"))) s := by
  refine safe_silent .now trivial fun t c now v hst _ hx _ => ?_
  have hfresh : Fresh i v := (hs.rely hst).exec_silent hx trivial
  intro u hu hinv _ c' a w hx'
  have hstored : Inv userId total (fun _ _ => True) w ∧ Guarantee userId False i u w ∧
      Fresh i w := by
    rcases exec_insert hx' with ⟨e, -, rfl⟩ | ⟨r, -, hrow, -, rfl⟩
    · exact ⟨hinv, (Local.refl i w).guarantee, hfresh.rely hu⟩
    · obtain ⟨_, -, -, hr⟩ := NewPrekey.toRow_eq_ok hrow
      have hwf : WellFormed r.bundle := by
        rw [hr]
        exact wellFormed_empty.stored_withBackup encryptedBundle
      have hpool : poolOf r.bundle = [] := by
        rw [hr, stored_withBackup wellFormed_empty.storable, poolOf_withBackup]
        rfl
      have hharmless : Harmless userId i u ((Write.insert r).apply u.prekeys) :=
        harmless_insert hinv hwf hpool
      exact ⟨hharmless.inv hinv, hharmless.guarantee, fresh_prekeys (hfresh.rely hu)⟩
  obtain ⟨hw, hg, hfresh'⟩ := hstored
  refine ⟨hw, hg, ?_⟩
  cases a with
  | error e => exact fun z hz _ => hfresh'.rely hz
  | ok _ => exact safe_message hfresh' 200 "Encrypted keys stored"

theorem storeBackup_safe (deviceId encryptedBundle : Value) {s : Database ι} (hs : Fresh i s) :
    Safe exec BackupIsCurrent (backupProtocol userId total) i (BackedUp i)
      (storeBackup userId deviceId encryptedBundle) s := by
  unfold storeBackup
  cases hcheck : checkBackup deviceId encryptedBundle with
  | error e => exact fun t ht _ => hs.rely ht
  | ok _ =>
    refine safe_silent (.findOne userId deviceId) trivial fun t c a v hst ht hx hv => ?_
    have hfresh : Fresh i v := (hs.rely hst).exec_silent hx trivial
    simp only [exec, Option.some.injEq, Prod.mk.injEq] at hx
    obtain ⟨rfl, rfl⟩ := hx
    cases hf : c.failure with
    | some e =>
      simp only [Conditions.outcome, hf]
      exact fun u hu _ => hfresh.rely hu
    | none =>
      simp only [Conditions.outcome, hf]
      cases hfound : c.select userId deviceId t.prekeys.rows with
      | none => exact safe_notFound encryptedBundle.column hfresh
      | some existing =>
        obtain ⟨hmem, huser⟩ := select_mem hfound
        exact safe_found encryptedBundle.column hfresh ht hmem huser

/-- A backup hands out nothing, and writes no prekey that is not stored already. -/
theorem storeSignalKeys_safe (body : Value) {s : Database ι}
    (hinv : Inv userId total (fun _ _ => True) s) (hs : Fresh i s) :
    Safe exec BackupIsCurrent (backupProtocol userId total) i
      (fun _ t => Outcome total i t) (storeSignalKeys (some userId) body) s := by
  unfold storeSignalKeys readField
  cases hdevice : body.destructure "req.body" "deviceId" with
  | error e => exact fun t ht _ => .inl (hs.rely ht).absent
  | ok deviceId =>
    cases hbundle : body.destructure "req.body" "encryptedBundle" with
    | error e => exact fun t ht _ => .inl (hs.rely ht).absent
    | ok encryptedBundle =>
      refine Safe.tryCatch (?_ : Safe _ _ _ _ (BackedUp i) _ _) (fun _ t _ h => .inl h)
        (fun e t _ h => safe_refuse h (by simp)) hinv
      split
      · exact fun t ht _ => hs.rely ht
      · exact fun t ht _ => hs.rely ht
      · rename_i hsome
        obtain rfl := Option.some.inj hsome
        exact storeBackup_safe deviceId encryptedBundle hs

/-- A request for the bundle of the user, or a backup by that user. -/
inductive PrekeyRequest where
  | getPrekeyBundle
  | storeSignalKeys (body : Value)

def PrekeyRequest.program (userId : JsString) : PrekeyRequest → Handler Unit
  | getPrekeyBundle => PrekeyController.getPrekeyBundle userId
  | storeSignalKeys body => PrekeyController.storeSignalKeys (some userId) body

def startAll (requests : ι → PrekeyRequest) (userId : JsString) (t : Table) :
    Pool ι Ans JsError Unit (Database ι) :=
  ⟨untouched ι t, fun i => (requests i).program userId⟩

theorem program_safe (request : PrekeyRequest) {s : Database ι}
    (hinv : Inv userId total (fun _ _ => True) s) (hs : Fresh i s) :
    Safe exec BackupIsCurrent (backupProtocol userId total) i (fun _ t => Outcome total i t)
      (request.program userId) s := by
  cases request with
  | getPrekeyBundle => exact getPrekeyBundle_safe ⟨fun _ _ => trivial, fun _ _ _ _ _ => trivial⟩ hs
  | storeSignalKeys body => exact storeSignalKeys_safe body hinv hs

omit [DecidableEq ι] in
theorem settled_of_handedOut {s : Database ι} (hs : Inv userId total (fun _ _ => True) s)
    {p : JsString × Json} (hp : p ∈ handedOut (s.answers i)) : Settled total i s := by
  obtain ⟨a, ha, hpa⟩ := List.mem_flatMap.mp hp
  cases a with
  | bundle user device bundle => exact hs.settled i user device bundle ha
  | keys _ _ | invalid _ | message _ _ | next _ => cases hpa

/-- In every run in which each backup writes back the one-time prekeys that are stored, no
request answers twice and no prekey is in the answers of two requests. -/
theorem handed_out_once (requests : ι → PrekeyRequest) {t : Table}
    (hwf : ∀ r ∈ t.rows, r.userId = userId → WellFormed r.bundle)
    (hdistinct : (remaining userId t.rows).Nodup)
    {q : Pool ι Ans JsError Unit (Database ι)}
    (h : Steps exec BackupIsCurrent (startAll requests userId t) q) :
    (∀ i, (q.shared.answers i).length ≤ 1) ∧
      ∀ i j p, p ∈ handedOut (q.shared.answers i) → p ∈ handedOut (q.shared.answers j) →
        i = j := by
  have hinv : Inv userId (remaining userId t.rows) (fun _ _ => True) (untouched ι t) :=
    ⟨rfl, hwf, trivial, List.nodup_nil, fun _ => Nat.zero_le _, by simp [untouched]⟩
  obtain ⟨hq, -⟩ := h.safe (P := backupProtocol userId (remaining userId t.rows)) hinv fun i =>
    program_safe (requests i) hinv ⟨List.not_mem_nil, rfl⟩
  refine ⟨hq.single, fun i j p hi hj => ?_⟩
  obtain ⟨n, hn, hni⟩ := settled_of_handedOut hq hi
  obtain ⟨m, hm, hmj⟩ := settled_of_handedOut hq hj
  rw [hni, Option.mem_toList] at hi
  rw [hmj, Option.mem_toList] at hj
  -- the same prekey means the same place among the prekeys, so the same commit
  have hnm : n = m := by
    obtain ⟨hn', hi'⟩ := List.getElem?_eq_some_iff.mp hi
    obtain ⟨hm', hj'⟩ := List.getElem?_eq_some_iff.mp hj
    exact hdistinct.getElem_inj_iff.mp (hi'.trans hj'.symm)
  rw [hnm, hm] at hn
  exact (Option.some.inj hn).symm

def backupBody : Value :=
  .json (.obj [(js "deviceId", .str (js "phone")),
    (js "encryptedBundle", .obj [(js "encrypted", .str (js "e")), (js "iv", .str (js "i")),
      (js "salt", .str (js "s")), (js "version", .num (.finite 1)),
      (js "deviceId", .str (js "phone"))])])

/-- Two initiators ask for the bundle of `bob` while the phone stores a backup. -/
inductive Caller where
  | first
  | phone
  | second
  deriving DecidableEq

def phoneBackup : Caller → PrekeyRequest
  | .first => .getPrekeyBundle
  | .phone => .storeSignalKeys backupBody
  | .second => .getPrekeyBundle

theorem devices_distinct : (remaining (js "bob") devices.rows).Nodup := by
  decide

/-- The backup reads and writes its row while the transactions of both requests are open, but
before one of them locks the row: they get different prekeys. -/
def backupBetween : Pool Caller Ans JsError Unit (Database Caller) :=
  reach exec BackupIsCurrent
    (List.replicate 2 (.first, calm) ++ [(.phone, calm)] ++ List.replicate 2 (.second, calm) ++
      List.replicate 3 (.phone, calm) ++ List.replicate 3 (.first, calm) ++ [(.phone, calm)] ++
      List.replicate 3 (.first, calm) ++ List.replicate 6 (.second, calm))
    (startAll phoneBackup (js "bob") devices)

theorem backupBetween_run :
    Steps exec BackupIsCurrent (startAll phoneBackup (js "bob") devices) backupBetween :=
  steps_reach _ _

theorem backupBetween_distinct :
    backupBetween.shared.answers .phone = [.message 200 "Encrypted keys updated"] ∧
      handedOut (backupBetween.shared.answers .first) = [(js "phone", prekey "a")] ∧
      handedOut (backupBetween.shared.answers .second) = [(js "laptop", prekey "b")] ∧
      ∀ i j p, p ∈ handedOut (backupBetween.shared.answers i) →
        p ∈ handedOut (backupBetween.shared.answers j) → i = j :=
  ⟨by decide +kernel, by decide +kernel, by decide +kernel,
    (handed_out_once phoneBackup devices_wellFormed devices_distinct backupBetween_run).2⟩

/-- The backup reads the row, the first request consumes its prekey, the backup writes the
prekey back, and the second request gets it again. -/
def backupAround : Pool Caller Ans JsError Unit (Database Caller) :=
  reach exec Anything
    ((.phone, calm) :: List.replicate 8 (.first, calm) ++ List.replicate 4 (.phone, calm) ++
      List.replicate 8 (.second, calm))
    (startAll phoneBackup (js "bob") devices)

theorem prekey_handed_out_twice :
    (∀ r ∈ devices.rows, r.userId = js "bob" → WellFormed r.bundle) ∧
      (remaining (js "bob") devices.rows).Nodup ∧
      Steps exec Anything (startAll phoneBackup (js "bob") devices) backupAround ∧
      handedOut (backupAround.shared.answers .first) = [(js "phone", prekey "a")] ∧
      handedOut (backupAround.shared.answers .second) = [(js "phone", prekey "a")] :=
  ⟨devices_wellFormed, devices_distinct, steps_reach _ _, by decide +kernel, by decide +kernel⟩

end ChatMicroservices.PrekeyReuse
