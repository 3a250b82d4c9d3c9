import ChatMicroservices.PrekeyProtocol

/-!
# `getPrekeyBundle` keeps the protocol

From its lock to its commit a request knows which rows still have a prekey: others can add
rows without one, and can change nothing else that matters. So the row it chose is still
the next one when the transaction commits, and the commit takes the next prekey.
-/

namespace ChatMicroservices.PrekeyHandOut
open JavaScriptValues JsonColumns EffectPrograms ConcurrentPrograms KeyedTables OrderedPools
open PrekeyBundles PrekeyDatabase PrekeyController PrekeyPools PrekeyProtocol

variable {ι : Type} {userId : JsString} {total : List (JsString × Json)}
  {Kept : ℕ → List Prekey → Prop} {alone : Prop} {i : ι}

/-- The request has neither committed nor answered. -/
structure Fresh (i : ι) (s : Database ι) : Prop where
  absent : i ∉ s.history
  unanswered : s.answers i = []

theorem Fresh.rely {s t : Database ι} (h : Fresh i s) (hst : Rely userId i s t) : Fresh i t :=
  ⟨hst.absent h.absent, hst.answers.trans h.unanswered⟩

/-- The request holds its locks since it met the table `locked`, and has these writes. -/
structure Serving (userId : JsString) (locked : Table) (writes : List Write) (i : ι)
    (s : Database ι) : Prop where
  fresh : Fresh i s
  pending : s.pending i = some writes
  covers : Covers userId i s
  stocked : stocked userId s.prekeys.rows = stocked userId locked.rows

theorem Serving.rely {locked : Table} {writes : List Write} {s t : Database ι}
    (h : Serving userId locked writes i s) (hst : Rely userId i s t) :
    Serving userId locked writes i t :=
  ⟨h.fresh.rely hst, hst.pending.trans h.pending, hst.covers h.covers,
    (hst.stocked h.covers).trans h.stocked⟩

/-- The request has made the `n`-th commit and has not answered. -/
structure Committed (n : ℕ) (i : ι) (s : Database ι) : Prop where
  position : s.history[n]? = some i
  unanswered : s.answers i = []

theorem Committed.rely {n : ℕ} {s t : Database ι} (h : Committed n i s)
    (hst : Rely userId i s t) : Committed n i t := by
  refine ⟨?_, hst.answers.trans h.unanswered⟩
  obtain ⟨rest, hrest⟩ := hst.history
  rw [← hrest, List.getElem?_append_left (List.getElem?_eq_some_iff.mp h.position).1]
  exact h.position

/-- A request that has ended either did not commit or answered with what it took. -/
def Outcome (total : List (JsString × Json)) (i : ι) (s : Database ι) : Prop :=
  i ∉ s.history ∨ Settled total i s

theorem Outcome.rely {s t : Database ι} (h : Outcome total i s) (hst : Rely userId i s t) :
    Outcome total i t := by
  rcases h with h | h
  · exact .inl (hst.absent h)
  · exact .inr (h.rely hst)

variable [DecidableEq ι] {ok : ι → Op → Database ι → Prop} {α : Type}
  {post : Except JsError α → Database ι → Prop}

theorem Fresh.exec_silent {op : Op} {c : Conditions} {a : Ans op} {s t : Database ι}
    (h : Fresh i s) (hx : exec i c op s = some (a, t)) (hop : Silent op) : Fresh i t := by
  obtain ⟨hlocal, hanswers⟩ := PrekeyProtocol.exec_silent hx hop
  exact ⟨hlocal.history ▸ h.absent, hanswers.trans h.unanswered⟩

theorem safe_silent (op : Op) {next : Ans op → Handler α} {s : Database ι} (hop : Silent op)
    (hnext : ∀ t c a v, Rely userId i s t → Inv userId total Kept t →
      exec i c op t = some (a, v) → Inv userId total Kept v →
      Safe exec ok (protocol userId total Kept alone) i post (next a) v) :
    Safe exec ok (protocol userId total Kept alone) i post (.perform op next) s := by
  intro t hst ht _ c a v hx
  obtain ⟨hlocal, hanswers⟩ := exec_silent hx hop
  have hv := hlocal.inv hanswers ht
  exact ⟨hv, hlocal.guarantee, hnext t c a v hst ht hx hv⟩

theorem respond_inv {s : Database ι} {a : Answer} (hs : Inv userId total Kept s)
    (hi : s.answers i = [])
    (ha : ∀ user device bundle, a = .bundle user device bundle →
      Settled total i (s.respond i a)) : Inv userId total Kept (s.respond i a) := by
  have hself : (s.respond i a).answers i = [a] := by
    simp [Database.respond, hi]
  have hother : ∀ j, j ≠ i → (s.respond i a).answers j = s.answers j :=
    fun j hj => Function.update_of_ne hj _ _
  refine ⟨hs.pool, hs.wellFormed, hs.kept, hs.once, fun j => ?_, fun j user device b hb => ?_⟩
  · by_cases hj : j = i
    · subst hj
      simp [hself]
    · rw [hother j hj]
      exact hs.single j
  · by_cases hj : j = i
    · subst hj
      rw [hself, List.mem_singleton] at hb
      exact ha user device b hb.symm
    · rw [hother j hj] at hb
      obtain ⟨n, hn, hanswers⟩ := hs.settled j user device b hb
      exact ⟨n, hn, by rw [hother j hj]; exact hanswers⟩

theorem safe_respond {a : Answer} {next : Unit → Handler α} {s : Database ι}
    (hi : s.answers i = [])
    (ha : ∀ t user device bundle, Rely userId i s t → a = .bundle user device bundle →
      Settled total i (t.respond i a))
    (hnext : ∀ t, Rely userId i s t →
      Safe exec ok (protocol userId total Kept alone) i post (next ()) (t.respond i a)) :
    Safe exec ok (protocol userId total Kept alone) i post (.perform (.respond a) next) s := by
  intro t hst ht _ c r v hx
  obtain rfl : t.respond i a = v := congrArg Prod.snd (Option.some.inj hx)
  have hempty : t.answers i = [] := hst.answers.trans hi
  exact ⟨respond_inv ht hempty fun user device b hb => ha t user device b hst hb,
    (local_respond t i a).guarantee, hnext t hst⟩

/-- An answer without a bundle, before any commit. -/
theorem safe_refuse {a : Answer} {s : Database ι} (hs : Fresh i s)
    (ha : ∀ user device bundle, a ≠ .bundle user device bundle) :
    Safe exec ok (protocol userId total Kept alone) i (fun _ t => Outcome total i t)
      (perform (.respond a)) s := by
  refine safe_respond hs.unanswered (fun _ user device b _ h => absurd h (ha user device b)) ?_
  intro t hst u hu _
  exact .inl (hu.absent ((hs.rely hst).absent))

theorem exec_commit {c : Conditions} {s t : Database ι} {a : Except JsError Unit}
    {writes : List Write} (hp : s.pending i = some writes)
    (h : exec i c .commitTransaction s = some (a, t)) :
    (∃ e, a = .error e ∧ t = s.endTransaction i) ∨ (a = .ok () ∧ t = s.commit i) := by
  simp only [exec, hp] at h
  cases hf : c.failure with
  | some e =>
    simp only [hf, Option.some.injEq, Prod.mk.injEq] at h
    exact .inl ⟨e, h.1.symm, h.2.symm⟩
  | none =>
    simp only [hf, Option.some.injEq, Prod.mk.injEq] at h
    exact .inr ⟨h.1.symm, h.2.symm⟩

/-- What a commit has to show about the table it makes visible. -/
structure NextTable (userId : JsString) (total : List (JsString × Json))
    (Kept : ℕ → List Prekey → Prop) (i : ι) (s : Database ι) (rows : List Prekey) : Prop where
  pool : remaining userId rows = total.drop (s.history.length + 1)
  wellFormed : ∀ r ∈ rows, r.userId = userId → WellFormed r.bundle
  kept : Kept (s.history.length + 1) rows
  ids : rows.map Prekey.id = s.prekeys.rows.map Prekey.id
  others : ∀ j, j ≠ i → Covers userId j s → stocked userId rows = stocked userId s.prekeys.rows

theorem commit_rely {s : Database ι}
    (h : NextTable userId total Kept i s (s.view i .queryRunner).rows) {j : ι} (hj : j ≠ i) :
    Rely userId j s (s.commit i) where
  locks := (local_endTransaction s i).locks j hj
  pending := (local_endTransaction s i).pending j hj
  answers := rfl
  history := List.prefix_append _ _
  absent hn := by simp [Database.commit, hn, hj]
  ids := by
    change ∀ id ∈ _, id ∈ (s.view i .queryRunner).rows.map Prekey.id
    rw [h.ids]
    exact fun _ => id
  stocked := h.others j hj

theorem commit_guarantee {s : Database ι}
    (h : NextTable userId total Kept i s (s.view i .queryRunner).rows) :
    Guarantee userId alone i s (s.commit i) where
  others _ hj := commit_rely h hj
  history := List.prefix_append _ _
  unchanged _ hsame := by simp [Database.commit] at hsame

theorem commit_inv {s : Database ι} (hs : Inv userId total Kept s) (hi : Fresh i s)
    (h : NextTable userId total Kept i s (s.view i .queryRunner).rows) :
    Inv userId total Kept (s.commit i) := by
  have hlength : (s.commit i).history.length = s.history.length + 1 := by
    simp [Database.commit]
  refine ⟨?_, h.wellFormed, ?_, ?_, hs.single, fun j user device b hb => ?_⟩
  · rw [hlength]
    exact h.pool
  · rw [hlength]
    exact h.kept
  · exact List.nodup_append.mpr ⟨hs.once, List.nodup_singleton i, fun a ha b hb hab =>
      hi.absent (List.mem_singleton.mp hb ▸ hab ▸ ha)⟩
  · -- the committing request has no answer yet, and the others keep their position
    have hj : j ≠ i := by
      rintro rfl
      have hnil : (s.commit j).answers j = [] := hi.unanswered
      rw [hnil] at hb
      cases hb
    obtain ⟨n, hn, ha⟩ := hs.settled j user device b hb
    exact Settled.rely ⟨n, hn, ha⟩ (commit_rely h hj)

/-- A commit takes its place in the history, or it fails and changes no row. -/
theorem safe_commit {locked : Table} {writes : List Write} {s : Database ι}
    (hs : Serving userId locked writes i s)
    (hnext : ∀ t, Rely userId i s t → Inv userId total Kept t →
      Serving userId locked writes i t →
      NextTable userId total Kept i t (t.view i .queryRunner).rows) :
    Safe exec ok (protocol userId total Kept alone) i
      (fun r v => match r with
        | .ok _ => ∃ n : ℕ, Committed n i v ∧
          total.drop n = remaining userId locked.rows
        | .error _ => Fresh i v)
      (Program.attempt (perform .commitTransaction)) s := by
  intro t hst ht _ c a v hx
  have hserving := hs.rely hst
  rcases exec_commit hserving.pending hx with ⟨e, rfl, rfl⟩ | ⟨rfl, rfl⟩
  · have hlocal := local_endTransaction t i
    refine ⟨hlocal.inv rfl ht, hlocal.guarantee, fun u hu _ => ?_⟩
    have hfresh : Fresh i (t.endTransaction i) :=
      ⟨hserving.fresh.absent, hserving.fresh.unanswered⟩
    exact hfresh.rely hu
  · have hnew := hnext t hst ht hserving
    have hcommitted : Committed t.history.length i (t.commit i) :=
      ⟨by simp [Database.commit], hserving.fresh.unanswered⟩
    refine ⟨commit_inv ht hserving.fresh hnew, commit_guarantee hnew,
      fun u hu _ => ⟨t.history.length, hcommitted.rely hu, ?_⟩⟩
    rw [← ht.pool, remaining_congr hserving.stocked]

/-- What `Kept` has to survive: a commit that finds no prekey, and one that takes one. -/
structure Stable (userId : JsString) (Kept : ℕ → List Prekey → Prop) : Prop where
  idle : ∀ {n rows}, Kept n rows → remaining userId rows = [] → Kept (n + 1) rows
  consume : ∀ {n} {t : Table} {c : Prekey} {ks : List Json} {now : ℕ}, Kept n t.rows →
    c ∈ PrekeyPools.stocked userId t.rows → WellFormed c.bundle →
    WellFormed (withPreKeys c.bundle ks) →
    pools userId ((Write.update c.id ⟨some (withPreKeys c.bundle ks), none⟩ now).apply t).rows =
      draw (pools userId t.rows) →
    Kept (n + 1) ((Write.update c.id ⟨some (withPreKeys c.bundle ks), none⟩ now).apply t).rows

/-- How the body of the `try` block ends. -/
def Served (total : List (JsString × Json)) (i : ι) (r : Except JsError Unit)
    (s : Database ι) : Prop :=
  match r with
  | .ok _ => Settled total i s
  | .error _ => Fresh i s

/-- Answer after the `n`-th commit with what it took. -/
theorem safe_answer {n : ℕ} {a : Answer} {s : Database ι} (hs : Committed n i s)
    (ha : handedOut [a] = (total[n]?).toList) :
    Safe exec ok (protocol userId total Kept alone) i (Served total i) (perform (.respond a))
      s := by
  have hsettled : ∀ t, Rely userId i s t → Settled total i (t.respond i a) := by
    intro t hst
    have ht := hs.rely hst
    refine ⟨n, ht.position, ?_⟩
    simpa [Database.respond, ht.unanswered] using ha
  exact safe_respond hs.unanswered (fun t _ _ _ hst _ => hsettled t hst)
    fun t hst u hu _ => (hsettled t hst).rely hu

/-- Commit without a write and answer without a prekey, when no pool has one. -/
theorem safe_exhausted (hkept : Stable userId Kept) {locked : Table} {a : Answer}
    {s : Database ι} (hs : Serving userId locked [] i s)
    (hempty : remaining userId locked.rows = []) (ha : handedOut [a] = [])
    (hinv : Inv userId total Kept s) :
    Safe exec ok (protocol userId total Kept alone) i (Served total i)
      ((Program.attempt (perform .commitTransaction)).bind fun _ => perform (.respond a)) s := by
  refine (safe_commit hs fun t hst ht hserving => ?_).bind ?_ (fun e t _ h => h) hinv
  · have hview : (t.view i .queryRunner).rows = t.prekeys.rows := by
      simp [Database.view, hserving.pending]
    have hnil : remaining userId t.prekeys.rows = [] :=
      (remaining_congr hserving.stocked).trans hempty
    have hdrop : total.drop (t.history.length + 1) = [] := by
      rw [← List.tail_drop, ← ht.pool, hnil, List.tail_nil]
    rw [hview]
    exact ⟨hnil.trans hdrop.symm, ht.wellFormed, hkept.idle ht.kept hnil, rfl,
      fun _ _ _ => rfl⟩
  · rintro - t - ⟨n, hn, hdrop⟩
    refine safe_answer hn ?_
    rw [ha, List.getElem?_eq_none (List.drop_eq_nil_iff.mp (hdrop.trans hempty))]
    rfl

theorem write_queryRunner {s : Database ι} {writes : List Write} (hp : s.pending i = some writes)
    (w : Write) : s.write i .queryRunner w = { s with
      pending := Function.update s.pending i (some (writes ++ [w]))
      locks := s.locks.acquire i [w.row] } := by
  simp [Database.write, hp]

theorem write_dataSource (s : Database ι) (i : ι) (w : Write) :
    s.write i .dataSource w = { s with prekeys := w.apply s.prekeys } := by
  simp [Database.write]

theorem exec_update {c : Conditions} {m : Manager} {id : JsString} {changes : PrekeyChanges}
    {s t : Database ι} {a : Except JsError Unit}
    (h : exec i c (.update m id changes) s = some (a, t)) :
    (∃ e, a = .error e ∧ t = s) ∨
      (a = .ok () ∧ s.locks.Available i id ∧ t = s.write i m (.update id changes c.now)) := by
  simp only [exec] at h
  split at h
  · simp only [Option.some.injEq, Prod.mk.injEq] at h
    exact .inl ⟨_, h.1.symm, h.2.symm⟩
  · split at h
    · rename_i havailable
      simp only [Option.some.injEq, Prod.mk.injEq] at h
      exact .inr ⟨h.1.symm, havailable, h.2.symm⟩
    · cases h

theorem exec_insert {c : Conditions} {id : Option JsString} {row : NewPrekey}
    {s t : Database ι} {a : Except JsError Unit}
    (h : exec i c (.insert .dataSource id row) s = some (a, t)) :
    (∃ e, a = .error e ∧ t = s) ∨
      ∃ r, a = .ok () ∧ row.toRow c id = .ok r ∧ r.id ∉ s.prekeys.rows.map Prekey.id ∧
        t = { s with prekeys := (Write.insert r).apply s.prekeys } := by
  simp only [exec] at h
  split at h
  · simp only [Option.some.injEq, Prod.mk.injEq] at h
    exact .inl ⟨_, h.1.symm, h.2.symm⟩
  · simp only [Option.some.injEq, Prod.mk.injEq] at h
    exact .inl ⟨_, h.1.symm, h.2.symm⟩
  · rename_i r _ hr
    split at h
    · simp only [Option.some.injEq, Prod.mk.injEq] at h
      exact .inl ⟨_, h.1.symm, h.2.symm⟩
    · rename_i hid
      simp only [Option.some.injEq, Prod.mk.injEq] at h
      exact .inr ⟨r, h.1.symm, hr, hid, h.2.symm⟩

/-- A write inside the transaction is not noticed by others, and keeps what is known. -/
theorem serving_write {locked : Table} {writes : List Write} {s : Database ι}
    (hs : Serving userId locked writes i s) (w : Write) (hw : s.locks.Available i w.row) :
    Local i s (s.write i .queryRunner w) ∧
      (s.write i .queryRunner w).answers i = s.answers i ∧
      Serving userId locked (writes ++ [w]) i (s.write i .queryRunner w) := by
  rw [write_queryRunner hs.pending]
  refine ⟨⟨rfl, rfl, fun j hj => Function.update_of_ne hj _ _, fun _ _ => rfl,
    fun j hj => Locks.acquire_other hj fun k hk => List.mem_singleton.mp hk ▸ hw⟩, rfl,
    ⟨hs.fresh.absent, hs.fresh.unanswered⟩, Function.update_self _ _ _, fun r hr => ?_,
    hs.stocked⟩
  by_cases hrow : r.id ∈ [w.row]
  · exact Locks.acquire_of_mem hrow
  · exact (if_neg hrow).trans (hs.covers r hr)

section Consumption

variable {locked : Table} {c : Prekey} {k : Json} {ks : List Json}

/-- The changes that `save` finds when one prekey was consumed. -/
def consumption (c : Prekey) (ks : List Json) : PrekeyChanges :=
  ⟨some (withPreKeys c.bundle ks), none⟩

theorem changesFrom_consumed (hpool : poolOf c.bundle = k :: ks) :
    changesFrom { c with bundle := withPreKeys c.bundle ks } c = consumption c ks := by
  have hne : withPreKeys c.bundle ks ≠ c.bundle := by
    intro heq
    have hks : ks = k :: ks := by
      rw [← hpool, ← heq, poolOf_withPreKeys]
    exact List.cons_ne_self k ks hks.symm
  simp [changesFrom, consumption, differing_of_ne hne]

omit [DecidableEq ι] in
theorem nextRow_of_serving {writes : List Write} {s : Database ι}
    (hs : Serving userId locked writes i s) (hc : nextRow userId locked.rows = some c) :
    nextRow userId s.prekeys.rows = some c ∧ c ∈ stocked userId s.prekeys.rows := by
  have hnext : nextRow userId s.prekeys.rows = some c := (nextRow_congr hs.stocked).trans hc
  exact ⟨hnext, nextRow_mem hnext⟩

/-- `save` inside the transaction: the row is as it was when it was chosen. -/
theorem safe_save {s : Database ι} (hs : Serving userId locked [] i s)
    (hc : nextRow userId locked.rows = some c) (hpool : poolOf c.bundle = k :: ks) :
    Safe exec ok (protocol userId total Kept alone) i
      (fun r t => match r with
        | .ok _ => ∃ now, Serving userId locked [.update c.id (consumption c ks) now] i t
        | .error _ => Fresh i t)
      (save .queryRunner { c with bundle := withPreKeys c.bundle ks }) s := by
  refine safe_silent (.reread .queryRunner c.id) trivial fun t conditions a v hst ht hx _ => ?_
  have hserving := hs.rely hst
  have hmem := (mem_stocked.mp (nextRow_of_serving hserving hc).2).1
  have hfind : (t.view i .queryRunner).find c.id = some c := by
    simpa [Database.view, hserving.pending] using KeyedTable.find_eq_some.mpr ⟨hmem, rfl⟩
  simp only [exec, Option.some.injEq, Prod.mk.injEq, hfind] at hx
  obtain ⟨rfl, rfl⟩ := hx
  cases hf : conditions.failure with
  | some e =>
    simp only [Conditions.outcome, hf]
    exact fun u hu _ => hserving.fresh.rely hu
  | none =>
    have hne : consumption c ks ≠ PrekeyChanges.none := by
      simp [consumption, PrekeyChanges.none]
    simp only [Conditions.outcome, hf, Program.bind_ok, changesFrom_consumed hpool, if_neg hne]
    intro u hu hinv _ conditions' a' w hx'
    have hserving' := hserving.rely hu
    rcases exec_update hx' with ⟨e, rfl, rfl⟩ | ⟨rfl, havailable, rfl⟩
    · exact ⟨hinv, (Local.refl i w).guarantee, fun z hz _ => hserving'.fresh.rely hz⟩
    · rw [changesFrom_consumed hpool]
      obtain ⟨hlocal, hanswers, hwritten⟩ := serving_write hserving'
        (.update c.id (consumption c ks) conditions'.now) havailable
      exact ⟨hlocal.inv hanswers hinv, hlocal.guarantee,
        fun z hz _ => ⟨conditions'.now, hwritten.rely hz⟩⟩

omit [DecidableEq ι] in
theorem nextTable_consume (hkept : Stable userId Kept) {now : ℕ} {s : Database ι}
    (hinv : Inv userId total Kept s)
    (hs : Serving userId locked [.update c.id (consumption c ks) now] i s)
    (hc : nextRow userId locked.rows = some c) (hpool : poolOf c.bundle = k :: ks) :
    NextTable userId total Kept i s (s.view i .queryRunner).rows := by
  obtain ⟨hnext, hmem⟩ := nextRow_of_serving hs hc
  obtain ⟨hrow, huser, -⟩ := mem_stocked.mp hmem
  have hwf := hinv.wellFormed c hrow huser
  have hconsumed := hwf.consumed hpool
  have hstored : stored (withPreKeys c.bundle ks) = withPreKeys c.bundle ks := hconsumed.storable
  obtain ⟨hpools, hremaining⟩ := pools_consume (consumption c ks) now hnext hpool rfl
    ((congrArg poolOf hstored).trans (poolOf_withPreKeys c.bundle ks))
  have hview : s.view i .queryRunner =
      (Write.update c.id (consumption c ks) now).apply s.prekeys := by
    simp [Database.view, hs.pending]
  rw [hview]
  refine ⟨?_, fun r hr hu => ?_, hkept.consume hinv.kept hmem hwf hconsumed hpools, ?_, ?_⟩
  · rw [← List.tail_drop, ← hinv.pool, hremaining, List.tail_cons]
  · rw [update_rows, List.mem_map] at hr
    obtain ⟨r₀, hr₀, rfl⟩ := hr
    split
    · change WellFormed (stored (withPreKeys c.bundle ks))
      rwa [hstored]
    · rename_i hid
      simp only [hid, if_false] at hu
      exact hinv.wellFormed r₀ hr₀ hu
  · rw [update_rows, List.map_map]
    refine List.map_congr_left fun r _ => ?_
    simp only [Function.comp_apply]
    split <;> rfl
  · intro j hj hcovers
    have hboth : some i = some j := (hs.covers c hmem).symm.trans (hcovers c hmem)
    exact absurd (Option.some.inj hboth).symm hj

/-- The branch that consumes: save, commit, answer. -/
theorem safe_consume (hkept : Stable userId Kept) {s : Database ι}
    (hinv : Inv userId total Kept s) (hs : Serving userId locked [] i s)
    (hc : nextRow userId locked.rows = some c) (hpool : poolOf c.bundle = k :: ks) :
    Safe exec ok (protocol userId total Kept alone) i (Served total i) (consumeFrom c) s := by
  obtain ⟨hrow, huser, -⟩ := mem_stocked.mp (nextRow_of_serving hs hc).2
  have hwf := hinv.wellFormed c hrow huser
  have hresult := consumeOneTimePreKey_eq hwf (hwf.published (by simp [hpool]))
  rw [hpool] at hresult
  simp only [consumeFrom, hresult, sync, Program.bind_eq, Program.bind_ok]
  refine (safe_save hs hc hpool).bind ?_ (fun e t _ h => h) hinv
  rintro - t ht ⟨now, hserving⟩
  refine (safe_commit hserving fun u hu hinv' hserving' =>
    nextTable_consume hkept hinv' hserving' hc hpool).bind ?_ (fun e u _ h => h) ht
  rintro - u - ⟨n, hn, hdrop⟩
  refine safe_answer hn ?_
  have hstored : stored (withPreKeys c.bundle ks) = withPreKeys c.bundle ks :=
    (hwf.consumed hpool).storable
  obtain ⟨-, hremaining⟩ := pools_consume (consumption c ks) now hc hpool rfl
    ((congrArg poolOf hstored).trans (poolOf_withPreKeys c.bundle ks))
  have hfirst : total[n]? = some (c.deviceId, k) := by
    rw [← List.head?_drop, hdrop, hremaining, List.head?_cons]
  rw [hfirst]
  rfl

end Consumption

theorem exec_lockRows {c : Conditions} {s t : Database ι} {a : Except JsError (List Prekey)}
    (h : exec i c (.lockRows userId) s = some (a, t)) :
    (∃ e, a = .error e ∧ t = s) ∨
      (a = .ok (listing userId (s.view i .queryRunner).rows) ∧
        t = { s with
          locks := s.locks.acquire i
            ((listing userId (s.view i .queryRunner).rows).map Prekey.id) }) := by
  simp only [exec] at h
  split at h
  · simp only [Option.some.injEq, Prod.mk.injEq] at h
    exact .inl ⟨_, h.1.symm, h.2.symm⟩
  · split at h
    · simp only [Option.some.injEq, Prod.mk.injEq] at h
      exact .inr ⟨h.1.symm, h.2.symm⟩
    · cases h

/-- What follows the lock, for the rows that the table had at that moment. -/
theorem safe_locked (hkept : Stable userId Kept) {locked : Table} {s : Database ι}
    (hwf : ∀ r ∈ listing userId locked.rows, WellFormed r.bundle)
    (hinv : Inv userId total Kept s) (hs : Serving userId locked [] i s) :
    Safe exec ok (protocol userId total Kept alone) i (Served total i)
      (if listing userId locked.rows = [] then noBundle
      else (sync (chosenBundle (listing userId locked.rows))).bind fun chosen =>
        match chosen with
        | none => noBundle
        | some chosen => (sync (isPrekeyBundle chosen.bundle)).bind fun published =>
          if published then consumeFrom chosen else noBundle) s := by
  cases hc : nextRow userId locked.rows with
  | some c =>
    obtain ⟨-, huser, hstocked⟩ := mem_stocked.mp (nextRow_mem hc)
    have hlisted : c ∈ listing userId locked.rows := List.mem_of_find?_eq_some hc
    have hne : poolOf c.bundle ≠ [] := by simpa [Stocked] using hstocked
    obtain ⟨k, ks, hpool⟩ := List.exists_cons_of_ne_nil hne
    rw [if_neg (List.ne_nil_of_mem hlisted)]
    simp only [chosenBundle_stocked hwf hc, (hwf c hlisted).published hne, sync,
      Program.bind_ok, if_true]
    exact safe_consume hkept hinv hs hc hpool
  | none =>
    have hempty := nextRow_eq_none.mp hc
    obtain ⟨chosen, hchosen, hmem⟩ := chosenBundle_exhausted hwf hc
    split
    · exact safe_exhausted hkept hs hempty rfl hinv
    · simp only [hchosen, sync, Program.bind_ok]
      cases chosen with
      | none => exact safe_exhausted hkept hs hempty rfl hinv
      | some b =>
        have hlisted := hmem b rfl
        obtain ⟨published, hb⟩ := (hwf b hlisted).isPrekeyBundle_ok
        cases published with
        | false =>
          simp only [hb, Program.bind_ok]
          exact safe_exhausted hkept hs hempty rfl hinv
        | true =>
          have hpool : poolOf b.bundle = [] := by
            simpa [Stocked] using List.find?_eq_none.mp hc b hlisted
          have hresult := consumeOneTimePreKey_eq (hwf b hlisted) hb
          rw [hpool] at hresult
          simp only [hb, Program.bind_ok, if_true, consumeFrom, hresult, sync, Program.bind_eq]
          exact safe_exhausted hkept hs hempty rfl hinv

theorem exec_startTransaction {c : Conditions} {s t : Database ι}
    (h : exec i c .startTransaction s = some (.ok (), t)) : t.pending i = some [] := by
  simp only [exec] at h
  split at h
  · simp at h
  · simp only [Option.some.injEq, Prod.mk.injEq, true_and] at h
    rw [← h]
    exact Function.update_self _ _ _

theorem handOut_safe (hkept : Stable userId Kept) {s : Database ι} (hs : Fresh i s)
    (hpending : s.pending i = some []) :
    Safe exec ok (protocol userId total Kept alone) i (Served total i) (handOut userId) s := by
  refine safe_silent (.lockRows userId) trivial fun t c a v hst ht hx hv => ?_
  rcases exec_lockRows hx with ⟨e, rfl, rfl⟩ | ⟨rfl, rfl⟩
  · exact fun u hu _ => (hs.rely hst).rely hu
  · have hview : t.view i .queryRunner = t.prekeys := by
      simp [Database.view, hst.pending.trans hpending]
    simp only [hview] at hv ⊢
    have hwf : ∀ r ∈ listing userId t.prekeys.rows, WellFormed r.bundle := by
      intro r hr
      obtain ⟨hr, hu⟩ := mem_listing.mp hr
      exact ht.wellFormed r hr hu
    refine safe_locked hkept hwf hv ⟨?_, ?_, ?_, rfl⟩
    · exact ⟨(hs.rely hst).absent, (hs.rely hst).unanswered⟩
    · exact hst.pending.trans hpending
    · intro r hr
      obtain ⟨hr, hu, -⟩ := mem_stocked.mp hr
      exact Locks.acquire_of_mem (List.mem_map_of_mem (mem_listing.mpr ⟨hr, hu⟩))

/-- The error path: roll back, whether or not that fails, and pass the error on. -/
theorem rollbackAndForward_safe (e : JsError) {s : Database ι} (hs : Fresh i s) :
    Safe exec ok (protocol userId total Kept alone) i (fun _ t => Outcome total i t)
      (rollbackAndForward e) s := by
  refine safe_silent .rollbackTransaction trivial fun t c a v hst ht hx hv => ?_
  have hfresh : Fresh i v := (hs.rely hst).exec_silent hx trivial
  cases a with
  | ok _ => exact safe_refuse hfresh (by simp)
  | error _ => exact safe_refuse hfresh (by simp)

theorem release_safe (r : Except JsError Unit) {s : Database ι} (hs : Outcome total i s) :
    Safe exec ok (protocol userId total Kept alone) i (fun _ t => Outcome total i t)
      ((Program.attempt (perform .release)).bind fun _ => .done r) s := by
  refine safe_silent .release trivial fun t c a v hst ht hx _ => ?_
  have hreleased : Outcome total i v := by
    obtain ⟨hlocal, hanswers⟩ := exec_silent hx trivial
    rcases hs.rely hst with h | ⟨n, hn, ha⟩
    · exact .inl (hlocal.history ▸ h)
    · exact .inr ⟨n, hlocal.history ▸ hn, hanswers ▸ ha⟩
  cases a with
  | error e => exact fun u hu _ => hreleased.rely hu
  | ok _ => exact fun u hu _ => hreleased.rely hu

/-- `getPrekeyBundle` takes the prekey that its place in the history assigns to it, or it
commits and takes nothing. -/
theorem getPrekeyBundle_safe (hkept : Stable userId Kept) {s : Database ι} (hs : Fresh i s) :
    Safe exec ok (protocol userId total Kept alone) i (fun _ t => Outcome total i t)
      (getPrekeyBundle userId) s := by
  unfold getPrekeyBundle
  split
  · exact safe_refuse hs (by simp)
  · refine safe_silent .connect trivial fun t c a v hst ht hx hv => ?_
    have hconnected : Fresh i v := (hs.rely hst).exec_silent hx trivial
    cases a with
    | error e => exact fun u hu _ => .inl (hconnected.rely hu).absent
    | ok _ =>
      refine safe_silent .startTransaction trivial fun u c' a' w hvu hu hx' hw => ?_
      have hstarted : Fresh i w := (hconnected.rely hvu).exec_silent hx' trivial
      cases a' with
      | error e => exact fun z hz _ => .inl (hstarted.rely hz).absent
      | ok _ =>
        have hbody : Safe exec ok (protocol userId total Kept alone) i
            (fun _ z => Outcome total i z)
            (Program.tryCatch (handOut userId) rollbackAndForward) w :=
          (handOut_safe hkept hstarted (exec_startTransaction hx')).tryCatch
            (fun _ z _ h => .inr h) (fun e z _ h => rollbackAndForward_safe e h) hw
        exact hbody.tryFinally (fun r z _ h => release_safe r h) hw

end ChatMicroservices.PrekeyHandOut
