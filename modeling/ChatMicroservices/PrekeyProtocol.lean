import ChatMicroservices.PrekeyPools

/-!
# What the prekey requests promise each other

The protocol of the requests for one user. `total` are the prekeys at the start, and the
`n`-th commit takes the `n`-th of them, if there is one. A request that holds the locks of
all rows with a prekey may assume that these rows stay as they are. `Kept` is a further
property of the rows that may depend on the number of commits, and `alone` says that every
request is a `getPrekeyBundle`, so that rows change with commits only.
-/

namespace ChatMicroservices.PrekeyProtocol
open JavaScriptValues EffectPrograms ConcurrentPrograms KeyedTables OrderedPools
open PrekeyBundles PrekeyDatabase PrekeyController PrekeyPools

variable {ι : Type}

/-- The one-time prekeys of the 200 responses, each with the device of its bundle. -/
def handedOut (answers : List Answer) : List (JsString × Json) :=
  answers.flatMap fun
    | .bundle _ deviceId bundle => bundle.preKeys.map fun k => (deviceId, k)
    | .keys _ _ | .invalid _ | .message _ _ | .next _ => []

/-- Request `i` holds the lock of every row that still has a prekey. -/
def Covers (userId : JsString) (i : ι) (s : Database ι) : Prop :=
  ∀ r ∈ stocked userId s.prekeys.rows, s.locks r.id = some i

/-- Request `i` has committed and answered with what its commit took. -/
def Settled (total : List (JsString × Json)) (i : ι) (s : Database ι) : Prop :=
  ∃ n : ℕ, s.history[n]? = some i ∧ handedOut (s.answers i) = (total[n]?).toList

structure Inv (userId : JsString) (total : List (JsString × Json))
    (Kept : ℕ → List Prekey → Prop) (s : Database ι) : Prop where
  pool : remaining userId s.prekeys.rows = total.drop s.history.length
  wellFormed : ∀ r ∈ s.prekeys.rows, r.userId = userId → WellFormed r.bundle
  kept : Kept s.history.length s.prekeys.rows
  once : s.history.Nodup
  single : ∀ i, (s.answers i).length ≤ 1
  settled : ∀ i user device bundle, .bundle user device bundle ∈ s.answers i → Settled total i s

/-- What request `i` may assume of the others. -/
structure Rely (userId : JsString) (i : ι) (s t : Database ι) : Prop where
  locks : ∀ id, t.locks id = some i ↔ s.locks id = some i
  pending : t.pending i = s.pending i
  answers : t.answers i = s.answers i
  history : s.history <+: t.history
  absent : i ∉ s.history → i ∉ t.history
  ids : ∀ id ∈ s.prekeys.rows.map Prekey.id, id ∈ t.prekeys.rows.map Prekey.id
  stocked : Covers userId i s → stocked userId t.prekeys.rows = stocked userId s.prekeys.rows

theorem Rely.refl (userId : JsString) (i : ι) (s : Database ι) : Rely userId i s s where
  locks _ := Iff.rfl
  pending := rfl
  answers := rfl
  history := List.prefix_refl _
  absent := id
  ids _ := id
  stocked _ := rfl

theorem Rely.covers {userId : JsString} {i : ι} {s t : Database ι} (h : Rely userId i s t)
    (hc : Covers userId i s) : Covers userId i t := by
  intro r hr
  rw [h.stocked hc] at hr
  exact (h.locks r.id).mpr (hc r hr)

theorem Rely.trans {userId : JsString} {i : ι} {s t u : Database ι} (h : Rely userId i s t)
    (h' : Rely userId i t u) : Rely userId i s u where
  locks id := (h'.locks id).trans (h.locks id)
  pending := h'.pending.trans h.pending
  answers := h'.answers.trans h.answers
  history := h.history.trans h'.history
  absent hi := h'.absent (h.absent hi)
  ids id hid := h'.ids id (h.ids id hid)
  stocked hc := (h'.stocked (h.covers hc)).trans (h.stocked hc)

/-- Each request promises to every other what that one assumes. -/
structure Guarantee (userId : JsString) (alone : Prop) (i : ι) (s t : Database ι) : Prop where
  others : ∀ j, j ≠ i → Rely userId j s t
  history : s.history <+: t.history
  unchanged : alone → t.history = s.history → t.prekeys = s.prekeys

def protocol (userId : JsString) (total : List (JsString × Json))
    (Kept : ℕ → List Prekey → Prop) (alone : Prop) : Protocol ι (Database ι) where
  inv := Inv userId total Kept
  rely := Rely userId
  guar := Guarantee userId alone
  rely_refl := Rely.refl userId
  rely_trans _ := Rely.trans
  compatible hij := fun _ hg => hg.others _ hij

theorem Settled.rely {userId : JsString} {total : List (JsString × Json)} {i : ι}
    {s t : Database ι} (h : Settled total i s) (hst : Rely userId i s t) :
    Settled total i t := by
  obtain ⟨n, hn, ha⟩ := h
  refine ⟨n, ?_, hst.answers ▸ ha⟩
  obtain ⟨rest, hrest⟩ := hst.history
  rw [← hrest, List.getElem?_append_left (List.getElem?_eq_some_iff.mp hn).1]
  exact hn

/-- Only the transaction, the locks and the answers of request `i` change. -/
structure Local (i : ι) (s t : Database ι) : Prop where
  prekeys : t.prekeys = s.prekeys
  history : t.history = s.history
  pending : ∀ j, j ≠ i → t.pending j = s.pending j
  answers : ∀ j, j ≠ i → t.answers j = s.answers j
  locks : ∀ j, j ≠ i → ∀ id, t.locks id = some j ↔ s.locks id = some j

theorem Local.refl (i : ι) (s : Database ι) : Local i s s :=
  ⟨rfl, rfl, fun _ _ => rfl, fun _ _ => rfl, fun _ _ _ => Iff.rfl⟩

theorem Local.rely {userId : JsString} {i j : ι} {s t : Database ι} (h : Local i s t)
    (hj : j ≠ i) : Rely userId j s t where
  locks := h.locks j hj
  pending := h.pending j hj
  answers := h.answers j hj
  history := h.history ▸ List.prefix_refl _
  absent := by rw [h.history]; exact id
  ids := by rw [h.prekeys]; exact fun _ => id
  stocked _ := by rw [h.prekeys]

theorem Local.guarantee {userId : JsString} {alone : Prop} {i : ι} {s t : Database ι}
    (h : Local i s t) : Guarantee userId alone i s t where
  others _ hj := h.rely hj
  history := h.history ▸ List.prefix_refl _
  unchanged _ _ := h.prekeys

theorem Local.inv {userId : JsString} {total : List (JsString × Json)}
    {Kept : ℕ → List Prekey → Prop} {i : ι} {s t : Database ι} (h : Local i s t)
    (hi : t.answers i = s.answers i) (hs : Inv userId total Kept s) :
    Inv userId total Kept t := by
  have hanswers : t.answers = s.answers := by
    funext j
    by_cases hj : j = i
    · exact hj ▸ hi
    · exact h.answers j hj
  obtain ⟨hpool, hwf, hkept, honce, hsingle, hsettled⟩ := hs
  refine ⟨?_, ?_, ?_, ?_, ?_, ?_⟩
  · rwa [h.prekeys, h.history]
  · rwa [h.prekeys]
  · rwa [h.prekeys, h.history]
  · rwa [h.history]
  · rwa [hanswers]
  · unfold Settled at hsettled ⊢
    rwa [hanswers, h.history]

variable [DecidableEq ι]

theorem local_endTransaction (s : Database ι) (i : ι) : Local i s (s.endTransaction i) where
  prekeys := rfl
  history := rfl
  pending _ hj := Function.update_of_ne hj _ _
  answers _ _ := rfl
  locks _ hj := Locks.releaseAll_other hj

omit [DecidableEq ι] in
theorem local_acquire {s : Database ι} {i : ι} {ids : List JsString}
    (h : ∀ id ∈ ids, s.locks.Available i id) :
    Local i s { s with locks := s.locks.acquire i ids } where
  prekeys := rfl
  history := rfl
  pending _ _ := rfl
  answers _ _ := rfl
  locks _ hj := Locks.acquire_other hj h

theorem local_pending (s : Database ι) (i : ι) (writes : Option (List Write)) :
    Local i s { s with pending := Function.update s.pending i writes } where
  prekeys := rfl
  history := rfl
  pending _ hj := Function.update_of_ne hj _ _
  answers _ _ := rfl
  locks _ _ _ := Iff.rfl

theorem local_respond (s : Database ι) (i : ι) (a : Answer) : Local i s (s.respond i a) where
  prekeys := rfl
  history := rfl
  pending _ _ := rfl
  answers _ hj := Function.update_of_ne hj _ _
  locks _ _ _ := Iff.rfl

/-- The operations that write no row and answer nobody. -/
def Silent : Op → Prop
  | .connect | .startTransaction | .rollbackTransaction | .release => True
  | .lockRows _ | .findOne _ _ | .findLatest _ _ | .reread _ _ | .now => True
  | .commitTransaction | .insert _ _ _ | .update _ _ _ | .respond _ => False

theorem exec_silent {i : ι} {c : Conditions} {op : Op} {s t : Database ι} {a : Ans op}
    (h : exec i c op s = some (a, t)) (hop : Silent op) :
    Local i s t ∧ t.answers i = s.answers i := by
  cases op with
  | connect | release | findOne _ _ | findLatest _ _ | reread _ _ | now =>
    obtain rfl : s = t := congrArg Prod.snd (Option.some.inj h)
    exact ⟨Local.refl i s, rfl⟩
  | rollbackTransaction =>
    obtain rfl : s.endTransaction i = t := congrArg Prod.snd (Option.some.inj h)
    exact ⟨local_endTransaction s i, rfl⟩
  | startTransaction =>
    simp only [exec] at h
    split at h
    · obtain rfl : s = t := congrArg Prod.snd (Option.some.inj h)
      exact ⟨Local.refl i s, rfl⟩
    · obtain rfl := congrArg Prod.snd (Option.some.inj h)
      exact ⟨local_pending s i (some []), rfl⟩
  | lockRows userId =>
    simp only [exec] at h
    split at h
    · obtain rfl : s = t := congrArg Prod.snd (Option.some.inj h)
      exact ⟨Local.refl i s, rfl⟩
    · split at h
      · rename_i havailable
        obtain rfl := congrArg Prod.snd (Option.some.inj h)
        refine ⟨local_acquire fun id hid => ?_, rfl⟩
        obtain ⟨r, hr, rfl⟩ := List.mem_map.mp hid
        exact havailable r hr
      · cases h
  | commitTransaction | insert _ _ _ | update _ _ _ | respond _ => exact hop.elim

end ChatMicroservices.PrekeyProtocol
