import ChatMicroservices.ConversationPages

/-!
# Walking the pages of a conversation

A client asks for page after page, each time with the offset increased by the limit that the
response reports, until the response says that there is no more. The query orders messages by
their time alone, so the walk is exact only where no page ends between two messages of the same
time, and where the offsets are small enough to be doubles.
-/

namespace ChatMicroservices.PageWalks
open JavaScriptValues JSON EffectPrograms MessagesTable RelationalQueries ConversationPages
open DoubleRounding
open ChatEffects (AuthUser)

/-- What a client reads from a response. -/
structure Page where
  data : List Message
  pagination : Pagination

/-- The offset of the next request. -/
def advance (offset : ℕ) : Number → ℕ
  | .finite limit => offset + ⌊limit⌋₊
  | .infinite _ => offset

/-- The walk that starts with the query `n` at an offset. -/
inductive Walk (next : ℕ → ℕ → Option Page) : ℕ → ℕ → List (List Message) → Prop where
  | last {n offset : ℕ} {page : Page} (h : next n offset = some page)
      (hlast : page.pagination.hasMore = false) : Walk next n offset [page.data]
  | more {n offset : ℕ} {page : Page} {pages : List (List Message)}
      (h : next n offset = some page) (hmore : page.pagination.hasMore = true)
      (rest : Walk next (n + 1) (advance offset page.pagination.limit) pages) :
      Walk next n offset (page.data :: pages)

def Page.ofResult : Except JsError HttpResult → Option Page
  | .ok (.json _ _ data pagination) => some ⟨data, pagination⟩
  | _ => none

/-- The response to the request with number `n`; the offset is written as a decimal number. -/
def nextPage (dbs : ℕ → Database) (t : Table) (user : AuthUser) (receiverId limit : JsString)
    (n offset : ℕ) : Option Page :=
  Page.ofResult ((fetchConversation user receiverId [limit] [js (toString offset)]).run
    (exec dbs t) n).1

def Chronological (messages : List Message) : Prop :=
  messages.Pairwise fun a b => a.createdAt ≤ b.createdAt

/-- The walk ends, each page is in chronological order, and the pages together are the messages
of the conversation. -/
def WalksOnce (dbs : ℕ → Database) (t : Table) (user : AuthUser)
    (receiverId limit : JsString) : Prop :=
  ∃ pages, Walk (nextPage dbs t user receiverId limit) 0 0 pages ∧
    (∀ page ∈ pages, Chronological page) ∧
    pages.flatten.Perm (conversation t user.id receiverId)

/-- The `n` newest rows can be chosen in several ways. -/
def SplitsTie (rows : List Message) (n : ℕ) : Prop :=
  ∃ time, (rows.countP fun m => time < m.createdAt) < n ∧
    n < rows.countP fun m => time ≤ m.createdAt

/-- The number after which a page that starts at `offset` is compared with the total. -/
def hasMoreAt (limit total offset : ℕ) : Bool :=
  isBelow total (some (toDouble (offset + limit : ℕ)))

/-- The offsets of the pages are doubles, and the comparison with the total is right. -/
structure Representable (limit total : ℕ) : Prop where
  offsets : ∀ k, k * limit < total → toDouble (k * limit : ℕ) = .finite (k * limit : ℕ)
  sums : ∀ k, k * limit < total →
    hasMoreAt limit total (k * limit) = decide (k * limit + limit < total)

theorem isBelow_natCast (total n : ℕ) : isBelow total (some (.finite n)) = decide (n < total) := by
  simp [isBelow]

theorem representable_of_le {limit total : ℕ} (h : total + limit ≤ 2 ^ 53) :
    Representable limit total where
  offsets k hk := toDouble_natCast (by omega)
  sums k hk := by
    rw [hasMoreAt, toDouble_natCast (by omega), isBelow_natCast]

theorem Representable.offset_eq {limit total k : ℕ} (h : Representable limit total)
    (hk : k * limit < total ∨ k = 0) : toDouble (k * limit : ℕ) = .finite (k * limit : ℕ) := by
  rcases hk with hk | rfl
  · exact h.offsets k hk
  · exact toDouble_natCast (by omega)

/-- Rounding keeps the order of the offsets. -/
theorem toDouble_le {offset offset' skip skip' : ℕ} (hskip : toDouble offset = .finite skip)
    (hskip' : toDouble offset' = .finite skip') (hle : offset ≤ offset') : skip ≤ skip' := by
  rcases Nat.eq_zero_or_pos offset with rfl | hpos
  · have hzero : (0 : ℚ) = skip := by simpa [toDouble] using hskip
    have hskip : skip = 0 := by exact_mod_cast hzero.symm
    omega
  · have hpos' : (0 : ℚ) < offset := by exact_mod_cast hpos
    have hle' : (offset : ℚ) ≤ offset' := by exact_mod_cast hle
    obtain ⟨hrounded, hbound⟩ := toDouble_mono hpos' hle' hskip'
    rw [hskip] at hrounded
    obtain hsame : (skip : ℚ) = rounded offset := by simpa using hrounded
    rw [← hsame] at hbound
    exact_mod_cast hbound

/-- The responses to requests with a limit of `limit`, for the rows in the order in which each
query finds them. An offset that is not a natural number is not described. -/
structure Serves (next : ℕ → ℕ → Option Page) (limit : ℕ) (rows : List Message)
    (sorted : ℕ → List Message) : Prop where
  limit_pos : 0 < limit
  limit_le : limit ≤ 200
  nodup : rows.Nodup
  perm : ∀ n, (sorted n).Perm rows
  newest : ∀ n, (sorted n).Pairwise Newest
  page : ∀ n offset skip : ℕ, toDouble offset = .finite skip →
    next n offset = some ⟨(((sorted n).drop skip).take limit).reverse,
      ⟨rows.length, .finite limit, .finite skip, hasMoreAt limit rows.length skip⟩⟩

/-- An offset that is too large for a double is not answered. -/
def Refuses (next : ℕ → ℕ → Option Page) : Prop :=
  ∀ n offset : ℕ, toDouble offset = .infinite false → next n offset = none

section Serves

variable {next : ℕ → ℕ → Option Page} {limit : ℕ} {rows : List Message}
  {sorted : ℕ → List Message}

theorem advance_natCast (offset limit : ℕ) : advance offset (.finite limit) = offset + limit := by
  rw [advance, Nat.floor_natCast]

namespace Serves

variable (h : Serves next limit rows sorted)
include h

theorem length (n : ℕ) : (sorted n).length = rows.length := (h.perm n).length_eq

/-- The first page of a walk, and the walk of the other pages. -/
theorem cases_walk {n offset skip : ℕ} {pages : List (List Message)}
    (hskip : toDouble offset = .finite skip) (hwalk : Walk next n offset pages) :
    (hasMoreAt limit rows.length skip = false ∧
      pages = [(((sorted n).drop skip).take limit).reverse]) ∨
    (hasMoreAt limit rows.length skip = true ∧ ∃ rest,
      pages = (((sorted n).drop skip).take limit).reverse :: rest ∧
        Walk next (n + 1) (offset + limit) rest) := by
  have hpage := h.page n offset skip hskip
  cases hwalk with
  | last hnext hlast =>
    rw [hpage] at hnext
    obtain rfl := Option.some.inj hnext
    exact .inl ⟨hlast, rfl⟩
  | more hnext hmore hrest =>
    rw [hpage] at hnext
    obtain rfl := Option.some.inj hnext
    rw [advance_natCast] at hrest
    exact .inr ⟨hmore, _, rfl, hrest⟩

/-- The messages of the first page are among those of the walk. -/
theorem mem_flatten {n offset skip : ℕ} {pages : List (List Message)}
    (hskip : toDouble offset = .finite skip) (hwalk : Walk next n offset pages) {m : Message}
    (hm : m ∈ ((sorted n).drop skip).take limit) : m ∈ pages.flatten := by
  rcases h.cases_walk hskip hwalk with ⟨-, rfl⟩ | ⟨-, rest, rfl, -⟩
  · simpa using hm
  · simp [hm]

/-- The row in a position is on the page that starts there. -/
theorem mem_page {n skip : ℕ} (hskip : skip < (sorted n).length) :
    (sorted n)[skip] ∈ ((sorted n).drop skip).take limit := by
  have hpos := h.limit_pos
  refine List.mem_take_iff_getElem.mpr ⟨0, ?_, ?_⟩
  · rw [List.length_drop]
    omega
  · rw [List.getElem_drop]
    rfl

end Serves

/-- The rows that are newer than a time come first. -/
theorem newer_antitone (time : ℕ) (a b : Message) (h : Newest a b)
    (hb : decide (time < b.createdAt) = true) : decide (time < a.createdAt) = true := by
  simp only [decide_eq_true_eq] at hb ⊢
  exact lt_of_lt_of_le hb h

theorem notOlder_antitone (time : ℕ) (a b : Message) (h : Newest a b)
    (hb : decide (time ≤ b.createdAt) = true) : decide (time ≤ a.createdAt) = true := by
  simp only [decide_eq_true_eq] at hb ⊢
  exact le_trans hb h

/-- Where no tie is split, the first rows are those that are newer than the row after them. -/
theorem count_newer {l : List Message} (hl : l.Pairwise Newest) {n : ℕ} (hn : n < l.length)
    (hsplit : ¬ SplitsTie l n) : (l.countP fun m => l[n].createdAt < m.createdAt) = n := by
  have hnewer := getElem_iff_lt_countP (newer_antitone l[n].createdAt) hl hn
  have hnotOlder := getElem_iff_lt_countP (notOlder_antitone l[n].createdAt) hl hn
  have hle : ¬ n < l.countP fun m => l[n].createdAt < m.createdAt := by
    rw [← hnewer]
    simp
  have hlt : n < l.countP fun m => l[n].createdAt ≤ m.createdAt := by
    rw [← hnotOlder]
    simp
  by_contra hne
  exact hsplit ⟨l[n].createdAt, by omega, hlt⟩

theorem SplitsTie.perm {l l' : List Message} (hperm : l.Perm l') {n : ℕ} (h : SplitsTie l n) :
    SplitsTie l' n := by
  obtain ⟨time, hlt, hgt⟩ := h
  exact ⟨time, hperm.countP_eq _ ▸ hlt, hperm.countP_eq _ ▸ hgt⟩

/-- Where no tie is split, the first rows are the same in every order. -/
theorem take_perm {l l' : List Message} (hl : l.Pairwise Newest) (hl' : l'.Pairwise Newest)
    (hperm : l.Perm l') {n : ℕ} (hsplit : ¬ SplitsTie l n) : (l.take n).Perm (l'.take n) := by
  rcases Nat.lt_or_ge n l.length with hn | hn
  · have hcount := count_newer hl hn hsplit
    have hfirst := filter_eq_take (newer_antitone l[n].createdAt) hl
    have hfirst' := filter_eq_take (newer_antitone l[n].createdAt) hl'
    rw [hcount] at hfirst
    rw [← hperm.countP_eq, hcount] at hfirst'
    rw [← hfirst, ← hfirst']
    exact hperm.filter _
  · rw [List.take_of_length_le hn, List.take_of_length_le (hperm.length_eq ▸ hn)]
    exact hperm

/-- There is no tie to split if no two rows have the same time. -/
theorem not_splitsTie_of_nodup {l : List Message} (h : (l.map Message.createdAt).Nodup) (n : ℕ) :
    ¬ SplitsTie l n := by
  rintro ⟨time, hlt, hgt⟩
  have hcount : (l.countP fun m => time ≤ m.createdAt) ≤
      (l.countP fun m => time < m.createdAt) + (l.map Message.createdAt).count time := by
    clear h hlt hgt
    induction l with
    | nil => rfl
    | cons m l ih =>
      simp only [List.countP_cons, List.map_cons, List.count_cons, decide_eq_true_eq, beq_iff_eq]
      split_ifs <;> omega
  have hone : (l.map Message.createdAt).count time ≤ 1 := List.nodup_iff_count_le_one.mp h time
  omega

/-- A tie that is split has a row on either side. -/
theorem SplitsTie.neighbours {l : List Message} (hl : l.Pairwise Newest) {n : ℕ}
    (h : SplitsTie l n) : ∃ a b, 0 < n ∧ l[n - 1]? = some a ∧ l[n]? = some b ∧
      a.createdAt = b.createdAt := by
  obtain ⟨time, hlt, hgt⟩ := h
  have hn : n < l.length := lt_of_lt_of_le hgt List.countP_le_length
  have hpred : n - 1 < l.length := by omega
  have hnewer := getElem_iff_lt_countP (newer_antitone time) hl hpred
  have hnewer' := getElem_iff_lt_countP (newer_antitone time) hl hn
  have hnotOlder := getElem_iff_lt_countP (notOlder_antitone time) hl hpred
  have hnotOlder' := getElem_iff_lt_countP (notOlder_antitone time) hl hn
  simp only [decide_eq_true_eq] at hnewer hnewer' hnotOlder hnotOlder'
  refine ⟨l[n - 1], l[n], by omega, List.getElem?_eq_getElem hpred,
    List.getElem?_eq_getElem hn, ?_⟩
  omega

namespace Serves

variable (h : Serves next limit rows sorted)
include h

theorem hasMore_eq (hrep : Representable limit rows.length) {k : ℕ}
    (hk : k * limit < rows.length ∨ k = 0) :
    hasMoreAt limit rows.length (k * limit) = decide (k * limit + limit < rows.length) := by
  rcases hk with hk | rfl
  · exact hrep.sums k hk
  · have hle := h.limit_le
    rw [hasMoreAt, toDouble_natCast (by omega), isBelow_natCast]

theorem chronological_page (n skip : ℕ) :
    Chronological (((sorted n).drop skip).take limit).reverse := by
  have hsub : (((sorted n).drop skip).take limit).Sublist (sorted n) :=
    (List.take_sublist _ _).trans (List.drop_sublist _ _)
  exact List.pairwise_reverse.mpr (List.Pairwise.sublist hsub (h.newest n))

/-- The rows before a page and those on it are the rows up to its end. -/
theorem take_append_page (hties : ∀ k, ¬ SplitsTie rows (k * limit)) (k n n' : ℕ) :
    ((sorted n').take (k * limit) ++ (((sorted n).drop (k * limit)).take limit).reverse).Perm
      ((sorted n).take (k * limit + limit)) := by
  have hfirst : ((sorted n').take (k * limit)).Perm ((sorted n).take (k * limit)) := by
    apply take_perm (h.newest n') (h.newest n) ((h.perm n').trans (h.perm n).symm)
    intro hsplit
    exact hties k (hsplit.perm (h.perm n'))
  rw [List.take_add]
  exact hfirst.append (List.reverse_perm _)

/-- A walk ends with the page after which no rows are left. -/
theorem walk_last (hrep : Representable limit rows.length)
    (hties : ∀ k, ¬ SplitsTie rows (k * limit)) {k : ℕ} (hk : k * limit < rows.length ∨ k = 0)
    (hge : rows.length ≤ k * limit + limit) :
    ∃ pages, Walk next k (k * limit) pages ∧ (∀ page ∈ pages, Chronological page) ∧
      ((sorted 0).take (k * limit) ++ pages.flatten).Perm rows := by
  have hmore := h.hasMore_eq hrep hk
  rw [decide_eq_false (Nat.not_lt_of_le hge)] at hmore
  refine ⟨_, .last (h.page k _ _ (hrep.offset_eq hk)) hmore, ?_, ?_⟩
  · intro page hmem
    rw [List.mem_singleton.mp hmem]
    exact h.chronological_page k (k * limit)
  · have hupTo := h.take_append_page hties k k 0
    have hall : (sorted k).take (k * limit + limit) = sorted k := by
      apply List.take_of_length_le
      rw [h.length]
      exact hge
    rw [hall] at hupTo
    simpa using hupTo.trans (h.perm k)

/-- From each page on, the walk collects what the pages before have left. -/
theorem walk_from (hrep : Representable limit rows.length)
    (hties : ∀ k, ¬ SplitsTie rows (k * limit)) (left : ℕ) :
    ∀ k, rows.length - k * limit ≤ left → (k * limit < rows.length ∨ k = 0) →
      ∃ pages, Walk next k (k * limit) pages ∧ (∀ page ∈ pages, Chronological page) ∧
        ((sorted 0).take (k * limit) ++ pages.flatten).Perm rows := by
  have hpos := h.limit_pos
  induction left with
  | zero =>
    intro k hleft hk
    exact h.walk_last hrep hties hk (by omega)
  | succ left ih =>
    intro k hleft hk
    rcases Nat.lt_or_ge (k * limit + limit) rows.length with hlt | hge
    · have hnext : (k + 1) * limit = k * limit + limit := Nat.succ_mul k limit
      have hmore := h.hasMore_eq hrep hk
      rw [decide_eq_true hlt] at hmore
      obtain ⟨pages, hwalk, hchronological, hperm⟩ := ih (k + 1) (by omega) (.inl (by omega))
      refine ⟨_ :: pages, .more (h.page k _ _ (hrep.offset_eq hk)) hmore ?_, ?_, ?_⟩
      · rw [advance_natCast, ← hnext]
        exact hwalk
      · intro page hmem
        rcases List.mem_cons.mp hmem with rfl | hmem
        · exact h.chronological_page k (k * limit)
        · exact hchronological page hmem
      · have hupTo := h.take_append_page hties k k 0
        have hprefix : ((sorted k).take (k * limit + limit)).Perm
            ((sorted 0).take ((k + 1) * limit)) := by
          rw [← hnext]
          apply take_perm (h.newest k) (h.newest 0) ((h.perm k).trans (h.perm 0).symm)
          intro hsplit
          exact hties (k + 1) (hsplit.perm (h.perm k))
        rw [List.flatten_cons, ← List.append_assoc]
        exact ((hupTo.trans hprefix).append_right _).trans hperm
    · exact h.walk_last hrep hties hk hge

/-- Pages that start where they should and are not the last leave the rest of the rows. -/
theorem strip {l : List Message} {k : ℕ} (hsorted : ∀ n < k, sorted n = l)
    (hexact : ∀ n < k, toDouble (n * limit : ℕ) = .finite (n * limit : ℕ) ∧
      hasMoreAt limit rows.length (n * limit) = true)
    {pages : List (List Message)} (hwalk : Walk next 0 0 pages) :
    ∃ rest, Walk next k (k * limit) rest ∧
      pages.flatten.Perm (l.take (k * limit) ++ rest.flatten) := by
  induction k with
  | zero => exact ⟨pages, by simpa using hwalk, by simp⟩
  | succ k ih =>
    obtain ⟨rest, hrest, hperm⟩ := ih (fun n hn => hsorted n (by omega))
      fun n hn => hexact n (by omega)
    obtain ⟨hoffset, hmore⟩ := hexact k (Nat.lt_succ_self k)
    rcases h.cases_walk hoffset hrest with ⟨hlast, -⟩ | ⟨-, rest', rfl, hrest'⟩
    · rw [hmore] at hlast
      cases hlast
    · refine ⟨rest', by rw [Nat.succ_mul]; exact hrest', ?_⟩
      rw [hsorted k (Nat.lt_succ_self k), List.flatten_cons, ← List.append_assoc] at hperm
      rw [Nat.succ_mul, List.take_add]
      exact hperm.trans (((List.reverse_perm _).append_left _).append_right _)

/-- No message is found twice. -/
theorem not_twice {l : List Message} {pages rest : List (List Message)} {n : ℕ}
    (hpages : pages.flatten.Perm rows) (hsplit : pages.flatten.Perm (l.take n ++ rest.flatten))
    {m : Message} (hm : m ∈ l.take n) : m ∉ rest.flatten := by
  have hnodup : (l.take n ++ rest.flatten).Nodup :=
    hsplit.nodup_iff.mp (hpages.nodup_iff.mpr h.nodup)
  intro hrest
  exact (List.nodup_append.mp hnodup).2.2 m hm m hrest rfl

/-- Pages that are as they should be are not the last before a page that has a row. -/
theorem goesOn_before {k : ℕ} (hk : k * limit < rows.length)
    (hexact : ∀ n < k, n * limit < rows.length →
      toDouble (n * limit : ℕ) = .finite (n * limit : ℕ) ∧
        hasMoreAt limit rows.length (n * limit) = decide (n * limit + limit < rows.length)) :
    ∀ n < k, toDouble (n * limit : ℕ) = .finite (n * limit : ℕ) ∧
      hasMoreAt limit rows.length (n * limit) = true := by
  have hpos := h.limit_pos
  intro n hn
  have hle : n * limit + limit ≤ k * limit := by
    rw [← Nat.succ_mul]
    exact Nat.mul_le_mul_right limit hn
  obtain ⟨hoffset, hmore⟩ := hexact n hn (by omega)
  refine ⟨hoffset, ?_⟩
  rw [hmore, decide_eq_true_iff]
  omega

/-- A page in which a tie is arranged differently repeats a message. -/
theorem not_walksOnce_of_splitsTie {l : List Message} {k : ℕ}
    (hrep : Representable limit rows.length) (hsplit : SplitsTie rows (k * limit))
    (hbefore : ∀ n < k, sorted n = l) (hl : l.Perm rows) (hnewest : l.Pairwise Newest)
    (hswapped : sorted k = swapTies Newest (k * limit - 1) l) {pages : List (List Message)}
    (hwalk : Walk next 0 0 pages) : ¬ pages.flatten.Perm rows := by
  intro hpages
  obtain ⟨a, b, hpositive, ha, hb, htime⟩ := (hsplit.perm hl.symm).neighbours hnewest
  have hlength : k * limit < rows.length := by
    obtain ⟨time, -, hgt⟩ := hsplit
    exact lt_of_lt_of_le hgt List.countP_le_length
  have hexact := h.goesOn_before hlength fun n _ hn => ⟨hrep.offsets n hn, hrep.sums n hn⟩
  obtain ⟨rest, hrest, hperm⟩ := h.strip hbefore hexact hwalk
  have hmem : a ∈ l.take (k * limit) := by
    obtain ⟨hn, rfl⟩ := List.getElem?_eq_some_iff.mp ha
    exact List.mem_take_iff_getElem.mpr ⟨k * limit - 1, by omega, rfl⟩
  refine h.not_twice hpages hperm hmem (h.mem_flatten (hrep.offsets k hlength) hrest ?_)
  have hsame : (sorted k)[k * limit]? = some a := by
    have htie : Newest b a := htime.le
    have hswap := getElem?_swapTies Newest (n := k * limit - 1) ha
      (by rwa [Nat.sub_add_cancel hpositive]) htie
    rwa [Nat.sub_add_cancel hpositive, ← hswapped] at hswap
  obtain ⟨hn, heq⟩ := List.getElem?_eq_some_iff.mp hsame
  have hpage := h.mem_page hn
  rw [heq] at hpage
  exact hpage

/-- A walk does not go back behind the row with which its first page starts. -/
theorem mem_drop {l : List Message} (hsorted : ∀ n, sorted n = l) (hrefuses : Refuses next)
    {n offset skip : ℕ} {pages : List (List Message)} (hwalk : Walk next n offset pages)
    (hskip : toDouble offset = .finite skip) :
    ∀ m ∈ pages.flatten, m ∈ l.drop skip := by
  have hpage : ∀ {n offset' : ℕ} {page : Page}, next n offset' = some page → offset ≤ offset' →
      page.pagination.limit = .finite limit ∧ ∀ m ∈ page.data, m ∈ l.drop skip := by
    intro n offset' page hnext hle
    rcases toDouble_natCast_cases offset' with ⟨skip', hskip'⟩ | hinfinite
    · rw [h.page n offset' skip' hskip'] at hnext
      obtain rfl := Option.some.inj hnext
      refine ⟨rfl, fun m hm => ?_⟩
      rw [hsorted, List.mem_reverse] at hm
      have hbehind : m ∈ l.drop skip' := List.mem_of_mem_take hm
      exact List.drop_subset_drop_left l (toDouble_le hskip hskip' hle) hbehind
    · rw [hrefuses n offset' hinfinite] at hnext
      cases hnext
  have hall : ∀ {n offset' : ℕ} {pages : List (List Message)}, Walk next n offset' pages →
      offset ≤ offset' → ∀ m ∈ pages.flatten, m ∈ l.drop skip := by
    intro n offset' pages hwalk
    induction hwalk with
    | last hnext hlast =>
      intro hle m hm
      exact (hpage hnext hle).2 m (by simpa using hm)
    | more hnext hmore rest ih =>
      intro hle m hm
      obtain ⟨hlimit, hdata⟩ := hpage hnext hle
      rw [List.flatten_cons, List.mem_append] at hm
      rcases hm with hm | hm
      · exact hdata m hm
      · rw [hlimit, advance_natCast] at ih
        exact ih (by omega) m hm
  exact hall hwalk (Nat.le_refl _)

section Exact

variable {l : List Message} {k : ℕ} {pages rest : List (List Message)}

/-- If the pages before and the walk from this page on find each row once, then the page starts
where it should. -/
theorem offset_exact (hsorted : ∀ n, sorted n = l) (hrefuses : Refuses next)
    (hpages : pages.flatten.Perm rows) (hrest : Walk next k (k * limit) rest)
    (hperm : pages.flatten.Perm (l.take (k * limit) ++ rest.flatten))
    (hk : k * limit < rows.length) : toDouble (k * limit : ℕ) = .finite (k * limit : ℕ) := by
  have hl : l.Perm rows := hsorted 0 ▸ h.perm 0
  have hlength : l.length = rows.length := hl.length_eq
  have hnodup : l.Nodup := hl.nodup_iff.mpr h.nodup
  rcases toDouble_natCast_cases (k * limit) with ⟨skip, hskip⟩ | hinfinite
  · rcases Nat.lt_trichotomy skip (k * limit) with hlt | heq | hgt
    · -- The page starts too early, with a row that was on a page before.
      have hearly : skip < (sorted k).length := by
        rw [h.length]
        omega
      have hpage := h.mem_flatten hskip hrest (h.mem_page hearly)
      refine absurd hpage (h.not_twice hpages hperm ?_)
      simp only [hsorted]
      exact List.mem_take_iff_getElem.mpr ⟨skip, by omega, rfl⟩
    · rw [hskip, heq]
    · -- The row with which the page should start is on no page.
      have hshort : k * limit < l.length := by omega
      have hmem : l[k * limit] ∈ pages.flatten :=
        hpages.mem_iff.mpr (hl.mem_iff.mp (List.getElem_mem _))
      rcases List.mem_append.mp (hperm.mem_iff.mp hmem) with htake | hrest'
      · obtain ⟨j, hj, heq⟩ := List.mem_take_iff_getElem.mp htake
        have hsame := (hnodup.getElem_inj_iff).mp heq
        omega
      · have hdrop := h.mem_drop hsorted hrefuses hrest hskip _ hrest'
        obtain ⟨j, hj, heq⟩ := List.mem_drop_iff_getElem.mp hdrop
        have hsame := (hnodup.getElem_inj_iff).mp heq
        omega
  · cases hrest with
    | last hnext =>
      rw [hrefuses k _ hinfinite] at hnext
      cases hnext
    | more hnext =>
      rw [hrefuses k _ hinfinite] at hnext
      cases hnext

/-- A walk that goes on after all rows have been found repeats one. -/
theorem not_more (hsorted : ∀ n, sorted n = l) (hpages : pages.flatten.Perm rows)
    (hperm : pages.flatten.Perm (l.take (k * limit) ++
      ((l.drop (k * limit)).take limit).reverse ++ rest.flatten))
    (hmore : hasMoreAt limit rows.length (k * limit) = true)
    (hrest : Walk next (k + 1) (k * limit + limit) rest) :
    k * limit + limit < rows.length := by
  have hlength : l.length = rows.length := (hsorted 0 ▸ h.perm 0 : l.Perm rows).length_eq
  by_contra hge
  obtain ⟨skip, hskip, hlt⟩ : ∃ skip : ℕ, toDouble (k * limit + limit : ℕ) = .finite skip ∧
      skip < rows.length := by
    rcases toDouble_natCast_cases (k * limit + limit) with ⟨skip, hskip⟩ | hinfinite
    · rw [hasMoreAt, hskip, isBelow_natCast, decide_eq_true_iff] at hmore
      exact ⟨skip, hskip, hmore⟩
    · rw [hasMoreAt, hinfinite] at hmore
      cases hmore
  have hearly : skip < (sorted (k + 1)).length := by rwa [h.length]
  have hpage := h.mem_flatten hskip hrest (h.mem_page hearly)
  simp only [hsorted] at hpage
  have hboth : (l.drop (k * limit)).take limit = l.drop (k * limit) := by
    apply List.take_of_length_le
    rw [List.length_drop]
    omega
  rw [hboth] at hperm
  have hwhole : (l.take (k * limit) ++ (l.drop (k * limit)).reverse).Perm l :=
    ((List.reverse_perm _).append_left _).trans (by rw [List.take_append_drop])
  have hall : pages.flatten.Perm (l.take l.length ++ rest.flatten) := by
    rw [List.take_length]
    exact hperm.trans (hwhole.append_right _)
  exact absurd hpage (h.not_twice hpages hall (by
    rw [List.take_length]
    exact List.getElem_mem _))

/-- If a page starts where it should, then what it says about the rest is right. -/
theorem hasMore_exact (hsorted : ∀ n, sorted n = l) (hpages : pages.flatten.Perm rows)
    (hrest : Walk next k (k * limit) rest)
    (hperm : pages.flatten.Perm (l.take (k * limit) ++ rest.flatten))
    (hk : k * limit < rows.length)
    (hoffset : toDouble (k * limit : ℕ) = .finite (k * limit : ℕ)) :
    hasMoreAt limit rows.length (k * limit) = decide (k * limit + limit < rows.length) := by
  have hlength : l.length = rows.length := (hsorted 0 ▸ h.perm 0 : l.Perm rows).length_eq
  rcases h.cases_walk hoffset hrest with ⟨hlast, rfl⟩ | ⟨hmore, rest', rfl, hrest'⟩
  · -- The walk ends, so all rows are on the pages up to here.
    rw [hlast, eq_comm, decide_eq_false_iff_not]
    have hcount := (hpages.symm.trans hperm).length_eq
    simp only [List.length_append, List.flatten_cons, List.flatten_nil, List.append_nil,
      List.length_reverse, List.length_take, List.length_drop, h.length, hlength] at hcount
    omega
  · rw [List.flatten_cons, ← List.append_assoc, hsorted] at hperm
    rw [hmore, eq_comm, decide_eq_true_iff]
    exact h.not_more hsorted hpages hperm hmore hrest'

/-- If a walk over rows in a fixed order finds each of them once, then its offsets are doubles
and its comparisons are right. -/
theorem representable_of_walk (hsorted : ∀ n, sorted n = l) (hrefuses : Refuses next)
    (hwalk : Walk next 0 0 pages) (hpages : pages.flatten.Perm rows) :
    Representable limit rows.length := by
  suffices hall : ∀ k, k * limit < rows.length →
      toDouble (k * limit : ℕ) = .finite (k * limit : ℕ) ∧
        hasMoreAt limit rows.length (k * limit) = decide (k * limit + limit < rows.length) by
    exact ⟨fun k hk => (hall k hk).1, fun k hk => (hall k hk).2⟩
  intro k
  induction k using Nat.strongRecOn with
  | ind k ih =>
    intro hk
    -- The pages before are as they should be, so the walk comes to this one.
    obtain ⟨rest, hrest, hperm⟩ :=
      h.strip (fun n _ => hsorted n) (h.goesOn_before hk ih) hwalk
    have hoffset := h.offset_exact hsorted hrefuses hpages hrest hperm hk
    exact ⟨hoffset, h.hasMore_exact hsorted hpages hrest hperm hk hoffset⟩

end Exact

end Serves

end Serves

section Responses

variable {dbs : ℕ → Database} {t : Table} {user : AuthUser} {receiverId : JsString}

/-- A limit that is a positive decimal number is used up to 200. -/
theorem pageLimit_digits {limit : JsString} (hdigits : Digits limit)
    (hpos : 0 < decimalValue limit) :
    pageLimit [limit] = .finite (min (decimalValue limit) 200 : ℕ) := by
  have hnumber : queryNumber [limit] = some (toDouble (decimalValue limit)) := by
    rw [queryNumber_singleton, stringToNumber_digits hdigits]
  have hcast : (0 : ℚ) < decimalValue limit := by exact_mod_cast hpos
  rw [pageLimit, hnumber]
  rcases Nat.le_total (decimalValue limit) 200 with hsmall | hlarge
  · have hle : (decimalValue limit : ℚ) ≤ 200 := by exact_mod_cast hsmall
    rw [toDouble_natCast (by omega), numberOr, if_neg hcast.ne', mathMin, min_eq_left hle,
      Nat.min_eq_left hsmall]
  · rw [Nat.min_eq_right hlarge]
    rcases toDouble_natCast_cases (decimalValue limit) with ⟨n, hn⟩ | hinfinite
    · have hle := toDouble_le (toDouble_natCast (n := 200) (by norm_num)) hn hlarge
      have hle' : (200 : ℚ) ≤ n := by exact_mod_cast hle
      have hne : (n : ℚ) ≠ 0 := by linarith
      rw [hn, numberOr, if_neg hne, mathMin, min_eq_right hle']
      rfl
    · rw [hinfinite]
      rfl

theorem pageOffset_natText (offset : ℕ) :
    pageOffset [js (toString offset)] = toDouble offset := by
  have hnumber : queryNumber [js (toString offset)] = some (toDouble offset) := by
    rw [queryNumber_singleton, stringToNumber_digits (digits_natText offset),
      decimalValue_natText]
  rw [pageOffset, hnumber]
  rcases toDouble_natCast_cases offset with ⟨n, hn⟩ | hinfinite
  · have hsame : (if (n : ℚ) = 0 then 0 else (n : ℚ)) = n := by
      split
      · rename_i hzero
        exact hzero.symm
      · rfl
    rw [hn, numberOr, hsame, mathMax, max_eq_left (Nat.cast_nonneg n)]
  · rw [hinfinite]
    rfl

theorem nextPage_of_cut {limit : JsString} {n offset : ℕ} {messages : List Message}
    (hcut : (dbs n).cut (pageOffset [js (toString offset)]) (pageLimit [limit])
      ((dbs n).sorter.sort (conversation t user.id receiverId)) = .ok messages) :
    nextPage dbs t user receiverId limit n offset = some ⟨messages.reverse,
      ⟨(conversation t user.id receiverId).length, pageLimit [limit],
        pageOffset [js (toString offset)],
        isBelow (conversation t user.id receiverId).length
          (plus (pageOffset [js (toString offset)]) (pageLimit [limit]))⟩⟩ := by
  simp only [nextPage, fetchConversation, Program.attempt, Program.bind_eq, Program.bind_call,
    Program.bind_perform, Program.tryCatch_perform, Program.run_perform, exec, hcut, Except.map,
    Program.bind_ok]
  rfl

theorem nextPage_of_cut_error {limit : JsString} {n offset : ℕ} {e : JsError}
    (hcut : (dbs n).cut (pageOffset [js (toString offset)]) (pageLimit [limit])
      ((dbs n).sorter.sort (conversation t user.id receiverId)) = .error e) :
    nextPage dbs t user receiverId limit n offset = none := by
  simp only [nextPage, fetchConversation, Program.attempt, Program.bind_eq, Program.bind_call,
    Program.bind_perform, Program.tryCatch_perform, Program.run_perform, exec, hcut, Except.map,
    Program.bind_error]
  rfl

theorem conversation_nodup (t : Table) (senderId receiverId : JsString) :
    (conversation t senderId receiverId).Nodup :=
  (List.Nodup.of_map _ t.keys_nodup).filter _

theorem serves (dbs : ℕ → Database) (t : Table) (user : AuthUser) (receiverId : JsString)
    {limit : JsString} (hdigits : Digits limit) (hpos : 0 < decimalValue limit) :
    Serves (nextPage dbs t user receiverId limit) (min (decimalValue limit) 200)
      (conversation t user.id receiverId)
      fun n => (dbs n).sorter.sort (conversation t user.id receiverId) where
  limit_pos := by omega
  limit_le := Nat.min_le_right _ _
  nodup := conversation_nodup t user.id receiverId
  perm n := (dbs n).sorter.perm _
  newest n := (dbs n).sorter.pairwise _
  page n offset skip hskip := by
    have hlimit := pageLimit_digits hdigits hpos
    have hoffset := (pageOffset_natText offset).trans hskip
    have hcut := (dbs n).cut_natCast skip (min (decimalValue limit) 200)
      ((dbs n).sorter.sort (conversation t user.id receiverId))
    rw [← hlimit, ← hoffset] at hcut
    rw [nextPage_of_cut hcut, hlimit, hoffset, plus, hasMoreAt, Nat.cast_add]

/-- A database that rejects what is not a natural number. -/
def cutNatural : Number → Number → List Message → Except JsError (List Message)
  | .finite skip, .finite take, rows =>
    if skip = ⌊skip⌋₊ ∧ take = ⌊take⌋₊ then .ok ((rows.drop ⌊skip⌋₊).take ⌊take⌋₊)
    else .error (.failure "invalid input syntax for type bigint")
  | _, _, _ => .error (.failure "invalid input syntax for type bigint")

/-- A database with a given way to arrange rows of the same time. -/
def databaseWith (sorter : Sorter Newest) : Database where
  sorter := sorter
  cut := cutNatural
  cut_natCast skip take rows := by simp [cutNatural]

/-- The condition under which the walk is exact. -/
structure WalkIsExact (t : Table) (user : AuthUser) (receiverId : JsString) (limit : ℕ) :
    Prop where
  representable : Representable limit (conversation t user.id receiverId).length
  ties : ∀ k, ¬ SplitsTie (conversation t user.id receiverId) (k * limit)

theorem walksOnce_of_exact {limit : JsString} (hdigits : Digits limit)
    (hpos : 0 < decimalValue limit)
    (h : WalkIsExact t user receiverId (min (decimalValue limit) 200)) :
    WalksOnce dbs t user receiverId limit := by
  have hserves := serves dbs t user receiverId hdigits hpos
  obtain ⟨pages, hwalk, hchronological, hperm⟩ :=
    hserves.walk_from h.representable h.ties _ 0 (Nat.le_refl _) (.inr rfl)
  refine ⟨pages, by simpa using hwalk, hchronological, by simpa using hperm⟩

theorem exact_of_walksOnce {limit : JsString} (hdigits : Digits limit)
    (hpos : 0 < decimalValue limit) (h : ∀ dbs, WalksOnce dbs t user receiverId limit) :
    WalkIsExact t user receiverId (min (decimalValue limit) 200) := by
  have hrep : Representable (min (decimalValue limit) 200)
      (conversation t user.id receiverId).length := by
    let dbs : ℕ → Database := fun _ => databaseWith (.stable Newest)
    obtain ⟨pages, hwalk, -, hperm⟩ := h dbs
    have hserves := serves dbs t user receiverId hdigits hpos
    refine hserves.representable_of_walk (fun _ => rfl) ?_ hwalk hperm
    intro n offset hinfinite
    refine nextPage_of_cut_error (e := .failure "invalid input syntax for type bigint") ?_
    rw [pageOffset_natText, hinfinite]
    rfl
  refine ⟨hrep, fun k hsplit => ?_⟩
  -- The queries from the page `k` on arrange the tie at its start the other way.
  let dbs : ℕ → Database := fun n =>
    if n < k then databaseWith (.stable Newest)
    else databaseWith ((Sorter.stable Newest).swapTies Newest
      (k * min (decimalValue limit) 200 - 1))
  obtain ⟨pages, hwalk, -, hperm⟩ := h dbs
  have hserves := serves dbs t user receiverId hdigits hpos
  refine hserves.not_walksOnce_of_splitsTie hrep hsplit (fun n hn => ?_)
    ((Sorter.stable Newest).perm _) ((Sorter.stable Newest).pairwise _) ?_ hwalk hperm
  · simp only [dbs, if_pos hn]
    rfl
  · simp only [dbs, if_neg (Nat.lt_irrefl k)]
    rfl

end Responses

/-- However the queries arrange messages of the same time, the walk is exact, if and only if no
page ends between two of them and the offsets are doubles. -/
theorem walksOnce_iff (t : Table) (user : AuthUser) (receiverId : JsString) {limit : JsString}
    (hdigits : Digits limit) (hpos : 0 < decimalValue limit) :
    (∀ dbs, WalksOnce dbs t user receiverId limit) ↔
      WalkIsExact t user receiverId (min (decimalValue limit) 200) := by
  constructor
  · exact exact_of_walksOnce hdigits hpos
  · intro h dbs
    exact walksOnce_of_exact hdigits hpos h

/-- Two messages from `alice` to `bob`, sent at two times. -/
def twoMessages (first second : ℕ) : Table where
  rows := [⟨js "m1", js "alice", .str (js "bob"), [], true, .notDelivered, first, first⟩,
    ⟨js "m2", js "alice", .str (js "bob"), [], true, .notDelivered, second, second⟩]
  keys_nodup := by
    have hne : js "m1" ≠ js "m2" := by decide
    simpa using hne

theorem digits_one : Digits (js "1") := by
  have hone : js "1" = [0x31] := by decide
  refine ⟨by decide, fun u hu => ?_⟩
  obtain rfl : u = 0x31 := List.mem_singleton.mp (hone ▸ hu)
  decide

theorem walksOnce_twoMessages : Digits (js "1") ∧ 0 < decimalValue (js "1") ∧
    ∀ dbs, WalksOnce dbs (twoMessages 1 2) ChatEffects.alice (js "bob") (js "1") := by
  have hpos : 0 < decimalValue (js "1") := by decide
  refine ⟨digits_one, hpos, (walksOnce_iff _ _ _ digits_one hpos).mpr ⟨?_, fun k => ?_⟩⟩
  · exact representable_of_le (by decide)
  · exact not_splitsTie_of_nodup (by decide) _

/-- With a limit of 1, two messages of the same time are on two pages, and one of them may be on
both. -/
theorem walksOnce_fails :
    ¬ ∀ dbs, WalksOnce dbs (twoMessages 1 1) ChatEffects.alice (js "bob") (js "1") := by
  intro h
  have hexact := exact_of_walksOnce digits_one (by decide) h
  exact hexact.ties 1 ⟨1, by decide, by decide⟩

end ChatMicroservices.PageWalks
