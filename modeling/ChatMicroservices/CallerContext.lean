import ChatMicroservices.JsonParsing
import Mathlib.Data.List.Infix

/-!
# The caller of a log line

`getCallerContext` reads the file and the line of the caller from the text of a stack. Its
parsers locate the last two colons of a text, or its first and its last parenthesis, by index
arithmetic instead of by a regular expression.
-/

namespace ChatMicroservices.CallerContext
open JavaScriptValues

/-- The position of an index that may count from the end. -/
def position (s : JsString) (index : ℤ) : ℕ :=
  if index < 0 then (s.length + index).toNat else min index.toNat s.length

/-- `s.slice(start, stop)` -/
def slice (s : JsString) (start stop : ℤ) : JsString :=
  (s.drop (position s start)).take (position s stop - position s start)

/-- `s.indexOf(text)` -/
def indexOf (s text : JsString) : ℤ :=
  match s.tails.findIdx? fun tail => text.isPrefixOf tail with
  | some i => i
  | none => -1

/-- The last occurrence of a text that starts at `k` or before. -/
def lastFrom (s text : JsString) : ℕ → ℤ
  | 0 => if text.isPrefixOf s then 0 else -1
  | k + 1 => if text.isPrefixOf (s.drop (k + 1)) then k + 1 else lastFrom s text k

/-- `s.lastIndexOf(text, start)`. A negative start counts as the first index. -/
def lastIndexOf (s text : JsString) (start : ℤ) : ℤ :=
  if s.length < text.length then -1
  else lastFrom s text (min start.toNat (s.length - text.length))

/-- The elements of the array that stands for the result of a regular expression. -/
structure Match where
  input : JsString
  filePath : JsString
  lineNum : JsString
  colNum : JsString
  deriving DecidableEq

/-- `/^\d+$/` -/
def isNumeral (s : JsString) : Bool := s ≠ [] ∧ s.all JSON.isDigit

def parsePathLineCol (s : JsString) : Option Match :=
  let lastColon := lastIndexOf s (js ":") s.length
  if lastColon = -1 then none
  else
    let secondLastColon := lastIndexOf s (js ":") (lastColon - 1)
    if secondLastColon = -1 then none
    else
      let filePath := slice s 0 secondLastColon
      let lineNum := slice s (secondLastColon + 1) lastColon
      let colNum := slice s (lastColon + 1) s.length
      if ¬ isNumeral lineNum ∨ ¬ isNumeral colNum then none
      else some ⟨s, filePath, lineNum, colNum⟩

def parseFileLineColFromParen (line : JsString) : Option Match :=
  let start := indexOf line (js "(")
  let stop := lastIndexOf line (js ")") line.length
  if start = -1 ∨ stop = -1 ∨ stop ≤ start + 1 then none
  else parsePathLineCol (slice line (start + 1) stop)

def parseFileLineColFromAt (line : JsString) : Option Match :=
  let atIndex := indexOf line (js "at ")
  if atIndex = -1 then none
  else parsePathLineCol (trim (slice line (atIndex + 3) line.length))

/-- The frames of the logger itself and of libraries. -/
def isSkipped (line : JsString) : Bool :=
  js "logger" <:+: line ∨ js "node_modules" <:+: line

/-- `file:line`, with the last component of the path unless that is empty. -/
def location (m : Match) : JsString :=
  let file := (m.filePath.splitOn 0x2F).getLastD []
  (if file = [] then m.filePath else file) ++ js ":" ++ m.lineNum

/-- `getCallerContext`, on the text of the stack. -/
def getCallerContext (stack : JsString) : JsString :=
  let frames := (stack.splitOn 0x0A).drop 2
  let found := (frames.filter fun line => ¬ isSkipped line).findSome? fun line =>
    (parseFileLineColFromParen line).orElse fun _ => parseFileLineColFromAt line
  match found with
  | some m => location m
  | none => []

section Indices

variable {s : JsString} {c : UInt16}

theorem isPrefixOf_drop {k : ℕ} : [c].isPrefixOf (s.drop k) = true ↔ s[k]? = some c := by
  rw [← List.head?_drop]
  cases s.drop k with
  | nil => simp
  | cons u rest =>
    rw [List.isPrefixOf_cons_cons, List.isPrefixOf_nil_left, Bool.and_true, beq_iff_eq,
      List.head?_cons, Option.some_inj]
    exact eq_comm

theorem lastFrom_eq {i k : ℕ} (hik : i ≤ k) (hi : s[i]? = some c)
    (hlast : ∀ j, i < j → j ≤ k → s[j]? ≠ some c) : lastFrom s [c] k = i := by
  induction k with
  | zero =>
    obtain rfl : i = 0 := Nat.le_zero.mp hik
    have hprefix : [c].isPrefixOf s = true := isPrefixOf_drop.mpr hi
    simp [lastFrom, hprefix]
  | succ k ih =>
    rcases Nat.lt_or_eq_of_le hik with hlt | rfl
    · have hnot : [c].isPrefixOf (s.drop (k + 1)) ≠ true :=
        fun h => hlast (k + 1) hlt le_rfl (isPrefixOf_drop.mp h)
      rw [lastFrom, if_neg hnot]
      exact ih (Nat.le_of_lt_succ hlt) fun j hij hjk => hlast j hij (by omega)
    · rw [lastFrom, if_pos (isPrefixOf_drop.mpr hi)]
      rfl

theorem lastFrom_eq_neg_one {k : ℕ} (h : ∀ j ≤ k, s[j]? ≠ some c) : lastFrom s [c] k = -1 := by
  induction k with
  | zero => exact if_neg fun hprefix => h 0 le_rfl (isPrefixOf_drop.mp hprefix)
  | succ k ih =>
    have hnot : [c].isPrefixOf (s.drop (k + 1)) ≠ true :=
      fun hprefix => h (k + 1) le_rfl (isPrefixOf_drop.mp hprefix)
    rw [lastFrom, if_neg hnot]
    exact ih fun j hj => h j (by omega)

theorem lastIndexOf_eq {i : ℕ} {start : ℤ} (hstart : i ≤ start.toNat) (hi : s[i]? = some c)
    (hlast : ∀ j, i < j → j ≤ start.toNat → s[j]? ≠ some c) : lastIndexOf s [c] start = i := by
  obtain ⟨hlength, -⟩ := List.getElem?_eq_some_iff.mp hi
  rw [lastIndexOf, if_neg (by rw [List.length_singleton]; omega)]
  refine lastFrom_eq ?_ hi fun j hij hj => hlast j hij (by omega)
  rw [List.length_singleton]
  omega

theorem lastIndexOf_eq_neg_one {start : ℤ} (h : ∀ j ≤ start.toNat, s[j]? ≠ some c) :
    lastIndexOf s [c] start = -1 := by
  rw [lastIndexOf]
  split
  · rfl
  · exact lastFrom_eq_neg_one fun j hj => h j (by omega)

/-- The occurrence before a text without one, whatever follows after the start. -/
theorem lastIndexOf_append {a b rest : JsString} (hb : c ∉ b) {start : ℤ}
    (hfrom : a.length ≤ start) (hto : start ≤ a.length + b.length ∨ rest = []) :
    lastIndexOf (a ++ c :: (b ++ rest)) [c] start = a.length := by
  refine lastIndexOf_eq (by omega) (by simp) fun j hij hj hc => ?_
  obtain ⟨k, rfl⟩ : ∃ k, j = a.length + (k + 1) := ⟨j - a.length - 1, by omega⟩
  rw [List.getElem?_append_right (by omega), Nat.add_sub_cancel_left,
    List.getElem?_cons_succ] at hc
  have hmem : c ∈ b := by
    rcases hto with hto | rfl
    · rw [List.getElem?_append_left (by omega)] at hc
      exact List.mem_of_getElem? hc
    · rw [List.append_nil] at hc
      exact List.mem_of_getElem? hc
  exact hb hmem

theorem lastIndexOf_prefix {a rest : JsString} (ha : c ∉ a) {start : ℤ}
    (hto : start < a.length) (hne : a ≠ []) : lastIndexOf (a ++ rest) [c] start = -1 := by
  have hpos : 0 < a.length := List.length_pos_of_ne_nil hne
  refine lastIndexOf_eq_neg_one fun j hj hc => ?_
  rw [List.getElem?_append_left (by omega)] at hc
  exact ha (List.mem_of_getElem? hc)

theorem slice_append (a b rest : JsString) {start stop : ℤ} (hstart : start = a.length)
    (hstop : stop = a.length + b.length) : slice (a ++ (b ++ rest)) start stop = b := by
  have hfrom : position (a ++ (b ++ rest)) start = a.length := by
    rw [position, if_neg (by omega), hstart, List.length_append]
    omega
  have hto : position (a ++ (b ++ rest)) stop = a.length + b.length := by
    rw [position, if_neg (by omega), hstop, List.length_append, List.length_append]
    omega
  rw [slice, hfrom, hto, List.drop_left, Nat.add_sub_cancel_left, List.take_left]

/-- A text with an occurrence ends, after its last one, in a text without. -/
theorem exists_last (h : c ∈ s) : ∃ a b, s = a ++ c :: b ∧ c ∉ b := by
  obtain ⟨b, a, hs, hb⟩ := List.eq_append_cons_of_mem (List.mem_reverse.mpr h)
  refine ⟨a.reverse, b.reverse, ?_, fun hc => hb (List.mem_reverse.mp hc)⟩
  rw [← List.reverse_reverse s, hs]
  simp

end Indices

/-- The form `path:line:col`. -/
def locationText (path line col : JsString) : JsString :=
  path ++ js ":" ++ line ++ js ":" ++ col

theorem colon_notMem {s : JsString} (h : isNumeral s = true) : 0x3A ∉ s := by
  intro hmem
  simp only [isNumeral, Bool.decide_and, Bool.and_eq_true, decide_eq_true_eq,
    List.all_eq_true] at h
  exact absurd (h.2 _ hmem) (by decide)

/-- A text with two colons is parsed at the last two. -/
theorem parse_locationText {path line col : JsString} (hline : 0x3A ∉ line)
    (hcol : 0x3A ∉ col) : parsePathLineCol (locationText path line col) =
      if ¬ isNumeral line ∨ ¬ isNumeral col then none
      else some ⟨locationText path line col, path, line, col⟩ := by
  have hlast : locationText path line col = (path ++ 0x3A :: line) ++ 0x3A :: (col ++ []) := by
    simp [locationText, js]
  have hsecond : locationText path line col = path ++ 0x3A :: (line ++ 0x3A :: col) := by
    simp [locationText, js]
  have hfirst : (path ++ 0x3A :: line).length = path.length + 1 + line.length := by
    rw [List.length_append, List.length_cons]
    omega
  have hlength : (locationText path line col).length =
      path.length + 1 + line.length + 1 + col.length := by
    rw [hlast, List.length_append, hfirst, List.append_nil, List.length_cons]
    omega
  have hlastColon : lastIndexOf (locationText path line col) (js ":")
      (locationText path line col).length = (path ++ 0x3A :: line).length := by
    rw [hlength, hlast]
    exact lastIndexOf_append hcol (by omega) (.inr rfl)
  have hsecondLastColon : lastIndexOf (locationText path line col) (js ":")
      ((path ++ 0x3A :: line).length - 1) = path.length := by
    rw [hsecond]
    exact lastIndexOf_append hline (by omega) (.inl (by omega))
  have hpath : slice (locationText path line col) 0 path.length = path := by
    have htext : locationText path line col =
        [] ++ (path ++ 0x3A :: (line ++ 0x3A :: col)) := hsecond
    rw [htext]
    exact slice_append _ _ _ rfl (by simp)
  have hlineNum : slice (locationText path line col) (path.length + 1)
      (path ++ 0x3A :: line).length = line := by
    have htext : locationText path line col = (path ++ [0x3A]) ++ (line ++ 0x3A :: col) := by
      simp [hsecond]
    rw [htext]
    exact slice_append _ _ _ (by simp) (by rw [hfirst]; simp)
  have hcolNum : slice (locationText path line col) ((path ++ 0x3A :: line).length + 1)
      (locationText path line col).length = col := by
    have htext : locationText path line col =
        (path ++ 0x3A :: line ++ [0x3A]) ++ (col ++ []) := by
      simp [hlast]
    rw [hlength, hfirst, htext]
    exact slice_append _ _ _ (by simp; omega) (by simp; omega)
  unfold parsePathLineCol
  simp only [hlastColon, hsecondLastColon, hpath, hlineNum, hcolNum]
  rw [if_neg (by omega), if_neg (by omega)]

theorem parse_no_colon {s : JsString} (h : 0x3A ∉ s) : parsePathLineCol s = none := by
  have hlastColon : lastIndexOf s (js ":") s.length = -1 :=
    lastIndexOf_eq_neg_one fun j _ hj => h (List.mem_of_getElem? hj)
  unfold parsePathLineCol
  rw [hlastColon, if_pos rfl]

/-- With one colon there is no second one, or the first is found again and leaves no line. -/
theorem parse_one_colon {a col : JsString} (ha : 0x3A ∉ a) (hcol : 0x3A ∉ col) :
    parsePathLineCol (a ++ 0x3A :: col) = none := by
  have hlastColon : lastIndexOf (a ++ 0x3A :: col) (js ":") (a ++ 0x3A :: col).length =
      a.length := by
    have hwhole : lastIndexOf (a ++ 0x3A :: (col ++ [])) (js ":")
        (a ++ 0x3A :: (col ++ [])).length = a.length :=
      lastIndexOf_append hcol (by simp; omega) (.inr rfl)
    rwa [List.append_nil] at hwhole
  unfold parsePathLineCol
  simp only [hlastColon]
  rw [if_neg (by omega)]
  cases a with
  | nil =>
    have hagain : lastIndexOf (0x3A :: col) (js ":") (-1) = 0 :=
      lastIndexOf_eq (i := 0) (by simp) rfl fun j hj hle => by simp at hle; omega
    have hline : slice (0x3A :: col) (0 + 1) 0 = [] := by simp [slice, position]
    simp only [List.length_nil, List.nil_append, Nat.cast_zero, zero_sub, hagain, hline]
    rw [if_neg (by omega), if_pos (.inl (by decide))]
  | cons u rest =>
    have hsecond : lastIndexOf (u :: rest ++ 0x3A :: col) (js ":") ((u :: rest).length - 1) =
        -1 := lastIndexOf_prefix ha (by omega) (List.cons_ne_nil _ _)
    rw [hsecond, if_pos rfl]

/-- The only form that is parsed, and what is parsed of it. -/
theorem parsePathLineCol_eq_some {s : JsString} {m : Match} : parsePathLineCol s = some m ↔
    s = m.input ∧ s = locationText m.filePath m.lineNum m.colNum ∧
      isNumeral m.lineNum = true ∧ isNumeral m.colNum = true := by
  constructor
  · intro h
    by_cases hcolon : 0x3A ∈ s
    · obtain ⟨a, col, rfl, hcol⟩ := exists_last hcolon
      by_cases ha : 0x3A ∈ a
      · obtain ⟨path, line, rfl, hline⟩ := exists_last ha
        have htext : path ++ 0x3A :: line ++ 0x3A :: col = locationText path line col := by
          simp [locationText, js]
        rw [htext, parse_locationText hline hcol] at h
        split at h
        · cases h
        · rename_i hnumerals
          obtain rfl := Option.some.inj h
          simp only [not_or, not_not] at hnumerals
          exact ⟨htext, htext, hnumerals⟩
      · rw [parse_one_colon ha hcol] at h
        cases h
    · rw [parse_no_colon hcolon] at h
      cases h
  · rintro ⟨hs, htext, hline, hcol⟩
    rw [htext, parse_locationText (colon_notMem hline) (colon_notMem hcol),
      if_neg (by simp [hline, hcol]), ← htext, hs]

theorem indexOf_append {a b : JsString} {c : UInt16} (ha : c ∉ a) :
    indexOf (a ++ c :: b) [c] = a.length := by
  have hfound : ((a ++ c :: b).tails.findIdx? fun tail => [c].isPrefixOf tail) =
      some a.length := by
    induction a with
    | nil => simp [List.findIdx?_cons]
    | cons u a ih =>
      obtain ⟨hne, ha⟩ := not_or.mp (mt List.mem_cons.mpr ha)
      have hnot : [c].isPrefixOf (u :: (a ++ c :: b)) = false := by
        rw [List.isPrefixOf_cons_cons, beq_false_of_ne hne, Bool.false_and]
      rw [List.cons_append, List.tails_cons, List.findIdx?_cons, hnot, ih ha]
      rfl
  rw [indexOf, hfound]

/-- In a line the location stands between the first and the last parenthesis. -/
theorem parseFileLineColFromParen_eq {before path line col after : JsString}
    (hbefore : 0x28 ∉ before) (hafter : 0x29 ∉ after) (hline : isNumeral line = true)
    (hcol : isNumeral col = true) :
    parseFileLineColFromParen
        (before ++ js "(" ++ locationText path line col ++ js ")" ++ after) =
      some ⟨locationText path line col, path, line, col⟩ := by
  have hlength : 0 < (locationText path line col).length := by
    simp [locationText, js]
  generalize hinner : locationText path line col = inner at hlength ⊢
  have htext : before ++ js "(" ++ inner ++ js ")" ++ after =
      before ++ 0x28 :: (inner ++ 0x29 :: after) := by simp [js]
  have hstart : indexOf (before ++ 0x28 :: (inner ++ 0x29 :: after)) (js "(") = before.length :=
    indexOf_append hbefore
  have hstop : lastIndexOf (before ++ 0x28 :: (inner ++ 0x29 :: after)) (js ")")
      (before ++ 0x28 :: (inner ++ 0x29 :: after)).length =
        (before ++ 0x28 :: inner).length := by
    have hsplit : before ++ 0x28 :: (inner ++ 0x29 :: after) =
        (before ++ 0x28 :: inner) ++ 0x29 :: (after ++ []) := by simp
    rw [hsplit]
    exact lastIndexOf_append hafter (by simp; omega) (.inr rfl)
  have hslice : slice (before ++ 0x28 :: (inner ++ 0x29 :: after)) (before.length + 1)
      (before ++ 0x28 :: inner).length = inner := by
    have hsplit : before ++ 0x28 :: (inner ++ 0x29 :: after) =
        (before ++ [0x28]) ++ (inner ++ 0x29 :: after) := by simp
    rw [hsplit]
    exact slice_append _ _ _ (by simp) (by simp; omega)
  have hbounds : ¬ ((before.length : ℤ) = -1 ∨ ((before ++ 0x28 :: inner).length : ℤ) = -1 ∨
      ((before ++ 0x28 :: inner).length : ℤ) ≤ before.length + 1) := by
    rw [List.length_append, List.length_cons]
    omega
  rw [htext]
  unfold parseFileLineColFromParen
  simp only [hstart, hstop, hslice]
  rw [if_neg hbounds, parsePathLineCol_eq_some]
  exact ⟨rfl, hinner.symm, hline, hcol⟩

/-- `parsePathLineCol` accepts the texts `path:line:col` and no others, and a line with such a
text between its parentheses is parsed to it. -/
theorem stack_locations_parsed :
    (∀ s m, parsePathLineCol s = some m ↔ s = m.input ∧
      s = locationText m.filePath m.lineNum m.colNum ∧
        isNumeral m.lineNum = true ∧ isNumeral m.colNum = true) ∧
    ∀ before path line col after : JsString, 0x28 ∉ before → 0x29 ∉ after →
      isNumeral line = true → isNumeral col = true →
        parseFileLineColFromParen
            (before ++ js "(" ++ locationText path line col ++ js ")" ++ after) =
          some ⟨locationText path line col, path, line, col⟩ :=
  ⟨fun _ _ => parsePathLineCol_eq_some, fun _ _ _ _ _ hbefore hafter hline hcol =>
    parseFileLineColFromParen_eq hbefore hafter hline hcol⟩

example : getCallerContext (js "Error: test\n    at firstLine\n    at f (src/Fake.ts:123:45)\n") =
    js "Fake.ts:123" := by decide +kernel

end ChatMicroservices.CallerContext
