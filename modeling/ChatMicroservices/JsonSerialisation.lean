import ChatMicroservices.JavaScriptOperators

/-!
# `JSON.stringify` of JSON values

The text that is measured before a bundle is accepted. Members are written in the order of
the object, numbers with the fewest digits that are read back as the same double.
-/

namespace ChatMicroservices.JSON
open JavaScriptValues JavaScriptOperators

def hexText (d : ℕ) : UInt16 := UInt16.ofNat (if d < 10 then 0x30 + d else 0x57 + d)

/-- `\uxxxx` -/
def unicodeText (u : UInt16) : JsString :=
  js "\\u" ++ [hexText (u.toNat / 4096), hexText (u.toNat / 256 % 16),
    hexText (u.toNat / 16 % 16), hexText (u.toNat % 16)]

/-- One code point of a string; control characters and lone surrogates are escaped. -/
def quotePoint : JsString → JsString
  | [u] =>
    if u = 0x08 then js "\\b"
    else if u = 0x09 then js "\\t"
    else if u = 0x0A then js "\\n"
    else if u = 0x0C then js "\\f"
    else if u = 0x0D then js "\\r"
    else if u = 0x22 ∨ u = 0x5C then [0x5C, u]
    else if u < 0x20 ∨ (0xD800 ≤ u ∧ u ≤ 0xDFFF) then unicodeText u
    else [u]
  | point => point

def quote (s : JsString) : JsString := js "\"" ++ (codePoints s).flatMap quotePoint ++ js "\""

/-- An integer of `k` digits and a power of ten that are read back as the positive `x`. -/
def digitsOf (x : ℚ) (k : ℕ) : Option (ℕ × ℤ) :=
  let e : ℤ := Int.log 10 x + 1 - k
  let below := ⌊x / 10 ^ e⌋.toNat
  let roundTrips := fun s : ℕ => decide (toDouble (s * 10 ^ e) = .finite x)
  let nearest := (roundHalfEven (x / 10 ^ e)).toNat
  let found :=
    if roundTrips nearest then some nearest
    else if roundTrips below then some below
    else if roundTrips (below + 1) then some (below + 1)
    else none
  found.map fun s => if s = 10 ^ k then (1, e + k) else (s, e)

/-- A double has at most 17 digits. -/
def shortestDigits (x : ℚ) : ℕ × ℤ :=
  ((List.range 17).findSome? fun k => digitsOf x (k + 1)).getD (0, 0)

/-- `0.digits * 10 ^ n` -/
def pointed (digits : JsString) (n : ℤ) : JsString :=
  if digits.length ≤ n ∧ n ≤ 21 then digits ++ List.replicate (n - digits.length).toNat 0x30
  else if 0 < n ∧ n ≤ 21 then digits.take n.toNat ++ js "." ++ digits.drop n.toNat
  else if -6 < n ∧ n ≤ 0 then js "0." ++ List.replicate (-n).toNat 0x30 ++ digits
  else
    let fraction := if digits.length = 1 then [] else js "." ++ digits.drop 1
    let sign := if n - 1 < 0 then js "-" else js "+"
    digits.take 1 ++ fraction ++ js "e" ++ sign ++ js (toString (n - 1).natAbs)

def positiveText (x : ℚ) : JsString :=
  let (s, e) := shortestDigits x
  let digits := js (toString s)
  pointed digits (e + digits.length)

/-- An infinite number is written as `null`. -/
def numberText : Number → JsString
  | .infinite _ => js "null"
  | .finite q =>
    if q = 0 then js "0" else if q < 0 then js "-" ++ positiveText (-q) else positiveText q

mutual

def stringify : Json → JsString
  | .null => js "null"
  | .bool b => if b then js "true" else js "false"
  | .num n => numberText n
  | .str s => quote s
  | .arr xs => js "[" ++ stringifyElements xs ++ js "]"
  | .obj fields => js "\x7b" ++ stringifyMembers fields ++ js "\x7d"

def stringifyElements : List Json → JsString
  | [] => []
  | [x] => stringify x
  | x :: y :: rest => stringify x ++ js "," ++ stringifyElements (y :: rest)

def stringifyMembers : List (JsString × Json) → JsString
  | [] => []
  | [(k, x)] => quote k ++ js ":" ++ stringify x
  | (k, x) :: y :: rest =>
    quote k ++ js ":" ++ stringify x ++ js "," ++ stringifyMembers (y :: rest)

end

example : stringify (.obj [(js "n", .arr [.num (.finite (-15 / 10)), .num (.finite 1200)]),
      (js "s", .str (js "a\"\n"))]) =
    js "\x7b\"n\":[-1.5,1200],\"s\":\"a\\\"\\n\"\x7d" := by decide +kernel

end ChatMicroservices.JSON
