import ChatMicroservices.JavaScriptValues

/-!
# `JSON.parse` on UTF-16 text

A recursive-descent reader of the JSON grammar. The fuel of the readers bounds the
nesting and the number of members; a text of `n` units needs at most `2 * n + 2`.
Numbers are rounded to the nearest double, and a repeated key keeps the place of its
first and the value of its last occurrence.
-/

namespace ChatMicroservices.JSON
open JavaScriptValues

def isBlank (u : UInt16) : Bool := u = 0x20 ∨ u = 0x09 ∨ u = 0x0A ∨ u = 0x0D

def skip (s : JsString) : JsString := s.dropWhile isBlank

def isDigit (u : UInt16) : Bool := 0x30 ≤ u ∧ u ≤ 0x39

/-- Round half to even. -/
def roundHalfEven (q : ℚ) : ℤ :=
  let d := q - ⌊q⌋
  if d < 1 / 2 then ⌊q⌋
  else if 1 / 2 < d then ⌊q⌋ + 1
  else if ⌊q⌋ % 2 = 0 then ⌊q⌋ else ⌊q⌋ + 1

/-- The IEEE double nearest to a rational, with gradual underflow and with overflow. -/
def toDouble (q : ℚ) : Number :=
  if q = 0 then .finite 0
  else
    let e : ℤ := max (Int.log 2 |q| - 52) (-1074)
    let r : ℚ := roundHalfEven (q / 2 ^ e) * 2 ^ e
    if (2 : ℚ) ^ (1024 : ℕ) ≤ |r| then .infinite (q < 0) else .finite r

def decimalValue (digits : JsString) : ℕ :=
  digits.foldl (fun n u => 10 * n + (u.toNat - 0x30)) 0

/-- The digits of a fraction, after its point; the grammar wants at least one. -/
def fractionPart : JsString → Option (JsString × JsString)
  | [] => some ([], [])
  | u :: rest =>
    if u = 0x2E then
      let digits := rest.takeWhile isDigit
      if digits = [] then none else some (digits, rest.dropWhile isDigit)
    else some ([], u :: rest)

def exponentDigits (negative : Bool) (s : JsString) : Option (ℤ × JsString) :=
  let digits := s.takeWhile isDigit
  if digits = [] then none
  else
    let n : ℤ := decimalValue digits
    some (if negative then -n else n, s.dropWhile isDigit)

def exponentPart : JsString → Option (ℤ × JsString)
  | [] => some (0, [])
  | u :: rest =>
    if u = 0x65 ∨ u = 0x45 then
      match rest with
      | [] => none
      | sign :: rest' =>
        if sign = 0x2D then exponentDigits true rest'
        else if sign = 0x2B then exponentDigits false rest'
        else exponentDigits false rest
    else some (0, u :: rest)

/-- An unsigned number: no leading zero before further digits. -/
def unsigned (negative : Bool) (s : JsString) : Option (Json × JsString) := do
  let whole := s.takeWhile isDigit
  if whole = [] ∨ (whole.head? = some 0x30 ∧ 1 < whole.length) then none
  else
    let (fraction, s) ← fractionPart (s.dropWhile isDigit)
    let (exponent, s) ← exponentPart s
    let scaled : ℚ := decimalValue (whole ++ fraction) * 10 ^ (exponent - fraction.length)
    some (.num (toDouble (if negative then -scaled else scaled)), s)

def hexDigit (u : UInt16) : Option UInt16 :=
  if isDigit u then some (u - 0x30)
  else if 0x41 ≤ u ∧ u ≤ 0x46 then some (u - 0x37)
  else if 0x61 ≤ u ∧ u ≤ 0x66 then some (u - 0x57)
  else none

def unicodeEscape (a b c d : UInt16) : Option UInt16 := do
  let a ← hexDigit a
  let b ← hexDigit b
  let c ← hexDigit c
  let d ← hexDigit d
  some (((a * 16 + b) * 16 + c) * 16 + d)

def simpleEscape (u : UInt16) : Option UInt16 :=
  if u = 0x22 ∨ u = 0x5C ∨ u = 0x2F then some u
  else if u = 0x62 then some 0x08
  else if u = 0x66 then some 0x0C
  else if u = 0x6E then some 0x0A
  else if u = 0x72 then some 0x0D
  else if u = 0x74 then some 0x09
  else none

/-- What follows an opening quote, up to and without the closing one. -/
def stringBody : JsString → Option (JsString × JsString)
  | [] => none
  | u :: rest =>
    if u = 0x22 then some ([], rest)
    else if u = 0x5C then
      match rest with
      | e :: a :: b :: c :: d :: rest' =>
        if e = 0x75 then do
          let x ← unicodeEscape a b c d
          let (body, rest'') ← stringBody rest'
          some (x :: body, rest'')
        else do
          let x ← simpleEscape e
          let (body, rest'') ← stringBody (a :: b :: c :: d :: rest')
          some (x :: body, rest'')
      | e :: rest' => do
        let x ← simpleEscape e
        let (body, rest'') ← stringBody rest'
        some (x :: body, rest'')
      | [] => none
    else if u < 0x20 then none
    else do
      let (body, rest') ← stringBody rest
      some (u :: body, rest')

def keyword (s : JsString) : Option (Json × JsString) :=
  if (js "null").isPrefixOf s then some (.null, s.drop 4)
  else if (js "true").isPrefixOf s then some (.bool true, s.drop 4)
  else if (js "false").isPrefixOf s then some (.bool false, s.drop 5)
  else none

mutual

def value : ℕ → JsString → Option (Json × JsString)
  | 0, _ => none
  | fuel + 1, s =>
    match skip s with
    | [] => none
    | u :: rest =>
      if u = 0x22 then (stringBody rest).map fun r => (.str r.1, r.2)
      else if u = 0x5B then
        match skip rest with
        | [] => none
        | v :: rest' =>
          if v = 0x5D then some (.arr [], rest')
          else (elements fuel (v :: rest')).map fun r => (.arr r.1, r.2)
      else if u = 0x7B then
        match skip rest with
        | [] => none
        | v :: rest' =>
          if v = 0x7D then some (.obj [], rest')
          else (members fuel [] (v :: rest')).map fun r => (.obj r.1, r.2)
      else if u = 0x2D then unsigned true rest
      else if isDigit u then unsigned false (u :: rest)
      else keyword (u :: rest)

/-- The elements of an array and its closing bracket. -/
def elements : ℕ → JsString → Option (List Json × JsString)
  | 0, _ => none
  | fuel + 1, s => do
    let (x, s) ← value fuel s
    match skip s with
    | [] => none
    | u :: rest =>
      if u = 0x5D then some ([x], rest)
      else if u = 0x2C then (elements fuel rest).map fun r => (x :: r.1, r.2)
      else none

/-- The members of an object and its closing brace, assigned in order. -/
def members : ℕ → List (JsString × Json) → JsString →
    Option (List (JsString × Json) × JsString)
  | 0, _, _ => none
  | fuel + 1, fields, s =>
    match skip s with
    | [] => none
    | q :: rest =>
      if q = 0x22 then do
        let (key, s) ← stringBody rest
        match skip s with
        | [] => none
        | colon :: rest =>
          if colon = 0x3A then do
            let (x, s) ← value fuel rest
            match skip s with
            | [] => none
            | u :: rest =>
              if u = 0x7D then some (assign key x fields, rest)
              else if u = 0x2C then members fuel (assign key x fields) rest
              else none
          else none
      else none

end

/-- `JSON.parse(text)`: one value with blanks around it, or a `SyntaxError`. -/
def parse (text : JsString) : Except JsError Json :=
  match value (2 * text.length + 2) text with
  | some (v, rest) =>
    if skip rest = [] then .ok v else .error (.syntaxError "Unexpected token in JSON")
  | none => .error (.syntaxError "Unexpected token in JSON")

example :
    parse (js "\x7b\"__encrypted\": true, \"body\":\"x\\u0041\", \"n\":[-1.5e1,\x7b\x7d]\x7d") =
    .ok (.obj [(js "__encrypted", .bool true), (js "body", .str (js "xA")),
      (js "n", .arr [.num (.finite (-15)), .obj []])]) := by decide +kernel

end ChatMicroservices.JSON
