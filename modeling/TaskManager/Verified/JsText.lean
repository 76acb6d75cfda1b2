import Mathlib.Algebra.Group.Nat.Defs
import Mathlib.Data.List.Basic

/-!
# JavaScript strings and their coercion to numbers

A JavaScript string is a sequence of UTF-16 code units, with no requirement
that surrogates pair up.  `js` writes a literal.  `isPositive` is the relation
`s > 0` for a string `s`: the string is converted to a number by the
`StringToNumber` grammar and compared with zero.
-/

namespace TaskManager.Verified.JsText

/-- A string is its UTF-16 code units. -/
abbrev JsString := List UInt16

/-- The code units of one character: itself, or a surrogate pair. -/
def codeUnits (c : Char) : List UInt16 :=
  let n := c.toNat
  if n < 0x10000 then [n.toUInt16]
  else [(0xD800 + (n - 0x10000) / 0x400).toUInt16,
    (0xDC00 + (n - 0x10000) % 0x400).toUInt16]

/-- The units of a literal. -/
def js (s : String) : JsString := s.toList.flatMap codeUnits

/-! ## Character classes -/

/-- From `lo` to `hi`, both included. -/
def between (lo hi : Char) (u : UInt16) : Bool :=
  lo.toNat ≤ u.toNat && u.toNat ≤ hi.toNat

/-- One character of the first plane. -/
def isChar (c : Char) (u : UInt16) : Bool := u.toNat = c.toNat

/-- `[a-zA-Z]` -/
def isLetter (u : UInt16) : Bool := between 'a' 'z' u || between 'A' 'Z' u

/-- `\w` without the unicode and ignore-case flags. -/
def isWordChar (u : UInt16) : Bool :=
  isLetter u || between '0' '9' u || isChar '_' u

/-- `WhiteSpace` and `LineTerminator`. -/
def isSpace (u : UInt16) : Bool :=
  [0x9, 0xA, 0xB, 0xC, 0xD, 0x20, 0xA0, 0x1680, 0x2028, 0x2029, 0x202F, 0x205F,
    0x3000, 0xFEFF].contains u.toNat
    || (0x2000 ≤ u.toNat && u.toNat ≤ 0x200A)

/-! ## String to number -/

/-- The value of a digit in a radix up to 16. -/
def digit? (radix : Nat) (u : UInt16) : Option Nat :=
  let v :=
    if between '0' '9' u then u.toNat - '0'.toNat
    else if between 'a' 'f' u then u.toNat - 'a'.toNat + 10
    else if between 'A' 'F' u then u.toNat - 'A'.toNat + 10
    else radix
  if v < radix then some v else none

/-- A possibly empty run of digits, read from the left onto `acc`. -/
def digits? (radix : Nat) : Nat → JsString → Option Nat
  | acc, [] => some acc
  | acc, u :: us =>
      (digit? radix u).bind fun d => digits? radix (acc * radix + d) us

/-- `[0-9]` -/
def isDigit (u : UInt16) : Bool := between '0' '9' u

/-- An optional sign: whether it is `-`, and what follows it. -/
def splitSign : JsString → Bool × JsString
  | [] => (false, [])
  | u :: us =>
      if isChar '-' u then (true, us)
      else if isChar '+' u then (false, us)
      else (false, u :: us)

/-- An optional exponent part, which must use up the input. -/
def exponent? : JsString → Option Int
  | [] => some 0
  | u :: us =>
      if isChar 'e' u || isChar 'E' u then
        let (neg, ds) := splitSign us
        if ds.isEmpty then none
        else (digits? 10 0 ds).map fun n => if neg then -(n : Int) else n
      else none

/-- `StrUnsignedDecimalLiteral` other than `Infinity`, as a mantissa and a
power of ten. -/
def decimal? (s : JsString) : Option (Nat × Int) :=
  let whole := s.takeWhile isDigit
  let rest := s.dropWhile isDigit
  let (frac, tail) :=
    match rest with
    | u :: us =>
        if isChar '.' u then (us.takeWhile isDigit, us.dropWhile isDigit)
        else ([], rest)
    | [] => ([], [])
  if whole.isEmpty && frac.isEmpty then none
  else do
    let mantissa ← digits? 10 0 (whole ++ frac)
    let e ← exponent? tail
    return (mantissa, e - frac.length)

/-- `m * 10 ^ e`, rounded to the nearest double, exceeds zero.  The least
positive double is `2 ^ -1074`, and half of it rounds to zero. -/
def roundsPositive (m : Nat) (e : Int) : Bool :=
  if 0 ≤ e then 0 < m else 10 ^ e.natAbs < m * 2 ^ 1075

/-- `0b`, `0o` and `0x` literals carry no sign. -/
def radix? : JsString → Option (Nat × JsString)
  | z :: r :: ds =>
      if !isChar '0' z || ds.isEmpty then none
      else if isChar 'b' r || isChar 'B' r then some (2, ds)
      else if isChar 'o' r || isChar 'O' r then some (8, ds)
      else if isChar 'x' r || isChar 'X' r then some (16, ds)
      else none
  | _ => none

/-- `s > 0`, for a string `s`.  What is not a number literal is `NaN`, and no
comparison with `NaN` holds; an empty literal is `0`. -/
def isPositive (s : JsString) : Bool :=
  let t := ((s.dropWhile isSpace).reverse.dropWhile isSpace).reverse
  match radix? t with
  | some (radix, ds) => (digits? radix 0 ds).any (0 < ·)
  | none =>
      let (neg, u) := splitSign t
      if u = js "Infinity" then !neg
      else (decimal? u).any fun (m, e) => !neg && roundsPositive m e

example : (["5", " 12 ", "0x1F", "1e-3", ".5", "Infinity"].map
    fun s => isPositive (js s)) = [true, true, true, true, true, true] := by
  decide +kernel

example : (["", "0", "-3", "abc", "5kg", "0x", "1e-400"].map
    fun s => isPositive (js s)) = [false, false, false, false, false, false, false] := by
  decide +kernel

end TaskManager.Verified.JsText
