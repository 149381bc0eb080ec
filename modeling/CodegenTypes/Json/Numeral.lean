import CodegenTypes.Json.Lexeme

/-! Numbers in a JSON text.  The grammar comes first; what a numeral is worth is
asked only where a number is wanted. -/

namespace CodegenTypes.Json

structure Numeral where
  whole : List Char
  fraction : Option (List Char)
  /-- Whether the exponent is negative, and its digits. -/
  exponent : Option (Bool × List Char)

def digits (atEnd : ReadError) (cs : List Char) : Read (List Char) :=
  match cs.takeWhile Char.isDigit with
  | [] => .error (if cs.isEmpty then atEnd else .malformed)
  | d :: ds => .ok (d :: ds, cs.dropWhile Char.isDigit)

def wholePart (atEnd : ReadError) (cs : List Char) : Read (List Char) :=
  match digits atEnd cs with
  | .ok ('0' :: _ :: _, _) => .error .malformed
  | r => r

def fractionPart (atEnd : ReadError) : List Char → Read (Option (List Char))
  | '.' :: cs => (digits atEnd cs).map fun (ds, rest) => (some ds, rest)
  | cs => .ok (none, cs)

def signedDigits (atEnd : ReadError) : List Char → Read (Bool × List Char)
  | '+' :: cs => (digits atEnd cs).map fun (ds, rest) => ((false, ds), rest)
  | '-' :: cs => (digits atEnd cs).map fun (ds, rest) => ((true, ds), rest)
  | cs => (digits atEnd cs).map fun (ds, rest) => ((false, ds), rest)

def exponentPart (atEnd : ReadError) : List Char → Read (Option (Bool × List Char))
  | [] => .ok (none, [])
  | c :: cs =>
    if c = 'e' ∨ c = 'E' then (signedDigits atEnd cs).map fun (e, rest) => (some e, rest)
    else .ok (none, c :: cs)

def numeral (atEnd : ReadError) (cs : List Char) : Except ReadError (Numeral × List Char) := do
  let (whole, cs) ← wholePart atEnd cs
  let (fraction, cs) ← fractionPart atEnd cs
  let (exponent, cs) ← exponentPart atEnd cs
  return (⟨whole, fraction, exponent⟩, cs)

namespace Numeral

def maxWord : Nat := 18446744073709551615

def natural? (q : Numeral) : Option Nat :=
  if q.fraction.isSome ∨ q.exponent.isSome then none
  else
    let n := Nat.ofDigitChars 10 q.whole 0
    if n ≤ maxWord then some n else none

/-- Appends digits while the number fits in 64 bits; gives back those left out. -/
def keepDigits (n : Nat) : List Char → Nat × List Char
  | [] => (n, [])
  | d :: ds =>
    let m := n * 10 + (d.toNat - 48)
    if m ≤ maxWord then keepDigits m ds else (n, d :: ds)

/-- The nearest number with 53 significant bits; a half goes to the even one. -/
def round53 (n : Nat) : Nat :=
  let shift := n.log2 - 52
  let quotient := n >>> shift
  let twice := 2 * (n - quotient <<< shift)
  let up := 1 <<< shift < twice ∨ (twice = 1 <<< shift ∧ quotient % 2 = 1)
  (if up then quotient + 1 else quotient) <<< shift

/-- Whether the numeral has a double-precision value: at most 64 bits of its digits
are multiplied by a power of ten, both rounded, and the product has to be finite. -/
def isFinite (q : Numeral) : Bool :=
  let fraction := q.fraction.getD []
  let (n, left) := keepDigits 0 q.whole
  let (n, unused) := keepDigits n fraction
  let exponent : Int :=
    match q.exponent with
    | some (true, ds) => -Nat.ofDigitChars 10 ds 0
    | some (false, ds) => Nat.ofDigitChars 10 ds 0
    | none => 0
  let scale := exponent + left.length - (fraction.length - unused.length : Nat)
  n = 0 || scale ≤ 0 ||
    (scale ≤ 308 && round53 (round53 n * round53 (Nat.pow 10 scale.toNat)) < 1 <<< 1024)

end Numeral

def startsNumber (c : Char) : Bool := c = '-' || c.isDigit

def sign : List Char → Bool × List Char
  | '-' :: cs => (true, cs)
  | cs => (false, cs)

def readNumber (cs : List Char) : Except ReadError (Option Nat × List Char) := do
  let (q, rest) ← numeral .endOfText (sign cs).2
  if q.isFinite then return (if (sign cs).1 then none else q.natural?, rest)
  else throw .malformed

def skipNumber (cs : List Char) : Except ReadError (List Char) :=
  (numeral .malformed (sign cs).2).map (·.2)

end CodegenTypes.Json
