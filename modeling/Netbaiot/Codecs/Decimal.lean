import Netbaiot.Lib.Op
import Netbaiot.Lib.Word
import Netbaiot.Scalar

/-!
# Bounded decimal numbers

A decimal number is a signed 128-bit coefficient times a power of ten.  `parseBounded` reads a
decimal text exactly or fails; `writeTo` writes the shortest plain text without an exponent.
-/

namespace Netbaiot.Codecs

open Lib

/-- A coefficient times a power of ten. -/
structure Decimal where
  coefficient : ℤ
  exponent : ℤ
deriving DecidableEq

namespace Decimal

def zero : Decimal := ⟨0, 0⟩

/-! ## Reading -/

/-- The digits of a fraction, if there is one, and the text after it. -/
def scanFraction (bytes : List UInt8) : Except String (List UInt8 × List UInt8) :=
  if bytes.head? = some 46 then do
    let (fraction, rest) := scanDigits bytes.tail
    check (fraction ≠ []) "Decimal point must be followed by digits."
    return (fraction, rest)
  else return ([], bytes)

/-- One more digit of an exponent, within 32 bits. -/
def pushExponentDigit (exponent : ℤ) (byte : UInt8) : Option ℤ := do
  let n ← checkedSigned 32 (exponent * 10)
  checkedSigned 32 (n + digit byte)

/-- The exponent of a text, zero if there is none, and the text after it. -/
def scanExponent (bytes : List UInt8) : Except String (ℤ × List UInt8) :=
  if bytes.head? = some 101 ∨ bytes.head? = some 69 then do
    let exponentNegative := bytes.tail.head? == some 45
    let (digits, rest) := scanDigits (skipExponentSign bytes.tail)
    let some exponent := digits.foldlM pushExponentDigit 0
      | .error "Decimal exponent exceeds the supported range."
    check (digits ≠ []) "Decimal exponent requires digits."
    if exponentNegative then
      let some exponent := checkedSigned 32 (-exponent)
        | .error "Decimal exponent exceeds the supported range."
      return (exponent, rest)
    else return (exponent, rest)
  else return (0, bytes)

/-- What is known of the digits read so far: the places of the first and of the last one that is
not zero, and their number. -/
structure NonzeroScan where
  first : Option ℕ
  last : Option ℕ
  index : ℕ

/-- One more byte of a mantissa. -/
def NonzeroScan.push (scan : NonzeroScan) (byte : UInt8) : NonzeroScan :=
  if byte = 46 then scan
  else if byte ≠ 48 then
    ⟨scan.first.orElse fun _ => some scan.index, some scan.index, scan.index + 1⟩
  else { scan with index := scan.index + 1 }

/-- One more byte of a mantissa; digits from `first` to `last` are part of the coefficient, within
128 bits. -/
def pushDigit (first last : ℕ) (state : ℕ × ℕ) (byte : UInt8) : Option (ℕ × ℕ) :=
  if byte = 46 then some state
  else if first ≤ state.2 ∧ state.2 ≤ last then do
    let n ← checkedMul 128 state.1 10
    let magnitude ← checkedAdd 128 n (digit byte)
    return (magnitude, state.2 + 1)
  else some (state.1, state.2 + 1)

/-- The coefficient of a sign and a magnitude, within 128 bits. -/
def signedCoefficient (negative : Bool) (magnitude : ℕ) : Option ℤ :=
  if negative then
    if magnitude = 2 ^ 127 then some (-2 ^ 127)
    else do
      let coefficient ← checkedSigned 128 magnitude
      checkedSigned 128 (-coefficient)
  else checkedSigned 128 magnitude

/-- The number of a scanned text: its sign, the bytes of its mantissa, the number of digits of its
fraction and its exponent. -/
def ofMantissa (negative : Bool) (mantissa : List UInt8) (fractionDigits : ℕ) (explicitExponent : ℤ)
    (maximumSignificantDigits : ℕ) (maximumExponent : Int16) : Except String Decimal := do
  let scan := mantissa.foldl NonzeroScan.push ⟨none, none, 0⟩
  match scan.first with
  | none =>
    check (-maximumExponent.toInt ≤ explicitExponent ∧ explicitExponent ≤ maximumExponent.toInt)
      "Decimal exponent exceeds the supported bounded range."
    return zero
  | some first =>
    let some last := scan.last | .error "Decimal coefficient is invalid."
    check (last - first + 1 ≤ maximumSignificantDigits)
      "Decimal has too many significant digits for the bounded decimal engine."
    let trailingZeros := scan.index - last - 1
    let some (magnitude, _) := mantissa.foldlM (pushDigit first last) (0, 0)
      | .error "Decimal coefficient exceeds i128."
    let some coefficient := signedCoefficient negative magnitude
      | .error "Decimal coefficient exceeds i128."
    let some exponent := (checkedSigned 32 (explicitExponent - fractionDigits)).bind fun n =>
        checkedSigned 32 (n + trailingZeros)
      | .error "Decimal exponent exceeds the supported range."
    check (-maximumExponent.toInt ≤ exponent ∧ exponent ≤ maximumExponent.toInt)
      "Decimal exponent exceeds the supported bounded range."
    return ⟨coefficient, exponent⟩

/-- Read a decimal text with at most so many significant digits and so large an exponent. -/
def parseBounded (text : List UInt8) (maximumSignificantDigits : ℕ) (maximumExponent : Int16) :
    Except String Decimal := do
  check (text ≠ [] ∧ text.length ≤ maxDecimalBytes)
    "Decimal text must contain between 1 and 64 bytes."
  let (negative, body) := scanSign text
  let (integer, afterInteger) := scanDigits body
  check (integer ≠ []) "Decimal requires digits before the decimal point."
  let (fraction, afterMantissa) ← scanFraction afterInteger
  let mantissa := body.take (body.length - afterMantissa.length)
  let (explicitExponent, rest) ← scanExponent afterMantissa
  check (rest = []) "Decimal contains an unsupported character."
  ofMantissa negative mantissa fraction.length explicitExponent maximumSignificantDigits
    maximumExponent

/-- Read the text of a scalar. -/
def parse (text : List UInt8) : Except String Decimal := parseBounded text 39 324

/-- Read the text of a parameter. -/
def parseParameter (text : List UInt8) : Except String Decimal := parseBounded text 38 38

/-! ## Writing -/

/-- The digits of a magnitude, written from the last one on into so many places.  A magnitude of
128 bits has at most 39. -/
def writeDigits : ℕ → ℕ → List UInt8 → List UInt8
  | 0, _, digits => digits
  | places + 1, magnitude, digits =>
    if magnitude = 0 then digits
    else writeDigits places (magnitude / 10) (UInt8.ofNat (48 + magnitude % 10) :: digits)

/-- The texts that are written one after the other. -/
def writeTo (self : Decimal) : List (List UInt8) :=
  if self.coefficient = 0 then [[48]]
  else
    let sign : List (List UInt8) := if self.coefficient < 0 then [[45]] else []
    let digits := writeDigits 39 self.coefficient.natAbs []
    if 0 ≤ self.exponent then
      sign ++ [digits] ++ List.replicate self.exponent.toNat [48]
    else
      let fractional := self.exponent.natAbs
      if fractional < digits.length then
        let split := digits.length - fractional
        sign ++ [digits.take split, [46], digits.drop split]
      else
        sign ++ [[48, 46]] ++ List.replicate (fractional - digits.length) [48] ++ [digits]

end Decimal

/-- A buffer of `maxDecimalBytes` bytes takes a text that still fits. -/
def DecimalText.writeStr (written text : List UInt8) : Option (List UInt8) :=
  if written.length + text.length ≤ maxDecimalBytes then some (written ++ text) else none

/-- The scalar of a decimal number. -/
def Decimal.intoScalar (self : Decimal) : Option DecimalScalar := do
  let text ← self.writeTo.foldlM DecimalText.writeStr []
  DecimalScalar.new text

end Netbaiot.Codecs
