import Netbaiot.Lib.Digits

/-!
# Decimal texts

A decimal scalar keeps the text it was given, which follows the grammar of a decimal number: an
optional minus sign, digits, and optionally a fraction and an exponent.
-/

namespace Netbaiot

open Lib

/-- The most bytes of a decimal text. -/
def maxDecimalBytes : ℕ := 64

/-- The text after an optional minus sign, and whether there was one. -/
def scanSign (bytes : List UInt8) : Bool × List UInt8 :=
  if bytes.head? = some 45 then (true, bytes.tail) else (false, bytes)

/-- The digits in front of a text, and the text after them. -/
def scanDigits (bytes : List UInt8) : List UInt8 × List UInt8 :=
  (bytes.takeWhile isAsciiDigit, bytes.dropWhile isAsciiDigit)

/-- The text after an optional plus or minus sign. -/
def skipExponentSign (bytes : List UInt8) : List UInt8 :=
  if bytes.head? = some 43 ∨ bytes.head? = some 45 then bytes.tail else bytes

/-- The text after an optional fraction, which must have digits. -/
def skipFraction (bytes : List UInt8) : Option (List UInt8) :=
  if bytes.head? = some 46 then
    let (fraction, rest) := scanDigits bytes.tail
    if fraction = [] then none else some rest
  else some bytes

/-- The text after an optional exponent, which must have digits. -/
def skipExponent (bytes : List UInt8) : Option (List UInt8) :=
  if bytes.head? = some 101 ∨ bytes.head? = some 69 then
    let (exponent, rest) := scanDigits (skipExponentSign bytes.tail)
    if exponent = [] then none else some rest
  else some bytes

/-- A decimal text of at most `maxDecimalBytes`. -/
def validDecimalText (value : List UInt8) : Bool :=
  if value = [] ∨ maxDecimalBytes < value.length then false
  else
    let (integer, rest) := scanDigits (scanSign value).2
    if integer = [] then false
    else (skipFraction rest).bind skipExponent == some []

/-- An explicitly decimal scalar. -/
structure DecimalScalar where
  decimal : List UInt8
  valid : validDecimalText decimal = true
deriving DecidableEq

/-- A decimal scalar from its text. -/
def DecimalScalar.new (value : List UInt8) : Option DecimalScalar :=
  if h : validDecimalText value = true then some ⟨value, h⟩ else none

/-- A value of a field.  Binary floating-point numbers are those of the host. -/
inductive Scalar (Float : Type) where
  | number (value : Float)
  | boolean (value : Bool)
  | decimal (value : DecimalScalar)
  | text (value : List UInt8)

end Netbaiot
