import Netbaiot.Codecs.Decimal

/-!
# Scaled integers

An integer field of a message stands for `scale * raw + bias`.  `IntegerConversion.compile` brings
scale and bias to one exponent and checks that the whole range of raw values stays within 128 bits
and within the length of a field; `decode` and `encode` are the two directions.  The shortest text
of a floating-point number is a parameter, without a value for numbers that are not finite.
-/

namespace Netbaiot.Codecs

open Lib

/-- Take the zeros at the end of a coefficient into the exponent, which has 16 bits.  A coefficient
of 128 bits has at most 38 of them. -/
def normalizeLoop : ℕ → ℤ → ℤ → Option Decimal
  | 0, coefficient, exponent => some ⟨coefficient, exponent⟩
  | steps + 1, coefficient, exponent =>
    if coefficient.tmod 10 = 0 then do
      let exponent ← checkedSigned 16 (exponent + 1)
      normalizeLoop steps (coefficient.tdiv 10) exponent
    else some ⟨coefficient, exponent⟩

/-- The normal form of a coefficient and an exponent. -/
def normalize (coefficient exponent : ℤ) : Option Decimal :=
  if coefficient = 0 then some .zero else normalizeLoop 39 coefficient exponent

/-- A power of ten within 128 bits. -/
def pow10 : ℕ → Option ℤ
  | 0 => some 1
  | exponent + 1 => do
    let value ← pow10 exponent
    checkedSigned 128 (value * 10)

/-- The quotient of 128-bit numbers towards zero; the quotient of the smallest number and minus one
does not exist. -/
def checkedDiv128 (a b : ℤ) : Option ℤ :=
  if b = 0 ∨ (a = -2 ^ 127 ∧ b = -1) then none else some (a.tdiv b)

/-- The remainder of 128-bit numbers, where the quotient exists. -/
def checkedRem128 (a b : ℤ) : Option ℤ :=
  if b = 0 ∨ (a = -2 ^ 127 ∧ b = -1) then none else some (a.tmod b)

/-- The parameters of a conversion, at one exponent. -/
structure IntegerConversion where
  multiplier : ℤ
  offset : ℤ
  exponent : ℤ
  minimum : ℤ
  maximum : ℤ
deriving DecidableEq

inductive IntegerConversionError where
  | conversion (message : String)
  | fieldBytes
deriving DecidableEq

def IntegerConversionError.message : IntegerConversionError → String
  | .conversion message => message
  | .fieldBytes =>
      "Exact decoded Decimal output exceeds CodecLimits.field_bytes for part of the integer range."

/-- Count the digits of a magnitude of 128 bits. -/
def countDigits : ℕ → ℕ → ℕ → Option ℕ
  | 0, _, digits => some digits
  | steps + 1, remaining, digits =>
    if 10 ≤ remaining then do
      let digits ← checkedAdd 64 digits 1
      countDigits steps (remaining / 10) digits
    else some digits

/-- The length of the text of a coefficient and an exponent that are not normalized. -/
def formattedLenUpperBound (coefficient exponent : ℤ) : Option ℕ :=
  if coefficient = 0 then some 1
  else do
    let digits ← countDigits 39 coefficient.natAbs 1
    let sign := if coefficient < 0 then 1 else 0
    if 0 ≤ exponent then
      let length ← checkedAdd 64 sign digits
      checkedAdd 64 length exponent.natAbs
    else
      let fractional := exponent.natAbs
      if fractional < digits then
        let length ← checkedAdd 64 sign digits
        checkedAdd 64 length 1
      else
        let length ← checkedAdd 64 sign 2
        checkedAdd 64 length fractional

/-- The longer text of two coefficients. -/
def maximumFormattedLen (first second exponent : ℤ) : Option ℕ :=
  [first, second].foldlM (fun longest coefficient => do
    let length ← formattedLenUpperBound coefficient exponent
    return max longest length) 0

variable (self : IntegerConversion)

namespace IntegerConversion

/-- The coefficient of a raw value at the exponent of the conversion. -/
def coefficient (raw : ℤ) : Option ℤ := do
  let product ← checkedSigned 128 (self.multiplier * raw)
  checkedSigned 128 (product + self.offset)

/-- The number of a raw value. -/
def decimal (raw : ℤ) : Option Decimal := do
  let coefficient ← self.coefficient raw
  normalize coefficient self.exponent

/-- The coefficient of a parameter at another exponent. -/
def align (value : Decimal) (exponent : ℤ) : Option ℤ :=
  if value.coefficient = 0 then some 0
  else do
    let power ← pow10 (value.exponent - exponent).natAbs
    checkedSigned 128 (value.coefficient * power)

/-- Check the coefficient of an end of the range. -/
def endpoint (plan : IntegerConversion) (raw : ℤ) : Except IntegerConversionError ℤ := do
  let some _ := checkedSigned 128 (plan.multiplier * raw)
    | .error (.conversion "Integer conversion exceeds the bounded i128 decimal engine.")
  let some coefficient := plan.coefficient raw
    | .error (.conversion
        "Integer conversion exceeds the bounded i128 decimal engine for part of the raw range.")
  return coefficient

/-- The conversion of a range of raw values by a scale and a bias. -/
def compile (scale bias : Decimal) (minimum maximum : ℤ) (fieldBytes : ℕ) :
    Except IntegerConversionError IntegerConversion := do
  check (scale.coefficient ≠ 0) (.conversion "Scale must be nonzero.")
  let exponent := if bias.coefficient = 0 then scale.exponent else min scale.exponent bias.exponent
  let some multiplier := align scale exponent
    | .error (.conversion "Integer conversion parameters exceed the bounded i128 decimal engine.")
  let some offset := align bias exponent
    | .error (.conversion "Integer conversion parameters exceed the bounded i128 decimal engine.")
  let plan : IntegerConversion := ⟨multiplier, offset, exponent, minimum, maximum⟩
  let first ← plan.endpoint minimum
  let second ← plan.endpoint maximum
  let some maximumLength := maximumFormattedLen first second exponent
    | .error (.conversion "Exact decoded value length exceeds the bounded decimal engine.")
  check (maximumLength ≤ maxDecimalBytes)
    (.conversion "Exact decoded value exceeds the 64-byte decimal scalar limit.")
  check (maximumLength ≤ fieldBytes) .fieldBytes
  return plan

/-- The scalar of a raw value. -/
def decode (raw : ℤ) : Option DecimalScalar :=
  if self.minimum ≤ raw ∧ raw ≤ self.maximum then do
    let decimal ← self.decimal raw
    decimal.intoScalar
  else none

/-- Divide by a power of ten without remainder. -/
def divideTens : ℕ → ℤ → Option ℤ
  | 0, coefficient => some coefficient
  | steps + 1, coefficient =>
    if coefficient.tmod 10 ≠ 0 then none else divideTens steps (coefficient.tdiv 10)

/-- The coefficient of a number at the exponent of the conversion. -/
def rescale (value : Decimal) : Option ℤ :=
  let exponentDifference := value.exponent - self.exponent
  if 0 ≤ exponentDifference then do
    let power ← pow10 exponentDifference.toNat
    checkedSigned 128 (value.coefficient * power)
  else divideTens exponentDifference.natAbs value.coefficient

/-- The raw value of a number. -/
def invert (value : Decimal) : Option ℤ := do
  let coefficient ← self.rescale value
  let numerator ← checkedSigned 128 (coefficient - self.offset)
  guard (checkedRem128 numerator self.multiplier = some 0)
  let raw ← checkedDiv128 numerator self.multiplier
  guard ((self.minimum ≤ raw ∧ raw ≤ self.maximum) ∧ self.decimal raw = some value)
  return raw

variable {Float : Type} (shortest : Float → Option (List UInt8))

/-- The number of a scalar: a floating-point number through its shortest text, a decimal through
its own text. -/
def number : Scalar Float → Option Decimal
  | .number number => do
    let text ← shortest number
    (Decimal.parse text).toOption
  | .decimal decimal => (Decimal.parse decimal.decimal).toOption
  | _ => none

/-- The raw value of a scalar. -/
def encode (scalar : Scalar Float) : Option ℤ := do
  let value ← number shortest scalar
  self.invert value

end IntegerConversion

end Netbaiot.Codecs
