import Netbaiot.Mqtt.Wire

/-!
# Frames

What `encode` writes is taken out of a buffer again by `takeFrame`: the variable byte integer
of a length is read back as this length, and the body is cut off at it.
-/

namespace Netbaiot.Mqtt

open Lib

/-! ## Variable byte integers -/

/-- The last byte of a variable byte integer. -/
theorem lastByte_spec {digit : ℕ} (h : digit < 128) :
    (UInt8.ofNat digit &&& 0x7f).toNat = digit ∧ UInt8.ofNat digit &&& 0x80 = 0 ∧
      (UInt8.ofNat digit = 0 → digit = 0) := by
  have hall : ∀ i : Fin 128, (UInt8.ofNat i &&& 0x7f).toNat = i ∧ UInt8.ofNat i &&& 0x80 = 0 ∧
      (UInt8.ofNat i = 0 → (i : ℕ) = 0) := by decide +kernel
  exact hall ⟨digit, h⟩

/-- A byte of a variable byte integer that has more to come. -/
theorem continuedByte_spec {digit : ℕ} (h : digit < 128) :
    ((UInt8.ofNat digit ||| 0x80) &&& 0x7f).toNat = digit ∧
      (UInt8.ofNat digit ||| 0x80) &&& 0x80 ≠ 0 := by
  have hall : ∀ i : Fin 128, ((UInt8.ofNat i ||| 0x80) &&& 0x7f).toNat = i ∧
      (UInt8.ofNat i ||| 0x80) &&& 0x80 ≠ 0 := by decide +kernel
  exact hall ⟨digit, h⟩

/-- Reading a variable byte integer adds the number that was written. -/
theorem remainingLengthFrom_variableBytes {maximum fuel n : ℕ} (hfuel : n < fuel)
    {index value multiplier : ℕ} (hindex : index ≤ 3) (hshort : n < 128 ^ (4 - index))
    (hmax : value + n * multiplier ≤ maximum) (hnonzero : index ≠ 0 → n ≠ 0) (rest : List UInt8) :
    remainingLengthFrom maximum (variableBytes fuel n ++ rest) index value multiplier =
      .ok (some (value + n * multiplier, index + (variableBytes fuel n).length)) := by
  induction fuel generalizing n index value multiplier with
  | zero => omega
  | succ fuel ih =>
    have hdigit : n % 128 < 128 := Nat.mod_lt _ (by decide)
    rw [variableBytes]
    split
    · next hlast =>
      rw [show n % 128 = n by omega] at hdigit ⊢
      obtain ⟨hvalue, hstop, hzero⟩ := lastByte_spec hdigit
      simp only [List.singleton_append, remainingLengthFrom, hvalue, hstop, List.length_singleton]
      rw [if_neg (by omega), if_pos trivial, if_neg]
      rintro ⟨hpos, hbyte⟩
      exact hnonzero (by omega) (hzero hbyte)
    · next hmore =>
      obtain ⟨hvalue, hgoes⟩ := continuedByte_spec hdigit
      -- A number with more than one digit is not at the last of the four bytes.
      have hlow : index ≠ 3 := by
        rintro rfl
        omega
      have hsum : value + n % 128 * multiplier + n / 128 * (multiplier * 128) =
          value + n * multiplier := by
        conv_rhs => rw [← Nat.mod_add_div n 128]
        ring
      have hnext : n / 128 < 128 ^ (4 - (index + 1)) := by
        rw [show 4 - index = 4 - (index + 1) + 1 by omega, pow_succ] at hshort
        exact Nat.div_lt_of_lt_mul (by rwa [Nat.mul_comm] at hshort)
      simp only [List.cons_append, remainingLengthFrom, hvalue]
      rw [if_neg (by omega), if_neg hgoes, if_neg hlow,
        ih (by omega) (by omega) hnext (by omega) (fun _ => hmore), hsum, List.length_cons]
      simp only [Nat.add_assoc, Nat.add_comm 1]

/-- A variable byte integer is read back. -/
theorem remainingLength_variableInteger {maximum n : ℕ} (hmax : n ≤ maximum)
    (hsmall : n ≤ 268435455) (rest : List UInt8) :
    remainingLength (variableInteger n ++ rest) maximum =
      .ok (some (n, (variableInteger n).length)) := by
  have hlength := variableInteger_length hsmall
  have hfour : (variableInteger n).length ≤ 4 := by
    rw [hlength, variableSize]
    split_ifs <;> omega
  rw [remainingLength, List.take_append, List.take_of_length_le hfour]
  have hread : remainingLengthFrom maximum
      (variableInteger n ++ rest.take (4 - (variableInteger n).length)) 0 0 1 =
        .ok (some (0 + n * 1, 0 + (variableInteger n).length)) :=
    remainingLengthFrom_variableBytes (Nat.lt_succ_self n) (by decide) (by norm_num; omega)
      (by omega) (fun h => absurd rfl h) _
  rw [hread, Nat.zero_add, Nat.mul_one, Nat.zero_add]

/-! ## Whole packets -/

/-- An encoded packet is taken out of a buffer that begins with it. -/
theorem takeFrame_encode {first : UInt8} {body frame : List UInt8} {maximum limit : ℕ}
    (h : encode first body maximum = .ok frame) (hlimit : frame.length ≤ limit)
    (rest : List UInt8) : takeFrame (frame ++ rest) limit = .ok (some (first, body, rest)) := by
  obtain ⟨rfl, hbody, hflags, hframe, _⟩ := encode_eq_ok h
  have hlength := variableInteger_length hbody
  have hread : remainingLength (variableInteger body.length ++ (body ++ rest)) limit = _ :=
    remainingLength_variableInteger (by omega) hbody (body ++ rest)
  have hheader : fixedHeader ((first :: variableInteger body.length ++ body) ++ rest) limit =
      .ok (some (first, variableSize body.length + 1,
        body.length + (variableSize body.length + 1))) := by
    simp only [List.cons_append, List.append_assoc, fixedHeader]
    rw [check_bind_of hflags, hread, hlength]
    show (check _ _ >>= _) = _
    rw [check_bind_of (by omega)]
    rfl
  have hcut : ((first :: variableInteger body.length ++ body) ++ rest).take
      (body.length + (variableSize body.length + 1)) =
        first :: variableInteger body.length ++ body :=
    List.take_left' (by omega)
  rw [takeFrame, hheader]
  show (if _ then _ else _) = _
  rw [if_neg (by rw [List.length_append]; omega), hcut,
    List.drop_left' (by rw [List.length_cons]; omega), List.drop_left' (by omega)]
  rfl

/-! ## Decoders of frames -/

section

variable {ε α : Type} {found : Except ε (Option (UInt8 × List UInt8 × List UInt8))} {first : UInt8}
  {p : UInt8 → Parser ε α} {body rest left : List UInt8} {packet : α}

/-- What every decoder does with the frame that it takes out of a buffer. -/
def decodeFrame (found : Except ε (Option (UInt8 × List UInt8 × List UInt8)))
    (p : UInt8 → Parser ε α) : Except ε (Option (α × List UInt8)) := do
  match ← found with
  | none => return none
  | some (first, body, rest) =>
      let (packet, _) ← (p first).parse body
      return some (packet, rest)

theorem decodeFrame_eq_some (h : decodeFrame found p = .ok (some (packet, rest))) :
    ∃ first body left, found = .ok (some (first, body, rest)) ∧
      (p first).parse body = .ok (packet, left) := by
  rw [decodeFrame, except_bind_eq_ok] at h
  obtain ⟨_ | ⟨first, body, after⟩, rfl, h⟩ := h
  · cases h
  · obtain ⟨⟨packet', left⟩, hparse, h⟩ := except_bind_eq_ok.mp h
    cases h
    exact ⟨first, body, left, rfl, hparse⟩

/-- A packet whose body is read is decoded. -/
theorem decodeFrame_of_parse (hfound : found = .ok (some (first, body, rest)))
    (hbody : (p first).parse body = .ok (packet, left)) :
    decodeFrame found p = .ok (some (packet, rest)) := by
  subst hfound
  show ((p first).parse body >>= _) = _
  rw [hbody]
  rfl

/-- It is decoded from a buffer that begins with it. -/
theorem decode_encode {frame : List UInt8} {maximum limit : ℕ} {adaptError : WireError → ε}
    (h : encode first body maximum = .ok frame) (hlimit : frame.length ≤ limit)
    (hbody : (p first).parse body = .ok (packet, left)) (rest : List UInt8) :
    decodeFrame ((takeFrame (frame ++ rest) limit).mapError adaptError) p =
      .ok (some (packet, rest)) :=
  decodeFrame_of_parse (by rw [takeFrame_encode h hlimit rest]; rfl) hbody

end

end Netbaiot.Mqtt
