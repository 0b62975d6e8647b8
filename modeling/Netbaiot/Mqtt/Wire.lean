import Netbaiot.Lib.Parser
import Netbaiot.Protocol

/-!
# MQTT wire primitives

The fixed header of a control packet: a first byte with the packet type and flags, and the
length of what follows as a variable byte integer of at most four bytes.  Only the shortest
form of a variable byte integer is accepted, so the size of a packet is determined by the
size of its body.
-/

namespace Netbaiot.Mqtt

open Lib

variable {maximum value : ℕ} {input : List UInt8} {first : UInt8}

inductive WireError where
  | invalid
  | tooLarge
deriving DecidableEq

/-- The error of the gateway for an error of the wire primitives. -/
def adapt : WireError → Error
  | .invalid => .invalid
  | .tooLarge => .overloaded

/-- Read a variable byte integer from the byte with the given index on. -/
def remainingLengthFrom (maximum : ℕ) :
    List UInt8 → (index value multiplier : ℕ) → Except WireError (Option (ℕ × ℕ))
  | [], _, _, _ => .ok none
  | byte :: rest, index, value, multiplier =>
      let value := value + (byte &&& 0x7f).toNat * multiplier
      if value > maximum then .error .tooLarge
      else if byte &&& 0x80 = 0 then
        if index > 0 ∧ byte = 0 then .error .invalid else .ok (some (value, index + 1))
      else if index = 3 then .error .invalid
      else remainingLengthFrom maximum rest (index + 1) value (multiplier * 128)

/-- Read a variable byte integer: its value and how many bytes it takes. -/
def remainingLength (input : List UInt8) (maximum : ℕ) : Except WireError (Option (ℕ × ℕ)) :=
  remainingLengthFrom maximum (input.take 4) 0 0 1

/-- Take a variable byte integer off the input; the codecs differ in their errors. -/
def takeVariableInteger {ε : Type} (missing : ε) (refused : WireError → ε) (maximum : ℕ) :
    Parser ε ℕ := fun input =>
  match remainingLength input maximum with
  | .ok (some (value, used)) => .ok (value, input.drop used)
  | .ok none => .error missing
  | .error e => .error (refused e)

/-- A byte string with its length, which must fit into two bytes. -/
def putCounted {ε : Type} (e : ε) (value : List UInt8) : Except ε (List UInt8) := do
  check (value.length < 2 ^ 16) e
  return beBytes 2 value.length ++ value

/-- What a written byte string consists of. -/
theorem putCounted_eq_ok {ε : Type} {e : ε} {value bytes : List UInt8} :
    putCounted e value = .ok bytes ↔
      bytes = beBytes 2 value.length ++ value ∧ value.length < 2 ^ 16 := by
  rw [putCounted, check_bind_eq_ok, and_comm]
  show Except.ok _ = Except.ok _ ∧ _ ↔ _
  rw [Except.ok.injEq, eq_comm]

/-- The flags each packet type may have. -/
def validFlags (kind flags : UInt8) : Bool :=
  if kind ∈ [1, 2, 4, 5, 7, 9, 11, 12, 13, 14, 15] then flags == 0
  else if kind = 3 then
    let qos := (flags >>> 1) &&& 3
    qos != 3 && !(qos == 0 && flags &&& 0x08 != 0)
  else if kind ∈ [6, 8, 10] then flags == 2
  else false

/-- The first byte of a packet, the size of its fixed header and its whole size. -/
def fixedHeader (input : List UInt8) (maximum : ℕ) : Except WireError (Option (UInt8 × ℕ × ℕ)) :=
  match input with
  | [] => .ok none
  | first :: rest => do
      check (validFlags (first >>> 4) (first &&& 0x0f)) .invalid
      match ← remainingLength rest maximum with
      | none => .ok none
      | some (remaining, encoded) =>
          let header := encoded + 1
          let total := remaining + header
          check (¬ total > maximum) .tooLarge
          return some (first, header, total)

/-- Take the first packet out of a buffer, if it is complete: its first byte, its body and
what follows it. -/
def takeFrame (input : List UInt8) (maximum : ℕ) :
    Except WireError (Option (UInt8 × List UInt8 × List UInt8)) := do
  match ← fixedHeader input maximum with
  | none => return none
  | some (first, header, total) =>
      if input.length < total then return none
      else return some (first, (input.take total).drop header, input.drop total)

/-- The size of a packet with a body of the given size. -/
def encodedSize (remaining : ℕ) : Except WireError ℕ :=
  if remaining ≤ 127 then .ok (remaining + 2)
  else if remaining ≤ 16383 then .ok (remaining + 3)
  else if remaining ≤ 2097151 then .ok (remaining + 4)
  else if remaining ≤ 268435455 then .ok (remaining + 5)
  else .error .invalid

/-- The bytes of a variable byte integer, least significant first; `fuel` bounds their number. -/
def variableBytes : (fuel value : ℕ) → List UInt8
  | 0, _ => []
  | fuel + 1, value =>
      let byte := UInt8.ofNat (value % 128)
      if value / 128 = 0 then [byte] else (byte ||| 0x80) :: variableBytes fuel (value / 128)

/-- A number as a variable byte integer. -/
def variableInteger (value : ℕ) : List UInt8 := variableBytes (value + 1) value

/-- A number as a variable byte integer of at most four bytes. -/
def putVariable (value : ℕ) : Except WireError (List UInt8) :=
  if value > 268435455 then .error .invalid else .ok (variableInteger value)

/-- A whole packet. -/
def encode (first : UInt8) (body : List UInt8) (maximum : ℕ) : Except WireError (List UInt8) := do
  let size ← encodedSize body.length
  check (¬ (size > maximum ∨ ¬ validFlags (first >>> 4) (first &&& 0x0f))) .tooLarge
  return first :: (← putVariable body.length) ++ body

/-- The first byte of a PUBLISH packet. -/
def publishFlags (qos : ℕ) (retain dup : Bool) : UInt8 :=
  (0x30 : UInt8) ||| (dup.toUInt8 <<< 3) ||| (UInt8.ofNat qos <<< 1) ||| retain.toUInt8

/-- The bytes of an optional packet identifier. -/
def packetIdBytes (packetId : Option ℕ) : List UInt8 := packetId.elim [] (beBytes 2)

/-! ## Sizes -/

/-- The number of bytes of a variable byte integer. -/
def variableSize (value : ℕ) : ℕ :=
  if value ≤ 127 then 1 else if value ≤ 16383 then 2 else if value ≤ 2097151 then 3 else 4

theorem variableSize_mono {small large : ℕ} (h : small ≤ large) :
    variableSize small ≤ variableSize large := by
  unfold variableSize
  split_ifs <;> omega

/-- The size of a packet: its first byte, the length and the body. -/
theorem encodedSize_of_le {remaining : ℕ} (h : remaining ≤ 268435455) :
    encodedSize remaining = .ok (remaining + variableSize remaining + 1) := by
  unfold encodedSize variableSize
  split_ifs <;> rfl

theorem variableBytes_length {fuel : ℕ} (hfuel : value < fuel) (h : value ≤ 268435455) :
    (variableBytes fuel value).length = variableSize value := by
  -- Each byte divides the value by 128, so four steps suffice.
  have hstep : ∀ {fuel value : ℕ}, value < fuel → (variableBytes fuel value).length =
      if value / 128 = 0 then 1 else (variableBytes (fuel - 1) (value / 128)).length + 1 := by
    intro fuel value hfuel
    obtain ⟨fuel, rfl⟩ : ∃ k, fuel = k + 1 := ⟨fuel - 1, by omega⟩
    rw [variableBytes]
    split <;> simp
  rw [hstep hfuel, variableSize]
  by_cases hone : value ≤ 127
  · rw [if_pos hone, if_pos (by omega)]
  rw [if_neg hone, if_neg (by omega), hstep (by omega)]
  by_cases htwo : value ≤ 16383
  · rw [if_pos htwo, if_pos (by omega)]
  rw [if_neg htwo, if_neg (by omega), hstep (by omega)]
  by_cases hthree : value ≤ 2097151
  · rw [if_pos hthree, if_pos (by omega)]
  rw [if_neg hthree, if_neg (by omega), hstep (by omega), if_pos (by omega)]

theorem variableInteger_length (h : value ≤ 268435455) :
    (variableInteger value).length = variableSize value :=
  variableBytes_length (Nat.lt_succ_self value) h

/-- The payload bits of a byte of a variable byte integer. -/
theorem toNat_and_mask (byte : UInt8) : (byte &&& 0x7f).toNat = byte.toNat % 128 := by
  exact Nat.and_two_pow_sub_one_eq_mod byte.toNat 7

/-- The last byte of a variable byte integer has no continuation bit. -/
theorem and_continuation_eq_zero {byte : UInt8} (h : byte &&& 0x80 = 0) : byte.toNat < 128 := by
  have hbits : byte.toNat &&& 128 = 0 := by
    have := congrArg UInt8.toNat h
    rwa [UInt8.toNat_and] at this
  have hbit : byte.toNat.testBit 7 = false := by
    have hseventh : (byte.toNat &&& 128).testBit 7 = false := by
      rw [hbits]
      exact Nat.zero_testBit 7
    rwa [Nat.testBit_and, show Nat.testBit 128 7 = true from rfl, Bool.and_true] at hseventh
  have hlt := byte.toNat_lt
  by_contra hge
  rw [Nat.testBit_eq_decide_div_mod_eq] at hbit
  have hone : byte.toNat / 2 ^ 7 = 1 := by omega
  rw [hone] at hbit
  cases hbit

/-- A variable byte integer is read from as few bytes as its value needs. -/
theorem remainingLengthFrom_eq_some {index n used : ℕ} (hindex : index ≤ 3)
    (hvalue : value < 128 ^ index)
    (h : remainingLengthFrom maximum input index value (128 ^ index) = .ok (some (n, used))) :
    n ≤ maximum ∧ used ≤ 4 ∧ used ≤ index + input.length ∧ n < 128 ^ used ∧
      (used = 1 ∨ 1 ≤ used ∧ 128 ^ (used - 1) ≤ n) := by
  induction input generalizing index value with
  | nil => cases h
  | cons byte rest ih =>
    simp only [remainingLengthFrom, toNat_and_mask, gt_iff_lt] at h
    have hdigit : byte.toNat % 128 * 128 ^ index + 128 ^ index ≤ 128 ^ (index + 1) := by
      have hlt : byte.toNat % 128 + 1 ≤ 128 := Nat.mod_lt _ (by decide)
      calc byte.toNat % 128 * 128 ^ index + 128 ^ index
          = (byte.toNat % 128 + 1) * 128 ^ index := by ring
        _ ≤ 128 * 128 ^ index := Nat.mul_le_mul_right _ hlt
        _ = 128 ^ (index + 1) := by ring
    split at h
    · cases h
    · next hmax =>
      split at h
      · next hlast =>
        split at h
        · cases h
        · next hshort =>
          obtain ⟨rfl, rfl⟩ := h
          refine ⟨by omega, by omega, by simp, by omega, ?_⟩
          -- Only the first byte may be zero.
          rcases Nat.eq_zero_or_pos index with rfl | hpos
          · exact .inl rfl
          · refine .inr ⟨by omega, ?_⟩
            have hbyte := and_continuation_eq_zero hlast
            have hnonzero : byte.toNat ≠ 0 := by
              intro hzero
              exact hshort ⟨hpos, UInt8.toNat_inj.mp hzero⟩
            rw [Nat.mod_eq_of_lt hbyte, Nat.add_sub_cancel]
            have := Nat.mul_le_mul_right (128 ^ index) (Nat.one_le_iff_ne_zero.mpr hnonzero)
            omega
      · split at h
        · cases h
        · next hmore =>
          have hrest := ih (by omega) (by omega) h
          simp only [List.length_cons]
          omega

/-- A variable byte integer takes the bytes its value needs. -/
theorem remainingLength_eq_some {n used : ℕ}
    (h : remainingLength input maximum = .ok (some (n, used))) :
    n ≤ maximum ∧ n ≤ 268435455 ∧ used = variableSize n ∧ used ≤ input.length := by
  have hfrom : remainingLengthFrom maximum (input.take 4) 0 0 (128 ^ 0) = .ok (some (n, used)) := h
  obtain ⟨hmax, hfour, hinput, hbelow, habove⟩ :=
    remainingLengthFrom_eq_some (by decide) (by decide) hfrom
  rw [List.length_take] at hinput
  have hsize : n ≤ 268435455 ∧ used = variableSize n := by
    obtain rfl | rfl | rfl | rfl : used = 1 ∨ used = 2 ∨ used = 3 ∨ used = 4 := by omega
    all_goals
      unfold variableSize
      split_ifs <;> omega
  exact ⟨hmax, hsize.1, hsize.2, by omega⟩

/-- The fixed header gives the size of the packet, which is that of a packet with this body. -/
theorem fixedHeader_eq_some {header total : ℕ}
    (h : fixedHeader input maximum = .ok (some (first, header, total))) :
    validFlags (first >>> 4) (first &&& 0x0f) ∧ total ≤ maximum ∧
      ∃ remaining, total = remaining + header ∧ remaining ≤ 268435455 ∧
        header = variableSize remaining + 1 := by
  cases input with
  | nil => cases h
  | cons byte rest =>
    simp only [fixedHeader, check_bind_eq_ok] at h
    obtain ⟨hflags, h⟩ := h
    rw [except_bind_eq_ok] at h
    obtain ⟨length, hlength, h⟩ := h
    cases length with
    | none => cases h
    | some pair =>
      obtain ⟨remaining, encoded⟩ := pair
      simp only [check_bind_eq_ok] at h
      obtain ⟨htotal, h⟩ := h
      cases h
      obtain ⟨_, hsmall, hused, _⟩ := remainingLength_eq_some hlength
      exact ⟨hflags, by omega, remaining, rfl, hsmall, by omega⟩

/-- A packet that is taken out of a buffer has the size of its body with the fixed header. -/
theorem takeFrame_eq_some {body rest : List UInt8}
    (h : takeFrame input maximum = .ok (some (first, body, rest))) :
    validFlags (first >>> 4) (first &&& 0x0f) ∧ body.length ≤ 268435455 ∧
      body.length + variableSize body.length + 1 ≤ maximum := by
  rw [takeFrame, except_bind_eq_ok] at h
  obtain ⟨found, hfound, h⟩ := h
  cases found with
  | none => cases h
  | some found =>
    obtain ⟨first', header, total⟩ := found
    dsimp only at h
    split at h
    · cases h
    · next hcomplete =>
      cases h
      obtain ⟨hflags, hmax, remaining, rfl, hsmall, rfl⟩ := fixedHeader_eq_some hfound
      have hbody : ((input.take (remaining + (variableSize remaining + 1))).drop
          (variableSize remaining + 1)).length = remaining := by
        rw [List.length_drop, List.length_take_of_le (by omega)]
        omega
      rw [hbody]
      exact ⟨hflags, hsmall, by omega⟩

/-- What an encoded packet consists of. -/
theorem encode_eq_ok {body frame : List UInt8} (h : encode first body maximum = .ok frame) :
    frame = first :: variableInteger body.length ++ body ∧ body.length ≤ 268435455 ∧
      validFlags (first >>> 4) (first &&& 0x0f) ∧
      frame.length = body.length + variableSize body.length + 1 ∧ frame.length ≤ maximum := by
  simp only [encode, except_bind_eq_ok, check_eq_ok] at h
  obtain ⟨size, hsize, _, hcheck, length, hlength, h⟩ := h
  have hbody : body.length ≤ 268435455 := by
    unfold encodedSize at hsize
    split_ifs at hsize <;> omega
  rw [encodedSize_of_le hbody] at hsize
  cases hsize
  rw [putVariable, if_neg (by omega)] at hlength
  cases hlength
  cases h
  have hflags : validFlags (first >>> 4) (first &&& 0x0f) := by
    by_contra hinvalid
    exact hcheck (.inr hinvalid)
  have hframe : (first :: variableInteger body.length ++ body).length =
      body.length + variableSize body.length + 1 := by
    rw [List.length_append, List.length_cons, variableInteger_length hbody]
    omega
  exact ⟨rfl, hbody, hflags, hframe, by omega⟩

/-- A packet is encoded exactly if it is not too large, and then has the size that was checked. -/
theorem encode_iff {body : List UInt8} {bound : ℕ} (hbound : maximum ≤ bound)
    (hflags : validFlags (first >>> 4) (first &&& 0x0f)) :
    (∃ frame, encode first body maximum = .ok frame ∧ frame.length ≤ bound) ↔
      body.length ≤ 268435455 ∧ body.length + variableSize body.length + 1 ≤ maximum := by
  constructor
  · rintro ⟨frame, h, _⟩
    obtain ⟨-, hbody, -, hlength, hle⟩ := encode_eq_ok h
    exact ⟨hbody, hlength ▸ hle⟩
  · rintro ⟨hbody, hsize⟩
    refine ⟨first :: variableInteger body.length ++ body, ?_, ?_⟩
    · rw [encode, encodedSize_of_le hbody, putVariable, if_neg (by omega)]
      show (check _ _ >>= _) = _
      rw [check_bind_of (by simp [hflags]; omega)]
      rfl
    · rw [List.length_append, List.length_cons, variableInteger_length hbody]
      omega

end Netbaiot.Mqtt
