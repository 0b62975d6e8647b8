import Netbaiot.Lib.Incremental
import Netbaiot.Mqtt.Frame
import Netbaiot.Mqtt.V311
import Netbaiot.Mqtt.V5

/-!
# Framing

The bytes of a connection arrive in chunks of any size, and both decoders take packets out of the
buffer as long as there are whole ones.  What the fixed header says does not change when more
bytes arrive, so `mqtt_framing` holds: the packets and the way the stream ends are a function of
its bytes, and a packet ends exactly where its header announces.
-/

namespace Netbaiot.Mqtt

open Lib

variable {maximum : ℕ} {input rest : List UInt8} {first : UInt8}

/-! ## More bytes do not change an answer -/

theorem remainingLengthFrom_append {index value multiplier : ℕ}
    (h : remainingLengthFrom maximum input index value multiplier ≠ .ok none) (more : List UInt8) :
    remainingLengthFrom maximum (input ++ more) index value multiplier =
      remainingLengthFrom maximum input index value multiplier := by
  induction input generalizing index value multiplier with
  | nil => exact absurd rfl h
  | cons byte rest ih =>
    rw [List.cons_append]
    simp only [remainingLengthFrom] at h ⊢
    split_ifs at h ⊢
    all_goals first | rfl | exact ih h

theorem remainingLength_append (h : remainingLength input maximum ≠ .ok none) (more : List UInt8) :
    remainingLength (input ++ more) maximum = remainingLength input maximum := by
  unfold remainingLength at h ⊢
  rw [List.take_append]
  exact remainingLengthFrom_append h _

theorem fixedHeader_append (h : fixedHeader input maximum ≠ .ok none) (more : List UInt8) :
    fixedHeader (input ++ more) maximum = fixedHeader input maximum := by
  cases input with
  | nil => exact absurd rfl h
  | cons first rest =>
    rw [List.cons_append]
    simp only [fixedHeader] at h ⊢
    by_cases hflags : validFlags (first >>> 4) (first &&& 0x0f) = true
    · rw [check_bind_of hflags] at h
      rw [check_bind_of hflags, check_bind_of hflags, remainingLength_append]
      intro hnone
      rw [hnone] at h
      exact h rfl
    · rw [check, if_neg hflags]
      rfl

/-- The packet that is taken out of a buffer, and what is left, by the fixed header. -/
theorem takeFrame_of_header {header total : ℕ}
    (h : fixedHeader input maximum = .ok (some (first, header, total))) :
    takeFrame input maximum =
      if input.length < total then .ok none
      else .ok (some (first, (input.take total).drop header, input.drop total)) := by
  rw [takeFrame, h]
  rfl

/-- A packet is taken out of a buffer exactly if its header announces no more than there is. -/
theorem takeFrame_eq_ok_some {body : List UInt8}
    (h : takeFrame input maximum = .ok (some (first, body, rest))) :
    ∃ header total, fixedHeader input maximum = .ok (some (first, header, total)) ∧
      total ≤ input.length ∧ 0 < total ∧ body = (input.take total).drop header ∧
      rest = input.drop total := by
  cases hheader : fixedHeader input maximum with
  | error e =>
    rw [takeFrame, hheader] at h
    cases h
  | ok found =>
    cases found with
    | none =>
      rw [takeFrame, hheader] at h
      cases h
    | some found =>
      obtain ⟨first', header, total⟩ := found
      rw [takeFrame_of_header hheader] at h
      split at h
      · cases h
      · next hcomplete =>
        cases h
        obtain ⟨-, -, remaining, htotal, -, hsize⟩ := fixedHeader_eq_some hheader
        exact ⟨header, total, rfl, by omega, by omega, rfl, rfl⟩

theorem takeFrame_append {body : List UInt8}
    (h : takeFrame input maximum = .ok (some (first, body, rest))) (more : List UInt8) :
    takeFrame (input ++ more) maximum = .ok (some (first, body, rest ++ more)) := by
  obtain ⟨header, total, hheader, htotal, -, rfl, rfl⟩ := takeFrame_eq_ok_some h
  have hmore : fixedHeader (input ++ more) maximum = .ok (some (first, header, total)) := by
    rw [fixedHeader_append (by rw [hheader]; rintro ⟨⟩), hheader]
  have hlong : ¬ (input ++ more).length < total := by
    rw [List.length_append]
    omega
  rw [takeFrame_of_header hmore, if_neg hlong, List.take_append_of_le_length htotal,
    List.drop_append_of_le_length htotal]

theorem takeFrame_error_append {e : WireError} (h : takeFrame input maximum = .error e)
    (more : List UInt8) : takeFrame (input ++ more) maximum = .error e := by
  cases hheader : fixedHeader input maximum with
  | error e' =>
    have hmore : fixedHeader (input ++ more) maximum = .error e' := by
      rw [fixedHeader_append (by rw [hheader]; rintro ⟨⟩), hheader]
    rw [takeFrame, hheader] at h
    rw [takeFrame, hmore]
    exact h
  | ok found =>
    cases found with
    | none =>
      rw [takeFrame, hheader] at h
      cases h
    | some found =>
      rw [takeFrame_of_header hheader] at h
      split at h <;> cases h

/-- Fewer bytes than a packet's header announces are not a packet yet. -/
theorem takeFrame_take {header total n : ℕ}
    (h : fixedHeader input maximum = .ok (some (first, header, total))) (hn : n < total) :
    takeFrame (input.take n) maximum = .ok none := by
  cases hheader : fixedHeader (input.take n) maximum with
  | error e =>
    have hwhole := fixedHeader_append (by rw [hheader]; rintro ⟨⟩) (input.drop n)
    rw [List.take_append_drop, h, hheader] at hwhole
    cases hwhole
  | ok found =>
    cases found with
    | none =>
      rw [takeFrame, hheader]
      rfl
    | some found =>
      have hwhole := fixedHeader_append (by rw [hheader]; rintro ⟨⟩) (input.drop n)
      rw [List.take_append_drop, h, hheader] at hwhole
      cases hwhole
      rw [takeFrame_of_header hheader, if_pos]
      rw [List.length_take]
      omega

/-! ## Decoders of frames -/

section

variable {α ε : Type}

/-- A decoder that takes a frame out of the buffer and then reads its body alone. -/
def DecodesFrames (maximum : ℕ) (adaptError : WireError → ε)
    (parse : UInt8 → List UInt8 → Except ε α)
    (decode : List UInt8 → Except ε (Option (α × List UInt8))) : Prop :=
  ∀ input, decode input =
    match takeFrame input maximum with
    | .error e => .error (adaptError e)
    | .ok none => .ok none
    | .ok (some (first, body, rest)) => (parse first body).map fun packet => some (packet, rest)

variable {maximum : ℕ} {adaptError : WireError → ε} {parse : UInt8 → List UInt8 → Except ε α}
variable {decode : List UInt8 → Except ε (Option (α × List UInt8))}

section

variable (h : DecodesFrames maximum adaptError parse decode)

include h

/-- A packet is read from the body of the frame that is taken out. -/
theorem DecodesFrames.eq_some {packet : α} (hdecode : decode input = .ok (some (packet, rest))) :
    ∃ first body, takeFrame input maximum = .ok (some (first, body, rest)) ∧
      parse first body = .ok packet := by
  rw [h input] at hdecode
  cases hframe : takeFrame input maximum with
  | error e =>
    rw [hframe] at hdecode
    cases hdecode
  | ok found =>
    rw [hframe] at hdecode
    cases found with
    | none => cases hdecode
    | some found =>
      obtain ⟨first, body, rest'⟩ := found
      dsimp only at hdecode
      cases hparse : parse first body with
      | error e =>
        rw [hparse] at hdecode
        cases hdecode
      | ok packet' =>
        rw [hparse] at hdecode
        cases hdecode
        exact ⟨first, body, rfl, hparse⟩

theorem DecodesFrames.incremental :
    Incremental decode where
  empty := h []
  consumes {input packet rest} hdecode := by
    obtain ⟨first, body, hframe, -⟩ := h.eq_some hdecode
    obtain ⟨header, total, -, htotal, hpos, -, rfl⟩ := takeFrame_eq_ok_some hframe
    rw [List.length_drop]
    omega
  grows {input packet rest} hdecode more := by
    obtain ⟨first, body, hframe, hparse⟩ := h.eq_some hdecode
    rw [h, takeFrame_append hframe more]
    show (parse first body).map _ = _
    rw [hparse]
    rfl
  fails {input e} hdecode more := by
    rw [h input] at hdecode
    rw [h (input ++ more)]
    cases hframe : takeFrame input maximum with
    | error e' =>
      rw [hframe] at hdecode
      rw [takeFrame_error_append hframe more]
      exact hdecode
    | ok found =>
      rw [hframe] at hdecode
      cases found with
      | none => cases hdecode
      | some found =>
        obtain ⟨first, body, rest⟩ := found
        rw [takeFrame_append hframe more]
        dsimp only at hdecode ⊢
        cases hparse : parse first body with
        | error e' =>
          rw [hparse] at hdecode
          exact hdecode
        | ok packet =>
          rw [hparse] at hdecode
          cases hdecode

/-- Packets and the end of a stream depend on its bytes only; the stream ends with an error or
where the decoder needs more; a packet ends where its header announces, and nothing shorter is a
packet. -/
structure Framing (maximum : ℕ) (decode : List UInt8 → Except ε (Option (α × List UInt8))) :
    Prop where
  chunks : ∀ chunks, receive decode chunks = extract decode chunks.flatten
  needMore : ∀ {input buffer}, (extract decode input).2 = .needMore buffer →
    decode buffer = .ok none
  announced : ∀ {input packet rest}, decode input = .ok (some (packet, rest)) →
    ∃ first header total, fixedHeader input maximum = .ok (some (first, header, total)) ∧
      total ≤ input.length ∧ rest = input.drop total
  whole : ∀ {input first header total n},
    fixedHeader input maximum = .ok (some (first, header, total)) → n < total →
      decode (input.take n) = .ok none

theorem DecodesFrames.framing :
    Framing maximum decode where
  chunks := h.incremental.receive_eq
  needMore := h.incremental.decode_of_needMore
  announced {input packet rest} hdecode := by
    obtain ⟨first, body, hframe, -⟩ := h.eq_some hdecode
    obtain ⟨header, total, hheader, htotal, -, -, hrest⟩ := takeFrame_eq_ok_some hframe
    exact ⟨first, header, total, hheader, htotal, hrest⟩
  whole hheader hn := by rw [h, takeFrame_take hheader hn]

end

end

theorem decodeFrame_decodesFrames {α ε : Type} (maximum : ℕ) (adaptError : WireError → ε)
    (p : UInt8 → Parser ε α) :
    DecodesFrames maximum adaptError (fun first body => ((p first).parse body).map Prod.fst)
      fun input => decodeFrame ((takeFrame input maximum).mapError adaptError) p := by
  intro input
  show decodeFrame ((takeFrame input maximum).mapError adaptError) p = _
  rcases takeFrame input maximum with e | _ | ⟨first, body, rest⟩
  · rfl
  · rfl
  · show ((p first).parse body >>= _) = _
    dsimp only
    cases (p first).parse body <;> rfl

/-- Both decoders frame their packets independently of how the bytes arrive. -/
theorem mqtt_framing (limits : Limits) :
    Framing limits.maxMqttPacketSize (V311.decode limits) ∧
      Framing limits.maxMqttPacketSize (V5.decode limits) :=
  ⟨(decodeFrame_decodesFrames _ adapt (V311.decodeBody limits)).framing,
    (decodeFrame_decodesFrames _ V5.headerError (V5.decodeBody limits)).framing⟩

end Netbaiot.Mqtt
