import Netbaiot.Spool.Capacity

/-!
# Two readers of one segment format

`read_segment_stream` validates a file front to back, `decode_spool_records` starts from
the trailer of a complete buffer.  `Segment` describes the format without either of them,
each reader accepts exactly the segments within its limits, and the writer produces one.
-/

namespace Netbaiot.Spool

open Lib EventBus

section Format

variable {ρ : Type} (sha : Sha256) (fromSlice : List UInt8 → Option ρ) (limits : Limits)
  (file : List UInt8) (recordsEnd : ℕ)

/-- The payload length written at a position. -/
def lengthAt (position : ℕ) : ℕ := ofBeBytes ((file.drop position).take 4)

/-- The payload that starts behind the length at a position. -/
def payloadAt (position : ℕ) : List UInt8 :=
  (file.drop (position + 4)).take (lengthAt file position)

/-- A record stands at this position, and the next one begins at `next`. -/
structure RecordAt (position : ℕ) (record : ρ) (next : ℕ) : Prop where
  positive : lengthAt file position ≠ 0
  bounded : lengthAt file position ≤ limits.spoolRecordMaxBytes
  next_eq : next = position + 4 + lengthAt file position + 32
  fits : next ≤ recordsEnd
  checksum : sha.digest (payloadAt file position) =
    (file.drop (position + 4 + lengthAt file position)).take 32
  parsed : fromSlice (payloadAt file position) = some record

/-- Records stand one after the other from this position to the end of the records. -/
inductive RecordsFrom : ℕ → List ρ → Prop where
  | done : RecordsFrom recordsEnd []
  | cons {position next : ℕ} {record : ρ} {rest : List ρ}
      (head : RecordAt sha fromSlice limits file recordsEnd position record next)
      (tail : RecordsFrom next rest) : RecordsFrom position (record :: rest)

/-- The trailer of a file. -/
def trailerOf : List UInt8 := file.drop (file.length - trailerBytes)

/-- The file is a segment of this generation with these records. -/
structure Segment (generation : ℕ) (records : List ρ) : Prop where
  long : 16 + trailerBytes ≤ file.length
  magic_eq : file.take 4 = magic
  version_eq : ofBeBytes ((file.drop 4).take 4) = version
  generation_eq : ofBeBytes ((file.drop 8).take 8) = generation
  framed : RecordsFrom sha fromSlice limits file (file.length - trailerBytes) 16 records
  trailerMagic_eq : (trailerOf file).take 4 = trailerMagic
  count_eq : ofBeBytes (((trailerOf file).drop 4).take 8) = records.length
  bytes_eq : ofBeBytes (((trailerOf file).drop 12).take 8) = file.length - trailerBytes
  digest_eq : sha.digest (file.take (file.length - trailerBytes + 20)) = (trailerOf file).drop 20

end Format

section Loops

variable {ρ : Type} {sha : Sha256} {fromSlice : List UInt8 → Option ρ} {limits : Limits}
  {file : List UInt8} {recordsEnd : ℕ}

variable {generation position : ℕ} {records : List ρ} {α : Type} {r : α} {cursor cursor' : Cursor ρ}

theorem RecordAt.lt {next : ℕ} {record : ρ}
    (h : RecordAt sha fromSlice limits file recordsEnd position record next) :
    position < next ∧ next ≤ recordsEnd := by
  have := h.next_eq
  exact ⟨by omega, h.fits⟩

/-- At the end of the records there is none, before it there is a first one. -/
theorem recordsFrom_cases :
    RecordsFrom sha fromSlice limits file recordsEnd position records ↔
      (position = recordsEnd ∧ records = []) ∨ position < recordsEnd ∧
        ∃ record next rest, RecordAt sha fromSlice limits file recordsEnd position record next ∧
          RecordsFrom sha fromSlice limits file recordsEnd next rest ∧
          records = record :: rest := by
  constructor
  · intro h
    cases h with
    | done => exact .inl ⟨rfl, rfl⟩
    | cons head tail => exact .inr ⟨head.lt.1.trans_le head.lt.2, _, _, _, head, tail, rfl⟩
  · rintro (⟨rfl, rfl⟩ | ⟨-, record, next, rest, head, tail, rfl⟩)
    · exact .done
    · exact .cons head tail

/-- A computation goes on if its check passed. -/
theorem ite_bind_eq_ok {β : Type} {c : Prop} [Decidable c] {a : β} {e : Error}
    {k : β → Except Error α} :
    ((if c then .ok a else .error e : Except Error β) >>= k) = .ok r ↔ c ∧ k a = .ok r := by
  split
  · next h => simp [h, bind, Except.bind]
  · next h => simp [h, bind, Except.bind]

theorem readExact_bind_eq_ok {n : ℕ} {stream : List UInt8}
    {k : List UInt8 × List UInt8 → Except Error α} :
    (readExact n stream >>= k) = .ok r ↔
      n ≤ stream.length ∧ k (stream.take n, stream.drop n) = .ok r := ite_bind_eq_ok

theorem getRange_bind_eq_ok {input : List UInt8} {start stop : ℕ}
    {k : List UInt8 → Except Error α} :
    (getRange input start stop >>= k) = .ok r ↔
      stop ≤ input.length ∧ k ((input.drop start).take (stop - start)) = .ok r := ite_bind_eq_ok

/-- The streaming reader takes exactly the record at its position. -/
theorem readRecord_eq_ok (hstream : cursor.stream = file.drop cursor.position)
    (hend : recordsEnd ≤ file.length) :
    readRecord sha fromSlice limits recordsEnd cursor = .ok cursor' ↔
      ∃ record next, RecordAt sha fromSlice limits file recordsEnd cursor.position record next ∧
        cursor.count < limits.spoolMaxRecords ∧
        cursor' = ⟨file.drop next, next, cursor.count + 1, cursor.records ++ [record]⟩ := by
  simp only [readRecord, hstream, readExact_bind_eq_ok, check_bind_eq_ok, List.drop_drop,
    List.length_drop]
  change _ ∧ ¬ (lengthAt file cursor.position = 0 ∨ lengthAt file cursor.position > _) ∧ _ ∧ _ ∧
    lengthAt file cursor.position ≤ _ ∧
    32 ≤ file.length - (cursor.position + 4 + lengthAt file cursor.position) ∧
      sha.digest (payloadAt file cursor.position) = _ ∧ _ ↔ _
  constructor
  · rintro ⟨-, hlength, hfits, hcount, -, -, hchecksum, hparse⟩
    split at hparse
    · cases hparse
    · next record hrecord =>
      cases hparse
      exact ⟨record, _, ⟨by omega, by omega, rfl, hfits, hchecksum, hrecord⟩, by omega, rfl⟩
  · rintro ⟨record, next, ⟨hpositive, hbounded, rfl, hfits, hchecksum, hparsed⟩, hcount, rfl⟩
    simp only [payloadAt, lengthAt] at hparsed
    rw [hparsed]
    exact ⟨by omega, by omega, hfits, by omega, by omega, by omega, hchecksum, rfl⟩

/-- The buffered decoder takes exactly the record at its position. -/
theorem decodeRecord_eq_ok {next : ℕ} {output output' : List ρ} (hend : recordsEnd ≤ file.length) :
    decodeRecord sha fromSlice limits file recordsEnd position output = .ok (next, output') ↔
      ∃ record, RecordAt sha fromSlice limits file recordsEnd position record next ∧
        output.length < limits.spoolMaxRecords ∧ output' = output ++ [record] := by
  simp only [decodeRecord, getRange_bind_eq_ok, check_bind_eq_ok, Nat.add_sub_cancel_left]
  change _ ∧ ¬ (lengthAt file position = 0 ∨ lengthAt file position > _) ∧ _ ∧
    position + 4 + lengthAt file position ≤ _ ∧ _ ∧
      sha.digest (payloadAt file position) = _ ∧ _ ∧ _ ↔ _
  constructor
  · rintro ⟨-, hlength, hfits, -, -, hchecksum, hcount, hparse⟩
    split at hparse
    · cases hparse
    · next record hrecord =>
      cases hparse
      exact ⟨record, ⟨by omega, by omega, rfl, not_lt.mp hfits, hchecksum, hrecord⟩, by omega, rfl⟩
  · rintro ⟨record, ⟨hpositive, hbounded, rfl, hfits, hchecksum, hparsed⟩, hcount, rfl⟩
    simp only [payloadAt, lengthAt] at hparsed
    rw [hparsed]
    exact ⟨by omega, by omega, not_lt.mpr hfits, by omega, hfits.trans hend, hchecksum, by omega,
      rfl⟩

/-- The records from here to the trailer take a reader from one cursor to another. -/
def Reaches (sha : Sha256) (fromSlice : List UInt8 → Option ρ) (limits : Limits)
    (file : List UInt8) (recordsEnd : ℕ) (cursor cursor' : Cursor ρ) : Prop :=
  ∃ records, RecordsFrom sha fromSlice limits file recordsEnd cursor.position records ∧
    cursor.count + records.length ≤ limits.spoolMaxRecords ∧
    cursor' = ⟨file.drop recordsEnd, recordsEnd, cursor.count + records.length,
      cursor.records ++ records⟩

/-- A reader at the trailer stays there. -/
theorem reaches_stop (hat : cursor.position = recordsEnd)
    (hstream : cursor.stream = file.drop cursor.position)
    (hcount : cursor.count ≤ limits.spoolMaxRecords) :
    Reaches sha fromSlice limits file recordsEnd cursor cursor' ↔ cursor = cursor' := by
  obtain ⟨stream, position, count, records⟩ := cursor
  dsimp only at hat hstream hcount
  subst hat hstream
  constructor
  · rintro ⟨more, hmore, -, rfl⟩
    rcases recordsFrom_cases.mp hmore with ⟨-, rfl⟩ | ⟨hlt, -⟩
    · simp
    · exact absurd hlt (lt_irrefl _)
  · rintro rfl
    exact ⟨[], .done, by simpa using hcount, by simp⟩

/-- A reader before the trailer goes on with the record at its position. -/
theorem reaches_more (hlt : cursor.position < recordsEnd) :
    Reaches sha fromSlice limits file recordsEnd cursor cursor' ↔
      ∃ record next, RecordAt sha fromSlice limits file recordsEnd cursor.position record next ∧
        cursor.count < limits.spoolMaxRecords ∧ Reaches sha fromSlice limits file recordsEnd
          ⟨file.drop next, next, cursor.count + 1, cursor.records ++ [record]⟩ cursor' := by
  constructor
  · rintro ⟨records, hrecords, hroom, rfl⟩
    rcases recordsFrom_cases.mp hrecords with ⟨hat, -⟩ | ⟨-, record, next, rest, head, tail, rfl⟩
    · omega
    · rw [List.length_cons] at hroom
      refine ⟨record, next, head, by omega, rest, tail, by dsimp only; omega, ?_⟩
      simp [Nat.add_assoc, Nat.add_comm 1]
  · rintro ⟨record, next, head, -, rest, tail, hroom, rfl⟩
    refine ⟨record :: rest, .cons head tail, ?_, ?_⟩
    · rw [List.length_cons]
      dsimp only at hroom
      omega
    · simp [Nat.add_assoc, Nat.add_comm 1]

/-- With enough rounds the streaming reader takes exactly the records up to the trailer. -/
theorem readRecords_eq_ok {rounds : ℕ} (hstream : cursor.stream = file.drop cursor.position)
    (hend : recordsEnd ≤ file.length) (hposition : cursor.position ≤ recordsEnd)
    (hrounds : recordsEnd - cursor.position ≤ rounds)
    (hcount : cursor.count ≤ limits.spoolMaxRecords) :
    readRecords sha fromSlice limits recordsEnd rounds cursor = .ok cursor' ↔
      Reaches sha fromSlice limits file recordsEnd cursor cursor' := by
  induction rounds generalizing cursor with
  | zero =>
    rw [readRecords, reaches_stop (by omega) hstream hcount, Except.ok.injEq]
  | succ rounds ih =>
    rw [readRecords]
    split
    case isFalse hdone =>
      rw [reaches_stop (by omega) hstream hcount, Except.ok.injEq]
    case isTrue hmore =>
      rw [except_bind_eq_ok, reaches_more hmore]
      simp only [readRecord_eq_ok hstream hend]
      have hnext : ∀ record next, RecordAt sha fromSlice limits file recordsEnd cursor.position
          record next → cursor.count < limits.spoolMaxRecords → _ :=
        fun record next head hroom =>
          @ih ⟨file.drop next, next, cursor.count + 1, cursor.records ++ [record]⟩ rfl head.lt.2
            (by have := head.lt; dsimp only; omega) hroom
      constructor
      · rintro ⟨_, ⟨record, next, head, hroom, rfl⟩, hrest⟩
        exact ⟨record, next, head, hroom, (hnext record next head hroom).mp hrest⟩
      · rintro ⟨record, next, head, hroom, hrest⟩
        exact ⟨_, ⟨record, next, head, hroom, rfl⟩, (hnext record next head hroom).mpr hrest⟩

/-- The buffered decoder goes the way of the streaming reader. -/
theorem decodeRecords_eq_ok {rounds : ℕ} {output output' : List ρ}
    (hend : recordsEnd ≤ file.length) :
    decodeRecords sha fromSlice limits file recordsEnd rounds position output = .ok output' ↔
      ∃ cursor', readRecords sha fromSlice limits recordsEnd rounds
        ⟨file.drop position, position, output.length, output⟩ = .ok cursor' ∧
        cursor'.records = output' := by
  induction rounds generalizing position output with
  | zero => simp [decodeRecords, readRecords]
  | succ rounds ih =>
    rw [decodeRecords, readRecords]
    split
    · have hstep : ∀ cursor', readRecord sha fromSlice limits recordsEnd
          ⟨file.drop position, position, output.length, output⟩ = .ok cursor' ↔ _ :=
        fun cursor' => readRecord_eq_ok rfl hend
      simp only [except_bind_eq_ok, Prod.exists, decodeRecord_eq_ok hend, ih, hstep]
      constructor
      · rintro ⟨next, _, ⟨record, head, hroom, rfl⟩, cursor', hread, hrecords⟩
        rw [List.length_append] at hread
        exact ⟨cursor', ⟨_, ⟨record, next, head, hroom, rfl⟩, hread⟩, hrecords⟩
      · rintro ⟨cursor', ⟨_, ⟨record, next, head, hroom, rfl⟩, hread⟩, hrecords⟩
        refine ⟨next, _, ⟨record, head, hroom, rfl⟩, cursor', ?_, hrecords⟩
        rw [List.length_append]
        exact hread
    · simp

end Loops

section Readers

variable {ρ : Type} {sha : Sha256} {fromSlice : List UInt8 → Option ρ} {limits : Limits}
  {file : List UInt8}

/-- The trailer is everything behind the records. -/
theorem trailerOf_length (hlong : 16 + trailerBytes ≤ file.length) :
    (trailerOf file).length = trailerBytes := by
  rw [trailerOf, List.length_drop]
  omega

/-- What the readers compare is what the digest of a segment covers. -/
theorem take_digested (file : List UInt8) :
    file.take (file.length - trailerBytes) ++ (trailerOf file).take 20 =
      file.take (file.length - trailerBytes + 20) := by
  rw [trailerOf, List.take_add]

/-- The records of a file are read from behind its header. -/
theorem readRecords_start (hlong : 16 + trailerBytes ≤ file.length) {cursor : Cursor ρ} :
    readRecords sha fromSlice limits (file.length - trailerBytes) file.length
        ⟨file.drop 16, 16, 0, []⟩ = .ok cursor ↔
      Reaches sha fromSlice limits file (file.length - trailerBytes) ⟨file.drop 16, 16, 0, []⟩
        cursor :=
  readRecords_eq_ok rfl (Nat.sub_le _ _) (by dsimp only; omega) (by dsimp only; omega)
    (Nat.zero_le _)

/-- The streaming reader accepts exactly the segments within its limits. -/
theorem readSegmentStream_eq_ok :
    readSegmentStream sha fromSlice limits file = .ok (generation, records) ↔
      file.length ≤ min limits.spoolSegmentMaxBytes limits.spoolMaxBytes ∧
        records.length ≤ limits.spoolMaxRecords ∧
        Segment sha fromSlice limits file generation records := by
  have hwhole : 16 + trailerBytes ≤ file.length →
      (file.drop (file.length - trailerBytes)).take trailerBytes = trailerOf file :=
    fun hlong => List.take_of_length_le (le_of_eq (trailerOf_length hlong))
  have hheader : (file.take 8).drop 4 = (file.drop 4).take 4 := List.drop_take
  have hmagic : (file.take 8).take 4 = file.take 4 := by rw [List.take_take]; rfl
  simp only [readSegmentStream, check_bind_eq_ok, readExact_bind_eq_ok,
    except_bind_eq_ok (x := readRecords _ _ _ _ _ _), not_lt, List.length_drop, List.drop_drop,
    hheader, hmagic]
  constructor
  · rintro ⟨hsize, -, -, hmagic, hversion, hlong, -, cursor, hread, -, ⟨htrailer, hcount, hbytes,
      hdigest, -⟩, hresult⟩
    obtain ⟨all, hall, hroom, rfl⟩ := (readRecords_start hlong).mp hread
    cases hresult
    simp only [hwhole hlong, Nat.zero_add, take_digested] at hroom htrailer hcount hbytes hdigest
    exact ⟨hsize, hroom, hlong, hmagic, hversion, rfl, hall, htrailer, hcount, hbytes, hdigest⟩
  · rintro ⟨hsize, hroom, hlong, hmagic, hversion, rfl, hall, htrailer, hcount, hbytes, hdigest⟩
    refine ⟨hsize, by omega, by omega, hmagic, hversion, hlong, by omega, _,
      (readRecords_start hlong).mpr ⟨records, hall, by simpa using hroom, rfl⟩, ?_, ?_, rfl⟩
    · rw [List.length_drop]
      omega
    · simp only [hwhole hlong, Nat.zero_add, take_digested]
      refine ⟨htrailer, hcount, hbytes, hdigest, ?_⟩
      rw [List.drop_drop]
      exact List.drop_of_length_le (by omega)

/-- The buffered decoder accepts exactly the segments within its limits. -/
theorem decodeSpoolRecords_eq_ok :
    decodeSpoolRecords sha fromSlice limits file = .ok records ↔
      file.length ≤ limits.spoolSegmentMaxBytes ∧ records.length ≤ limits.spoolMaxRecords ∧
        ∃ generation, Segment sha fromSlice limits file generation records := by
  simp only [decodeSpoolRecords, decodeSegment, check_bind_eq_ok,
    except_bind_eq_ok (x := decodeRecords _ _ _ _ _ _ _ _), not_lt, not_or, not_not,
    decodeRecords_eq_ok (Nat.sub_le _ _), List.length_nil, Nat.sub_zero]
  constructor
  · rintro ⟨hsize, ⟨-, hmagic⟩, hversion, hlong, ⟨htrailer, hbytes, hdigest⟩, -, output,
      ⟨_, hread, rfl⟩, hcount, hresult⟩
    cases hresult
    obtain ⟨all, hall, hroom, rfl⟩ := (readRecords_start hlong).mp hread
    simp only [Nat.zero_add] at hroom
    exact ⟨hsize, hroom, _, hlong, hmagic, hversion, rfl, hall, htrailer, hcount.symm, hbytes,
      hdigest⟩
  · rintro ⟨hsize, hroom, _, hlong, hmagic, hversion, rfl, hall, htrailer, hcount, hbytes, hdigest⟩
    have hcount' : ofBeBytes (((file.drop (file.length - trailerBytes)).drop 4).take 8) =
        records.length := hcount
    exact ⟨hsize, ⟨by omega, hmagic⟩, hversion, hlong, ⟨htrailer, hbytes, hdigest⟩,
      hcount'.trans_le hroom, records, ⟨_, (readRecords_start hlong).mpr
        ⟨records, hall, by simpa using hroom, rfl⟩, rfl⟩, hcount'.symm, rfl⟩

end Readers

/-! ## Written segments -/

section Writer

variable {ρ : Type} {sha : Sha256} {fromSlice : List UInt8 → Option ρ} {limits : Limits}

/-- The framed records of a segment. -/
def frames (sha : Sha256) (payloads : List (List UInt8)) : List UInt8 :=
  payloads.flatMap (frame sha)

theorem frame_length (sha : Sha256) (payload : List UInt8) :
    (frame sha payload).length = payload.length + 36 := by
  simp only [frame, List.length_append, beBytes_length, sha.length_digest]
  omega

theorem encodeRecord_bind_eq_ok {json : List UInt8} {maximum : ℕ}
    {k : List UInt8 → Except Error α} :
    (encodeRecord json maximum >>= k) = .ok r ↔ json.length ≤ maximum ∧ k json = .ok r :=
  ite_bind_eq_ok

/-- What a successful write appended, and that it stays within the limits of a segment. -/
theorem writeRecords_spec {payloads : List (List UInt8)} {written written' : List UInt8}
    {total total' : ℕ} (h : writeRecords sha limits written total payloads = .ok (written', total'))
    (hlength : total = written.length) (hwidth : total + trailerBytes < 2 ^ 64)
    (hfits : ¬ segmentExceeded limits total) :
    written' = written ++ frames sha payloads ∧ total' = written'.length ∧
      total' + trailerBytes < 2 ^ 64 ∧ ¬ segmentExceeded limits total' ∧
      ∀ payload ∈ payloads, payload.length ≤ limits.spoolRecordMaxBytes ∧
        payload.length < 2 ^ 32 := by
  induction payloads generalizing written total with
  | nil =>
    cases h
    exact ⟨by simp [frames], hlength, hwidth, hfits, by simp⟩
  | cons payload rest ih =>
    simp only [writeRecords, encodeRecord_bind_eq_ok, check_bind_eq_ok] at h
    obtain ⟨hsize, hnarrow, ⟨hwidth, hfits⟩, hrest⟩ := h
    obtain ⟨hwritten, htotal, hwidth, hfits, hpayloads⟩ := ih hrest
      (by rw [List.length_append, frame_length]; omega) hwidth hfits
    refine ⟨by simp [hwritten, frames], htotal, hwidth, hfits, ?_⟩
    rintro payload' (_ | ⟨_, hlater⟩)
    · exact ⟨hsize, hnarrow⟩
    · exact hpayloads payload' hlater

theorem length_le_frames (sha : Sha256) (payloads : List (List UInt8)) :
    payloads.length ≤ (frames sha payloads).length := by
  induction payloads with
  | nil => exact le_rfl
  | cons payload rest ih =>
    have hsplit : frames sha (payload :: rest) = frame sha payload ++ frames sha rest := by
      simp [frames]
    rw [hsplit, List.length_append, frame_length, List.length_cons]
    omega

/-- A framed payload that parses is a record of the file around it. -/
theorem recordAt_frame {before after payload : List UInt8} {record : ρ} {recordsEnd : ℕ}
    (hpayload : payload ≠ []) (hsize : payload.length ≤ limits.spoolRecordMaxBytes)
    (hwidth : payload.length < 2 ^ 32) (hparse : fromSlice payload = some record)
    (hend : before.length + (frame sha payload).length ≤ recordsEnd) :
    RecordAt sha fromSlice limits (before ++ (frame sha payload ++ after)) recordsEnd before.length
      record (before.length + (frame sha payload).length) := by
  have hlengthAt : lengthAt (before ++ (frame sha payload ++ after)) before.length =
      payload.length := by
    rw [lengthAt, List.drop_left, frame, List.append_assoc, List.append_assoc,
      List.take_left' (beBytes_length 4 _)]
    exact ofBeBytes_beBytes (by simpa using hwidth)
  have hdrop : (before ++ (frame sha payload ++ after)).drop (before.length + 4) =
      payload ++ (sha.digest payload ++ after) := by
    rw [← List.drop_drop, List.drop_left, frame, List.append_assoc, List.append_assoc,
      List.drop_left' (beBytes_length 4 _)]
  have hpayloadAt : payloadAt (before ++ (frame sha payload ++ after)) before.length = payload := by
    rw [payloadAt, hlengthAt, hdrop, List.take_left]
  refine ⟨?_, hlengthAt ▸ hsize, ?_, hend, ?_, hpayloadAt.symm ▸ hparse⟩
  · rw [hlengthAt]
    exact fun hzero => hpayload (List.length_eq_zero_iff.mp hzero)
  · rw [hlengthAt, frame_length]
    omega
  · rw [hpayloadAt, hlengthAt, ← List.drop_drop, hdrop, List.drop_left,
      List.take_left' (sha.length_digest _)]

/-- A record is read back from its text, which is short enough for a frame. -/
def Writable (fromSlice : List UInt8 → Option ρ) (limits : Limits) (toVec : ρ → List UInt8)
    (record : ρ) : Prop :=
  fromSlice (toVec record) = some record ∧ toVec record ≠ [] ∧
    (toVec record).length ≤ limits.spoolRecordMaxBytes ∧ (toVec record).length < 2 ^ 32

variable {toVec : ρ → List UInt8}

/-- Framed payloads are read back one after the other. -/
theorem recordsFrom_frames (hrecord : ∀ record ∈ records, Writable fromSlice limits toVec record)
    (before after : List UInt8) :
    RecordsFrom sha fromSlice limits (before ++ (frames sha (records.map toVec) ++ after))
      (before.length + (frames sha (records.map toVec)).length) before.length records := by
  induction records generalizing before with
  | nil => exact .done
  | cons record rest ih =>
    obtain ⟨hparse, hpayload, hsize, hwidth⟩ := hrecord record List.mem_cons_self
    have htail := ih (fun later hlater => hrecord later (List.mem_cons_of_mem _ hlater))
      (before ++ frame sha (toVec record))
    have hframes : frames sha ((record :: rest).map toVec) =
        frame sha (toVec record) ++ frames sha (rest.map toVec) := by simp [frames]
    rw [List.length_append, List.append_assoc, ← List.append_assoc (frame sha _), ← hframes,
      Nat.add_assoc, ← List.length_append, ← hframes] at htail
    refine .cons ?_ htail
    rw [hframes, List.append_assoc]
    refine recordAt_frame hpayload hsize hwidth hparse ?_
    rw [List.length_append]
    omega

/-- The header of a segment. -/
def header (generation : ℕ) : List UInt8 := magic ++ beBytes 4 version ++ beBytes 8 generation

theorem header_length (generation : ℕ) : (header generation).length = 16 := by
  simp [header, magic, ascii]

/-- The fixed fields of a header can be read back. -/
theorem header_fields (hwidth : generation < 2 ^ 64) (rest : List UInt8) :
    (header generation ++ rest).take 4 = magic ∧
      ofBeBytes (((header generation ++ rest).drop 4).take 4) = version ∧
      ofBeBytes (((header generation ++ rest).drop 8).take 8) = generation := by
  have hmagic : magic.length = 4 := by decide
  have hversion : (magic ++ beBytes 4 version).length = 8 := by decide
  refine ⟨?_, ?_, ?_⟩
  · rw [header, List.append_assoc, List.append_assoc, List.take_left' hmagic]
  · rw [header, List.append_assoc, List.append_assoc, List.drop_left' hmagic,
      List.take_left' (beBytes_length 4 _)]
    exact ofBeBytes_beBytes (by decide)
  · rw [header, List.append_assoc, List.drop_left' hversion, List.take_left' (beBytes_length 8 _)]
    exact ofBeBytes_beBytes (by simpa using hwidth)

theorem trailer_length (sha : Sha256) (written : List UInt8) (count total : ℕ) :
    (trailer sha written count total).length = trailerBytes := by
  have hmagic : trailerMagic.length = 4 := by decide
  simp only [trailer, List.length_append, hmagic, beBytes_length, sha.length_digest]
  rfl

/-- The fields of a trailer can be read back. -/
theorem trailer_fields (sha : Sha256) (written : List UInt8) {count total : ℕ}
    (hcount : count < 2 ^ 64) (htotal : total < 2 ^ 64) :
    (trailer sha written count total).take 4 = trailerMagic ∧
      ofBeBytes (((trailer sha written count total).drop 4).take 8) = count ∧
      ofBeBytes (((trailer sha written count total).drop 12).take 8) = total ∧
      sha.digest (written ++ (trailer sha written count total).take 20) =
        (trailer sha written count total).drop 20 := by
  have hmagic : trailerMagic.length = 4 := by decide
  have hfirst : (trailerMagic ++ beBytes 8 count).length = 12 := by simp [hmagic]
  have hsummary : (trailerMagic ++ beBytes 8 count ++ beBytes 8 total).length = 20 := by
    simp [hmagic]
  refine ⟨?_, ?_, ?_, ?_⟩
  · simp only [trailer, List.append_assoc]
    rw [List.take_left' hmagic]
  · simp only [trailer, List.append_assoc]
    rw [List.drop_left' hmagic, List.take_left' (beBytes_length 8 _)]
    exact ofBeBytes_beBytes (by simpa using hcount)
  · rw [trailer, List.append_assoc (trailerMagic ++ _), List.drop_left' hfirst,
      List.take_left' (beBytes_length 8 _)]
    exact ofBeBytes_beBytes (by simpa using htotal)
  · rw [trailer, List.take_left' hsummary, List.drop_left' hsummary]

/-- Header, framed records and trailer make a segment. -/
theorem segment_written {written : List UInt8}
    (hwritten : written = header generation ++ frames sha (records.map toVec))
    (hgeneration : generation < 2 ^ 64) (hwidth : written.length + trailerBytes < 2 ^ 64)
    (hrecord : ∀ record ∈ records, Writable fromSlice limits toVec record) :
    Segment sha fromSlice limits (written ++ trailer sha written records.length written.length)
      generation records := by
  have hlength : written.length = 16 + (frames sha (records.map toVec)).length := by
    rw [hwritten, List.length_append, header_length]
  have hcount : records.length < 2 ^ 64 := by
    have := length_le_frames sha (records.map toVec)
    rw [List.length_map] at this
    omega
  have hend : (written ++ trailer sha written records.length written.length).length -
      trailerBytes = written.length := by
    rw [List.length_append, trailer_length, Nat.add_sub_cancel]
  have htrailer : trailerOf (written ++ trailer sha written records.length written.length) =
      trailer sha written records.length written.length := by
    rw [trailerOf, hend, List.drop_left]
  obtain ⟨hmagicEnd, hcountField, hbytesField, hdigest⟩ :=
    trailer_fields sha written hcount (by omega : written.length < 2 ^ 64)
  obtain ⟨hmagic, hversion, hgenerationField⟩ := header_fields hgeneration
    (frames sha (records.map toVec) ++ trailer sha written records.length written.length)
  rw [← List.append_assoc, ← hwritten] at hmagic hversion hgenerationField
  refine ⟨?_, hmagic, hversion, hgenerationField, ?_, ?_, ?_, ?_, ?_⟩
  · omega
  · have hframed : RecordsFrom sha fromSlice limits _ _ _ records := recordsFrom_frames hrecord
      (header generation) (trailer sha written records.length written.length)
    rw [← List.append_assoc, ← hwritten, header_length, ← hlength] at hframed
    rw [hend]
    exact hframed
  · rw [htrailer, hmagicEnd]
  · rw [htrailer, hcountField]
  · rw [htrailer, hend, hbytesField]
  · rw [htrailer, hend, ← hdigest, List.take_append, List.take_of_length_le (by omega),
      Nat.add_sub_cancel_left]

end Writer

/-- A snapshot record has a nonempty text. -/
theorem snapshotJson_ne_nil (record : SpoolRecord) : snapshotJson record ≠ [] := by
  have hopen : ascii "\x7b\"event\":" = 123 :: ascii "\"event\":" := by decide
  simp [snapshotJson, hopen]

/-- Under validated limits both readers accept the same files with the same records, and they read
back, with its new generation, every segment that a commit wrote. -/
theorem spool_readers_agree (sha : Sha256) (fromSlice : List UInt8 → Option SpoolRecord)
    (limits : Limits) (hvalid : limits.validate = .ok ()) :
    (∀ file records,
      (∃ generation, readSegmentStream sha fromSlice limits file = .ok (generation, records)) ↔
        decodeSpoolRecords sha fromSlice limits file = .ok records) ∧
    ∀ directory directory' records,
      (∀ record ∈ records, fromSlice (snapshotJson record) = some record) →
      commitSerializableSync sha limits fromSlice directory (records.map snapshotJson) =
        .ok directory' →
      ∃ file previous, directory'.snapshot = some file ∧
        previousGeneration sha fromSlice limits directory = .ok previous ∧
        readSegmentStream sha fromSlice limits file = .ok (previous + 1, records) ∧
        decodeSpoolRecords sha fromSlice limits file = .ok records := by
  obtain ⟨-, horder, -⟩ := validate_spool hvalid
  have hagree : ∀ file records,
      (∃ generation, readSegmentStream sha fromSlice limits file = .ok (generation, records)) ↔
        decodeSpoolRecords sha fromSlice limits file = .ok records := by
    intro file records
    simp only [readSegmentStream_eq_ok, decodeSpoolRecords_eq_ok, min_eq_left horder,
      exists_and_left]
  refine ⟨hagree, fun directory directory' records hround hcommit => ?_⟩
  simp only [commitSerializableSync, except_bind_eq_ok, check_eq_ok, List.length_map] at hcommit
  obtain ⟨-, hcount, -, -, previous, hprevious, -, hgeneration, -, hempty, ⟨written, total⟩,
    hwrite, hresult⟩ := hcommit
  cases hresult
  obtain ⟨hwritten, rfl, hwidth, hfits, hpayloads⟩ := writeRecords_spec hwrite
    (header_length (previous + 1)).symm (by decide) hempty
  have hsegment : Segment sha fromSlice limits _ (previous + 1) records :=
    segment_written hwritten hgeneration hwidth fun record hrecord => by
      obtain ⟨hsize, hnarrow⟩ := hpayloads _ (List.mem_map.mpr ⟨record, hrecord, rfl⟩)
      exact ⟨hround record hrecord, snapshotJson_ne_nil record, hsize, hnarrow⟩
  have hread : readSegmentStream sha fromSlice limits
      (written ++ trailer sha written records.length written.length) =
        .ok (previous + 1, records) := by
    refine readSegmentStream_eq_ok.mpr ⟨?_, not_lt.mp hcount, hsegment⟩
    simp only [segmentExceeded, Bool.or_eq_true, decide_eq_true_eq, not_or, not_lt] at hfits
    rw [List.length_append, trailer_length]
    exact le_min hfits.1 hfits.2
  exact ⟨_, previous, rfl, hprevious, hread, (hagree _ _).mp ⟨_, hread⟩⟩

/-- A record of the sample event. -/
def sampleSpooled : SpoolRecord where
  event := sampleEvent
  pendingSinks := [sampleSinkId]
  routingRevision := 1
  acceptedAt := 0
  attempts := ∅

/-- A parser that knows the text of the sample record. -/
def parseSample (text : List UInt8) : Option SpoolRecord :=
  if text = snapshotJson sampleSpooled then some sampleSpooled else none

/-- A commit of one record to an empty directory is read back by both readers. -/
theorem spool_readers_agree_sample : ∃ directory' file,
    commitSerializableSync .standard .default parseSample ⟨none, [], 0⟩
      ([sampleSpooled].map snapshotJson) = .ok directory' ∧ directory'.snapshot = some file ∧
    readSegmentStream .standard parseSample .default file = .ok (1, [sampleSpooled]) ∧
    decodeSpoolRecords .standard parseSample .default file = .ok [sampleSpooled] := by
  have hok : (commitSerializableSync .standard .default parseSample ⟨none, [], 0⟩
      ([sampleSpooled].map snapshotJson)).toBool = true := by decide +kernel
  cases hcommit : commitSerializableSync .standard .default parseSample ⟨none, [], 0⟩
      ([sampleSpooled].map snapshotJson) with
  | error e =>
    rw [hcommit] at hok
    cases hok
  | ok directory' =>
    obtain ⟨file, previous, hfile, hprevious, hread, hdecode⟩ :=
      (spool_readers_agree .standard parseSample .default (by decide)).2 _ _ _
        (by simp [parseSample]) hcommit
    cases hprevious
    exact ⟨directory', file, rfl, hfile, hread, hdecode⟩

end Netbaiot.Spool
