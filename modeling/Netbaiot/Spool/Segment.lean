import Netbaiot.EventBus.State
import Netbaiot.Lib.Sha256

/-!
# Segments of the restart spool

A segment is a header with a generation, records framed by their length and a checksum,
and a trailer with the record count, the size and a digest of everything before it.
Writing to a healthy file system cannot fail, so a commit fails only on its own checks.
-/

namespace Netbaiot.Spool

open Lib

def magic : List UInt8 := ascii "NBSP"

def version : ℕ := 3

def trailerMagic : List UInt8 := ascii "SEND"

def trailerBytes : ℕ := 4 + 8 + 8 + 32

/-- The recovery directory on a healthy file system. -/
structure RecoveryDirectory where
  /-- The committed snapshot `eventbus-recovery.spool`. -/
  snapshot : Option (List UInt8)
  /-- Other spool files, in the order of their paths. -/
  others : List (List UInt8)
  /-- The number of entries that are no spool files. -/
  ignored : ℕ

/-- The number of entries of a recovery directory. -/
def RecoveryDirectory.entries (directory : RecoveryDirectory) : ℕ :=
  directory.snapshot.toList.length + directory.others.length + directory.ignored

section Read

variable {ρ : Type} (sha : Sha256) (fromSlice : List UInt8 → Option ρ) (limits : Limits)

/-- The next bytes of a stream and what follows them. -/
def readExact (n : ℕ) (stream : List UInt8) : Except Error (List UInt8 × List UInt8) :=
  if n ≤ stream.length then .ok (stream.take n, stream.drop n) else .error .invalid

/-- Where a reader stands between two records. -/
structure Cursor (ρ : Type) where
  stream : List UInt8
  position : ℕ
  count : ℕ
  records : List ρ

/-- Read and check one record. -/
def readRecord (recordsEnd : ℕ) (cursor : Cursor ρ) : Except Error (Cursor ρ) := do
  let (lengthBytes, stream) ← readExact 4 cursor.stream
  let recordLen := ofBeBytes lengthBytes
  check (¬ (recordLen = 0 ∨ recordLen > limits.spoolRecordMaxBytes)) .invalid
  let position := cursor.position + 4 + recordLen + 32
  check (position ≤ recordsEnd) .invalid
  check (¬ cursor.count ≥ limits.spoolMaxRecords) .overloaded
  let (payload, stream) ← readExact recordLen stream
  let (checksum, stream) ← readExact 32 stream
  check (sha.digest payload = checksum) .invalid
  match fromSlice payload with
  | none => .error .invalid
  | some record => return ⟨stream, position, cursor.count + 1, cursor.records ++ [record]⟩

/-- Read records up to the trailer; every record is longer than its frame, so as many rounds
as the file has bytes suffice. -/
def readRecords (recordsEnd : ℕ) : ℕ → Cursor ρ → Except Error (Cursor ρ)
  | 0, cursor => .ok cursor
  | rounds + 1, cursor =>
    if cursor.position < recordsEnd then do
      readRecords recordsEnd rounds (← readRecord sha fromSlice limits recordsEnd cursor)
    else .ok cursor

/-- Validate a complete segment and return its generation and records. -/
def readSegmentStream (file : List UInt8) : Except Error (ℕ × List ρ) := do
  check (¬ file.length > min limits.spoolSegmentMaxBytes limits.spoolMaxBytes) .overloaded
  check (¬ file.length < 8) .invalid
  let (header, stream) ← readExact 8 file
  check (header.take 4 = magic) .invalid
  check (ofBeBytes (header.drop 4) = version)
    (.unsupportedRecoveryVersion (UInt32.ofNat (ofBeBytes (header.drop 4))))
  check (¬ file.length < 16 + trailerBytes) .invalid
  let recordsEnd := file.length - trailerBytes
  let (generation, stream) ← readExact 8 stream
  let cursor ← readRecords sha fromSlice limits recordsEnd file.length ⟨stream, 16, 0, []⟩
  let (trailer, stream) ← readExact trailerBytes cursor.stream
  check (trailer.take 4 = trailerMagic ∧ ofBeBytes ((trailer.drop 4).take 8) = cursor.count ∧
    ofBeBytes ((trailer.drop 12).take 8) = cursor.position ∧
    sha.digest (file.take cursor.position ++ trailer.take 20) = trailer.drop 20 ∧
    stream = []) .invalid
  return (ofBeBytes generation, cursor.records)

/-- A range of a buffer, if the buffer reaches that far. -/
def getRange (input : List UInt8) (start stop : ℕ) : Except Error (List UInt8) :=
  if stop ≤ input.length then .ok ((input.drop start).take (stop - start)) else .error .invalid

/-- Decode and check the record at a position of a complete buffer. -/
def decodeRecord (input : List UInt8) (recordsEnd position : ℕ) (output : List ρ) :
    Except Error (ℕ × List ρ) := do
  let lengthEnd := position + 4
  let lengthBytes ← getRange input position lengthEnd
  let length := ofBeBytes lengthBytes
  check (¬ (length = 0 ∨ length > limits.spoolRecordMaxBytes)) .invalid
  let payloadEnd := lengthEnd + length
  let checksumEnd := payloadEnd + 32
  check (¬ checksumEnd > recordsEnd) .invalid
  let payload ← getRange input lengthEnd payloadEnd
  let checksum ← getRange input payloadEnd checksumEnd
  check (sha.digest payload = checksum) .invalid
  check (¬ output.length ≥ limits.spoolMaxRecords) .overloaded
  match fromSlice payload with
  | none => .error .invalid
  | some record => return (checksumEnd, output ++ [record])

/-- Decode records up to the trailer, in as many rounds as the buffer has bytes. -/
def decodeRecords (input : List UInt8) (recordsEnd : ℕ) :
    ℕ → ℕ → List ρ → Except Error (List ρ)
  | 0, _, output => .ok output
  | rounds + 1, position, output =>
    if position < recordsEnd then do
      let (position, output) ← decodeRecord sha fromSlice limits input recordsEnd position output
      decodeRecords input recordsEnd rounds position output
    else .ok output

/-- Validate a complete buffer, its trailer first, and append its records to the output. -/
def decodeSegment (input : List UInt8) (output : List ρ) : Except Error (List ρ) := do
  check (¬ (input.length < 8 ∨ input.take 4 ≠ magic)) .invalid
  let found := ofBeBytes ((input.drop 4).take 4)
  check (found = version) (.unsupportedRecoveryVersion (UInt32.ofNat found))
  check (¬ input.length < 16 + trailerBytes) .invalid
  let recordsEnd := input.length - trailerBytes
  let trailer := input.drop recordsEnd
  check (trailer.take 4 = trailerMagic ∧ ofBeBytes ((trailer.drop 12).take 8) = recordsEnd ∧
    sha.digest (input.take (recordsEnd + 20)) = trailer.drop 20) .invalid
  let expectedCount := ofBeBytes ((trailer.drop 4).take 8)
  check (¬ expectedCount > limits.spoolMaxRecords) .overloaded
  let startCount := output.length
  let output ← decodeRecords sha fromSlice limits input recordsEnd input.length 16 output
  check (output.length - startCount = expectedCount) .invalid
  return output

/-- Decode one committed segment image held in memory. -/
def decodeSpoolRecords (input : List UInt8) : Except Error (List ρ) := do
  check (¬ input.length > limits.spoolSegmentMaxBytes) .overloaded
  decodeSegment sha fromSlice limits input []

/-- The generation of the newest committed snapshot; other spool files must not exist. -/
def previousGeneration (directory : RecoveryDirectory) : Except Error ℕ :=
  match directory.snapshot with
  | some file => Prod.fst <$> readSegmentStream sha fromSlice limits file
  | none => do
    check (directory.entries ≤ limits.spoolMaxRecords + 16) .overloaded
    match directory.others with
    | [] => return 0
    | file :: _ => do
      let _ ← readSegmentStream sha fromSlice limits file
      .error .invalid

end Read

section Write

variable (sha : Sha256) (limits : Limits)

/-- The JSON text of a record, if it stays within the maximum. -/
def encodeRecord (json : List UInt8) (maximum : ℕ) : Except Error (List UInt8) :=
  if json.length ≤ maximum then .ok json else .error .overloaded

/-- A record as it stands in a segment. -/
def frame (payload : List UInt8) : List UInt8 :=
  beBytes 4 payload.length ++ payload ++ sha.digest payload

/-- Whether a segment of this many bytes before its trailer is too large. -/
def segmentExceeded (total : ℕ) : Bool :=
  total + trailerBytes > limits.spoolSegmentMaxBytes || total + trailerBytes > limits.spoolMaxBytes

/-- Append records to the bytes written so far, whose number is checked before each write. -/
def writeRecords (written : List UInt8) (total : ℕ) :
    List (List UInt8) → Except Error (List UInt8 × ℕ)
  | [] => .ok (written, total)
  | json :: rest => do
    let payload ← encodeRecord json limits.spoolRecordMaxBytes
    check (payload.length < 2 ^ 32) .overloaded
    let total := total + 4 + payload.length + 32
    check (total + trailerBytes < 2 ^ 64 ∧ ¬ segmentExceeded limits total) .overloaded
    writeRecords (written ++ frame sha payload) total rest

/-- The trailer of a segment. -/
def trailer (written : List UInt8) (count total : ℕ) : List UInt8 :=
  let summary := trailerMagic ++ beBytes 8 count ++ beBytes 8 total
  summary ++ sha.digest (written ++ summary)

/-- Write records, given by their JSON texts, as the new snapshot of a recovery directory. -/
def commitSerializableSync {ρ : Type} (fromSlice : List UInt8 → Option ρ)
    (directory : RecoveryDirectory) (records : List (List UInt8)) :
    Except Error RecoveryDirectory := do
  check (¬ records.length > limits.spoolMaxRecords) .overloaded
  check (directory.entries ≤ limits.spoolMaxRecords + 15) .overloaded
  let previous ← previousGeneration sha fromSlice limits directory
  check (previous + 1 < 2 ^ 64) .overloaded
  let header := magic ++ beBytes 4 version ++ beBytes 8 (previous + 1)
  check (¬ segmentExceeded limits 16) .overloaded
  let (written, total) ← writeRecords sha limits header 16 records
  return { directory with snapshot := some (written ++ trailer sha written records.length total) }

end Write

end Netbaiot.Spool
