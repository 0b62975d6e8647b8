import Mathlib.Data.List.Basic

/-!
# Bounds of JSON payloads

Before a JSON payload is parsed, a scanner bounds its nesting and the number of its object
members and refuses arrays.  It reads bytes and knows about strings only where they end.
`payload_bounds` says what this means for the document that the bytes spell: a document is a
tree, `Document.text` spells it with any whitespace, and the scanner decides the measures of the
tree.
-/

namespace Netbaiot.Codecs

/-! ## The scanners -/

/-- Where a scanner is, and what it has counted. -/
structure Scan where
  depth : ℕ := 0
  members : ℕ := 0
  quoted : Bool := false
  escaped : Bool := false

/-- One byte inside a string. -/
def Scan.inString (s : Scan) (byte : UInt8) : Scan :=
  if s.escaped then { s with escaped := false }
  else if byte = 92 then { s with escaped := true }
  else if byte = 34 then { s with quoted := false }
  else s

/-- A container opens; the counter cannot overflow before it exceeds its limit. -/
def Scan.enter (maximum : ℕ) (s : Scan) : Option Scan :=
  if maximum < s.depth + 1 then none else some { s with depth := s.depth + 1 }

/-- A container closes. -/
def Scan.leave (s : Scan) : Option Scan :=
  if s.depth = 0 then none else some { s with depth := s.depth - 1 }

/-- A member has a key. -/
def Scan.member (maximum : ℕ) (s : Scan) : Option Scan :=
  if maximum < s.members + 1 then none else some { s with members := s.members + 1 }

/-- One byte of a payload: no array, and both bounds. -/
def payloadByte (maximumDepth maximumMembers : ℕ) (s : Scan) (byte : UInt8) : Option Scan :=
  if s.quoted then some (s.inString byte)
  else if byte = 34 then some { s with quoted := true }
  else if byte = 91 then none
  else if byte = 123 then s.enter maximumDepth
  else if byte = 125 ∨ byte = 93 then s.leave
  else if byte = 58 then s.member maximumMembers
  else some s

/-- One byte for the depth alone, which arrays count towards. -/
def depthByte (maximum : ℕ) (s : Scan) (byte : UInt8) : Option Scan :=
  if s.quoted then some (s.inString byte)
  else if byte = 34 then some { s with quoted := true }
  else if byte = 123 ∨ byte = 91 then s.enter maximum
  else if byte = 125 ∨ byte = 93 then s.leave
  else some s

/-- One byte for the members alone. -/
def memberByte (maximum : ℕ) (s : Scan) (byte : UInt8) : Option Scan :=
  if s.quoted then some (s.inString byte)
  else if byte = 34 then some { s with quoted := true }
  else if byte = 91 then none
  else if byte = 58 then s.member maximum
  else some s

/-- Every container and every string is closed. -/
def Scan.balanced (s : Scan) : Bool := s.depth = 0 && !s.quoted

/-- The loop of `checkPayloadBounds`. -/
def scan (maximumDepth maximumMembers : ℕ) (input : List UInt8) (s : Scan) : Option Scan :=
  input.foldlM (payloadByte maximumDepth maximumMembers) s

def checkPayloadBounds (input : List UInt8) (maximumDepth maximumMembers : ℕ) : Bool :=
  (scan maximumDepth maximumMembers input {}).any Scan.balanced

def checkJsonDepth (input : List UInt8) (maximum : ℕ) : Bool :=
  (input.foldlM (depthByte maximum) {}).any Scan.balanced

def checkMembers (input : List UInt8) (maximum : ℕ) : Bool :=
  (input.foldlM (memberByte maximum) {}).isSome

theorem scan_cons (D M : ℕ) (byte : UInt8) (rest : List UInt8) (s : Scan) :
    scan D M (byte :: rest) s = (payloadByte D M s byte).bind (scan D M rest) := by
  rw [scan, List.foldlM_cons]
  rfl

theorem scan_append (D M : ℕ) (a b : List UInt8) (s : Scan) :
    scan D M (a ++ b) s = (scan D M a s).bind (scan D M b) :=
  List.foldlM_append ..

/-- The scanner for both bounds goes as far as the two scanners for one bound go. -/
theorem scan_both (D M : ℕ) (input : List UInt8) : ∀ d m d' m' quoted escaped,
    (scan D M input ⟨d, m, quoted, escaped⟩).any Scan.balanced =
      ((input.foldlM (depthByte D) ⟨d, m', quoted, escaped⟩).any Scan.balanced &&
        (input.foldlM (memberByte M) ⟨d', m, quoted, escaped⟩).isSome) := by
  induction input with
  | nil => simp [scan, Scan.balanced]
  | cons byte rest ih =>
    intro d m d' m' quoted escaped
    simp only [scan_cons, List.foldlM_cons, payloadByte, depthByte, memberByte]
    cases quoted with
    | true =>
      simp only [if_true, Scan.inString, Option.bind_eq_bind]
      split_ifs <;> exact ih ..
    | false =>
      simp only [Bool.false_eq_true, if_false, Option.bind_eq_bind]
      by_cases hquote : byte = 34
      · simp only [hquote, if_true]
        exact ih ..
      by_cases harray : byte = 91
      · simp [harray]
      by_cases hopen : byte = 123
      · by_cases hroom : D < d + 1
        · simp [hopen, Scan.enter, hroom]
        · simpa [hopen, Scan.enter, hroom] using ih ..
      by_cases hclose : byte = 125 ∨ byte = 93
      · have hcolon : byte ≠ 58 := by rintro rfl; simp at hclose
        by_cases hdepth : d = 0
        · simp [hquote, harray, hopen, hclose, Scan.leave, hdepth]
        · simpa [hquote, harray, hopen, hclose, hcolon, Scan.leave, hdepth] using ih ..
      by_cases hcolon : byte = 58
      · by_cases hroom : M < m + 1
        · simp [hcolon, Scan.member, hroom]
        · simpa [hcolon, Scan.member, hroom] using ih ..
      · simpa [hquote, harray, hopen, hclose, hcolon] using ih ..

/-! ## Documents -/

/-- Whitespace between tokens. -/
def Space : Type := { text : List UInt8 // ∀ byte ∈ text, byte ∈ [32, 9, 10, 13] }

/-- A number or a literal: of its grammar only matters that no structural character occurs. -/
def Token : Type := { text : List UInt8 // ∀ byte ∈ text, byte ∉ [34, 58, 91, 93, 123, 125] }

/-- A part of a string: a character that stands for itself, or a backslash with the byte after
it.  The digits of an escaped code unit stand for themselves here. -/
inductive Character where
  | plain (byte : { byte : UInt8 // byte ≠ 34 ∧ byte ≠ 92 })
  | escape (byte : UInt8)

def Character.text : Character → List UInt8
  | .plain byte => [byte.1]
  | .escape byte => [92, byte]

/-- A string with its quotes. -/
def quote (characters : List Character) : List UInt8 :=
  34 :: (characters.flatMap Character.text ++ [34])

mutual
/-- A JSON value; a container also has the whitespace after its opening character. -/
inductive Json where
  | token (text : Token)
  | string (characters : List Character)
  | array (space : Space) (items : Items)
  | object (space : Space) (members : Members)

inductive Items where
  | nil
  | cons (before : Space) (value : Json) (after : Space) (rest : Items)

inductive Members where
  | nil
  | cons (before : Space) (key : List Character) (colon after : Space) (value : Json)
      (last : Space) (rest : Members)
end

/-- The comma in front of an entry that is not the first. -/
def comma (first : Bool) : List UInt8 := if first then [] else [44]

mutual
def Json.text : Json → List UInt8
  | .token text => text.1
  | .string characters => quote characters
  | .array space items => 91 :: (space.1 ++ items.text true ++ [93])
  | .object space members => 123 :: (space.1 ++ members.text true ++ [125])

def Items.text (first : Bool) : Items → List UInt8
  | .nil => []
  | .cons before value after rest =>
      comma first ++ before.1 ++ value.text ++ after.1 ++ rest.text false

def Members.text (first : Bool) : Members → List UInt8
  | .nil => []
  | .cons before key colon after value last rest =>
      comma first ++ before.1 ++ quote key ++ colon.1 ++ 58 :: (after.1 ++ value.text ++ last.1 ++
        rest.text false)
end

mutual
/-- No array occurs in the value. -/
def Json.arrayFree : Json → Bool
  | .token _ | .string _ => true
  | .array .. => false
  | .object _ members => members.arrayFree

def Members.arrayFree : Members → Bool
  | .nil => true
  | .cons _ _ _ _ value _ rest => value.arrayFree && rest.arrayFree
end

mutual
/-- How deep the objects of an array-free value are nested. -/
def Json.depth : Json → ℕ
  | .object _ members => members.depth + 1
  | _ => 0

def Members.depth : Members → ℕ
  | .nil => 0
  | .cons _ _ _ _ value _ rest => max value.depth rest.depth
end

mutual
/-- How many members the objects of an array-free value have in total. -/
def Json.members : Json → ℕ
  | .object _ members => members.count
  | _ => 0

def Members.count : Members → ℕ
  | .nil => 0
  | .cons _ _ _ _ value _ rest => 1 + value.members + rest.count
end

/-- A value with the whitespace around it. -/
structure Document where
  before : Space
  value : Json
  after : Space

def Document.text (doc : Document) : List UInt8 := doc.before.1 ++ doc.value.text ++ doc.after.1

/-! ## What the scanner finds -/

section Scanning

variable {D M d m : ℕ}

/-- Outside of strings, bytes without a meaning are passed over. -/
theorem scan_plain {text : List UInt8} (h : ∀ byte ∈ text, byte ∉ [34, 58, 91, 93, 123, 125]) :
    scan D M text ⟨d, m, false, false⟩ = some ⟨d, m, false, false⟩ := by
  induction text with
  | nil => rfl
  | cons byte rest ih =>
    have hbyte := h byte List.mem_cons_self
    simp only [List.mem_cons, List.not_mem_nil, or_false, not_or] at hbyte
    have hstep : payloadByte D M ⟨d, m, false, false⟩ byte = some ⟨d, m, false, false⟩ := by
      simp [payloadByte, hbyte]
    rw [scan_cons, hstep]
    exact ih fun b hb => h b (List.mem_cons_of_mem _ hb)

theorem scan_space (space : Space) :
    scan D M space.1 ⟨d, m, false, false⟩ = some ⟨d, m, false, false⟩ := by
  refine scan_plain fun byte hbyte => ?_
  have hspace := space.2 byte hbyte
  simp only [List.mem_cons, List.not_mem_nil, or_false] at hspace
  rcases hspace with rfl | rfl | rfl | rfl <;> decide

/-- A string is passed over as a whole. -/
theorem scan_quote (characters : List Character) :
    scan D M (quote characters) ⟨d, m, false, false⟩ = some ⟨d, m, false, false⟩ := by
  have hbody : scan D M (characters.flatMap Character.text) ⟨d, m, true, false⟩ =
      some ⟨d, m, true, false⟩ := by
    induction characters with
    | nil => rfl
    | cons c rest ih =>
      have hc : scan D M c.text ⟨d, m, true, false⟩ = some ⟨d, m, true, false⟩ := by
        cases c with
        | plain byte =>
          simp [scan, Character.text, payloadByte, Scan.inString, byte.2.1, byte.2.2]
        | escape byte => simp [scan, Character.text, payloadByte, Scan.inString]
      rw [List.flatMap_cons, scan_append, hc]
      exact ih
  rw [quote, scan_cons]
  show scan D M (characters.flatMap Character.text ++ [34]) ⟨d, m, true, false⟩ = _
  rw [scan_append, hbody]
  rfl

mutual
/-- The scanner gets past a value exactly if the value has no array and keeps to both bounds. -/
theorem scan_json (value : Json) {d m : ℕ} (hd : d ≤ D) (hm : m ≤ M) :
    scan D M value.text ⟨d, m, false, false⟩ =
      if value.arrayFree ∧ d + value.depth ≤ D ∧ m + value.members ≤ M then
        some ⟨d, m + value.members, false, false⟩ else none := by
  cases value with
  | token text =>
    simpa [Json.text, Json.arrayFree, Json.depth, Json.members, hd, hm] using scan_plain text.2
  | string characters =>
    simpa [Json.text, Json.arrayFree, Json.depth, Json.members, hd, hm] using scan_quote characters
  | array space items => simp [Json.text, Json.arrayFree, scan_cons, payloadByte]
  | object space members =>
    simp only [Json.text, Json.arrayFree, Json.depth, Json.members, scan_cons]
    by_cases hroom : D < d + 1
    · have : ¬ d + (members.depth + 1) ≤ D := by omega
      simp [payloadByte, Scan.enter, hroom, this]
    · have henter : payloadByte D M ⟨d, m, false, false⟩ 123 =
          some ⟨d + 1, m, false, false⟩ := by
        simp [payloadByte, Scan.enter, hroom]
      simp only [henter, Option.bind_some, scan_append, scan_space,
        scan_members members true (d := d + 1) (by omega) hm]
      have hleave (k : ℕ) : scan D M [125] ⟨d + 1, k, false, false⟩ =
          some ⟨d, k, false, false⟩ := by
        simp [scan, payloadByte, Scan.leave]
      grind

theorem scan_members (members : Members) (first : Bool) {d m : ℕ} (hd : d ≤ D) (hm : m ≤ M) :
    scan D M (members.text first) ⟨d, m, false, false⟩ =
      if members.arrayFree ∧ d + members.depth ≤ D ∧ m + members.count ≤ M then
        some ⟨d, m + members.count, false, false⟩ else none := by
  cases members with
  | nil => simp [scan, Members.text, Members.arrayFree, Members.depth, Members.count, hd, hm]
  | cons before key colon after value last rest =>
    have hcomma : scan D M (comma first) ⟨d, m, false, false⟩ = some ⟨d, m, false, false⟩ := by
      cases first <;> rfl
    have hkey : scan D M (comma first ++ before.1 ++ quote key ++ colon.1) ⟨d, m, false, false⟩ =
        some ⟨d, m, false, false⟩ := by
      simp only [scan_append, hcomma, scan_space, scan_quote, Option.bind_some]
    rw [Members.text, scan_append, hkey, Option.bind_some, scan_cons]
    simp only [Members.arrayFree, Members.depth, Members.count]
    by_cases hroom : M < m + 1
    · have : ¬ m + (1 + value.members + rest.count) ≤ M := by omega
      simp [payloadByte, Scan.member, hroom, this]
    · have hmember : payloadByte D M ⟨d, m, false, false⟩ 58 =
          some ⟨d, m + 1, false, false⟩ := by
        simp [payloadByte, Scan.member, hroom]
      rw [hmember, Option.bind_some, scan_append, scan_append, scan_append, scan_space,
        Option.bind_some, scan_json value hd (by omega)]
      by_cases hfits : value.arrayFree ∧ d + value.depth ≤ D ∧ m + 1 + value.members ≤ M
      · rw [if_pos hfits, Option.bind_some, scan_space, Option.bind_some,
          scan_members rest false hd hfits.2.2]
        have hmax : d + max value.depth rest.depth ≤ D ↔ d + rest.depth ≤ D := by omega
        simp only [hfits.1, Bool.true_and, hmax, ← Nat.add_assoc]
      · rw [if_neg hfits]
        refine (if_neg ?_).symm
        rintro ⟨hfree, hdepth, hcount⟩
        exact hfits ⟨(Bool.and_eq_true_iff.mp hfree).1, by omega, by omega⟩
end

end Scanning

/-- The payload scanner accepts exactly the documents without arrays whose objects keep to both
bounds, and on arbitrary bytes it accepts exactly what the scanners for one bound both accept. -/
theorem payload_bounds (maximumDepth maximumMembers : ℕ) :
    (∀ doc : Document, checkPayloadBounds doc.text maximumDepth maximumMembers = true ↔
      doc.value.arrayFree = true ∧ doc.value.depth ≤ maximumDepth ∧
        doc.value.members ≤ maximumMembers) ∧
    ∀ input, checkPayloadBounds input maximumDepth maximumMembers = true ↔
      checkJsonDepth input maximumDepth = true ∧ checkMembers input maximumMembers = true := by
  constructor
  · intro doc
    rw [checkPayloadBounds, Document.text, scan_append, scan_append, scan_space,
      Option.bind_some, scan_json doc.value (Nat.zero_le _) (Nat.zero_le _)]
    simp only [Nat.zero_add]
    split_ifs with hfits
    · rw [Option.bind_some, scan_space]
      exact iff_of_true rfl hfits
    · exact iff_of_false Bool.false_ne_true hfits
  · intro input
    rw [checkPayloadBounds, scan_both maximumDepth maximumMembers input 0 0 0 0, Bool.and_eq_true]
    rfl

end Netbaiot.Codecs
