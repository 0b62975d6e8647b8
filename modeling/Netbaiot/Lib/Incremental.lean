import Mathlib.Data.List.Basic

/-!
# Incremental decoders

A decoder takes the first item out of a buffer, says that the buffer does not hold a whole item
yet, or fails.  `extract` takes items as long as there are any, and `receive` does so after every
chunk that arrives.  `Incremental.receive_eq` says that the chunks do not matter to a decoder
whose answer does not change when more arrives.
-/

namespace Netbaiot.Lib

variable {α β ε : Type}

/-- Where a stream stands: at a buffer that needs more, or at the error that ended it. -/
inductive Outcome (β ε : Type) where
  | needMore (buffer : List β)
  | failed (error : ε)

/-- Take items out of a buffer, at most that many. -/
def extractFor (decode : List β → Except ε (Option (α × List β))) :
    ℕ → List β → List α × Outcome β ε
  | 0, buffer => ([], .needMore buffer)
  | rounds + 1, buffer =>
      match decode buffer with
      | .error e => ([], .failed e)
      | .ok none => ([], .needMore buffer)
      | .ok (some (item, rest)) =>
          (item :: (extractFor decode rounds rest).1, (extractFor decode rounds rest).2)

/-- Take items out of a buffer as long as there are any; an item takes a part of the buffer, so
there are at most as many as the buffer is long. -/
def extract (decode : List β → Except ε (Option (α × List β))) (buffer : List β) :
    List α × Outcome β ε :=
  extractFor decode (buffer.length + 1) buffer

/-- Append a chunk to the buffer of a stream and take the items out; a failed stream has ended. -/
def feed (decode : List β → Except ε (Option (α × List β))) (stream : List α × Outcome β ε)
    (chunk : List β) : List α × Outcome β ε :=
  match stream.2 with
  | .failed _ => stream
  | .needMore buffer =>
      (stream.1 ++ (extract decode (buffer ++ chunk)).1, (extract decode (buffer ++ chunk)).2)

/-- The items and the outcome of a stream that arrives in chunks. -/
def receive (decode : List β → Except ε (Option (α × List β))) (chunks : List (List β)) :
    List α × Outcome β ε :=
  chunks.foldl (feed decode) ([], .needMore [])

/-- A decoder whose answers stay when more arrives, and whose items are not empty. -/
structure Incremental (decode : List β → Except ε (Option (α × List β))) : Prop where
  empty : decode [] = .ok none
  consumes : ∀ {input item rest}, decode input = .ok (some (item, rest)) →
    rest.length < input.length
  grows : ∀ {input item rest}, decode input = .ok (some (item, rest)) →
    ∀ more, decode (input ++ more) = .ok (some (item, rest ++ more))
  fails : ∀ {input e}, decode input = .error e → ∀ more, decode (input ++ more) = .error e

namespace Incremental

variable {decode : List β → Except ε (Option (α × List β))} (h : Incremental decode)

include h

/-- More rounds than the buffer is long make no difference. -/
theorem extractFor_eq {rounds rounds' : ℕ} {buffer : List β} (hrounds : buffer.length < rounds)
    (hrounds' : buffer.length < rounds') :
    extractFor decode rounds buffer = extractFor decode rounds' buffer := by
  induction rounds generalizing rounds' buffer with
  | zero => omega
  | succ rounds ih =>
    obtain ⟨rounds', rfl⟩ : ∃ n, rounds' = n + 1 := ⟨rounds' - 1, by omega⟩
    rw [extractFor, extractFor]
    cases hdecode : decode buffer with
    | error e => rfl
    | ok found =>
      cases found with
      | none => rfl
      | some found =>
        obtain ⟨item, rest⟩ := found
        have hrest := h.consumes hdecode
        have heq : extractFor decode rounds rest = extractFor decode rounds' rest :=
          ih (by omega) (by omega)
        dsimp only
        rw [heq]

/-- The first item, if there is one, and then the items of the rest. -/
theorem extract_eq (buffer : List β) :
    extract decode buffer =
      match decode buffer with
      | .error e => ([], .failed e)
      | .ok none => ([], .needMore buffer)
      | .ok (some (item, rest)) => (item :: (extract decode rest).1, (extract decode rest).2) := by
  rw [extract, extractFor]
  cases hdecode : decode buffer with
  | error e => rfl
  | ok found =>
    cases found with
    | none => rfl
    | some found =>
      have hrest := h.consumes hdecode
      dsimp only
      rw [extract, h.extractFor_eq hrest (Nat.lt_succ_self found.2.length)]

/-- A chunk that arrives later is the same as one that was there from the beginning. -/
theorem feed_extract (buffer chunk : List β) :
    feed decode (extract decode buffer) chunk = extract decode (buffer ++ chunk) := by
  induction hlength : buffer.length using Nat.strongRecOn generalizing buffer with
  | _ n ih =>
    cases hdecode : decode buffer with
    | error e =>
      rw [h.extract_eq buffer, h.extract_eq (buffer ++ chunk), hdecode, h.fails hdecode chunk]
      rfl
    | ok found =>
      cases found with
      | none =>
        rw [h.extract_eq buffer, hdecode]
        rfl
      | some found =>
        obtain ⟨item, rest⟩ := found
        have hrest := ih rest.length (hlength ▸ h.consumes hdecode) rest rfl
        rw [h.extract_eq buffer, h.extract_eq (buffer ++ chunk), hdecode, h.grows hdecode chunk]
        dsimp only
        rw [← hrest]
        obtain ⟨items, outcome⟩ := extract decode rest
        cases outcome with
        | failed e => rfl
        | needMore left => rfl

/-- What a stream yields depends on its bytes only, not on the chunks they arrive in. -/
theorem receive_eq (chunks : List (List β)) :
    receive decode chunks = extract decode chunks.flatten := by
  have hfold : ∀ buffer, chunks.foldl (feed decode) (extract decode buffer) =
      extract decode (buffer ++ chunks.flatten) := by
    induction chunks with
    | nil => exact fun buffer => by rw [List.foldl_nil, List.flatten_nil, List.append_nil]
    | cons chunk rest ih =>
      intro buffer
      rw [List.foldl_cons, h.feed_extract, ih, List.flatten_cons, List.append_assoc]
  have hstart : extract decode [] = ([], .needMore []) := by rw [h.extract_eq, h.empty]
  have hall := hfold []
  rwa [hstart] at hall

/-- The items end where the decoder needs more. -/
theorem decode_of_needMore {input buffer : List β}
    (houtcome : (extract decode input).2 = .needMore buffer) : decode buffer = .ok none := by
  induction hlength : input.length using Nat.strongRecOn generalizing input with
  | _ n ih =>
    rw [h.extract_eq] at houtcome
    cases hdecode : decode input with
    | error e =>
      rw [hdecode] at houtcome
      cases houtcome
    | ok found =>
      rw [hdecode] at houtcome
      cases found with
      | none =>
        cases houtcome
        exact hdecode
      | some found => exact ih found.2.length (hlength ▸ h.consumes hdecode) houtcome rfl

end Incremental

end Netbaiot.Lib
