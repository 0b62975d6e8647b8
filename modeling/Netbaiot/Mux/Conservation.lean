import Netbaiot.Mux.FlowControl

/-!
# Conserved credit and windows that are not exceeded

Two properties of a connection and the runs that violate them.  DATA of a stream that the
reader has refused or removed is answered with RESET and without connection credit, so its
bytes are missing from the window of the sender for good.  And a WINDOW_UPDATE is on the wire
before the reader is told, so a peer that answers at once can exceed a window that the reader
has not restored yet.
-/

namespace Netbaiot.Mux

open Lib

variable {l : Link}

variable {decode : List UInt8 → Option RpcOpen} {contentLength : List UInt8 → Option ℕ}

/-- The table has a place for DATA: its stream is open and still receives a body, and the bytes
are within both windows and the declared size, which the last frame reaches exactly. -/
def StreamTable.Expects (t : StreamTable) (f : Frame) : Prop :=
  ∃ stream ∈ t.streams.lookup f.streamId, stream.remoteClosed = false ∧
    ∃ body ∈ stream.body, f.payload.length < 2 ^ 32 ∧
      f.payload.length ≤ t.connectionWindow ∧ f.payload.length ≤ stream.recvWindow ∧
      body.bytes.length + f.payload.length ≤ body.expected ∧
      (f.endStream = true → body.bytes.length + f.payload.length = body.expected)

instance StreamTable.decidableExpects (t : StreamTable) (f : Frame) : Decidable (t.Expects f) :=
  inferInstanceAs (Decidable (∃ stream ∈ t.streams.lookup f.streamId, _))

/-- This is what the checks of the table come to. -/
theorem StreamTable.receiveData_toBool (t : StreamTable) (f : Frame) :
    (t.receiveData f.streamId f.payload f.endStream).toBool = true ↔ t.Expects f := by
  unfold Expects
  fun_cases receiveData t f.streamId f.payload f.endStream with
  | case1 hstream => simp [hstream, Except.toBool]
  | case2 stream hstream hclosed => simp [hstream, hclosed, Except.toBool]
  | case3 stream hstream _ hbody => simp [hstream, hbody, Except.toBool]
  | case9 stream hstream hclosed body hbody length next hlength hconnection hwindow hsize hlast =>
    refine iff_of_true rfl ⟨stream, hstream, by simpa using hclosed, body, hbody, by omega,
      by omega, by omega, by omega, fun hend => ?_⟩
    by_contra hne
    exact hlast ⟨hend, hne⟩
  | _ =>
    simp_all [Except.toBool]
    omega

namespace Link

/-- A running connection has its credit lines in order. -/
theorem sound_of_reachable (h : (linking decode contentLength).Reachable l)
    (hrunning : l.endpoint.running = true) : l.Sound := by
  revert hrunning
  refine System.Reachable.invariant (I := fun l => l.endpoint.running = true → l.Sound)
    (fun l hl _ => .fresh hl) (fun l a l' hl hstep hrunning' => ?_) h
  subst hstep
  by_cases hrunning : l.endpoint.running = true
  · exact (hl hrunning).step decode contentLength a hrunning'
  · have hsame : l.step decode contentLength a = l := by simp [step, hrunning]
    rw [hsame] at hrunning'
    exact absurd hrunning' hrunning

/-- The window of the sender, the DATA on the way and the credit on the way back make up the
initial connection window. -/
def Conserved (l : Link) : Prop :=
  l.connection.available + l.connection.inflight + (l.connection.queued + l.connection.wire) =
    l.limits.initialConnectionWindowBytes

/-- The frame that a step takes from the wire. -/
def taken (l : Link) : Action → Option Frame
  | .read _ => l.inbound.head?
  | _ => none

/-- The table has a place for the DATA that the reader takes, or the DATA carries no bytes. -/
def TakesAll (l : Link) (a : Action) : Prop :=
  ∀ f ∈ l.taken a, f.dataBytes ≠ 0 → l.endpoint.table.Expects f

instance decidableTakesAll (l : Link) (a : Action) : Decidable (l.TakesAll a) :=
  inferInstanceAs (Decidable (∀ f ∈ l.taken a, _))

theorem Sound.conserved_iff (h : l.Sound) : l.Conserved ↔ l.lost = 0 := by
  have hbalance := h.balanced.available h.conforming
  change _ = l.limits.initialConnectionWindowBytes at hbalance
  unfold Conserved
  omega

/-- Only DATA that has no place adds to what is lost. -/
theorem lost_step (hrunning : l.endpoint.running = true) (a : Action) :
    (l.step decode contentLength a).lost = l.lost ↔ l.TakesAll a := by
  unfold step
  rw [hrunning]
  simp only [Bool.not_true, Bool.false_eq_true, if_false]
  have hother : ∀ n : ℕ, n = l.lost → l.taken a = none → (n = l.lost ↔ l.TakesAll a) := by
    intro n hn hnone
    refine iff_of_true hn fun f hf => ?_
    rw [hnone] at hf
    cases hf
  cases a with
  | read v =>
    cases hin : l.inbound with
    | nil => simp [TakesAll, taken, hin]
    | cons f rest =>
      show l.lost + (if l.accepts f then 0 else f.dataBytes) = l.lost ↔ _
      have hplace : l.accepts f = true ↔ l.endpoint.table.Expects f :=
        l.endpoint.table.receiveData_toBool f
      simp only [TakesAll, taken, hin, List.head?_cons, Option.mem_def, Option.some.injEq,
        forall_eq', ← hplace]
      split
      · next haccepts => exact iff_of_true rfl fun _ => haccepts
      · next hrefused =>
        rw [Nat.add_eq_left]
        constructor
        · intro hzero hbytes
          exact absurd hzero hbytes
        · intro h
          by_contra hne
          exact hrefused (h hne)
  | sendNotice | sendUpdate | task => exact hother _ rfl rfl
  | sendData id bytes last =>
    refine hother _ ?_ rfl
    simp only [sendData]
    split <;> rfl
  | arrive =>
    refine hother _ ?_ rfl
    simp only
    split
    · rfl
    · simp only [arrive]
      split <;> rfl
  | readCredit | takeMessage | select | write =>
    refine hother _ ?_ rfl
    simp only
    split <;> rfl
  | announce =>
    refine hother _ ?_ rfl
    simp only
    split
    · split <;> rfl
    · rfl

/-- In a run in which no DATA is refused, nothing is lost. -/
theorem lost_eq_zero (h : ((linking decode contentLength).restrict TakesAll).Reachable l)
    (hrunning : l.endpoint.running = true) : l.lost = 0 := by
  revert hrunning
  refine System.Reachable.invariant (I := fun l => l.endpoint.running = true → l.lost = 0)
    (fun l hl _ => ?_) (fun l a l' hl hstep hrunning' => ?_) h
  · obtain ⟨_, _, _, _, _, _, _, _, _, _, rfl⟩ := hl
    rfl
  · obtain ⟨htakes, rfl⟩ := hstep
    by_cases hrunning : l.endpoint.running = true
    · rw [(lost_step hrunning a).mpr htakes]
      exact hl hrunning
    · have hsame : l.step decode contentLength a = l := by simp [step, hrunning]
      rw [hsame] at hrunning' ⊢
      exact absurd hrunning' hrunning

/-- In every run in which the table has a place for all DATA that carries bytes, the connection
credit is conserved as long as the connection runs, and when nothing is on the way the sender has
its whole window.  From any state of any run, a step conserves the credit only if it meets this
condition. -/
theorem connection_credit_conserved :
    (∀ l, ((linking decode contentLength).restrict TakesAll).Reachable l →
      l.endpoint.running = true → l.Conserved ∧
        (l.connection.inflight = 0 → l.connection.queued = 0 → l.connection.wire = 0 →
          l.connection.available = l.limits.initialConnectionWindowBytes)) ∧
      ∀ l, (linking decode contentLength).Reachable l → l.endpoint.running = true →
        l.Conserved → ∀ a, (l.step decode contentLength a).endpoint.running = true →
          ((l.step decode contentLength a).Conserved ↔ l.TakesAll a) := by
  constructor
  · intro l h hrunning
    have hconserved : l.Conserved :=
      (sound_of_reachable h.of_restrict hrunning).conserved_iff.mpr (lost_eq_zero h hrunning)
    refine ⟨hconserved, fun hinflight hqueued hwire => ?_⟩
    unfold Conserved at hconserved
    omega
  · intro l h hrunning hconserved a hrunning'
    have hzero : l.lost = 0 := (sound_of_reachable h hrunning).conserved_iff.mp hconserved
    have hnext : (linking decode contentLength).Reachable (l.step decode contentLength a) :=
      h.step rfl
    rw [(sound_of_reachable hnext hrunning').conserved_iff, ← lost_step hrunning a, hzero]

end Link

/-- Limits under which both windows hold one frame. -/
def tightLimits : RpcLimits := ⟨4096, 16, 4096, 4096, 5000⟩

/-- A connection of the gateway with these limits. -/
def tightLink : Link where
  endpoint :=
    { table := ⟨.server, 0, 2, tightLimits, ∅, 4096, 0, 65536, ⟨65536, 0⟩, true⟩
      tx := []
      scheduler := ⟨4096, 4096, 4096, 4096, none, 0, ∅, 0, 65536, [], 0, ∅, ∅, 16, [], [], 0, 0⟩
      writing := none
      announcing := none
      credits := []
      running := true }
  peer := ⟨0, 0, ∅, ∅⟩
  inbound := []
  outbound := []
  lost := 0

theorem fresh_tightLink : tightLink.Fresh :=
  ⟨.server, tightLimits, 65536, ⟨65536, 0⟩, 65536, none, _, _, rfl, rfl, rfl⟩

/-- Every OPEN asks for a call with a body of two frames. -/
def sampleDecode (_ : List UInt8) : Option RpcOpen := some (.rpc none 1 [97] 1 8192)

def sampleOpen : Notice := ⟨.open_, false, [0], by decide⟩

def sampleReset : Notice := ⟨.resetStream, false, [0], by decide⟩

/-- The stream is admitted, or not. -/
def sampleVerdict (admitted : Bool) : Verdict := ⟨admitted, true, true, true, sampleReset⟩

/-- The stream is admitted, one frame fills both windows, and the credit for it is written,
restored and received, for the connection and for the stream. -/
def returnedActions : List Link.Action :=
  [.sendNotice 1 sampleOpen, .read (sampleVerdict true),
    .sendData 1 (List.replicate 4096 0) false, .read (sampleVerdict true), .takeMessage,
    .takeMessage, .select, .write, .announce, .readCredit, .select, .write, .announce,
    .readCredit, .arrive, .arrive]

def returnedLink : Link := returnedActions.foldl (·.step sampleDecode fun _ => none) tightLink

/-- Nothing is on the way any more, and the sender has its whole window again. -/
theorem connection_credit_conserved_returned :
    returnedLink.endpoint.running = true ∧ returnedLink.peer.sent = 4096 ∧
      returnedLink.inbound = [] ∧ returnedLink.outbound = [] ∧
      returnedLink.connection.available = returnedLink.limits.initialConnectionWindowBytes := by
  have hreachable : ((linking sampleDecode fun _ => none).restrict Link.TakesAll).Reachable
      returnedLink :=
    System.Reachable.foldl_restrict (fun _ _ => rfl) returnedActions (.start fresh_tightLink)
      (by decide +kernel)
  have hrunning : returnedLink.endpoint.running = true := by decide +kernel
  obtain ⟨-, hwhole⟩ := Link.connection_credit_conserved.1 returnedLink hreachable hrunning
  exact ⟨hrunning, by decide +kernel, by decide +kernel, by decide +kernel,
    hwhole (by decide +kernel) (by decide +kernel) (by decide +kernel)⟩

/-- The peer opens a stream and sends ten bytes before it knows that the stream is refused. -/
def refusedActions : List Link.Action :=
  [.sendNotice 1 sampleOpen, .sendData 1 (List.replicate 10 0) false, .read (sampleVerdict false),
    .read (sampleVerdict false), .takeMessage, .select, .write, .takeMessage, .select, .write,
    .takeMessage, .arrive, .arrive]

def refusedLink : Link := refusedActions.foldl (·.step sampleDecode fun _ => none) tightLink

/-- Everything has arrived, no stream is open and nothing is queued, and the sender is ten
bytes short of its initial window. -/
theorem refused_data_loses_credit :
    (linking sampleDecode fun _ => none).Reachable refusedLink ∧
      refusedLink.endpoint.running = true ∧ refusedLink.inbound = [] ∧
      refusedLink.outbound = [] ∧ refusedLink.endpoint.tx.isEmpty = true ∧
      refusedLink.endpoint.table.streams.size = 0 ∧
      refusedLink.connection.queued = 0 ∧
      refusedLink.connection.available + 10 = refusedLink.limits.initialConnectionWindowBytes :=
  ⟨System.Reachable.foldl (fun _ _ => rfl) refusedActions (.start fresh_tightLink),
    by decide +kernel⟩

/-- The writer has told the reader of all the credit it has written. -/
def Link.Settled (l : Link) : Prop := l.endpoint.announcing = none ∧ l.endpoint.credits = []

theorem Link.Settled.unannounced (h : l.Settled) (id : ℕ) : l.endpoint.unannounced id = 0 := by
  simp [Endpoint.unannounced, h.1, h.2]

/-- In every state of every run in which the reader knows of all written credit, the next DATA
frame of a conforming peer exceeds neither the connection window nor the window of its
stream. -/
theorem windows_not_exceeded (l : Link) (h : (linking decode contentLength).Reachable l)
    (hrunning : l.endpoint.running = true) (hsettled : l.Settled) (f : Frame) (rest : List Frame)
    (hin : l.inbound = f :: rest) (hdata : f.frameType = .data)
    (hframe : f.check l.limits.maxFramePayloadBytes = .ok ()) :
    l.endpoint.table.receiveData f.streamId f.payload f.endStream ≠
        .error (.connection .length) ∧
      l.endpoint.table.receiveData f.streamId f.payload f.endStream ≠ .error .flowControl := by
  have hsound := Link.sound_of_reachable h hrunning
  have hid : f.streamId ≠ 0 := Frame.streamId_ne_zero hdata hframe
  have hbytes : f.dataBytes = f.payload.length := by simp [Frame.dataBytes, hdata]
  constructor
  · intro herror
    have hexceeded : l.endpoint.table.connectionWindow < f.payload.length := by
      simpa using StreamTable.receiveData_error herror
    have hfits : l.connection.inflight ≤ l.endpoint.table.connectionWindow :=
      hsound.covered.inflight_le hsound.conforming (hsettled.unannounced 0)
    have hle : f.payload.length ≤ l.connection.inflight := by
      simp [Link.connection, hin, hbytes]
    omega
  · intro herror
    obtain ⟨s, hs, hexceeded⟩ : ∃ s, l.endpoint.table.streams.lookup f.streamId = some s ∧
        s.recvWindow < f.payload.length := by
      simpa using StreamTable.receiveData_error herror
    obtain ⟨hconforming, -, hcovered⟩ := hsound.streams f.streamId hid
    have hfits := (hcovered (by rw [hs]; rfl)).inflight_le hconforming (hsettled.unannounced _)
    have hle : f.payload.length ≤ (l.stream f.streamId).inflight := by
      simp [Link.stream, hin, Frame.dataOn, hbytes]
    have hwindow : (l.stream f.streamId).window = s.recvWindow := by simp [Link.stream, hs]
    omega

/-- The windows that the first frame filled are whole again, and ten more bytes are on the way. -/
def refilledLink : Link :=
  returnedLink.step sampleDecode (fun _ => none) (.sendData 1 (List.replicate 10 0) false)

/-- The peer has sent more than a window in all, and the ten bytes exceed none. -/
theorem windows_not_exceeded_sample :
    refilledLink.limits.initialConnectionWindowBytes < refilledLink.peer.sent ∧
      refilledLink.inbound = [⟨1, .data, false, List.replicate 10 0⟩] ∧
      refilledLink.endpoint.table.receiveData 1 (List.replicate 10 0) false ≠
          .error (.connection .length) ∧
        refilledLink.endpoint.table.receiveData 1 (List.replicate 10 0) false ≠
          .error .flowControl := by
  have hreachable : (linking sampleDecode fun _ => none).Reachable refilledLink :=
    .step (System.Reachable.foldl (fun _ _ => rfl) returnedActions (.start fresh_tightLink)) rfl
  have hin : refilledLink.inbound = [⟨1, .data, false, List.replicate 10 0⟩] := by decide +kernel
  have hwindows := windows_not_exceeded refilledLink hreachable (by decide +kernel)
    ⟨by decide +kernel, by decide +kernel⟩ _ [] hin rfl (by decide +kernel)
  exact ⟨by decide +kernel, hin, hwindows⟩

/-- The peer fills the connection window with one frame, receives the credit for it, and sends
another frame before the writer has told the reader of that credit. -/
def raceActions : List Link.Action :=
  [.sendNotice 1 sampleOpen, .read (sampleVerdict true),
    .sendData 1 (List.replicate 4096 0) false, .read (sampleVerdict true), .takeMessage, .select,
    .write, .arrive, .sendNotice 3 sampleOpen, .read (sampleVerdict true),
    .sendData 3 (List.replicate 4096 0) false]

def raceLink : Link := raceActions.foldl (·.step sampleDecode fun _ => none) tightLink

/-- The error with which the table refuses the next frame. -/
def Link.refusal (l : Link) : Option MuxError :=
  l.inbound.head?.bind fun f =>
    match l.endpoint.table.receiveData f.streamId f.payload f.endStream with
    | .ok _ => none
    | .error e => some e

/-- The peer has sent what the window and the credit it received allow, and the reader fails
the connection for it. -/
theorem credited_data_exceeds_window :
    (linking sampleDecode fun _ => none).Reachable raceLink ∧
      raceLink.endpoint.running = true ∧ raceLink.peer.credit = 4096 ∧ raceLink.peer.sent = 8192 ∧
      raceLink.endpoint.announcing = some (0, 4096) ∧
      raceLink.inbound.map Frame.streamId = [3] ∧
      raceLink.refusal = some (.connection .length) :=
  ⟨System.Reachable.foldl (fun _ _ => rfl) raceActions (.start fresh_tightLink),
    by decide +kernel⟩

end Netbaiot.Mux
