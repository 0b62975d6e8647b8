import Netbaiot.Mux.Effects

/-!
# Flow control over whole runs

`Sound` says that on the connection and on every stream the peer stays within its credit, that
credit is given only for accepted bytes, and that the windows cover what is on the way up to
credit that the writer has written and the reader has not been told.  Every step keeps it.
Two results follow: credit is conserved as long as no DATA is refused, and no DATA exceeds a
window when the reader knows of all written credit.
-/

namespace Netbaiot.Mux

open Lib Endpoint CreditLine

/-- The credit lines of the connection and of all streams are in order. -/
structure Link.Sound (l : Link) : Prop where
  conforming : l.connection.Conforming
  balanced : l.connection.Balanced l.lost
  covered : l.connection.Covered
  streams : ∀ id, id ≠ 0 → (l.stream id).Conforming ∧ (l.stream id).Earned ∧
    ((l.endpoint.table.streams.lookup id).isSome → (l.stream id).Covered)
  busy : l.endpoint.writing.isSome → l.endpoint.announcing = none

/-- DATA does not belong to the connection as a whole. -/
theorem Frame.streamId_ne_zero {f : Frame} {max : ℕ} {u : Unit} (hdata : f.frameType = .data)
    (h : f.check max = .ok u) : f.streamId ≠ 0 := by
  intro hzero
  unfold check at h
  simp [hdata, hzero] at h

namespace Link

variable {l l' : Link} {f : Frame} {rest : List Frame}

theorem stream_window {id : ℕ} {s : Stream}
    (hs : l.endpoint.table.streams.lookup id = some s) : (l.stream id).window = s.recvWindow := by
  simp [stream, hs]

namespace Sound

theorem fresh (h : l.Fresh) : l.Sound := by
  obtain ⟨side, limits, connectionBudget, globalBudget, byteLimit, sendAhead, table, scheduler,
    htable, hscheduler, rfl⟩ := h
  have hcontrol : scheduler.control = [] := by
    unfold MuxScheduler.withSendAhead at hscheduler
    split_ifs at hscheduler
    obtain rfl := Except.ok.inj hscheduler
    rfl
  have hnew : table.connectionWindow = table.limits.initialConnectionWindowBytes ∧
      table.streams = ∅ := by
    unfold StreamTable.new at htable
    split at htable
    · exact absurd htable (by simp)
    · split at htable
      · exact absurd htable (by simp)
      · obtain rfl := Except.ok.inj htable
        exact ⟨rfl, rfl⟩
  have howed : ∀ id, (⟨table, [], scheduler, none, none, [], true⟩ : Endpoint).owed id = 0 :=
    fun id => by simp [owed, hcontrol]
  refine ⟨Nat.zero_le _, ?_, ?_, fun id _ => ⟨Nat.zero_le _, ⟨0, ?_⟩, fun _ => ?_⟩, fun _ => rfl⟩
  · simp [CreditLine.Balanced, connection, howed]
  · simp [CreditLine.Covered, connection, hnew.1, Link.limits]
  · simp [CreditLine.Balanced, stream, howed]
  · simp [CreditLine.Covered, stream, hnew.2, Link.limits]

section

variable (h : l.Sound)

include h

/-- The endpoint moved messages but did nothing to windows and credit. -/
theorem setEndpoint {e : Endpoint} (howed : ∀ id, e.owed id = l.endpoint.owed id)
    (hunannounced : ∀ id, e.unannounced id = l.endpoint.unannounced id)
    (hwindows : SameWindows l.endpoint.table e.table)
    (hbusy : e.writing.isSome → e.announcing = none) : (l.setEndpoint e).Sound := by
  let l' := l.setEndpoint e
  have hconnection : l'.connection = l.connection := by
    simp only [l', Link.setEndpoint, connection, Link.limits, howed, hunannounced,
      hwindows.limits, hwindows.connection]
  have hstream : ∀ id, l'.stream id = { l.stream id with window := (l'.stream id).window } := by
    intro id
    simp only [l', Link.setEndpoint, stream, Link.limits, howed, hunannounced, hwindows.limits]
  refine ⟨hconnection ▸ h.conforming, hconnection ▸ h.balanced,
    hconnection ▸ h.covered, fun id hid => ?_, hbusy⟩
  · obtain ⟨hconforming, hearned, hcovered⟩ := h.streams id hid
    have hearned' : (l'.stream id).Earned := by
      rw [hstream]
      exact hearned
    refine ⟨by rw [hstream]; exact hconforming, hearned', fun hopen => ?_⟩
    obtain ⟨s, hs⟩ := Option.isSome_iff_exists.mp hopen
    have hwindow : (l'.stream id).window = s.recvWindow := stream_window hs
    rcases hwindows.streams id s hs with hnew | ⟨old, hold, hsame⟩
    · -- a new stream has the initial window
      refine hearned'.covered (hwindow.trans (hnew.trans ?_))
      simp only [l', Link.setEndpoint, stream, Link.limits, hwindows.limits]
    · rw [hstream, hwindow, ← hsame, ← stream_window hold]
      exact hcovered (by rw [hold]; rfl)

theorem quiet {e : Endpoint} (hquiet : Quiet l.endpoint e) : (l.setEndpoint e).Sound := by
  refine h.setEndpoint hquiet.owed hquiet.unannounced hquiet.windows ?_
  rw [hquiet.writing, hquiet.announcing]
  exact h.busy

/-- Something happens on the line of the connection and on those of the streams; the window of
a stream counts only while the stream is open. -/
theorem moved {line : CreditLine} {lost : ℕ} (hconnection : l'.connection = line)
    (hmove : l.connection.Move line lost) (hlost : l'.lost = l.lost + lost)
    (hstreams : ∀ id, id ≠ 0 → ∃ line n, (l.stream id).Move line n ∧
      (∃ window, l'.stream id = { line with window }) ∧
      ((l'.endpoint.table.streams.lookup id).isSome →
        (l.endpoint.table.streams.lookup id).isSome ∧ l'.stream id = line))
    (hbusy : l'.endpoint.writing.isSome → l'.endpoint.announcing = none) : l'.Sound := by
  subst hconnection
  refine ⟨h.conforming.move hmove, hlost ▸ h.balanced.move hmove, h.covered.move hmove,
    fun id hid => ?_, hbusy⟩
  obtain ⟨hconforming, hearned, hcovered⟩ := h.streams id hid
  obtain ⟨line, n, hmove, ⟨window, hline⟩, hopen⟩ := hstreams id hid
  have hconforming' := hconforming.move hmove
  have hearned' := hearned.move hmove
  refine ⟨by rw [hline]; exact hconforming', by rw [hline]; exact hearned', fun ho => ?_⟩
  obtain ⟨hold, hsame⟩ := hopen ho
  exact hsame ▸ (hcovered hold).move hmove

/-- The peer sends a frame without DATA. -/
theorem push (hdata : f.frameType ≠ .data) : (l.push f).Sound := by
  have hnone : f.dataBytes = 0 := by simp [Frame.dataBytes, hdata]
  have hconnection : (l.push f).connection = l.connection := by
    simp [connection, Link.push, Link.limits, hnone]
  have hstream : ∀ id, (l.push f).stream id = l.stream id := fun id => by
    simp [stream, Link.push, Link.limits, Frame.dataOn, hnone]
  exact h.moved hconnection (.refl _) rfl (fun id _ =>
    ⟨_, _, .refl _, ⟨_, hstream id⟩, fun ho => ⟨ho, hstream id⟩⟩) h.busy

/-- The peer sends DATA within its credit. -/
theorem sendData (id : ℕ) (bytes : List UInt8) (last : Bool) :
    (l.sendData id bytes last).Sound := by
  unfold Link.sendData
  simp only
  split
  · next hroom =>
    let l' : Link := { l with peer := { l.peer with
      sent := l.peer.sent + bytes.length
      streamSent := l.peer.streamSent.insert id
        ((l.peer.streamSent.lookup id).getD 0 + bytes.length) } }.push ⟨id, .data, last, bytes⟩
    have hconnection : l'.connection = l.connection.send bytes.length := by
      simp [l', connection, Link.push, Link.limits, Frame.dataBytes, CreditLine.send]
    have hstream : ∀ k, l'.stream k =
        (l.stream k).send (if k = id then bytes.length else 0) := by
      intro k
      by_cases hk : k = id
      · subst hk
        simp [l', stream, Link.push, Link.limits, Frame.dataBytes, Frame.dataOn, CreditLine.send]
      · simp [l', stream, Link.push, Link.limits, Frame.dataBytes, Frame.dataOn, CreditLine.send,
          hk, Ne.symm hk]
    refine h.moved hconnection (.send hroom.1) rfl (fun k _ =>
      ⟨_, _, .send ?_, ⟨_, hstream k⟩, fun ho => ⟨ho, hstream k⟩⟩) h.busy
    split
    · next hk => exact hk ▸ hroom.2
    · exact Nat.zero_le _
  · exact h

/-- The peer takes a frame. -/
theorem arrive (hout : l.outbound = f :: rest) : (l.arrive f rest).Sound := by
  have hwire : ∀ id, (l.outbound.map fun f => f.creditFor id).sum =
      f.creditFor id + (rest.map fun f => f.creditFor id).sum := fun id => by
    rw [hout, List.map_cons, List.sum_cons]
  have hconnection : (l.arrive f rest).connection = l.connection.arrive (f.creditFor 0) := by
    unfold Link.arrive connection CreditLine.arrive
    split
    · split <;> simp_all [Link.limits, Frame.creditFor]
    · simp_all [Link.limits, Frame.creditFor]
  have hstream : ∀ id, id ≠ 0 →
      (l.arrive f rest).stream id = (l.stream id).arrive (f.creditFor id) := by
    intro id hid
    unfold Link.arrive stream CreditLine.arrive
    simp only [hwire, Nat.add_sub_cancel_left]
    by_cases hupdate : f.frameType = .windowUpdate
    · by_cases hzero : f.streamId = 0
      · simp [hupdate, hzero, Link.limits, Frame.creditFor, Ne.symm hid]
      · by_cases hk : id = f.streamId
        · subst hk
          simp [hupdate, hzero, Link.limits, Frame.creditFor]
        · simp [hupdate, hzero, hk, Ne.symm hk, Link.limits, Frame.creditFor]
    · simp [hupdate, Link.limits, Frame.creditFor]
  have hle : ∀ id, f.creditFor id ≤ (l.outbound.map fun f => f.creditFor id).sum := fun id => by
    rw [hwire]
    exact Nat.le_add_right _ _
  have hkept : (l.arrive f rest).endpoint = l.endpoint ∧ (l.arrive f rest).lost = l.lost := by
    unfold Link.arrive
    split <;> exact ⟨rfl, rfl⟩
  exact h.moved hconnection (.arrive (hle 0)) hkept.2 (fun id hid =>
    ⟨_, _, .arrive (hle id), ⟨_, hstream id hid⟩, fun ho => ⟨hkept.1 ▸ ho, hstream id hid⟩⟩)
    (hkept.1 ▸ h.busy)

/-- The reader takes a frame and accepts none of it. -/
theorem dropped (hin : l.inbound = f :: rest) :
    Sound { l with inbound := rest, lost := l.lost + f.dataBytes } := by
  let l' : Link := { l with inbound := rest, lost := l.lost + f.dataBytes }
  have hconnection : l'.connection = l.connection.drop f.dataBytes := by
    simp [l', connection, drop, Link.limits, hin]
  have hstream : ∀ id, l'.stream id = (l.stream id).drop (f.dataOn id) := fun id => by
    simp [l', stream, drop, Link.limits, hin]
  have hle : f.dataBytes ≤ l.connection.inflight := by simp [connection, hin]
  have hle' : ∀ id, f.dataOn id ≤ (l.stream id).inflight := fun id => by simp [stream, hin]
  exact h.moved hconnection (.drop hle) rfl (fun id _ =>
    ⟨_, _, .drop (hle' id), ⟨_, hstream id⟩, fun ho => ⟨ho, hstream id⟩⟩) h.busy

/-- The reader accepts DATA. -/
theorem taken (hin : l.inbound = f :: rest) (hdata : f.frameType = .data)
    (hid : f.streamId ≠ 0) {received : ReceivedData} {table : StreamTable}
    (hreceive : l.endpoint.table.receiveData f.streamId f.payload f.endStream =
      .ok (received, table))
    {tx : List WriterMessage}
    (howed : ∀ k, { l.endpoint with table := table, tx := tx }.owed k =
      l.endpoint.owed k + (if k = 0 then received.connectionUpdate else 0) +
        (if k = f.streamId then received.streamUpdate else 0)) :
    Sound { l with endpoint := { l.endpoint with table := table, tx := tx }, inbound := rest } := by
  obtain ⟨s, hs, -, hconnectionRoom, hstreamRoom, hconnectionUpdate, hstreamUpdate, hlimits,
    hconnectionWindow, hstreams⟩ := StreamTable.receiveData_spec hreceive
  have hbytes : f.dataBytes = f.payload.length := by simp [Frame.dataBytes, hdata]
  let n := f.payload.length
  let l' : Link :=
    { l with endpoint := { l.endpoint with table := table, tx := tx }, inbound := rest }
  have hconnection : l'.connection = l.connection.take n n := by
    simp [l', n, connection, take, Link.limits, hin, hlimits, howed, hconnectionUpdate,
      hbytes, hconnectionWindow, unannounced, Ne.symm hid]
  have hle : n ≤ l.connection.inflight := by simp [n, connection, hin, hbytes]
  refine h.moved hconnection (.take hle hconnectionRoom le_rfl) (by simp) (fun k hk => ?_) h.busy
  by_cases hother : k = f.streamId
  · subst hother
    have hle' : n ≤ (l.stream f.streamId).inflight := by
      simp [n, stream, hin, Frame.dataOn, hbytes]
    have hupdate : received.streamUpdate ≤ n := by
      rw [hstreamUpdate]
      split
      · exact Nat.zero_le _
      · exact le_rfl
    have hline : l'.stream f.streamId =
        { (l.stream f.streamId).take n received.streamUpdate with
          window := (l'.stream f.streamId).window } := by
      simp [l', n, stream, take, Link.limits, hin, hlimits, howed, unannounced, Frame.dataOn,
        hbytes, hid]
    refine ⟨_, _, .take hle' (stream_window hs ▸ hstreamRoom) hupdate, ⟨_, hline⟩, fun ho => ?_⟩
    obtain ⟨s', hs'⟩ := Option.isSome_iff_exists.mp ho
    have hafter := hstreams _ s' hs'
    rw [if_pos rfl, ← stream_window hs] at hafter
    refine ⟨by rw [hs]; rfl, hline.trans ?_⟩
    rw [stream_window hs', hafter]
    rfl
  · have hline : l'.stream k = { l.stream k with window := (l'.stream k).window } := by
      simp [l', stream, Link.limits, hin, hlimits, howed, unannounced, hk, hother,
        Frame.dataOn, Ne.symm hother]
    refine ⟨_, _, .refl _, ⟨_, hline⟩, fun ho => ?_⟩
    obtain ⟨s', hs'⟩ := Option.isSome_iff_exists.mp ho
    have hold := hstreams k s' hs'
    rw [if_neg hother] at hold
    refine ⟨by rw [hold]; rfl, hline.trans ?_⟩
    rw [stream_window hs', ← stream_window hold]

/-- The reader is told of a credit that was written. -/
theorem granted {id n : ℕ} {credits : List (ℕ × ℕ)}
    (hcredits : l.endpoint.credits = (id, n) :: credits)
    (hrunning : ({ l.endpoint with credits := credits }.onCredit id n).running = true) :
    (l.setEndpoint ({ l.endpoint with credits := credits }.onCredit id n)).Sound := by
  let told : Endpoint := { l.endpoint with credits := credits }
  let c := fun k : ℕ => if k = id then n else 0
  have hunannounced : ∀ k, l.endpoint.unannounced k = c k + told.unannounced k := by
    intro k
    simp only [c, told, unannounced, hcredits, List.map_cons, List.sum_cons, eq_comm (a := id)]
    omega
  have hle : ∀ k, c k ≤ l.endpoint.unannounced k := by
    intro k
    rw [hunannounced]
    exact Nat.le_add_right _ _
  -- a credit for a stream that is gone is forgotten, and there is no window it belongs to
  have hgranted : ∀ table : StreamTable, table.limits = l.endpoint.table.limits →
      table.connectionWindow =
        l.endpoint.table.connectionWindow + (if id = 0 then n else 0) →
      (∀ k s, k ≠ 0 → table.streams.lookup k = some s →
        ∃ old, l.endpoint.table.streams.lookup k = some old ∧
          s.recvWindow = old.recvWindow + (if k = id then n else 0)) →
      (l.setEndpoint { told with table := table }).Sound := by
    intro table hlimits hconnectionWindow hstreams
    let l' := l.setEndpoint { told with table := table }
    have hconnection : l'.connection = l.connection.grant (c 0) := by
      simp only [l', c, told, Link.setEndpoint, connection, grant, Link.limits, hlimits,
        hunannounced, hconnectionWindow, Nat.add_sub_cancel_left, eq_comm (a := id)]
      rfl
    have hline : ∀ k, l'.stream k = { (l.stream k).grant (c k) with
        window := (l'.stream k).window } := by
      intro k
      simp only [l', told, Link.setEndpoint, stream, Link.limits, hlimits, hunannounced,
        grant, Nat.add_sub_cancel_left]
      rfl
    refine h.moved hconnection (.grant (hle 0)) rfl (fun k hk =>
      ⟨_, _, .grant (hle k), ⟨_, hline k⟩, fun ho => ?_⟩) h.busy
    obtain ⟨s, hs⟩ := Option.isSome_iff_exists.mp ho
    obtain ⟨old, hold, hwindow⟩ := hstreams k s hk hs
    refine ⟨by rw [hold]; rfl, (hline k).trans ?_⟩
    rw [stream_window hs, hwindow, ← stream_window hold]
    rfl
  revert hrunning
  unfold onCredit
  cases hgrant : l.endpoint.table.grantCredit id n with
  | ok table =>
    intro _
    obtain ⟨hlimits, hconnectionWindow, hstreams⟩ := StreamTable.grantCredit_spec hgrant
    exact hgranted table hlimits hconnectionWindow hstreams
  | error error =>
    cases error with
    | stream =>
      intro _
      obtain ⟨hid, hgone⟩ := StreamTable.grantCredit_stream hgrant
      refine hgranted l.endpoint.table rfl (by simp [hid]) fun k s _ hs => ⟨s, hs, ?_⟩
      have hk : k ≠ id := by
        rintro rfl
        rw [hgone] at hs
        exact absurd hs (by simp)
      rw [if_neg hk, Nat.add_zero]
    | _ => exact fun hrunning => absurd hrunning (by simp [fail])

/-- The writer has written a frame. -/
theorem write (hwriting : l.endpoint.writing = some f) :
    Sound { l.setEndpoint (l.endpoint.written f) with outbound := l.outbound ++ [f] } := by
  obtain ⟨htable, hnone, howed, hunannounced⟩ :=
    l.endpoint.written_spec hwriting (h.busy (by rw [hwriting]; rfl))
  let l' : Link := { l.setEndpoint (l.endpoint.written f) with outbound := l.outbound ++ [f] }
  have hconnection : l'.connection = l.connection.write (f.creditFor 0) := by
    simp [l', Link.setEndpoint, connection, CreditLine.write, Link.limits, htable, howed,
      hunannounced]
  have hstream : ∀ id, l'.stream id = (l.stream id).write (f.creditFor id) := fun id => by
    simp [l', Link.setEndpoint, stream, CreditLine.write, Link.limits, htable, howed, hunannounced]
  have hle : ∀ id, f.creditFor id ≤ l.endpoint.owed id := fun id => by
    rw [howed]
    exact Nat.le_add_left _ _
  refine h.moved hconnection (.write (hle 0)) rfl (fun id _ => ?_) fun hw => ?_
  · exact ⟨_, _, .write (hle id), ⟨_, hstream id⟩, fun ho => ⟨htable ▸ ho, hstream id⟩⟩
  · change (l.endpoint.written f).writing.isSome at hw
    rw [hnone] at hw
    exact absurd hw (by simp)

/-- The writer chooses a frame. -/
theorem select (hwriting : l.endpoint.writing = none)
    (hannouncing : l.endpoint.announcing = none) : (l.setEndpoint l.endpoint.select).Sound := by
  have hsame : l.endpoint.select.table = l.endpoint.table ∧
      l.endpoint.select.credits = l.endpoint.credits ∧ l.endpoint.select.announcing = none := by
    unfold Endpoint.select
    split <;> exact ⟨rfl, rfl, hannouncing⟩
  obtain ⟨htable, hcredits, hnone⟩ := hsame
  refine h.setEndpoint (l.endpoint.owed_select hwriting) (fun id => ?_) ?_ fun _ => hnone
  · simp only [Endpoint.unannounced, hcredits, hnone, hannouncing]
  · rw [htable]
    exact .refl _

/-- The writer tells the reader of a credit. -/
theorem announce {credit : ℕ × ℕ} (hannouncing : l.endpoint.announcing = some credit) :
    (l.setEndpoint { l.endpoint with
      announcing := none, credits := l.endpoint.credits ++ [credit] }).Sound := by
  refine h.setEndpoint (fun _ => rfl) (fun id => ?_) (.refl _) fun _ => rfl
  simp [unannounced, hannouncing]

/-- The reader takes a frame. -/
theorem read {decode : List UInt8 → Option RpcOpen}
    {contentLength : List UInt8 → Option ℕ} {v : Verdict} (hin : l.inbound = f :: rest)
    (hrunning : (l.read decode contentLength v f rest).endpoint.running = true) :
    (l.read decode contentLength v f rest).Sound := by
  change (l.endpoint.onFrame decode contentLength f v).running = true at hrunning
  by_cases hdata : f.frameType = .data
  · obtain ⟨u, hcheck⟩ : ∃ u, f.check l.endpoint.table.limits.maxFramePayloadBytes = .ok u := by
      cases hcheck : f.check l.endpoint.table.limits.maxFramePayloadBytes with
      | ok u => exact ⟨u, rfl⟩
      | error e => simp [onFrame, hcheck, fail] at hrunning
    have hid : f.streamId ≠ 0 := Frame.streamId_ne_zero hdata hcheck
    have honData : l.endpoint.onFrame decode contentLength f v = l.endpoint.onData f v := by
      simp only [onFrame, hcheck, hdata]
    rw [honData] at hrunning
    show Link.Sound { l with
      endpoint := l.endpoint.onFrame decode contentLength f v
      inbound := rest
      lost := l.lost + if l.accepts f then 0 else f.dataBytes }
    rw [honData]
    unfold Link.accepts
    revert hrunning
    unfold onData
    simp only
    cases hreceive : l.endpoint.table.receiveData f.streamId f.payload f.endStream with
    | ok result =>
      obtain ⟨received, table⟩ := result
      intro hrunning
      obtain ⟨_, _, hsmall, _, _, hconnectionUpdate, hstreamUpdate, _⟩ :=
        StreamTable.receiveData_spec hreceive
      have hle : received.streamUpdate ≤ received.connectionUpdate := by
        rw [hstreamUpdate, hconnectionUpdate]
        split
        · exact Nat.zero_le _
        · exact le_rfl
      obtain ⟨tx, heq, howed⟩ := returnCredit_of_running (hconnectionUpdate ▸ hsmall) hle hrunning
      simp only [heq, Except.toBool, if_true, Nat.add_zero]
      exact h.taken hin hdata hid hreceive howed
    | error error =>
      simp only [Except.toBool, Bool.false_eq_true, if_false]
      split
      · intro hrunning
        exact (h.dropped hin).quiet (closed_quiet hrunning)
      · exact fun hrunning => absurd hrunning (by simp [fail])
  · have hnone : f.dataBytes = 0 := by simp [Frame.dataBytes, hdata]
    have hdropped := h.dropped hin
    simp only [hnone] at hdropped
    unfold Link.read
    simp only [hnone, ite_self]
    exact hdropped.quiet (onFrame_quiet hdata hrunning)

/-- As long as the connection runs, every step keeps the credit lines in order. -/
theorem step (decode : List UInt8 → Option RpcOpen) (contentLength : List UInt8 → Option ℕ)
    (a : Action) (hrunning : (l.step decode contentLength a).endpoint.running = true) :
    (l.step decode contentLength a).Sound := by
  revert hrunning
  fun_cases Link.step l decode contentLength a with
  | case2 _ id notice => exact fun _ => h.push notice.plain.1
  | case3 => exact fun _ => h.push (by simp [Frame.windowUpdate])
  | case4 _ id bytes last => exact fun _ => h.sendData id bytes last
  | case6 _ f rest hout => exact fun _ => h.arrive hout
  | case8 _ v f rest hin => exact h.read hin
  | case10 _ id increment rest hcredits => exact h.granted hcredits
  | case11 _ t => exact fun hrunning => h.quiet (onTask_quiet t hrunning)
  | case12 _ message rest htx =>
    exact fun hrunning => h.quiet (applyWriterMessage_quiet htx hrunning)
  | case14 _ hfree =>
    simp only [writerFree, Bool.and_eq_true, Option.isNone_iff_eq_none] at hfree
    exact fun _ => h.select hfree.1 hfree.2
  | case17 _ f hwriting => exact fun _ => h.write hwriting
  | case18 _ credit hannouncing => exact fun _ => h.announce hannouncing
  | _ => exact fun _ => h

end

end Sound

end Link

end Netbaiot.Mux
