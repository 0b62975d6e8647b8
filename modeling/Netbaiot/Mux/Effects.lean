import Netbaiot.Mux.Windows

/-!
# What the reader and the writer do to credit

As long as the connection runs, everything the reader does leaves the windows and the queued
credit alone, except for DATA it accepts and credit it restores.
-/

namespace Netbaiot.Mux

open Lib

variable {f : Frame} {id : ℕ} {message : WriterMessage} {notice : Notice} {v : Verdict}

/-- Neither windows nor credit changed. -/
structure Quiet (e e' : Endpoint) : Prop where
  owed : ∀ id, e'.owed id = e.owed id
  writing : e'.writing = e.writing
  announcing : e'.announcing = e.announcing
  credits : e'.credits = e.credits
  windows : SameWindows e.table e'.table

namespace Quiet

variable {e e' e'' : Endpoint}

theorem refl (e : Endpoint) : Quiet e e := ⟨fun _ => rfl, rfl, rfl, rfl, .refl _⟩

theorem trans (h : Quiet e e') (h' : Quiet e' e'') : Quiet e e'' :=
  ⟨fun id => (h'.owed id).trans (h.owed id), h'.writing.trans h.writing,
    h'.announcing.trans h.announcing, h'.credits.trans h.credits, h.windows.trans h'.windows⟩

theorem unannounced (h : Quiet e e') (id : ℕ) : e'.unannounced id = e.unannounced id := by
  rw [Endpoint.unannounced, Endpoint.unannounced, h.announcing, h.credits]

/-- Only the table changed. -/
theorem of_table {table : StreamTable} (h : SameWindows e.table table) :
    Quiet e { e with table := table } :=
  ⟨fun _ => rfl, rfl, rfl, rfl, h⟩

end Quiet

@[simp]
theorem Notice.creditFor_frame (notice : Notice) (id k : ℕ) :
    (notice.frame id).creditFor k = 0 := by
  simp [Notice.frame, Frame.creditFor, notice.plain.2]

theorem Frame.creditFor_data (h : f.frameType = .data) (id : ℕ) : f.creditFor id = 0 := by
  simp [Frame.creditFor, h]

theorem Frame.new_eq_ok {max : ℕ} {ty : RpcFrameType} {last : Bool} {payload : List UInt8}
    (h : Frame.new id ty last payload max = .ok f) : f = ⟨id, ty, last, payload⟩ := by
  unfold Frame.new at h
  split at h
  · exact absurd h (by simp)
  · simp only at h
    split at h
    · exact (Except.ok.inj h).symm
    · exact absurd h (by simp)

namespace Endpoint

variable {e e' : Endpoint}

/-- Another message is queued. -/
theorem owed_queue (e : Endpoint) (message : WriterMessage) (id : ℕ) :
    { e with tx := e.tx ++ [message] }.owed id = e.owed id + message.creditFor id := by
  simp only [owed, List.map_append, List.sum_append, List.map_cons, List.map_nil, List.sum_cons,
    List.sum_nil]
  omega

theorem queue_quiet (e : Endpoint) (h : ∀ id, message.creditFor id = 0) :
    Quiet e { e with tx := e.tx ++ [message] } :=
  ⟨fun id => by rw [owed_queue, h, Nat.add_zero], rfl, rfl, rfl, .refl _⟩

theorem offer_quiet (e : Endpoint) (h : ∀ id, message.creditFor id = 0) :
    Quiet e (e.offer message) := by
  unfold offer
  split
  · exact e.queue_quiet h
  · exact .refl e

theorem post_of_running (h : (e.post message).running = true) :
    e.running = true ∧ e.post message = { e with tx := e.tx ++ [message] } := by
  unfold post at h ⊢
  split at h
  · next hroom =>
    rw [if_pos hroom]
    exact ⟨h, rfl⟩
  · exact absurd h (by simp [fail])

/-- While the connection runs, a frame that is sent is queued. -/
theorem send_of_running (h : (e.send f).running = true) :
    e.running = true ∧ e.send f = { e with tx := e.tx ++ [.frame f] } := by
  unfold send at h ⊢
  cases hframe : Frame.new f.streamId f.frameType f.endStream f.payload
      e.table.limits.maxFramePayloadBytes with
  | error error => simp [hframe, fail] at h
  | ok frame =>
    simp only [hframe] at h ⊢
    obtain rfl := Frame.new_eq_ok hframe
    exact post_of_running h

theorem notice_quiet (h : (e.send (notice.frame id)).running = true) :
    Quiet e (e.send (notice.frame id)) := by
  rw [(send_of_running h).2]
  exact e.queue_quiet fun k => notice.creditFor_frame id k

theorem closeStream_quiet (e : Endpoint) (id : ℕ) : Quiet e (e.closeStream id) := by
  have hfold : ∀ (ids : List ℕ) (e : Endpoint),
      Quiet e (ids.foldl (fun e child => e.offer (.reset child)) e) := by
    intro ids
    induction ids with
    | nil => exact fun e => .refl e
    | cons child rest ih => exact fun e => (e.offer_quiet fun _ => rfl).trans (ih _)
  unfold closeStream
  cases hreset : e.table.reset id with
  | error error => exact e.offer_quiet fun _ => rfl
  | ok result =>
    exact (Quiet.of_table (StreamTable.reset_sameWindows hreset)).trans (hfold _ _)

/-- A stream is closed and the peer is told. -/
theorem closed_quiet (h : ((e.closeStream id).send (notice.frame id)).running = true) :
    Quiet e ((e.closeStream id).send (notice.frame id)) :=
  (e.closeStream_quiet id).trans (notice_quiet h)

/-- The table changes and the peer is told. -/
theorem told_quiet {table : StreamTable} (hwindows : SameWindows e.table table)
    (h : ({ e with table := table }.send (notice.frame id)).running = true) :
    Quiet e ({ e with table := table }.send (notice.frame id)) :=
  (Quiet.of_table hwindows).trans (notice_quiet h)

theorem fail_quiet (h : e'.fail.running = true) : Quiet e e'.fail := absurd h (by simp [fail])

theorem onOpen_quiet {decode : List UInt8 → Option RpcOpen}
    (h : (e.onOpen decode f v).running = true) : Quiet e (e.onOpen decode f v) := by
  have hopen : ∀ request outcome table, e.table.openPeer f.streamId request = (outcome, table) →
      SameWindows e.table table := by
    intro request outcome table hresult
    have hsame := e.table.openPeer_sameWindows f.streamId request
    rwa [hresult] at hsame
  revert h
  fun_cases onOpen e decode f v with
  | case1 | case6 | case8 => exact fail_quiet
  | case2 id request _ _ _ error table hresult =>
    unfold refuse
    split
    · exact told_quiet (hopen _ _ _ hresult)
    · exact fail_quiet
  | case3 id request _ _ _ table hresult => exact fun _ => .of_table (hopen _ _ _ hresult)
  | case4 id request _ _ _ table hresult => exact told_quiet (hopen _ _ _ hresult)
  | case5 id request _ _ _ table hresult =>
    exact told_quiet ((hopen _ _ _ hresult).trans (table.closeParent_sameWindows _))
  -- a stream that is not admitted consumes its number
  | case7 id request _ _ _ table hrefuse =>
    exact told_quiet (StreamTable.refusePeer_sameWindows hrefuse)
  | case9 id _ _ table hrefuse => exact told_quiet (StreamTable.refusePeer_sameWindows hrefuse)

theorem onResponse_quiet {contentLength : List UInt8 → Option ℕ}
    (h : (e.onResponse contentLength f v).running = true) :
    Quiet e (e.onResponse contentLength f v) := by
  revert h
  fun_cases onResponse e contentLength f v with
  | case1 | case3 => exact closed_quiet
  | case2 => exact notice_quiet
  | case4 => exact fail_quiet
  | case5 id expected _ _ marked hmark e₁ _ received table hreceive =>
    -- an empty frame takes nothing off the windows
    obtain ⟨stream, hstream, -, -, -, -, -, hlimits, hconnection, hstreams⟩ :=
      StreamTable.receiveData_spec hreceive
    have hsame : SameWindows marked table := by
      refine ⟨hlimits, hconnection, fun k s hs => ?_⟩
      have hk := hstreams k s hs
      split at hk
      · next hid => exact .inr ⟨stream, hid ▸ hstream, hk.symm⟩
      · exact .inr ⟨s, hk, rfl⟩
    exact fun _ => .of_table ((StreamTable.markResponse_sameWindows hmark).trans hsame)
  | case6 id expected _ _ marked hmark =>
    exact fun h => (Quiet.of_table (StreamTable.markResponse_sameWindows hmark)).trans
      (closed_quiet h)
  | case7 id expected _ _ marked hmark =>
    exact fun _ => .of_table (StreamTable.markResponse_sameWindows hmark)

theorem onTask_quiet (t : Task) (h : (e.onTask t).running = true) : Quiet e (e.onTask t) := by
  revert h
  fun_cases onTask e t with
  | case1 request id table hopen =>
    exact fun _ => .of_table (StreamTable.openLocal_sameWindows hopen)
  | case2 | case4 | case6 => exact fun _ => .refl e
  | case3 id table hmark => exact fun _ => .of_table (StreamTable.markLocalEnd_sameWindows hmark)
  | case5 id children table hreset =>
    exact fun _ => .of_table (StreamTable.reset_sameWindows hreset)
  | case7 id => exact fun _ => e.closeStream_quiet id
  | case8 id notice => exact notice_quiet
  | case9 => exact fun _ => e.offer_quiet fun _ => rfl
  | case10 | case11 => exact fun _ => .of_table (.of_eq rfl rfl rfl)

/-- A frame that is not DATA leaves windows and credit alone. -/
theorem onFrame_quiet {decode : List UInt8 → Option RpcOpen} {contentLength : List UInt8 → Option ℕ}
    (hdata : f.frameType ≠ .data) (h : (e.onFrame decode contentLength f v).running = true) :
    Quiet e (e.onFrame decode contentLength f v) := by
  revert h
  fun_cases onFrame e decode contentLength f v with
  | case2 => exact onOpen_quiet
  | case3 _ htype => exact absurd htype hdata
  | case4 => exact onResponse_quiet
  | case6 =>
    intro h
    rw [(post_of_running h).2]
    exact e.queue_quiet fun _ => rfl
  | case7 | case8 => exact notice_quiet
  | case9 | case11 => exact fun _ => e.closeStream_quiet _
  | case13 | case15 => exact fun _ => .refl e
  | _ => exact fail_quiet

/-- While the connection runs, accepted DATA is answered with credit for the connection and,
unless it was the last, for its stream. -/
theorem returnCredit_of_running {received : ReceivedData}
    (hsmall : received.connectionUpdate < 2 ^ 32)
    (hstream : received.streamUpdate ≤ received.connectionUpdate)
    (h : (e.returnCredit id received).running = true) :
    ∃ tx, e.returnCredit id received = { e with tx := tx } ∧
      ∀ k, { e with tx := tx }.owed k =
        e.owed k + (if k = 0 then received.connectionUpdate else 0) +
        (if k = id then received.streamUpdate else 0) := by
  have hcredit : ∀ id n k : ℕ, n < 2 ^ 32 →
      (WriterMessage.frame (.windowUpdate id n)).creditFor k = if k = id then n else 0 := by
    intro id n k hn
    simp only [WriterMessage.creditFor, Frame.creditFor, Frame.windowUpdate, Frame.increment,
      true_and, eq_comm (a := id)]
    rw [ofBeBytes_beBytes hn]
  have hupdate := Nat.lt_of_le_of_lt hstream hsmall
  revert h
  unfold returnCredit
  split
  · let e₁ : Endpoint :=
      { e with tx := e.tx ++ [.frame (.windowUpdate 0 received.connectionUpdate)] }
    have howed₁ : ∀ k, e₁.owed k = e.owed k + if k = 0 then received.connectionUpdate else 0 :=
      fun k => by rw [owed_queue, hcredit _ _ _ hsmall]
    split
    · intro h
      obtain ⟨hfirst, hsecond⟩ := send_of_running h
      rw [hsecond, (send_of_running hfirst).2]
      refine ⟨e₁.tx ++ [.frame (.windowUpdate id received.streamUpdate)], rfl, fun k => ?_⟩
      show ({ e₁ with tx := e₁.tx ++ [_] } : Endpoint).owed k = _
      rw [owed_queue, howed₁, hcredit _ _ _ hupdate]
    · next hnone =>
      intro h
      have hzero : received.streamUpdate = 0 := Nat.eq_zero_of_not_pos hnone
      rw [(send_of_running h).2]
      refine ⟨e₁.tx, rfl, fun k => ?_⟩
      show e₁.owed k = _
      rw [howed₁, hzero]
      simp
  · next hnone =>
    intro _
    have hzero : received.connectionUpdate = 0 := Nat.eq_zero_of_not_pos hnone
    have hzero' : received.streamUpdate = 0 := by omega
    refine ⟨e.tx, rfl, fun k => ?_⟩
    rw [hzero, hzero']
    simp

/-- The writer takes a message: credit in it is queued at the scheduler. -/
theorem applyWriterMessage_quiet {rest : List WriterMessage} (htx : e.tx = message :: rest)
    (h : (e.applyWriterMessage message rest).running = true) :
    Quiet e (e.applyWriterMessage message rest) := by
  -- everything but a frame leaves the control frames as they are
  have hsame : ∀ scheduler : MuxScheduler, scheduler.control = e.scheduler.control →
      (∀ id, message.creditFor id = 0) →
      Quiet e { e with tx := rest, scheduler := scheduler } := by
    intro scheduler hcontrol hnone
    refine ⟨fun id => ?_, rfl, rfl, rfl, .refl _⟩
    simp only [owed, hcontrol, htx, List.map_cons, List.sum_cons, hnone]
    omega
  revert h
  fun_cases applyWriterMessage e message rest with
  | case1 e₁ frame scheduler hqueue =>
    refine fun _ => ⟨fun id => ?_, rfl, rfl, rfl, .refl _⟩
    simp only [owed, MuxScheduler.queueControl_control hqueue, e₁, htx, List.map_append,
      List.sum_append, List.map_cons, List.map_nil, List.sum_cons, List.sum_nil,
      WriterMessage.creditFor]
    omega
  | case3 e₁ id c bytes scheduler hqueue =>
    exact fun _ => hsame scheduler (MuxScheduler.queueBody_control hqueue) fun _ => rfl
  | case5 e₁ id increment scheduler hupdate =>
    exact fun _ => hsame scheduler (MuxScheduler.windowUpdate_control hupdate) fun _ => rfl
  | case6 => exact fun _ => hsame e.scheduler rfl fun _ => rfl
  | case8 e₁ id => exact fun _ => hsame (e.scheduler.reset id) rfl fun _ => rfl
  | _ => exact fail_quiet

/-- The writer chooses a frame: credit in it is being written. -/
theorem owed_select (e : Endpoint) (hwriting : e.writing = none) (id : ℕ) :
    e.select.owed id = e.owed id := by
  have hspec := e.scheduler.nextFrame_spec
  unfold select
  rcases hnext : e.scheduler.nextFrame with ⟨_ | f, scheduler⟩
  · rw [hnext] at hspec
    simp only [owed, show scheduler.control = e.scheduler.control from hspec]
  · rw [hnext] at hspec
    rcases hspec with hcontrol | ⟨hcontrol, hdata⟩
    · simp only [owed, hcontrol, hwriting, List.map_cons, List.sum_cons, Option.map_some,
        Option.map_none, Option.getD_some, Option.getD_none]
      omega
    · simp only [owed, hcontrol, hwriting, Option.map_some, Option.map_none, Option.getD_some,
        Option.getD_none, Frame.creditFor_data hdata]

/-- A frame was written: its credit is no longer queued, and is announced. -/
theorem written_spec (e : Endpoint) (hwriting : e.writing = some f) (hfree : e.announcing = none) :
    (e.written f).table = e.table ∧ (e.written f).writing = none ∧
      (∀ id, e.owed id = (e.written f).owed id + f.creditFor id) ∧
      ∀ id, (e.written f).unannounced id = e.unannounced id + f.creditFor id := by
  have hcontrol : (e.written f).scheduler.control = e.scheduler.control ∧
      (e.written f).tx = e.tx ∧ (e.written f).table = e.table ∧ (e.written f).writing = none ∧
      (e.written f).credits = e.credits ∧ (e.written f).announcing =
        if f.frameType = .windowUpdate then some (f.streamId, f.increment) else none := by
    unfold written
    split <;> split <;> simp [MuxScheduler.reset, hfree]
  obtain ⟨hcontrol, htx, htable, hnone, hcredits, hannouncing⟩ := hcontrol
  refine ⟨htable, hnone, fun id => ?_, fun id => ?_⟩
  · simp only [owed, hcontrol, htx, hnone, hwriting, Option.map_some, Option.map_none,
      Option.getD_some, Option.getD_none]
    omega
  · simp only [unannounced, hcredits, hannouncing, hfree, Option.map_none, Option.getD_none,
      Frame.creditFor]
    split
    · next hupdate => simp [hupdate]
    · next hupdate => simp [hupdate]

end Endpoint

end Netbaiot.Mux
