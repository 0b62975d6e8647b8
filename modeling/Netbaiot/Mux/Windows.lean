import Netbaiot.Mux.Link

/-!
# What the table and the scheduler do to windows and credit

Only accepted DATA and granted credit move a window; every other operation of the table
leaves the windows of the streams it keeps, and gives new streams the initial window.  The
scheduler neither makes nor loses WINDOW_UPDATE frames.
-/

namespace Netbaiot.Mux

open Lib AList

variable {id increment : ℕ} {bytes : List UInt8}

/-- The windows are as before, up to streams that were removed or are new. -/
structure SameWindows (t t' : StreamTable) : Prop where
  limits : t'.limits = t.limits
  connection : t'.connectionWindow = t.connectionWindow
  streams : ∀ id stream, t'.streams.lookup id = some stream →
    stream.recvWindow = t.limits.initialStreamWindowBytes ∨
      ∃ old, t.streams.lookup id = some old ∧ old.recvWindow = stream.recvWindow

namespace SameWindows

variable {t t' t'' : StreamTable}

/-- Nothing changed. -/
theorem refl (t : StreamTable) : SameWindows t t :=
  ⟨rfl, rfl, fun _ stream h => .inr ⟨stream, h, rfl⟩⟩

/-- Two changes that leave the windows, one after the other. -/
theorem trans (h : SameWindows t t') (h' : SameWindows t' t'') : SameWindows t t'' := by
  refine ⟨h'.limits.trans h.limits, h'.connection.trans h.connection, fun id stream hstream => ?_⟩
  rcases h'.streams id stream hstream with hnew | ⟨middle, hmiddle, hwindow⟩
  · exact .inl (by rw [hnew, h.limits])
  · rcases h.streams id middle hmiddle with hnew | ⟨old, hold, hold'⟩
    · exact .inl (hwindow ▸ hnew)
    · exact .inr ⟨old, hold, hold'.trans hwindow⟩

/-- Nothing but numbers, reservations and flags changed. -/
theorem of_eq (hlimits : t'.limits = t.limits)
    (hconnection : t'.connectionWindow = t.connectionWindow) (hstreams : t'.streams = t.streams) :
    SameWindows t t' :=
  ⟨hlimits, hconnection, fun _ stream h => .inr ⟨stream, hstreams ▸ h, rfl⟩⟩

/-- One stream was put into the table, with its own window or as a new one. -/
theorem of_insert {stream : Stream} (hlimits : t'.limits = t.limits)
    (hconnection : t'.connectionWindow = t.connectionWindow)
    (hstreams : t'.streams = t.streams.insert id stream)
    (hstream : stream.recvWindow = t.limits.initialStreamWindowBytes ∨
      ∃ old, t.streams.lookup id = some old ∧ old.recvWindow = stream.recvWindow) :
    SameWindows t t' := by
  refine ⟨hlimits, hconnection, fun k s h => ?_⟩
  rw [hstreams, lookup_insert_eq] at h
  split at h
  · next hk =>
    obtain rfl := Option.some.inj h
    exact hk ▸ hstream
  · exact .inr ⟨s, h, rfl⟩

end SameWindows

namespace StreamTable

variable {t t' : StreamTable} {id : ℕ}

/-- A new stream gets the initial window. -/
theorem insert_sameWindows {request : RpcOpen} {inbound : Bool}
    (h : t.insert id request inbound = .ok t') : SameWindows t t' := by
  simp only [insert, except_bind_eq_ok, check_eq_ok] at h
  obtain ⟨_, _, _, _, _, _, _, _, budget, _, hresult⟩ := h
  obtain rfl := Except.ok.inj hresult
  exact .of_insert rfl rfl rfl (.inl rfl)

/-- Only the number of the refused stream is recorded. -/
theorem refusePeer_sameWindows (h : t.refusePeer id = .ok t') : SameWindows t t' := by
  simp only [refusePeer, except_bind_eq_ok] at h
  obtain ⟨_, _, hresult⟩ := h
  obtain rfl := Except.ok.inj hresult
  exact .of_eq rfl rfl rfl

/-- An OPEN of the peer is in error, refused, or makes a new stream. -/
theorem openPeer_sameWindows (t : StreamTable) (id : ℕ) (request : RpcOpen) :
    SameWindows t (t.openPeer id request).2 := by
  fun_cases openPeer t id request with
  | case1 => exact .refl t
  | case2 considered hrefuse => exact refusePeer_sameWindows hrefuse
  | case3 considered hrefuse admitted hinsert =>
    exact (refusePeer_sameWindows hrefuse).trans (insert_sameWindows hinsert)

/-- A local stream is new. -/
theorem openLocal_sameWindows {request : RpcOpen} (h : t.openLocal request = .ok (id, t')) :
    SameWindows t t' := by
  simp only [openLocal, except_bind_eq_ok, check_eq_ok] at h
  obtain ⟨_, _, opened, hinsert, hresult⟩ := h
  obtain ⟨-, rfl⟩ := Prod.mk.inj (Except.ok.inj hresult)
  exact (insert_sameWindows hinsert).trans (.of_eq rfl rfl rfl)

/-- The streams that remain keep their windows. -/
theorem remove_sameWindows (t : StreamTable) (id : ℕ) : SameWindows t (t.remove id) := by
  unfold remove
  cases t.streams.lookup id with
  | none => exact .refl t
  | some stream =>
    refine ⟨rfl, rfl, fun k s h => ?_⟩
    simp only [lookup_erase_eq] at h
    split at h
    · exact absurd h (by simp)
    · exact .inr ⟨s, h, rfl⟩

/-- One stream is gone. -/
theorem lookup_remove (t : StreamTable) (id k : ℕ) :
    (t.remove id).streams.lookup k = if k = id then none else t.streams.lookup k := by
  unfold remove
  cases hstream : t.streams.lookup id with
  | none =>
    simp only
    split
    · next h => rw [h, hstream]
    · rfl
  | some stream => exact lookup_erase_eq id k t.streams

/-- A stream is removed after its children, one by one. -/
theorem closeParent_sameWindows (t : StreamTable) (id : ℕ) :
    SameWindows t (t.closeParent id).2 := by
  have hfold (children : List ℕ) : ∀ t, SameWindows t (children.foldl remove t) := by
    induction children with
    | nil => exact fun t => .refl t
    | cons child rest ih => exact fun t => (t.remove_sameWindows child).trans (ih _)
  exact (hfold _ t).trans (remove_sameWindows _ id)

/-- A reset closes the stream with its children. -/
theorem reset_sameWindows {children : List ℕ} (h : t.reset id = .ok (children, t')) :
    SameWindows t t' := by
  unfold reset at h
  split at h
  · have : t' = (t.closeParent id).2 := (congrArg Prod.snd (Except.ok.inj h)).symm
    exact this ▸ t.closeParent_sameWindows id
  · exact absurd h (by simp)

/-- The response of a stream is expected in the window it has. -/
theorem markResponse_sameWindows {expected : ℕ} (h : t.markResponse id expected = .ok t') :
    SameWindows t t' := by
  revert h
  fun_cases markResponse t id expected with
  | case3 stream hstream =>
    simp only [except_bind_eq_ok, check_eq_ok]
    rintro ⟨_, _, budget, _, ⟨⟩⟩
    exact .of_insert rfl rfl rfl (.inr ⟨stream, hstream, rfl⟩)
  | _ => rintro ⟨⟩

/-- A stream that has ended on this side is marked, and removed if it is closed. -/
theorem markLocalEnd_sameWindows (h : t.markLocalEnd id = .ok t') : SameWindows t t' := by
  revert h
  fun_cases markLocalEnd t id with
  | case3 stream hstream _ ended =>
    rintro ⟨⟩
    have hended : SameWindows t ended := .of_insert rfl rfl rfl (.inr ⟨stream, hstream, rfl⟩)
    split
    · exact hended.trans (ended.remove_sameWindows id)
    · exact hended
  | _ => rintro ⟨⟩

/-- Accepted DATA fits into both windows and is taken off them; credit is returned for all of
it, and for the stream unless it was the last. -/
theorem receiveData_spec {last : Bool} {received : ReceivedData}
    (h : t.receiveData id bytes last = .ok (received, t')) :
    ∃ stream, t.streams.lookup id = some stream ∧ bytes.length < 2 ^ 32 ∧
      bytes.length ≤ t.connectionWindow ∧ bytes.length ≤ stream.recvWindow ∧
      received.connectionUpdate = bytes.length ∧
      received.streamUpdate = (if last then 0 else bytes.length) ∧
      t'.limits = t.limits ∧ t'.connectionWindow = t.connectionWindow - bytes.length ∧
      ∀ k s, t'.streams.lookup k = some s →
        if k = id then s.recvWindow = stream.recvWindow - bytes.length
        else t.streams.lookup k = some s := by
  revert h
  fun_cases receiveData t id bytes last with
  | case9 stream hstream _ body _ length _ hlength hconnection hwindow =>
    rintro ⟨⟩
    refine ⟨stream, hstream, not_le.mp hlength, not_lt.mp hconnection, not_lt.mp hwindow, rfl,
      rfl, ?_⟩
    have hput : ∀ (new : Stream) (k : ℕ) (s : Stream),
        new.recvWindow = stream.recvWindow - bytes.length →
        (t.streams.insert id new).lookup k = some s →
        if k = id then s.recvWindow = stream.recvWindow - bytes.length
        else t.streams.lookup k = some s := by
      intro new k s hnew hs
      rw [lookup_insert_eq] at hs
      split at hs
      · next hk => rw [if_pos hk, ← Option.some.inj hs, hnew]
      · next hk => rwa [if_neg hk]
    fun_cases accept t id stream body bytes last with
    | case1 window t₁ _ closed t₂ =>
      have hsame := remove_sameWindows t₂ id
      refine ⟨hsame.limits, hsame.connection, fun k s hs => ?_⟩
      rw [lookup_remove] at hs
      split at hs
      · cases hs
      · exact hput closed k s rfl hs
    | case2 | case3 => exact ⟨rfl, rfl, fun k s hs => hput _ k s rfl hs⟩
  | _ => rintro ⟨⟩

/-- Why DATA is refused: its stream or its size is wrong, or it exceeds a window. -/
theorem receiveData_error {last : Bool} {e : MuxError}
    (h : t.receiveData id bytes last = .error e) :
    e = .stream ∨ e = .messageTooLarge ∨
      e = .connection .length ∧ t.connectionWindow < bytes.length ∨
      e = .flowControl ∧
        ∃ stream, t.streams.lookup id = some stream ∧ stream.recvWindow < bytes.length := by
  revert h
  fun_cases receiveData t id bytes last with
  | case4 | case7 =>
    rintro ⟨⟩
    exact .inr (.inl rfl)
  | case5 stream hstream _ body _ length _ hwindow =>
    rintro ⟨⟩
    exact .inr (.inr (.inl ⟨rfl, hwindow⟩))
  | case6 stream hstream _ body _ length _ _ hwindow =>
    rintro ⟨⟩
    exact .inr (.inr (.inr ⟨rfl, stream, hstream, hwindow⟩))
  | case9 => rintro ⟨⟩
  | _ =>
    rintro ⟨⟩
    exact .inl rfl

/-- A granted credit is added to one window. -/
theorem grantCredit_spec (h : t.grantCredit id increment = .ok t') :
    t'.limits = t.limits ∧
      t'.connectionWindow = t.connectionWindow + (if id = 0 then increment else 0) ∧
      ∀ k s, k ≠ 0 → t'.streams.lookup k = some s → ∃ old, t.streams.lookup k = some old ∧
        s.recvWindow = old.recvWindow + (if k = id then increment else 0) := by
  revert h
  fun_cases grantCredit t id increment with
  | case2 _ hid =>
    rintro ⟨⟩
    refine ⟨rfl, by rw [if_pos hid], fun k s hk hs => ⟨s, hs, ?_⟩⟩
    rw [hid, if_neg hk, Nat.add_zero]
  | case5 hincrement hid stream hstream =>
    rintro ⟨⟩
    refine ⟨rfl, by rw [if_neg hid, Nat.add_zero], fun k s _ hs => ?_⟩
    rw [lookup_insert_eq] at hs
    split at hs
    · next hk =>
      subst hk
      exact ⟨stream, hstream, by rw [if_pos rfl, ← Option.some.inj hs]⟩
    · next hk => exact ⟨s, hs, by rw [if_neg hk, Nat.add_zero]⟩
  | _ => rintro ⟨⟩

/-- A credit is forgotten only if its stream is gone. -/
theorem grantCredit_stream (h : t.grantCredit id increment = .error .stream) :
    id ≠ 0 ∧ t.streams.lookup id = none := by
  revert h
  fun_cases grantCredit t id increment with
  | case4 _ hid hstream => exact fun _ => ⟨hid, hstream⟩
  | _ => rintro ⟨⟩

end StreamTable

namespace MuxScheduler

variable {s s' : MuxScheduler} {c : DataClass}

/-- Queues of DATA are apart from the control frames. -/
@[simp]
theorem control_setQueue (s : MuxScheduler) (c : DataClass) (ids : List ℕ) :
    (s.setQueue c ids).control = s.control := by
  cases c <;> rfl

/-- Streams without credit are apart from the control frames. -/
@[simp]
theorem control_trackUncredited (s : MuxScheduler) (id : ℕ) :
    (s.trackUncredited id).control = s.control := by
  unfold trackUncredited
  split <;> rfl

/-- Cutting a frame makes DATA and leaves the control frames alone. -/
theorem emit_spec (s : MuxScheduler) (c : DataClass) (id : ℕ) (body : OutboundBody) (window n : ℕ) :
    (s.emit c id body window n).2.control = s.control ∧
      ∀ f, (s.emit c id body window n).1 = some f → f.frameType = .data := by
  constructor
  · unfold emit
    simp only
    split <;> split <;> simp only [control_setQueue]
  · intro f hf
    simp only [emit, Frame.new] at hf
    split at hf
    · exact absurd hf (by simp [Except.toOption])
    · split at hf
      · obtain rfl := Option.some.inj hf
        rfl
      · exact absurd hf (by simp [Except.toOption])

/-- Streams are passed over until one has a frame of DATA. -/
theorem takeLoop_spec (c : DataClass) (turns : ℕ) (s : MuxScheduler) :
    (takeLoop c turns s).2.control = s.control ∧
      ∀ f, (takeLoop c turns s).1 = some f → f.frameType = .data := by
  fun_induction takeLoop c turns s with
  | case1 | case2 => exact ⟨rfl, nofun⟩
  | case3 _ _ _ _ _ _ _ ih | case4 _ _ _ _ _ _ _ _ _ ih | case5 _ _ _ _ _ _ _ _ _ _ ih =>
    exact ⟨ih.1.trans (control_setQueue ..), ih.2⟩
  | case6 turns s id rest _ waiting body _ _ window _ remaining n _ ih =>
    exact ⟨ih.1.trans ((control_trackUncredited ..).trans (control_setQueue ..)), ih.2⟩
  | case7 turns s id rest _ skipped body _ _ window _ remaining n =>
    obtain ⟨hcontrol, hdata⟩ := (skipped.trackUncredited id).emit_spec c id body window n
    exact ⟨hcontrol.trans ((control_trackUncredited ..).trans (control_setQueue ..)), hdata⟩

/-- Every stream of a class has one turn. -/
theorem takeData_spec (s : MuxScheduler) (c : DataClass) :
    (s.takeData c).2.control = s.control ∧
      ∀ f, (s.takeData c).1 = some f → f.frameType = .data :=
  takeLoop_spec c (s.queue c).length s

/-- The classes take turns; none touches the control frames. -/
theorem dataTurns_spec (turns : ℕ) (s : MuxScheduler) :
    (dataTurns turns s).2.control = s.control ∧
      ∀ f, (dataTurns turns s).1 = some f → f.frameType = .data := by
  fun_induction dataTurns turns s with
  | case1 => exact ⟨rfl, nofun⟩
  | case2 turns s c turned frame next htake =>
    have htaken := takeData_spec turned c
    rwa [htake] at htaken
  | case3 turns s c turned next htake ih =>
    have hcontrol := (takeData_spec turned c).1
    rw [htake] at hcontrol
    exact ⟨ih.1.trans hcontrol, ih.2⟩

/-- The next frame is a control frame that leaves the queue, or DATA. -/
theorem nextFrame_spec (s : MuxScheduler) :
    match s.nextFrame with
    | (none, s') => s'.control = s.control
    | (some f, s') =>
      s.control = f :: s'.control ∨ s'.control = s.control ∧ f.frameType = .data := by
  have hturns := dataTurns_spec 5 s
  fun_cases nextFrame s with
  | case1 frame rest hqueue => exact .inl hqueue
  | case2 _ _ _ _ frame next hdata =>
    rw [hdata] at hturns
    exact .inr ⟨hturns.1, hturns.2 frame rfl⟩
  | case3 _ _ _ _ next hnone frame rest hqueue =>
    rw [hnone] at hturns
    exact .inl (hturns.1.symm.trans hqueue)
  | case4 _ _ _ _ next hnone =>
    rw [hnone] at hturns
    exact hturns.1
  | case5 =>
    rcases hdata : dataTurns 5 s with ⟨_ | f, next⟩
    · rw [hdata] at hturns
      exact hturns.1
    · rw [hdata] at hturns
      exact .inr ⟨hturns.1, hturns.2 f rfl⟩

/-- A control frame is queued behind the others. -/
theorem queueControl_control {frame : Frame} (h : s.queueControl frame = .ok s') :
    s'.control = s.control ++ [frame] := by
  revert h
  fun_cases queueControl s frame with
  | case1 => rintro ⟨⟩
  | case2 =>
    rintro ⟨⟩
    rfl

/-- A body is queued as DATA. -/
theorem queueBody_control (h : s.queueBody id c bytes = .ok s') : s'.control = s.control := by
  revert h
  fun_cases queueBody s id c bytes with
  | case3 =>
    rintro ⟨⟩
    exact control_setQueue _ _ _
  | _ => rintro ⟨⟩

/-- Credit of the peer lets DATA go and queues nothing. -/
theorem windowUpdate_control (h : s.windowUpdate id increment = .ok s') :
    s'.control = s.control := by
  revert h
  fun_cases windowUpdate s id increment with
  | case2 | case5 =>
    rintro ⟨⟩
    rfl
  | _ => rintro ⟨⟩

end MuxScheduler

end Netbaiot.Mux
