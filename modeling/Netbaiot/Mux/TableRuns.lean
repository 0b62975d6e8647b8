import Netbaiot.Mux.Windows

/-!
# Stream tables that share a budget

Whole runs of any number of stream tables over one reassembly budget, with arguments as hostile
as a peer likes.  A table is traced by the numbers it considered and allocated, by the streams
that were opened under a provider or subscription, and by those that were ended locally.
-/

namespace Netbaiot.Mux

open Lib AList StreamTable

/-- Streams of these kinds are closed together with those that were opened under them. -/
def StreamKind.carries (kind : StreamKind) : Bool := kind = .provider ∨ kind = .eventSubscription

/-- The declared size of the body that is being received on a stream. -/
def Stream.held (s : Stream) : ℕ := (s.body.map ReceiveBody.expected).getD 0

/-- The declared sizes of all bodies that are being received. -/
def StreamTable.declared (t : StreamTable) : ℕ := t.streams.total fun _ s => s.held

inductive Call where
  | openLocal (request : RpcOpen)
  | openPeer (id : ℕ) (request : RpcOpen)
  | refusePeer (id : ℕ)
  | receiveData (id : ℕ) (bytes : List UInt8) (last : Bool)
  | grantCredit (id increment : ℕ)
  | markResponse (id expected : ℕ)
  | markLocalEnd (id : ℕ)
  | closeParent (id : ℕ)
  | reset (id : ℕ)
  | goaway

/-- A table with its past, newest first. -/
structure TracedTable extends StreamTable where
  considered : List ℕ
  allocated : List ℕ
  /-- Streams with the provider or subscription they were opened under. -/
  under : List (ℕ × ℕ)
  ended : List ℕ

namespace TracedTable

/-- The entry for a stream that is opened under one that carries others. -/
def linked (c : TracedTable) (id : ℕ) (request : RpcOpen) : List (ℕ × ℕ) :=
  (request.parent.filter fun parent => (c.streams.lookup parent).any (·.kind.carries)).toList.map
    (id, ·)

/-- One call, accepted or rejected. -/
def perform (c : TracedTable) : Call → TracedTable
  | .openLocal request =>
      match c.openLocal request with
      | .error _ => c
      | .ok (id, t) =>
          { c with
            toStreamTable := t
            allocated := id :: c.allocated
            under := c.linked id request ++ c.under }
  | .openPeer id request =>
      match c.refusePeer id, c.openPeer id request with
      | .error _, _ => c
      | .ok _, (.error _, t) => { c with toStreamTable := t, considered := id :: c.considered }
      | .ok _, (.ok _, t) =>
          { c with
            toStreamTable := t
            considered := id :: c.considered
            under := c.linked id request ++ c.under }
  | .refusePeer id =>
      match c.refusePeer id with
      | .error _ => c
      | .ok t => { c with toStreamTable := t, considered := id :: c.considered }
  | .receiveData id bytes last =>
      match c.receiveData id bytes last with
      | .error _ => c
      | .ok (_, t) => { c with toStreamTable := t }
  | .grantCredit id increment =>
      match c.grantCredit id increment with
      | .error _ => c
      | .ok t => { c with toStreamTable := t }
  | .markResponse id expected =>
      match c.markResponse id expected with
      | .error _ => c
      | .ok t => { c with toStreamTable := t }
  | .markLocalEnd id =>
      match c.markLocalEnd id with
      | .error _ => c
      | .ok t => { c with toStreamTable := t, ended := id :: c.ended }
  | .closeParent id => { c with toStreamTable := (c.closeParent id).2 }
  | .reset id =>
      match c.reset id with
      | .error _ => c
      | .ok (_, t) => { c with toStreamTable := t }
  | .goaway => { c with toStreamTable := c.goaway }

end TracedTable

/-- The tables of all connections. -/
structure Sharing where
  budget : ReassemblyBudget
  tables : Table ℕ TracedTable

inductive Sharing.Action where
  | connect (n : ℕ) (side : Initiator) (limits : RpcLimits) (connectionBudget : ℕ)
  | call (n : ℕ) (call : Call)
  | disconnect (n : ℕ)

/-- A call finds the budget as the other tables left it; a dropped table drops its bodies. -/
def Sharing.step (s : Sharing) : Action → Sharing
  | .connect n side limits connectionBudget =>
      match s.tables.lookup n, new side limits connectionBudget s.budget with
      | none, .ok t => { s with tables := s.tables.insert n ⟨t, [], [], [], []⟩ }
      | _, _ => s
  | .call n call =>
      match s.tables.lookup n with
      | none => s
      | some c =>
          let c := { c with globalBudget := s.budget }.perform call
          ⟨c.globalBudget, s.tables.insert n c⟩
  | .disconnect n =>
      match s.tables.lookup n with
      | none => s
      | some c => ⟨s.budget.release c.declared, s.tables.erase n⟩

/-! ## One table -/

/-- A window within its initial size and a body within its declared one. -/
def Stream.Bounded (limits : RpcLimits) (s : Stream) : Prop :=
  s.recvWindow ≤ limits.initialStreamWindowBytes ∧
    ∀ body, s.body = some body → body.bytes.length ≤ body.expected

/-- What holds of a table while the other tables have declared `others` bytes. -/
structure StreamTable.Accounted (others : ℕ) (t : StreamTable) : Prop where
  reserved : t.connectionReserved = t.declared
  shared : t.globalBudget.used = others + t.declared
  within : t.connectionReserved ≤ t.connectionBudget
  window : t.connectionWindow ≤ t.limits.initialConnectionWindowBytes
  streams : ∀ id s, t.streams.lookup id = some s → s.Bounded t.limits

/-- What the past of a table says about its streams. -/
structure Traced (numbers : List ℕ) (under : List (ℕ × ℕ)) (ended : List ℕ)
    (streams : Table ℕ Stream) : Prop where
  stream : ∀ id s, streams.lookup id = some s → id ∈ numbers ∧
    (s.localClosed = true → id ∈ ended) ∧ (s.kind.carries = true → s.parent = none)
  parent : ∀ child parent, (child, parent) ∈ under → child ∈ numbers ∧
    ∀ s, streams.lookup child = some s → s.parent = some parent ∧ (parent ∈ ended ∨
      ∃ owner, streams.lookup parent = some owner ∧ owner.kind.carries = true)

structure TracedTable.Sound (others : ℕ) (c : TracedTable) : Prop
    extends c.toStreamTable.Accounted others where
  traced : Traced (c.considered ++ c.allocated) c.under c.ended c.streams
  peers : c.considered.Pairwise (· > ·)
  peer : ∀ id ∈ c.considered, id ≤ c.highestPeer ∧ c.side.opposite.owns id = true
  locals : c.allocated.Pairwise (· > ·)
  own : ∀ id ∈ c.allocated, id < c.nextLocal ∧ c.side.owns id = true
  parity : c.nextLocal ≠ 0 ∧ c.nextLocal % 2 = if c.side = .client then 1 else 0

theorem Initiator.not_both {side : Initiator} {id : ℕ} (h : side.owns id = true) :
    ¬ side.opposite.owns id = true := by
  cases side <;> simp_all [Initiator.owns, Initiator.opposite]

theorem ReassemblyBudget.eq_of_reserve {b b' : ReassemblyBudget} {bytes : ℕ}
    (h : b.reserve bytes = .ok b') : b' = { b with used := b.used + bytes } := by
  unfold reserve at h
  split at h
  · exact (Except.ok.inj h).symm
  · cases h

namespace StreamTable

variable {others id : ℕ} {t : StreamTable} {old v : Option Stream}

theorem lookup_foldl_erase {ids : List ℕ} {streams : Table ℕ Stream} {k : ℕ} {s : Stream} :
    (ids.foldl (fun streams id => streams.erase id) streams).lookup k = some s ↔
      k ∉ ids ∧ streams.lookup k = some s := by
  induction ids generalizing streams with
  | nil => simp
  | cons first rest ih =>
    rw [List.foldl_cons, ih, lookup_erase_eq]
    grind

/-- One stream is added, changed or removed, together with what is reserved for it. -/
theorem Accounted.put (h : t.Accounted others) (hold : t.streams.lookup id = old)
    (hv : ∀ s, v = some s → s.Bounded t.limits) {reserved used window : ℕ}
    (hreserved : reserved + old.elim 0 Stream.held = t.connectionReserved + v.elim 0 Stream.held)
    (hused : used + old.elim 0 Stream.held = t.globalBudget.used + v.elim 0 Stream.held)
    (hwithin : reserved ≤ t.connectionBudget)
    (hwindow : window ≤ t.limits.initialConnectionWindowBytes) :
    Accounted others { t with
      connectionReserved := reserved
      globalBudget := { t.globalBudget with used := used }
      connectionWindow := window
      streams := t.streams.put id v } := by
  have htotal : total (fun _ s => s.held) (t.streams.put id v) + old.elim 0 Stream.held =
      t.declared + v.elim 0 Stream.held := hold ▸ total_put _ id v t.streams
  have hbefore := h.reserved
  have hshared := h.shared
  refine ⟨?_, ?_, hwithin, hwindow, fun k s hs => ?_⟩
  · change reserved = total _ (t.streams.put id v)
    omega
  · change used = others + total _ (t.streams.put id v)
    omega
  · change (t.streams.put id v).lookup k = some s at hs
    rw [lookup_put] at hs
    split at hs
    · exact hv s hs
    · exact h.streams k s hs

theorem Accounted.held_le (h : t.Accounted others) {s : Stream}
    (hs : t.streams.lookup id = some s) :
    s.held ≤ t.connectionReserved ∧ s.held ≤ t.globalBudget.used := by
  have hle : s.held ≤ t.declared := le_total (f := fun _ s => s.held) hs
  rw [h.reserved, h.shared]
  omega

theorem Accounted.remove (h : t.Accounted others) (id : ℕ) : (t.remove id).Accounted others := by
  unfold StreamTable.remove
  split
  · exact h
  · next s hs =>
    obtain ⟨hreserved, hused⟩ := h.held_le hs
    exact h.put (v := none) hs nofun (Nat.sub_add_cancel hreserved) (Nat.sub_add_cancel hused)
      ((Nat.sub_le ..).trans h.within) h.window

/-- Removing streams touches only them and what is reserved. -/
theorem foldl_remove (ids : List ℕ) (t : StreamTable) : ∃ reserved budget, ids.foldl remove t =
    { t with
      streams := ids.foldl (fun streams id => streams.erase id) t.streams
      connectionReserved := reserved
      globalBudget := budget } := by
  induction ids generalizing t with
  | nil => exact ⟨_, _, rfl⟩
  | cons first rest ih =>
    obtain ⟨reserved, budget, hrest⟩ := ih (t.remove first)
    refine ⟨reserved, budget, hrest.trans ?_⟩
    unfold remove
    split
    · next hnone => rw [List.foldl_cons, erase_of_lookup_none hnone]
    · rfl

theorem mem_childrenOf {child : ℕ} :
    child ∈ t.childrenOf id ↔ ∃ s, t.streams.lookup child = some s ∧ s.parent = some id := by
  simp only [childrenOf, List.mem_filter, Option.any_eq_true, decide_eq_true_eq,
    and_iff_right_iff_imp]
  rintro ⟨s, hs, -⟩
  exact mem_iff_lookup.mpr ⟨s, hs⟩

end StreamTable

namespace Traced

variable {numbers numbers' ended ended' : List ℕ} {under : List (ℕ × ℕ)}
  {streams : Table ℕ Stream}

theorem mono (h : Traced numbers under ended streams) (hnumbers : numbers ⊆ numbers')
    (hended : ended ⊆ ended') : Traced numbers' under ended' streams := by
  refine ⟨fun id s hs => ?_, fun child parent hlink => ?_⟩
  · obtain ⟨hid, hclosed, hroot⟩ := h.stream id s hs
    exact ⟨hnumbers hid, fun hlocal => hended (hclosed hlocal), hroot⟩
  · obtain ⟨hchild, hparent⟩ := h.parent child parent hlink
    exact ⟨hnumbers hchild, fun s hs => (hparent s hs).imp_right (.imp_left (@hended _))⟩

/-- A stream changes in place. -/
theorem rewrite (h : Traced numbers under ended streams) {id : ℕ} {s s' : Stream}
    (hs : streams.lookup id = some s) (hkind : s'.kind = s.kind) (hparent : s'.parent = s.parent)
    (hclosed : s'.localClosed = true → id ∈ ended) :
    Traced numbers under ended (streams.insert id s') := by
  have hstream := h.stream id s hs
  refine ⟨forall_lookup_insert h.stream ⟨hstream.1, hclosed, by grind⟩,
    fun child parent hlink => ⟨(h.parent child parent hlink).1, fun r hr => ?_⟩⟩
  have hlinked := (h.parent child parent hlink).2
  grind [lookup_insert_eq]

/-- Streams go.  Those that carry others go with them, or were ended. -/
theorem removed (h : Traced numbers under ended streams) {ids : List ℕ}
    (hkept : ∀ parent owner, streams.lookup parent = some owner → owner.kind.carries = true →
      parent ∈ ids → parent ∈ ended ∨ ∀ child s, streams.lookup child = some s →
        s.parent = some parent → child ∈ ids) :
    Traced numbers under ended (ids.foldl (fun streams id => streams.erase id) streams) := by
  refine ⟨fun id s hs => h.stream id s (lookup_foldl_erase.mp hs).2,
    fun child parent hlink => ⟨(h.parent child parent hlink).1, fun s hs => ?_⟩⟩
  obtain ⟨hchild, hs⟩ := lookup_foldl_erase.mp hs
  obtain ⟨hparent, howner⟩ := (h.parent child parent hlink).2 s hs
  refine ⟨hparent, howner.elim .inl ?_⟩
  rintro ⟨owner, howner, hcarries⟩
  by_cases hgone : parent ∈ ids
  · exact .inl ((hkept parent owner howner hcarries hgone).resolve_right fun hall =>
      hchild (hall child s hs hparent))
  · exact .inr ⟨owner, lookup_foldl_erase.mpr ⟨hgone, howner⟩, hcarries⟩

end Traced

namespace TracedTable.Sound

variable {others id : ℕ} {c : TracedTable} {t : StreamTable} {s : Stream} {request : RpcOpen}

/-- A stream changes in place, together with what is reserved for it. -/
theorem rewrite (h : c.Sound others) (hs : c.streams.lookup id = some s) (s' : Stream)
    (hbounded : s'.Bounded c.limits) (hkind : s'.kind = s.kind) (hparent : s'.parent = s.parent)
    (hclosed : s'.localClosed = true → id ∈ c.ended) {reserved used window : ℕ}
    (hreserved : reserved + s.held = c.connectionReserved + s'.held)
    (hused : used + s.held = c.globalBudget.used + s'.held)
    (hwithin : reserved ≤ c.connectionBudget)
    (hwindow : window ≤ c.limits.initialConnectionWindowBytes) :
    TracedTable.Sound others { c with
      connectionReserved := reserved
      globalBudget := { c.globalBudget with used := used }
      connectionWindow := window
      streams := c.streams.insert id s' } := by
  exact { h with
    toAccounted := h.put (v := some s') hs (by rintro _ ⟨⟩; exact hbounded) hreserved hused hwithin
      hwindow
    traced := h.traced.rewrite hs hkind hparent hclosed }

theorem removeAll (h : c.Sound others) (ids : List ℕ)
    (hkept : ∀ parent owner, c.streams.lookup parent = some owner → owner.kind.carries = true →
      parent ∈ ids → parent ∈ c.ended ∨ ∀ child s, c.streams.lookup child = some s →
        s.parent = some parent → child ∈ ids) :
    TracedTable.Sound others { c with
      toStreamTable := ids.foldl remove c.toStreamTable } := by
  have haccounted : (ids.foldl remove c.toStreamTable).Accounted others :=
    List.foldlRecOn ids remove h.toAccounted fun t ht id _ => ht.remove id
  obtain ⟨reserved, budget, heq⟩ := foldl_remove ids c.toStreamTable
  rw [heq] at haccounted ⊢
  exact { h with toAccounted := haccounted, traced := h.traced.removed hkept }

/-- A stream goes that was ended on this side. -/
theorem remove (h : c.Sound others) (hended : id ∈ c.ended) :
    TracedTable.Sound others { c with toStreamTable := c.remove id } :=
  h.removeAll [id] fun _ _ _ _ hid => .inl (List.mem_singleton.mp hid ▸ hended)

theorem closeParent (h : c.Sound others) (id : ℕ) :
    TracedTable.Sound others { c with toStreamTable := (c.closeParent id).2 } := by
  unfold StreamTable.closeParent
  dsimp only
  rw [← List.foldl_concat (f := StreamTable.remove)]
  refine h.removeAll _ fun parent owner howner hcarries hid => .inr fun child s hs hparent => ?_
  have hroot := (h.traced.stream parent owner howner).2.2 hcarries
  rcases List.mem_append.mp hid with hid | hid
  · split at hid
    · obtain ⟨r, hr, hid⟩ := StreamTable.mem_childrenOf.mp hid
      rw [Option.some.inj (howner.symm.trans hr), hid] at hroot
      cases hroot
    · cases hid
  · obtain rfl := List.mem_singleton.mp hid
    rw [howner, if_pos (by simpa [StreamKind.carries] using hcarries)]
    exact List.mem_append_left _ (StreamTable.mem_childrenOf.mpr ⟨s, hs, hparent⟩)

theorem receiveData (h : c.Sound others) {bytes : List UInt8} {last : Bool}
    {received : ReceivedData} (hdata : c.receiveData id bytes last = .ok (received, t)) :
    TracedTable.Sound others { c with toStreamTable := t } := by
  revert hdata
  fun_cases StreamTable.receiveData c.toStreamTable id bytes last with
  | case9 s hs hopen body hbody length next hlength hconnection hstream hexpected hlast =>
    rintro ⟨⟩
    obtain ⟨hsmall, -⟩ := h.streams id s hs
    have hclosed := (h.traced.stream id s hs).2.1
    obtain ⟨hreserved, hused⟩ := h.held_le hs
    have hheld : s.held = body.expected := by simp [Stream.held, hbody]
    have hnarrow : c.connectionWindow - bytes.length ≤ c.limits.initialConnectionWindowBytes :=
      (Nat.sub_le ..).trans h.window
    have hfinished := h.rewrite hs
      { s with recvWindow := s.recvWindow - bytes.length, remoteClosed := true, body := none }
      ⟨(Nat.sub_le ..).trans hsmall, by rintro _ ⟨⟩⟩ rfl rfl hclosed (Nat.sub_add_cancel hreserved)
      (Nat.sub_add_cancel hused) ((Nat.sub_le ..).trans h.within) hnarrow
    rw [hheld] at hfinished
    fun_cases StreamTable.accept c.toStreamTable id s body bytes last with
    | case1 _ _ _ _ _ hlocal => exact hfinished.remove (hclosed hlocal)
    | case2 => exact hfinished
    | case3 =>
      refine h.rewrite hs { s with recvWindow := s.recvWindow - bytes.length, body := some _ } ?_
        rfl rfl hclosed ?_ ?_ h.within hnarrow
      · refine ⟨(Nat.sub_le ..).trans hsmall, ?_⟩
        rintro grown ⟨⟩
        rw [List.length_append]
        exact Nat.not_lt.mp hexpected
      all_goals exact congrArg (_ + ·) hheld
  | _ => rintro ⟨⟩

theorem grantCredit (h : c.Sound others) {increment : ℕ}
    (hgrant : c.grantCredit id increment = .ok t) :
    TracedTable.Sound others { c with toStreamTable := t } := by
  revert hgrant
  fun_cases StreamTable.grantCredit c.toStreamTable id increment with
  | case2 _ _ window hwindow =>
    rintro ⟨⟩
    exact { h with window := hwindow }
  | case5 _ _ s hs window hwindow =>
    rintro ⟨⟩
    exact h.rewrite hs { s with recvWindow := window } ⟨hwindow, (h.streams id s hs).2⟩ rfl
      rfl (h.traced.stream id s hs).2.1 rfl rfl h.within h.window
  | _ => rintro ⟨⟩

theorem markResponse (h : c.Sound others) {expected : ℕ}
    (hmark : c.markResponse id expected = .ok t) :
    TracedTable.Sound others { c with toStreamTable := t } := by
  revert hmark
  fun_cases StreamTable.markResponse c.toStreamTable id expected with
  | case3 s hs hfresh reserved =>
    simp only [except_bind_eq_ok, check_eq_ok]
    rintro ⟨_, hroom, budget, hbudget, hdone⟩
    cases hdone
    rw [ReassemblyBudget.eq_of_reserve hbudget]
    have hbody : s.body = none := by
      simpa using fun hsome => hfresh (.inr (.inl hsome))
    refine h.rewrite hs { s with body := some ⟨expected, []⟩, responseSeen := true } ?_ rfl rfl
      (h.traced.stream id s hs).2.1 ?_ ?_ hroom h.window
    · exact ⟨(h.streams id s hs).1, by rintro body ⟨⟩; exact Nat.zero_le _⟩
    all_goals simp [Stream.held, hbody, reserved]
  | _ => rintro ⟨⟩

theorem markLocalEnd (h : c.Sound others) (hmark : c.markLocalEnd id = .ok t) :
    TracedTable.Sound others { c with toStreamTable := t, ended := id :: c.ended } := by
  revert hmark
  fun_cases StreamTable.markLocalEnd c.toStreamTable id with
  | case3 s hs _ closing =>
    rintro ⟨⟩
    have hended : TracedTable.Sound others { c with ended := id :: c.ended } :=
      { h with traced := h.traced.mono (List.Subset.refl _) (List.subset_cons_self ..) }
    have hclosing : TracedTable.Sound others
        { c with toStreamTable := closing, ended := id :: c.ended } :=
      hended.rewrite hs { s with localClosed := true } (h.streams id s hs) rfl rfl
        (fun _ => List.mem_cons_self) rfl rfl h.within h.window
    split
    · exact hclosing.remove List.mem_cons_self
    · exact hclosing
  | _ => rintro ⟨⟩

/-- A number is considered once, and none that this side may allocate. -/
theorem considered (h : c.Sound others) (hpeer : c.refusePeer id = .ok t) :
    t = { c.toStreamTable with highestPeer := id } ∧
    TracedTable.Sound others { c with toStreamTable := t, considered := id :: c.considered } ∧
    id ∉ c.considered ++ c.allocated := by
  revert hpeer
  simp only [refusePeer, except_bind_eq_ok]
  fun_cases checkPeerId c.toStreamTable id with
  | case3 hnumber _ =>
    rintro ⟨_, -, ⟨⟩⟩
    simp only [not_or, not_not, not_le] at hnumber
    obtain ⟨howns, hlater⟩ := hnumber
    have hnew : ∀ k ∈ c.considered, k < id := fun k hk => (h.peer k hk).1.trans_lt hlater
    refine ⟨rfl, { h with
      traced := h.traced.mono (List.subset_cons_self ..) (List.Subset.refl _)
      peers := h.peers.cons hnew
      peer := List.forall_mem_cons.mpr ⟨⟨le_rfl, howns⟩, fun k hk =>
        ⟨(hnew k hk).le, (h.peer k hk).2⟩⟩ }, fun hused => ?_⟩
    rcases List.mem_append.mp hused with hused | hused
    · exact (hnew id hused).ne rfl
    · exact Initiator.not_both (h.own id hused).2 howns
  | _ => rintro ⟨_, ⟨⟩, _⟩

theorem mem_linked {child parent : ℕ} :
    (child, parent) ∈ c.linked id request ↔ child = id ∧ request.parent = some parent ∧
      ∃ owner, c.streams.lookup parent = some owner ∧ owner.kind.carries = true := by
  simp only [linked, List.mem_map, Option.mem_toList, Option.filter_eq_some_iff,
    Option.any_eq_true, Prod.mk.injEq]
  grind

section

variable (h : c.Sound others)

include h

/-- A stream takes its place under a number that is new. -/
theorem admitted (s : Stream) (hbounded : s.Bounded c.limits) (hopen : s.localClosed = false)
    (hroot : s.kind.carries = true → s.parent = none) (hparent : s.parent = request.parent)
    (hwithin : c.connectionReserved + s.held ≤ c.connectionBudget)
    (hnumber : id ∈ c.considered ++ c.allocated) (hstream : c.streams.lookup id = none)
    (hlinks : ∀ parent, (id, parent) ∉ c.under) :
    TracedTable.Sound others { c with
      connectionReserved := c.connectionReserved + s.held
      globalBudget := { c.globalBudget with used := c.globalBudget.used + s.held }
      streams := c.streams.insert id s
      under := c.linked id request ++ c.under } := by
  refine { h with
    toAccounted := h.put (v := some s) hstream (by rintro _ ⟨⟩; exact hbounded) rfl rfl hwithin
      h.window
    traced := ⟨forall_lookup_insert h.traced.stream ⟨hnumber, by simp [hopen], hroot⟩,
      fun child parent hlink => ?_⟩ }
  -- the new stream is none of those that carry others
  rcases List.mem_append.mp hlink with hnew | hold
  · obtain ⟨rfl, hrequest, owner, howner, hcarries⟩ := mem_linked.mp hnew
    exact ⟨hnumber, by grind [lookup_insert_eq]⟩
  · have hlinked := h.traced.parent child parent hold
    exact ⟨hlinked.1, by grind [lookup_insert_eq]⟩

theorem inserted {inbound : Bool}
    (hinsert : c.insert id request inbound = .ok t) (hnumber : id ∈ c.considered ++ c.allocated)
    (hstream : c.streams.lookup id = none) (hlinks : ∀ parent, (id, parent) ∉ c.under) :
    TracedTable.Sound others
      { c with toStreamTable := t, under := c.linked id request ++ c.under } := by
  simp only [StreamTable.insert, except_bind_eq_ok, check_eq_ok] at hinsert
  obtain ⟨_, -, _, -, _, -, _, hroom, budget, hbudget, hdone⟩ := hinsert
  have hroot : request.kind.carries = true → request.parent = none := by
    cases request <;> simp [StreamKind.carries, RpcOpen.kind, RpcOpen.parent]
  rw [ReassemblyBudget.eq_of_reserve hbudget] at hdone
  by_cases hbody : inbound = true ∧ request.kind ∈ [.rpc, .eventDelivery]
  · simp only [hbody, and_self, if_true] at hdone hroom
    cases hdone
    exact h.admitted ⟨request.kind, request.parent, false, false, false,
      some ⟨request.contentLength, []⟩, c.limits.initialStreamWindowBytes⟩
      ⟨le_rfl, by rintro body ⟨⟩; exact Nat.zero_le _⟩ rfl hroot rfl hroom hnumber hstream hlinks
  · have hlength : (if inbound = true then request.contentLength else 0) = 0 := by
      revert hbody
      cases inbound <;> cases request <;> simp [RpcOpen.kind, RpcOpen.contentLength]
    rw [hlength] at hdone hroom
    simp only [hbody, if_false] at hdone
    cases hdone
    exact h.admitted ⟨request.kind, request.parent, false, false, false, none,
      c.limits.initialStreamWindowBytes⟩ ⟨le_rfl, by rintro _ ⟨⟩⟩ rfl hroot rfl hroom hnumber
      hstream
      hlinks

/-- Numbers that were never used name no stream. -/
theorem unused (hid : id ∉ c.considered ++ c.allocated) :
    c.streams.lookup id = none ∧ ∀ parent, (id, parent) ∉ c.under := by
  refine ⟨?_, fun parent hlink => hid (h.traced.parent id parent hlink).1⟩
  by_contra hsome
  obtain ⟨s, hs⟩ := Option.ne_none_iff_exists'.mp hsome
  exact hid (h.traced.stream id s hs).1

/-- So is a number allocated once. -/
theorem allocated (hmax : c.nextLocal ≤ rpcMaxStreamId) :
    TracedTable.Sound others
      { c with nextLocal := c.nextLocal + 2, allocated := c.nextLocal :: c.allocated } ∧
    c.nextLocal ∉ c.considered ++ c.allocated := by
  have howns : c.side.owns c.nextLocal = true := by simp [Initiator.owns, h.parity, hmax]
  have hnew : ∀ k ∈ c.allocated, k < c.nextLocal := fun k hk => (h.own k hk).1
  have hkept : c.considered ++ c.allocated ⊆ c.considered ++ c.nextLocal :: c.allocated :=
    fun k hk => by
      simp only [List.mem_append, List.mem_cons] at hk ⊢
      exact hk.imp_right .inr
  refine ⟨{ h with
    traced := h.traced.mono hkept (List.Subset.refl _)
    locals := h.locals.cons hnew
    own := List.forall_mem_cons.mpr ⟨⟨by simp, howns⟩, fun k hk =>
      ⟨(hnew k hk).trans (by simp), (h.own k hk).2⟩⟩
    parity := by simpa using h.parity.2 }, fun hused => ?_⟩
  rcases List.mem_append.mp hused with hused | hused
  · exact Initiator.not_both howns (h.peer _ hused).2
  · exact (hnew _ hused).ne rfl

theorem perform (call : Call) : (c.perform call).Sound others := by
  fun_cases TracedTable.perform c call with
  | case2 request n t ht =>
    simp only [StreamTable.openLocal, except_bind_eq_ok, check_eq_ok] at ht
    obtain ⟨_, ⟨-, hmax⟩, opened, hopened, hdone⟩ := ht
    cases hdone
    obtain ⟨hsound, hid⟩ := h.allocated hmax
    obtain ⟨hstream, hlinks⟩ := h.unused hid
    have hinsert : { c.toStreamTable with nextLocal := c.nextLocal + 2 }.insert c.nextLocal request
        false = .ok { opened with nextLocal := c.nextLocal + 2 } := by
      simp only [StreamTable.insert, except_bind_eq_ok, check_eq_ok] at hopened ⊢
      obtain ⟨_, hsize, _, hparent, _, hlength, _, hroom, budget, hbudget, hdone⟩ := hopened
      cases hdone
      exact ⟨(), hsize, (), hparent, (), hlength, (), hroom, budget, hbudget, rfl⟩
    exact hsound.inserted hinsert (by simp) hstream hlinks
  | case4 id request considered _ t ht hconsidered =>
    obtain ⟨rfl, hsound, -⟩ := h.considered hconsidered
    simp only [StreamTable.openPeer, hconsidered] at ht
    split at ht
    · cases ht
      exact hsound
    · cases ht
  | case5 id request considered _ t ht hconsidered =>
    obtain ⟨rfl, hsound, hid⟩ := h.considered hconsidered
    obtain ⟨hstream, hlinks⟩ := h.unused hid
    simp only [StreamTable.openPeer, hconsidered] at ht
    split at ht
    · cases ht
    · next admitted hadmitted =>
      cases ht
      exact hsound.inserted hadmitted List.mem_cons_self hstream hlinks
  | case7 id t ht => exact (h.considered ht).2.1
  | case9 => exact h.receiveData ‹_›
  | case11 => exact h.grantCredit ‹_›
  | case13 => exact h.markResponse ‹_›
  | case15 => exact h.markLocalEnd ‹_›
  | case16 id => exact h.closeParent id
  | case18 id _ t ht =>
    simp only [StreamTable.reset] at ht
    split at ht
    · cases ht
      exact h.closeParent id
    · cases ht
  | case19 => exact { h with }
  | _ => exact h

/-- The table finds the budget as it is now. -/
theorem resume {budget : ReassemblyBudget} (hle : c.declared ≤ budget.used) :
    TracedTable.Sound (budget.used - c.declared) { c with globalBudget := budget } :=
  { h with shared := (Nat.sub_add_cancel hle).symm }

end

theorem fresh {side : Initiator} {limits : RpcLimits} {connectionBudget : ℕ}
    {budget : ReassemblyBudget} (h : new side limits connectionBudget budget = .ok t) :
    TracedTable.Sound budget.used ⟨t, [], [], [], []⟩ ∧ t.declared = 0 := by
  revert h
  fun_cases new side limits connectionBudget budget with
  | case3 =>
    rintro ⟨⟩
    refine ⟨⟨⟨rfl, rfl, Nat.zero_le _, le_rfl, nofun⟩, ⟨nofun, nofun⟩, .nil, nofun, .nil, nofun,
      ?_⟩, rfl⟩
    cases side <;> simp
  | _ => rintro ⟨⟩

end TracedTable.Sound

/-! ## All tables -/

namespace Sharing

/-- The budget in use is what the tables have declared, and each of them is sound. -/
def Sound (s : Sharing) : Prop :=
  s.budget.used = s.tables.total (fun _ c => c.declared) ∧
    ∀ n c, s.tables.lookup n = some c → ∃ others, c.Sound others

theorem Sound.step {s : Sharing} (h : s.Sound) (a : Action) : (s.step a).Sound := by
  obtain ⟨hused, htables⟩ := h
  fun_cases Sharing.step s a with
  | case1 n side limits connectionBudget t ht hn =>
    obtain ⟨hfresh, hnone⟩ := TracedTable.Sound.fresh ht
    refine ⟨?_, forall_lookup_insert htables ⟨_, hfresh⟩⟩
    change s.budget.used = total _ (s.tables.insert n _)
    rw [total_insert_new _ hn, hnone, Nat.zero_add, hused]
  | case4 n call c hn next =>
    obtain ⟨others, hc⟩ := htables n c hn
    have hle : c.declared ≤ s.budget.used := hused ▸ le_total (f := fun _ c => c.declared) hn
    have hnext := (hc.resume hle).perform call
    refine ⟨?_, forall_lookup_insert htables ⟨_, hnext⟩⟩
    have htotal := total_put (fun _ c => c.declared) n (some next) s.tables
    rw [put_some, hn, weigh_some, weigh_some] at htotal
    have hshared : next.globalBudget.used = s.budget.used - c.declared + next.declared :=
      hnext.shared
    change next.globalBudget.used = total _ (s.tables.insert n next)
    omega
  | case6 n c hn =>
    refine ⟨?_, fun k c' hk => htables k c' (of_lookup_erase hk).2⟩
    have htotal := total_put (fun _ c => c.declared) n none s.tables
    rw [put_none, hn, weigh_some, weigh_none] at htotal
    change s.budget.used - c.declared = total _ (s.tables.erase n)
    omega
  | _ => exact ⟨hused, htables⟩

/-- Over every run of any tables the budgets account for the declared sizes, bodies and windows
keep their bounds, parents outlive what was opened under them unless they were ended, and
numbers grow. -/
theorem tables_sound (max : ℕ) (actions : List Action) : let s := actions.foldl step ⟨⟨max, 0⟩, ∅⟩
    s.budget.used = s.tables.total (fun _ c => c.connectionReserved) ∧
    ∀ n c, s.tables.lookup n = some c →
      c.connectionReserved = c.declared ∧ c.connectionReserved ≤ c.connectionBudget ∧
      c.connectionWindow ≤ c.limits.initialConnectionWindowBytes ∧
      (∀ id stream, c.streams.lookup id = some stream →
        stream.recvWindow ≤ c.limits.initialStreamWindowBytes ∧
        (∀ body, stream.body = some body → body.bytes.length ≤ body.expected) ∧
        id ∈ c.considered ++ c.allocated) ∧
      (∀ child parent, (child, parent) ∈ c.under → child ∈ c.streams →
        parent ∈ c.streams ∨ parent ∈ c.ended) ∧
      c.considered.Pairwise (· > ·) ∧ c.allocated.Pairwise (· > ·) ∧
      (c.considered ++ c.allocated).Nodup := by
  intro s
  obtain ⟨hused, htables⟩ : s.Sound :=
    List.foldlRecOn actions step ⟨rfl, nofun⟩ fun s h a _ => h.step a
  refine ⟨hused.trans (total_congr fun n c hn => ?_), fun n c hn => ?_⟩
  · obtain ⟨_, hc⟩ := htables n c hn
    exact hc.reserved.symm
  · obtain ⟨_, hc⟩ := htables n c hn
    refine ⟨hc.reserved, hc.within, hc.window, fun id stream hstream => ?_,
      fun child parent hlink hchild => ?_, hc.peers, hc.locals, ?_⟩
    · obtain ⟨hwindow, hreceived⟩ := hc.streams id stream hstream
      exact ⟨hwindow, hreceived, (hc.traced.stream id stream hstream).1⟩
    · obtain ⟨s, hs⟩ := mem_iff_lookup.mp hchild
      refine (((hc.traced.parent child parent hlink).2 s hs).2.imp_right ?_).symm
      exact fun ⟨owner, howner, _⟩ => mem_iff_lookup.mpr ⟨owner, howner⟩
    · refine List.nodup_append'.mpr ⟨hc.peers.imp ne_of_gt, hc.locals.imp ne_of_gt, ?_⟩
      exact fun id hpeer hown => Initiator.not_both (hc.own id hown).2 (hc.peer id hpeer).2

/-- A call is opened under a provider, which is then ended on both sides. -/
def orphanActions : List Action :=
  [.connect 0 .client RpcLimits.default 1, .call 0 (.openLocal (.provider [])),
    .call 0 (.openPeer 2 (.rpc (some 1) 0 [] 0 0)), .call 0 (.markLocalEnd 1),
    .call 0 (.markResponse 1 0), .call 0 (.receiveData 1 [] true)]

/-- The call is left without its provider. -/
theorem provider_leaves_call :
    ((orphanActions.foldl step ⟨⟨1, 0⟩, ∅⟩).tables.lookup 0).map
      (fun c => (c.under, c.streams.keys)) = some ([(2, 1)], [2]) := by
  decide

end Sharing

end Netbaiot.Mux
