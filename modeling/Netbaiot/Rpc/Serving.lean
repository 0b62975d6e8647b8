import Netbaiot.Rpc.Control
import Netbaiot.Rpc.RegistryMoves

/-!
# When a provider serves

A successful sync leaves a token: first its reply, then the PING that follows the written
reply, then the confirmation that the PONG lets the reader take.  If the worker resets the
provider only while there is no token, there is never more than one, and it belongs to the
sync that established the revision of the worker.  `serving_coherent` says what follows, and
`serving_incoherent` what happens when a second sync overtakes the token of the first.
-/

namespace Netbaiot.Rpc

open Lib Session

variable {incarnation revision : ℕ} {s : Session}

/-! ## The operations of the registry -/

section Registry

variable {r : Registry} {p : Provider} {epoch : UInt64}

/-- An operation of the current lease goes on with its provider. -/
theorem exec_current_bind {α : Type} (hp : r.provider = some p) (hepoch : p.epoch = epoch)
    (f : Provider → RegistryM α) : Op.exec (currentProvider epoch >>= f) r = Op.exec (f p) r := by
  rw [exec_currentProvider_bind, hp]
  simp [Option.filter, hepoch]

theorem exec_markSyncing (hp : r.provider = some p) (hepoch : p.epoch = epoch) (instant : ℕ) :
    ∃ r', Op.exec (markSyncing epoch instant) r = (.ok (), r') ∧
      r'.provider = some { p with serving := false, revision := 0 } := by
  unfold markSyncing
  rw [exec_current_bind hp hepoch, Op.exec_modify]
  exact ⟨_, rfl, Registry.provider_dropEpoch _ _⟩

theorem exec_advanceRevision (hp : r.provider = some p) (hepoch : p.epoch = epoch)
    (hserving : p.serving = true) (hrevision : p.revision < revision) :
    ∃ r', Op.exec (advanceRevision epoch revision) r = (.ok (), r') ∧
      r'.provider = some { p with revision := revision } := by
  unfold advanceRevision
  rw [exec_current_bind hp hepoch, Op.exec_ensure_bind, if_pos ⟨hserving, hrevision⟩,
    Op.exec_modify]
  exact ⟨_, rfl, Registry.provider_dropEpoch _ _⟩

/-- A provider that begins to serve gets the revision; nothing else changes the registry. -/
theorem exec_markServing (hp : r.provider = some p) (hepoch : p.epoch = epoch) (revision : ℕ)
    (nowMs : Int64) (instant : ℕ) :
    (∃ r', Op.exec (markServing epoch revision nowMs instant) r = (.ok (), r') ∧
        r'.provider = some { p with revision := revision, serving := true }) ∨
      ∃ e, Op.exec (markServing epoch revision nowMs instant) r = (.error e, r) := by
  unfold markServing
  rw [exec_current_bind hp hepoch]
  simp only [Op.exec_ensure_bind, Op.exec_modify]
  split_ifs
  · exact .inl ⟨_, rfl, rfl⟩
  · exact .inr ⟨_, rfl⟩
  · exact .inr ⟨_, rfl⟩
  · exact .inr ⟨_, rfl⟩

end Registry

/-! ## Tokens of a sync -/

/-- Where the confirmation of a sync is on its way. -/
inductive SyncToken where
  | reply (sync : ℕ)
  | pinged (after : List ℕ)
  | held (confirmed : Confirmed)

/-- The reply to a sync that the worker is about to queue. -/
def WorkerStage.token : WorkerStage → List SyncToken
  | .replying (some sync) => [.reply sync]
  | _ => []

namespace Session

/-- All tokens: replies that are not yet written, PINGs that are not yet answered, and what
the reader has taken. -/
def tokens (s : Session) : List SyncToken :=
  s.stage.token ++ s.replies.flatMap (fun reply => (reply.map SyncToken.reply).toList) ++
    (s.syncWritten.map SyncToken.reply).toList ++
    (s.syncPing.map fun ping => SyncToken.pinged ping.after).toList ++
    (s.held.map SyncToken.held).toList

/-- A token belongs to the sync that established the revision of the worker. -/
def TokenSound (s : Session) : SyncToken → Prop
  | .reply sync => sync = s.base
  | .pinged after => s.base ∈ after
  | .held c => s.base ∈ c.after ∧ s.confirmation = 0 ∧
      (c.revision ≠ 0 → c.sync = s.base ∧
        ∃ incarnation, s.revision = some (incarnation, c.revision))

/-- The worker has recorded the revision that the provider serves. -/
def Recorded (s : Session) (p : Provider) : Prop :=
  p.serving = true → ∃ incarnation, s.revision = some (incarnation, p.revision)

/-- What the stages of the worker rely on. -/
def StageSound (s : Session) (p : Provider) : Prop :=
  match s.stage with
  | .advancing incarnation revision => p.serving = true ∧
      s.revision = some (incarnation, p.revision) ∧ revision = p.revision + 1
  | .advanced incarnation revision => p.serving = true ∧
      s.revision = some (incarnation, revision) ∧ revision = p.revision + 1
  | .revoking .. | .storing .. => s.tokens = [] ∧ p.serving = false
  | .gapSyncing => s.tokens = [] ∧ s.confirmation = 0
  | .gapRevoking => s.tokens = [] ∧ s.confirmation = 0 ∧ p.serving = false
  | .ended => True
  | _ => s.Recorded p

/-- What holds between the worker, the reader and the provider `p` of the session, when resets
wait for tokens. -/
structure Orderly (s : Session) (p : Provider) : Prop where
  provider : s.registry.provider = some p
  epoch : p.epoch = s.epoch
  few : s.tokens.length ≤ 1
  waiting : s.tokens ≠ [] → p.serving = false
  tokens : ∀ t ∈ s.tokens, s.TokenSound t
  confirmation : s.confirmation ≠ 0 → p.serving = false ∧ s.confirmedBy = s.base ∧
    ∃ incarnation, s.revision = some (incarnation, s.confirmation)
  stage : s.StageSound p
  served : p.serving = true → ∃ c, s.served = some c ∧ c.sync = s.base ∧ s.base ∈ c.after

/-- No sync is waiting for its confirmation. -/
def Settled (s : Session) : Prop :=
  (∀ reply ∈ s.replies, reply = none) ∧ s.syncWritten = none ∧ s.syncPing = none ∧ s.held = none

instance (s : Session) : Decidable s.Settled :=
  inferInstanceAs (Decidable (_ ∧ _ ∧ _ ∧ _))

/-- Whether the worker is about to reset the provider, by a sync or after a gap. -/
def resets (s : Session) : SessionAction → Bool
  | .work .. =>
      match s.stage with
      | .syncing .. | .gap => true
      | _ => false
  | _ => false

/-- The worker resets the provider only when no sync is waiting for its confirmation. -/
def ResetsSettled (s : Session) (a : SessionAction) : Prop := s.resets a = true → s.Settled

instance (s : Session) (a : SessionAction) : Decidable (s.ResetsSettled a) :=
  inferInstanceAs (Decidable (_ → _))

/-- Only the stage that replies has a token of its own. -/
theorem tokens_eq_setStage (s : Session) (stage : WorkerStage) (htoken : stage.token = []) :
    s.tokens = s.stage.token ++ (s.setStage stage).tokens := by
  simp only [tokens, setStage, htoken, List.nil_append, List.append_assoc]

theorem Settled.tokens (h : s.Settled) (hstage : s.stage.token = []) : s.tokens = [] := by
  obtain ⟨hreplies, hwritten, hping, hheld⟩ := h
  simp only [Session.tokens, hstage, hwritten, hping, hheld, Option.map_none, Option.toList_none,
    List.nil_append, List.append_nil, List.flatMap_eq_nil_iff]
  intro reply hreply
  rw [hreplies reply hreply]
  rfl

namespace Orderly

variable {s s' : Session} {p : Provider}

section

variable (h : s.Orderly p) (hregistry : s'.registry = s.registry)
    (hepoch : s'.epoch = s.epoch) (hrevision : s'.revision = s.revision)
    (hbase : s'.base = s.base) (hserved : s'.served = s.served)
    (hconfirmation : s'.confirmation = 0 ∨
      s'.confirmation = s.confirmation ∧ s'.confirmedBy = s.confirmedBy)
    (htokens : ∀ t ∈ s'.tokens, t ∈ s.tokens ∨ s'.TokenSound t)
    (hlength : s'.tokens.length ≤ s.tokens.length)

include h hregistry hepoch hrevision hbase hserved hconfirmation htokens hlength

/-- There are no more tokens than before, and the worker goes on. -/
theorem move (hstage : s'.StageSound p) : s'.Orderly p where
  provider := by rw [hregistry]; exact h.provider
  epoch := by rw [hepoch]; exact h.epoch
  few := hlength.trans h.few
  waiting hsome := by
    refine h.waiting fun hnone => hsome (List.length_eq_zero_iff.mp ?_)
    rw [hnone, List.length_nil] at hlength
    omega
  tokens t ht := by
    rcases htokens t ht with hold | hnew
    · have hsound := h.tokens t hold
      cases t with
      | reply sync =>
        show sync = s'.base
        rw [hbase]
        exact hsound
      | pinged after =>
        show s'.base ∈ after
        rw [hbase]
        exact hsound
      | held c =>
        obtain ⟨hafter, hzero, hc⟩ := hsound
        refine ⟨hbase ▸ hafter, ?_, by rw [hbase, hrevision]; exact hc⟩
        rcases hconfirmation with hnew | ⟨hsame, -⟩
        · exact hnew
        · exact hsame.trans hzero
    · exact hnew
  confirmation hne := by
    rcases hconfirmation with hzero | ⟨hsame, hby⟩
    · exact absurd hzero hne
    · rw [hsame] at hne ⊢
      rw [hby, hbase, hrevision]
      exact h.confirmation hne
  stage := hstage
  served := by rw [hserved, hbase]; exact h.served

/-- The reader and the writer leave the worker where it is. -/
theorem keep (hstage : s'.stage = s.stage) : s'.Orderly p := by
  refine h.move hregistry hepoch hrevision hbase hserved hconfirmation htokens hlength ?_
  have hzero : s.confirmation = 0 → s'.confirmation = 0 := by
    intro hzero
    rcases hconfirmation with hnew | ⟨hsame, -⟩
    · exact hnew
    · exact hsame.trans hzero
  have hsound := h.stage
  unfold StageSound at hsound ⊢
  unfold Recorded at hsound ⊢
  split at hsound <;> simp_all

end

/-- The worker goes from one stage without a token to another, and may withdraw the
confirmation. -/
theorem advance (h : s.Orderly p) {stage : WorkerStage} {n : ℕ} (hn : n = 0 ∨ n = s.confirmation)
    (htoken : stage.token = [])
    (hstage : ({ s with confirmation := n, stage := stage } : Session).StageSound p) :
    ({ s with confirmation := n, stage := stage } : Session).Orderly p := by
  have htokens : s.tokens =
      s.stage.token ++ ({ s with confirmation := n, stage := stage } : Session).tokens :=
    s.tokens_eq_setStage stage htoken
  refine h.move rfl rfl rfl rfl rfl (hn.imp_right fun hn => ⟨hn, rfl⟩) ?_ ?_ hstage
  · rw [htokens]
    exact fun t ht => .inl (List.mem_append_right _ ht)
  · rw [htokens, List.length_append]
    exact Nat.le_add_left _ _

theorem setStage (h : s.Orderly p) {stage : WorkerStage} (htoken : stage.token = [])
    (hstage : (s.setStage stage).StageSound p) : (s.setStage stage).Orderly p :=
  h.advance (.inr rfl) htoken hstage

/-- A reset leaves a provider that does not serve. -/
theorem reset (h : s.Orderly p)
    (hprovider : s'.registry.provider = some { p with serving := false, revision := 0 })
    (hepoch : s'.epoch = s.epoch) (htokens : s'.tokens = [])
    (hconfirmation : s'.confirmation ≠ 0 → s'.confirmedBy = s'.base ∧
      ∃ incarnation, s'.revision = some (incarnation, s'.confirmation))
    (hstage : s'.StageSound { p with serving := false, revision := 0 }) :
    s'.Orderly { p with serving := false, revision := 0 } where
  provider := hprovider
  epoch := h.epoch.trans hepoch.symm
  few := by simp [htokens]
  waiting _ := rfl
  tokens t ht := by simp [htokens] at ht
  confirmation hne := ⟨rfl, hconfirmation hne⟩
  stage := hstage
  served hserving := absurd hserving (by simp)

/-- A serving provider has no token on its way and no confirmation to take. -/
theorem serving_quiet (h : s.Orderly p) (hserving : p.serving = true) :
    s.tokens = [] ∧ s.confirmation = 0 := by
  constructor
  · by_contra hne
    have := h.waiting hne
    simp [hserving] at this
  · by_contra hne
    have := (h.confirmation hne).1
    simp [hserving] at this

/-- A session without tokens and without a confirmation is orderly if its provider serves what
the worker relies on. -/
theorem of_quiet (hprovider : s.registry.provider = some p) (hepoch : p.epoch = s.epoch)
    (htokens : s.tokens = []) (hconfirmation : s.confirmation = 0) (hstage : s.StageSound p)
    (hserved : p.serving = true → ∃ c, s.served = some c ∧ c.sync = s.base ∧ s.base ∈ c.after) :
    s.Orderly p where
  provider := hprovider
  epoch := hepoch
  few := by simp [htokens]
  waiting hne := absurd htokens hne
  tokens t ht := by simp [htokens] at ht
  confirmation hne := absurd hconfirmation hne
  stage := hstage
  served := hserved

/-- A sync resets the provider first. -/
theorem work_syncing (h : s.Orderly p) (hsettled : s.Settled)
    (hs : s.stage = .syncing incarnation revision) (ok : Bool) (nowMs : Int64) (instant : ℕ) :
    ∃ p', (s.work ok nowMs instant).Orderly p' := by
  obtain ⟨r, hexec, hr⟩ := exec_markSyncing h.provider h.epoch instant
  have hnone : s.tokens = [] := hsettled.tokens (by rw [hs]; rfl)
  have hwork : s.work ok nowMs instant =
      { s with registry := r, stage := .revoking incarnation revision } := by
    simp only [Session.work, hs, Session.onRegistry, hexec]
    rfl
  have htokens : (s.work ok nowMs instant).tokens = [] := by
    rw [hwork]
    simpa only [Session.tokens, hs, WorkerStage.token] using hnone
  rw [hwork] at htokens ⊢
  exact ⟨_, h.reset hr rfl htokens (fun hne => (h.confirmation hne).2) ⟨htokens, rfl⟩⟩

/-- After a gap the provider is reset, and the worker forgets the revision. -/
theorem work_gapSyncing (h : s.Orderly p) (hs : s.stage = .gapSyncing) (ok : Bool)
    (nowMs : Int64) (instant : ℕ) : ∃ p', (s.work ok nowMs instant).Orderly p' := by
  obtain ⟨r, hexec, hr⟩ := exec_markSyncing h.provider h.epoch instant
  obtain ⟨hnone, hzero⟩ : s.tokens = [] ∧ s.confirmation = 0 := by
    have hsound := h.stage
    rwa [StageSound, hs] at hsound
  have hwork : s.work ok nowMs instant =
      { s with registry := r, revision := none, stage := .gapRevoking } := by
    simp only [Session.work, hs, Session.onRegistry, hexec]
  have htokens : (s.work ok nowMs instant).tokens = [] := by
    rw [hwork]
    simpa only [Session.tokens, hs, WorkerStage.token] using hnone
  rw [hwork] at htokens ⊢
  exact ⟨_, h.reset hr rfl htokens (fun hne => absurd hzero hne) ⟨htokens, hzero, rfl⟩⟩

/-- The worker leaves a revision for the reader to confirm. -/
theorem work_storing (h : s.Orderly p) (hs : s.stage = .storing incarnation revision) (ok : Bool)
    (nowMs : Int64) (instant : ℕ) : (s.work ok nowMs instant).Orderly p := by
  obtain ⟨hnone, hserving⟩ : s.tokens = [] ∧ p.serving = false := by
    have hsound := h.stage
    rwa [StageSound, hs] at hsound
  have htokens : (s.work ok nowMs instant).tokens = [.reply (s.syncs + 1)] := by
    have htokens : (s.work ok nowMs instant).tokens = .reply (s.syncs + 1) :: s.tokens := by
      simp only [Session.work, Session.tokens, hs, WorkerStage.token, List.append_assoc,
        List.nil_append, List.cons_append]
    rw [htokens, hnone]
  have hoff : p.serving = true → False := by simp [hserving]
  refine ⟨?_, ?_, by simp [htokens], fun _ => hserving, ?_, ?_, ?_, fun hon => (hoff hon).elim⟩
  · simpa only [Session.work, hs] using h.provider
  · simpa only [Session.work, hs] using h.epoch
  · intro t ht
    rw [htokens, List.mem_singleton] at ht
    subst ht
    simp only [TokenSound, Session.work, hs]
  · intro _
    simp only [Session.work, hs]
    exact ⟨hserving, trivial, incarnation, rfl⟩
  · simp only [StageSound, Recorded, Session.work, hs]
    exact fun hon => (hoff hon).elim

/-- The worker takes an update when it follows the revision that the provider serves. -/
theorem stageSound_handle (h : s.Orderly p) {request : ControlRequest}
    (hs : s.stage = .handling request) (nowMs : Int64) :
    (s.setStage (s.handle request nowMs)).StageSound p := by
  have hrecorded : s.Recorded p := by
    have hsound := h.stage
    rwa [StageSound, hs] at hsound
  cases request with
  | authSync reset incarnation revision =>
    simp only [handle]
    split_ifs
    · exact hrecorded
    · exact hrecorded
  | authInvalidate incarnation revision permitted =>
    simp only [handle]
    split_ifs with hbounds hpermitted hsame hold hnext
    · exact hrecorded
    · exact hrecorded
    · exact hrecorded
    · exact hrecorded
    · obtain ⟨hfollows, havailable⟩ := hnext
      have hserving : p.serving = true := by
        simp only [Registry.isServing, h.provider, Option.any_some, Provider.available,
          Bool.and_eq_true] at havailable
        exact havailable.1
      obtain ⟨current, hrevision⟩ := hrecorded hserving
      rw [hrevision, Option.any_some, Bool.and_eq_true, decide_eq_true_eq,
        decide_eq_true_eq] at hfollows
      obtain ⟨rfl, rfl⟩ := hfollows
      exact ⟨hserving, hrevision, rfl⟩
    · exact hrecorded
  | malformed sync =>
    cases sync with
    | true | false => exact hrecorded
  | unknown => exact hrecorded

/-- No sync is answered before the worker has done its steps. -/
theorem token_handle (s : Session) (request : ControlRequest) (nowMs : Int64) :
    (s.handle request nowMs).token = [] := by
  cases request <;> simp only [handle] <;> (try split_ifs) <;> rfl

section

variable (h : s.Orderly p)

include h

/-- An update that follows the revision is recorded, then served. -/
theorem work_advancing (hs : s.stage = .advancing incarnation revision) (ok : Bool) (nowMs : Int64)
    (instant : ℕ) : (s.work ok nowMs instant).Orderly p := by
  obtain ⟨hserving, hrevision, hnext⟩ : p.serving = true ∧
      s.revision = some (incarnation, p.revision) ∧ revision = p.revision + 1 := by
    have hsound := h.stage
    rwa [StageSound, hs] at hsound
  obtain ⟨hnone, hzero⟩ := h.serving_quiet hserving
  cases ok with
  | true =>
    refine of_quiet ?_ ?_ ?_ ?_ ?_ ?_
    all_goals simp only [Session.work, hs, if_true]
    · exact h.provider
    · exact h.epoch
    · simpa only [Session.tokens, hs, WorkerStage.token] using hnone
    · exact hzero
    · exact ⟨hserving, rfl, hnext⟩
    · exact h.served
  | false =>
    have hwork : s.work false nowMs instant = s.setStage (.replying none) := by
      simp only [Session.work, hs, Bool.false_eq_true, if_false]
    rw [hwork]
    exact h.setStage rfl fun _ => ⟨incarnation, hrevision⟩

theorem work_advanced (hs : s.stage = .advanced incarnation revision) (ok : Bool) (nowMs : Int64)
    (instant : ℕ) : ∃ p', (s.work ok nowMs instant).Orderly p' := by
  obtain ⟨hserving, hrevision, hnext⟩ : p.serving = true ∧
      s.revision = some (incarnation, revision) ∧ revision = p.revision + 1 := by
    have hsound := h.stage
    rwa [StageSound, hs] at hsound
  obtain ⟨hnone, hzero⟩ := h.serving_quiet hserving
  obtain ⟨r, hexec, hr⟩ :=
    exec_advanceRevision h.provider h.epoch hserving (show p.revision < revision by omega)
  have hwork : s.work ok nowMs instant = { s with registry := r, stage := .replying none } := by
    simp only [Session.work, hs, Session.onRegistry, hexec]
    rfl
  rw [hwork]
  refine ⟨_, of_quiet hr h.epoch ?_ hzero (fun _ => ⟨incarnation, hrevision⟩)
    fun _ => h.served hserving⟩
  simpa only [Session.tokens, hs, WorkerStage.token] using hnone

/-- Each step of the worker keeps the session orderly if it resets a settled provider. -/
theorem work (ok : Bool) (nowMs : Int64) (instant : ℕ)
    (hsettled : s.ResetsSettled (.work ok nowMs instant)) :
    ∃ p', (s.work ok nowMs instant).Orderly p' := by
  have hsound := h.stage
  rw [StageSound] at hsound
  cases hs : s.stage with
  | idle | ended =>
    simp only [Session.work, hs]
    exact ⟨p, h⟩
  | handling request =>
    simp only [Session.work, hs]
    exact ⟨p, h.setStage (token_handle s request nowMs) (h.stageSound_handle hs nowMs)⟩
  | syncing incarnation revision =>
    exact h.work_syncing (hsettled (by simp only [resets, hs])) hs ok nowMs instant
  | revoking incarnation revision =>
    rw [hs] at hsound
    cases ok with
    | true =>
      simp only [Session.work, hs, if_true]
      refine ⟨p, h.setStage rfl ⟨?_, hsound.2⟩⟩
      have htokens := s.tokens_eq_setStage (.storing incarnation revision) rfl
      rw [← hsound.1, htokens, hs]
      rfl
    | false =>
      simp only [Session.work, hs, Bool.false_eq_true, if_false]
      exact ⟨p, h.setStage rfl fun hon => by simp [hsound.2] at hon⟩
  | storing incarnation revision => exact ⟨p, h.work_storing hs ok nowMs instant⟩
  | clearing =>
    simp only [Session.work, hs]
    rw [hs] at hsound
    exact ⟨p, h.advance (.inl rfl) rfl hsound⟩
  | advancing incarnation revision => exact ⟨p, h.work_advancing hs ok nowMs instant⟩
  | advanced incarnation revision => exact h.work_advanced hs ok nowMs instant
  | gap =>
    simp only [Session.work, hs]
    have hnone : s.tokens = [] := (hsettled (by simp only [resets, hs])).tokens (by rw [hs]; rfl)
    refine ⟨p, h.advance (.inl rfl) rfl ⟨?_, rfl⟩⟩
    simpa only [Session.tokens, hs, WorkerStage.token] using hnone
  | gapSyncing => exact h.work_gapSyncing hs ok nowMs instant
  | gapRevoking =>
    rw [hs] at hsound
    cases ok with
    | true =>
      simp only [Session.work, hs, if_true]
      exact ⟨p, h.setStage rfl fun hon => by simp [hsound.2.2] at hon⟩
    | false =>
      simp only [Session.work, hs, Bool.false_eq_true, if_false]
      exact ⟨p, h.setStage rfl trivial⟩
  | replying sync =>
    rw [hs] at hsound
    cases ok with
    | true =>
      simp only [Session.work, hs, if_true]
      have htokens : ({ s with replies := s.replies ++ [sync], stage := .idle } :
          Session).tokens.Perm s.tokens := by
        have hhead : s.stage.token = (sync.map SyncToken.reply).toList := by
          cases sync <;> rw [hs] <;> rfl
        have hidle : WorkerStage.idle.token = [] := rfl
        simp only [Session.tokens, hhead, hidle, List.nil_append, List.flatMap_append,
          List.flatMap_singleton]
        exact ((List.perm_append_comm.append_right _).append_right _).append_right _
      exact ⟨p, h.move rfl rfl rfl rfl rfl (.inr ⟨rfl, rfl⟩) (fun t ht => .inl (htokens.subset ht))
        htokens.length_eq.le hsound⟩
    | false =>
      simp only [Session.work, hs, Bool.false_eq_true, if_false]
      exact ⟨p, h.setStage rfl trivial⟩

/-- The reply to a sync becomes the reply the reader waits for. -/
theorem takeReply (known : Bool) : (s.takeReply known).Orderly p := by
  cases hreplies : s.replies with
  | nil =>
    simp only [Session.takeReply, hreplies]
    exact h
  | cons reply rest =>
    have hdrop : ({ s with replies := rest } : Session).Orderly p := by
      refine h.keep rfl rfl rfl rfl rfl (.inr ⟨rfl, rfl⟩) (fun t ht => .inl ?_) ?_ rfl
      · simp only [Session.tokens, List.mem_append] at ht
        simp only [Session.tokens, hreplies, List.flatMap_cons, List.mem_append]
        tauto
      · simp only [Session.tokens, hreplies, List.flatMap_cons, List.length_append]
        omega
    cases known with
    | false =>
      simp only [Session.takeReply, hreplies]
      exact hdrop
    | true =>
      cases reply with
      | none =>
        simp only [Session.takeReply, hreplies]
        exact hdrop
      | some sync =>
        simp only [Session.takeReply, hreplies]
        refine h.keep rfl rfl rfl rfl rfl (.inr ⟨rfl, rfl⟩) (fun t ht => .inl ?_) ?_ rfl
        · simp only [Session.tokens, List.mem_append, Option.map_some, Option.toList_some] at ht
          simp only [Session.tokens, hreplies, List.flatMap_cons, List.mem_append,
            Option.map_some, Option.toList_some]
          tauto
        · simp only [Session.tokens, hreplies, List.flatMap_cons, List.length_append,
            Option.map_some, Option.toList_some, List.length_singleton]
          omega

theorem write (sync : ℕ) (ok : Bool) : (s.write sync ok).Orderly p := by
  unfold Session.write
  split
  · exact h.keep rfl rfl rfl rfl rfl (.inr ⟨rfl, rfl⟩) (fun _ => .inl) le_rfl rfl
  · exact h

/-- The PING is sent after the reply of the sync was written. -/
theorem ping (nonce : ℕ) : (s.ping nonce).Orderly p := by
  cases hwritten : s.syncWritten with
  | none =>
    simp only [Session.ping, hwritten]
    exact h
  | some sync =>
    have hsync : sync = s.base := h.tokens (.reply sync) (by simp [Session.tokens, hwritten])
    simp only [Session.ping, hwritten]
    split_ifs with hresponses hmem
    · exact h
    · refine h.keep rfl rfl rfl rfl rfl (.inr ⟨rfl, rfl⟩) (fun t ht => ?_) ?_ rfl
      · simp only [Session.tokens, List.mem_append, Option.map_some, Option.toList_some,
          List.mem_singleton, Option.map_none, Option.toList_none] at ht
        rcases ht with ((((ht | ht) | ht) | rfl) | ht)
        · exact .inl (by simp [Session.tokens, ht])
        · exact .inl (by simp only [Session.tokens, List.mem_append]; tauto)
        · exact absurd ht (by simp)
        · exact .inr (hsync ▸ hmem)
        · exact .inl (by simp only [Session.tokens, List.mem_append]; tauto)
      · simp only [Session.tokens, hwritten, List.length_append, Option.map_some,
          Option.toList_some, List.length_singleton, Option.map_none, Option.toList_none,
          List.length_nil]
        omega
    · refine h.keep rfl rfl rfl rfl rfl (.inr ⟨rfl, rfl⟩) (fun t ht => .inl ?_) ?_ rfl
      · simp only [Session.tokens, List.mem_append, Option.map_none, Option.toList_none] at ht
        simp only [Session.tokens, List.mem_append]
        rcases ht with ((((ht | ht) | ht) | ht) | ht)
        all_goals tauto
      · simp only [Session.tokens, hwritten, List.length_append, Option.map_some,
          Option.toList_some, List.length_singleton, Option.map_none, Option.toList_none,
          List.length_nil]
        omega

/-- The answered PING lets the reader take the confirmation of the sync. -/
theorem pong (nonce : ℕ) : (s.pong nonce).Orderly p := by
  cases hping : s.syncPing with
  | none =>
    simp only [Session.pong, hping]
    exact h
  | some ping =>
    have hafter : s.base ∈ ping.after :=
      h.tokens (.pinged ping.after) (by simp [Session.tokens, hping])
    simp only [Session.pong, hping]
    split_ifs with hnonce
    · refine h.keep rfl rfl rfl rfl rfl (.inl rfl) (fun t ht => ?_) ?_ rfl
      · simp only [Session.tokens, List.mem_append, Option.map_some, Option.toList_some,
          List.mem_singleton, Option.map_none, Option.toList_none] at ht
        rcases ht with ((((ht | ht) | ht) | ht) | rfl)
        · exact .inl (by simp only [Session.tokens, List.mem_append]; tauto)
        · exact .inl (by simp only [Session.tokens, List.mem_append]; tauto)
        · exact .inl (by simp only [Session.tokens, List.mem_append]; tauto)
        · exact absurd ht (by simp)
        · exact .inr ⟨hafter, rfl, fun hne => (h.confirmation hne).2⟩
      · simp only [Session.tokens, hping, List.length_append, Option.map_some,
          Option.toList_some, List.length_singleton, Option.map_none, Option.toList_none,
          List.length_nil]
        omega
    · exact h

end

/-- While a token is on its way the worker does not rely on what the provider serves. -/
theorem stageSound_of_token {p' : Provider} (hsound : s.StageSound p) (hsome : s.tokens ≠ [])
    (hoff : p.serving = false)
    (hrevision : ∃ incarnation, s.revision = some (incarnation, p'.revision))
    (hsame : s'.stage = s.stage) (hsameRevision : s'.revision = s.revision) : s'.StageSound p' := by
  unfold StageSound at hsound ⊢
  unfold Recorded at hsound ⊢
  split at hsound <;> simp_all

/-- The reader makes the provider serve the revision that the worker has recorded. -/
theorem serve (h : s.Orderly p) (admission : Bool) (nowMs : Int64) (instant : ℕ) :
    ∃ p', (s.serve admission nowMs instant).Orderly p' := by
  cases hheld : s.held with
  | none =>
    simp only [Session.serve, hheld]
    exact ⟨p, h⟩
  | some c =>
    have hmem : SyncToken.held c ∈ s.tokens := by simp [Session.tokens, hheld]
    obtain ⟨hafter, hzero, hc⟩ := h.tokens _ hmem
    -- the token is the only one, so it leaves no other behind
    have hnone : ({ s with held := none } : Session).tokens = [] := by
      have hfew := h.few
      simp only [Session.tokens, hheld, Option.map_some, Option.toList_some,
        List.length_append, List.length_singleton] at hfew
      simp only [Session.tokens, Option.map_none, Option.toList_none, List.append_nil]
      apply List.length_eq_zero_iff.mp
      simp only [List.length_append]
      omega
    have hsome : s.tokens ≠ [] := List.ne_nil_of_mem hmem
    have hoff : p.serving = false := h.waiting hsome
    have hdropped : ∃ p', ({ s with held := none } : Session).Orderly p' := by
      refine ⟨p, h.keep rfl rfl rfl rfl rfl (.inr ⟨rfl, rfl⟩) (fun t ht => ?_) ?_ rfl⟩
      · rw [hnone] at ht
        exact absurd ht (by simp)
      · rw [hnone]
        exact Nat.zero_le _
    simp only [Session.serve, hheld]
    split_ifs with hserve
    · obtain ⟨hbase, incarnation, hrevision⟩ := hc hserve.1
      simp only [Session.onRegistry]
      rcases exec_markServing h.provider h.epoch c.revision nowMs instant with
        ⟨r, hexec, hr⟩ | ⟨e, hexec⟩
      · rw [hexec]
        refine ⟨_, of_quiet hr h.epoch hnone hzero ?_ fun _ => ⟨c, rfl, hbase, hafter⟩⟩
        exact stageSound_of_token h.stage hsome hoff ⟨incarnation, hrevision⟩ rfl rfl
      · rw [hexec]
        obtain ⟨p', hp'⟩ := hdropped
        exact ⟨p', hp'.keep rfl rfl rfl rfl rfl (.inr ⟨rfl, rfl⟩) (fun _ => .inl) le_rfl rfl⟩
    · exact hdropped

/-- Every action keeps a session orderly, if resets are settled. -/
theorem step (h : s.Orderly p) (a : SessionAction) (hsettled : s.ResetsSettled a) :
    ∃ p', (s.step a).Orderly p' := by
  unfold Session.step
  split
  · exact ⟨p, h⟩
  cases a with
  | request request admission =>
    cases hs : s.stage with
    | idle =>
      have hsound := h.stage
      rw [StageSound, hs] at hsound
      cases admission with
      | true | false => exact ⟨p, h.setStage rfl hsound⟩
    | _ => exact ⟨p, h⟩
  | work ok nowMs instant => exact h.work ok nowMs instant hsettled
  | takeReply known =>
    split_ifs
    · exact ⟨p, h⟩
    · exact ⟨p, h.takeReply known⟩
  | write sync ok => exact ⟨p, h.write sync ok⟩
  | ping nonce =>
    split_ifs
    · exact ⟨p, h⟩
    · exact ⟨p, h.ping nonce⟩
  | pong nonce =>
    split_ifs
    · exact ⟨p, h⟩
    · exact ⟨p, h.pong nonce⟩
  | serve admission nowMs instant => exact h.serve admission nowMs instant
  | close =>
    exact ⟨p, h.keep rfl rfl rfl rfl rfl (.inr ⟨rfl, rfl⟩) (fun _ => .inl) le_rfl rfl⟩

end Orderly

/-- A provider that was just registered does not serve. -/
theorem Started.orderly (h : s.Started) : ∃ p, s.Orderly p := by
  obtain ⟨registry, scope, expiresAtMs, instant, epoch, registered, hexec, rfl⟩ := h
  unfold registerWithExpiry at hexec
  simp only [Op.exec_get_bind, Op.exec_ensure_bind] at hexec
  split_ifs at hexec
  · obtain ⟨rfl, rfl⟩ := hexec
    exact ⟨_, .of_quiet rfl rfl rfl rfl (fun hon => absurd hon (by simp))
      fun hon => absurd hon (by simp)⟩
  · exact absurd hexec (by simp)

/-- While the worker is between requests and the provider serves, the worker has recorded the
revision it serves, and the PONG that made it serve answered a PING sent after the reply to the
sync of that revision was written. -/
def Coherent (s : Session) : Prop :=
  s.stage = .idle → ∀ p, s.registry.provider = some p → p.epoch = s.epoch → p.serving = true →
    (∃ incarnation, s.revision = some (incarnation, p.revision)) ∧
      ∃ c, s.served = some c ∧ s.base ∈ c.after

theorem Orderly.coherent {p : Provider} (h : s.Orderly p) : s.Coherent := by
  intro hidle q hq _ hserving
  obtain rfl : p = q := Option.some.inj (h.provider.symm.trans hq)
  have hsound := h.stage
  rw [StageSound, hidle] at hsound
  obtain ⟨c, hc, -, hafter⟩ := h.served hserving
  exact ⟨hsound hserving, c, hc, hafter⟩

end Session

/-- In every run that resets the provider only while no sync waits for its confirmation, every
state is coherent. -/
theorem serving_coherent (s : Session)
    (h : (controlling.restrict Session.ResetsSettled).Reachable s) : s.Coherent := by
  have horderly : ∃ p, s.Orderly p :=
    h.invariant (I := fun s => ∃ p, s.Orderly p) (fun _ => Session.Started.orderly)
      fun _ a _ ⟨_, hp⟩ ⟨hsettled, hstep⟩ => hstep ▸ hp.step a hsettled
  obtain ⟨p, hp⟩ := horderly
  exact hp.coherent

/-- The provider of the runs below. -/
def sampleSession : Session :=
  .new (Op.exec (registerWithExpiry ⟨true, []⟩ none 0) (.new 4 1000 0)).2 1

theorem started_sampleSession : sampleSession.Started :=
  ⟨.new 4 1000 0, ⟨true, []⟩, none, 0, 1, _, rfl, rfl⟩

/-- A sync from its request to its queued reply. -/
def syncActions (revision : ℕ) : List SessionAction :=
  .request (.authSync true 1 revision) true :: List.replicate 5 (.work true 0 0)

/-- The reply to the first sync is written, and the PING is sent. -/
def pingActions : List SessionAction := [.takeReply true, .write 1 true, .ping 7]

/-- The PONG arrives, and the provider serves. -/
def serveActions : List SessionAction := [.pong 7, .serve true 0 0]

def servedSession : Session :=
  (syncActions 5 ++ pingActions ++ serveActions).foldl step sampleSession

/-- A single sync makes the provider serve its revision. -/
theorem serving_coherent_sample :
    servedSession.registry.provider.map (fun p => (p.serving, p.revision)) = some (true, 5) ∧
      servedSession.Coherent :=
  ⟨by decide +kernel, serving_coherent servedSession (System.Reachable.foldl_restrict
    (fun _ _ => rfl) _ (.start started_sampleSession) (by decide +kernel))⟩

/-- A second sync is done before the PONG arrives. -/
def overtakenActions : List SessionAction :=
  syncActions 5 ++ pingActions ++ syncActions 9 ++ [.pong 7, .serve true 0 0]

/-- A second sync is done between the PONG and its effect. -/
def staleActions : List SessionAction :=
  syncActions 5 ++ pingActions ++ .pong 7 :: syncActions 9 ++ [.serve true 0 0]

def overtakenSession : Session := overtakenActions.foldl step sampleSession

def staleSession : Session := staleActions.foldl step sampleSession

/-- A second sync that is done before the PONG to the first lets the provider serve a revision
whose reply was not written when the PING was sent; one that is done after the PONG lets it
serve another revision than the worker has recorded. -/
theorem serving_incoherent :
    (controlling.Reachable overtakenSession ∧ ¬ overtakenSession.Coherent) ∧
      controlling.Reachable staleSession ∧ ¬ staleSession.Coherent := by
  have hstart : controlling.Reachable sampleSession := .start started_sampleSession
  refine ⟨⟨System.Reachable.foldl (fun _ _ => rfl) overtakenActions hstart, fun h => ?_⟩,
    System.Reachable.foldl (fun _ _ => rfl) staleActions hstart, fun h => ?_⟩
  · obtain ⟨-, c, hc, hafter⟩ := h rfl ⟨⟨true, []⟩, 1, true, 9, none⟩ rfl rfl rfl
    have hserved : overtakenSession.served = some ⟨9, 2, [1]⟩ := rfl
    have hbase : overtakenSession.base = 2 := rfl
    obtain rfl := Option.some.inj (hserved.symm.trans hc)
    simp [hbase] at hafter
  · obtain ⟨⟨incarnation, hrevision⟩, -⟩ := h rfl ⟨⟨true, []⟩, 1, true, 5, none⟩ rfl rfl rfl
    have hrecorded : staleSession.revision = some (1, 9) := rfl
    simp [hrecorded] at hrevision

end Netbaiot.Rpc
