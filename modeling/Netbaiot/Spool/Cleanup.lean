import Netbaiot.Lib.Follows
import Netbaiot.Spool.Readers

/-!
# Cleanup after a recovery

A recovered batch names the snapshot it came from by its generation, and `removeCommitted`
unlinks the snapshot only if it still has that generation.  A commit that finds no snapshot begins
again with generation 1, so a batch whose cleanup is tried again after such a commit takes the new
snapshot for its own (`retried_cleanup_deletes_newer`).  Unless the generations began again since
the recovery and have come back to one of the batch, cleanup deletes nothing newer
(`cleanup_keeps_newer`).
-/

namespace Netbaiot.Spool

open Lib Lib.Op EventBus

/-- A file of a recovered batch; it is always the snapshot of the recovery directory. -/
structure CommittedSpool where
  generation : ℕ
deriving DecidableEq

structure RecoveryBatch (ρ : Type) where
  records : List ρ
  committedFiles : List CommittedSpool
  generation : ℕ

/-- A recovery directory during a call, and how many unlinks and directory syncs of the call
succeed before one fails. -/
structure Disk where
  directory : RecoveryDirectory
  healthy : ℕ

/-- An unlink or a directory sync, which may fail. -/
def fileSystem (effect : RecoveryDirectory → RecoveryDirectory) : Op Disk Error Unit := do
  let disk ← get
  ensure (0 < disk.healthy) .storage
  set (⟨effect disk.directory, disk.healthy - 1⟩ : Disk)

section Calls

variable {ρ : Type} (sha : Sha256) (fromSlice : List UInt8 → Option ρ) (limits : Limits)

/-- Read the snapshot; spool files without it are an error. -/
def recoverSync (directory : RecoveryDirectory) : Except Error (RecoveryBatch ρ) :=
  match directory.snapshot with
  | some file => do
      let (generation, records) ← readSegmentStream sha fromSlice limits file
      return ⟨records, [⟨generation⟩], generation⟩
  | none => do
      check (directory.entries ≤ limits.spoolMaxRecords + 16) .overloaded
      match directory.others with
      | file :: _ => do
          let _ ← readSegmentStream sha fromSlice limits file
          .error .invalid
      | [] => return ⟨[], [], 0⟩

/-- Replace the snapshot by a rename and sync the directory; nothing is written for no records. -/
def commit (records : List (List UInt8)) : Op Disk Error Unit :=
  if records = [] then pure ()
  else do
    let disk ← get
    let directory ← fromExcept (commitSerializableSync sha limits fromSlice disk.directory records)
    modify fun disk => { disk with directory }
    fileSystem id

/-- Unlink the other spool files in the order of their paths. -/
def removeStale : List (List UInt8) → Op Disk Error Unit
  | [] => pure ()
  | _ :: rest => do
      fileSystem fun directory => { directory with others := directory.others.tail }
      removeStale rest

/-- Unlink the snapshot of a batch, after the other spool files, if its generation is still that of
the batch. -/
def removeFile (committed : CommittedSpool) : Op Disk Error Unit := do
  let disk ← get
  let file ← someOr disk.directory.snapshot .storage
  let (generation, _) ← fromExcept (readSegmentStream sha fromSlice limits file)
  whenever (generation = committed.generation) do
    ensure (disk.directory.entries ≤ limits.spoolMaxRecords + 16) .overloaded
    -- All of them are validated before the first one is removed.
    let _ ← fromExcept (disk.directory.others.mapM (readSegmentStream sha fromSlice limits))
    removeStale disk.directory.others
    fileSystem fun directory => { directory with snapshot := none }

/-- Clean up after a recovered batch. -/
def removeCommitted (files : List CommittedSpool) : Op Disk Error Unit := do
  files.forM (removeFile sha fromSlice limits)
  fileSystem id

end Calls

/-! ## Generations -/

/-- The generation in the header of a file. -/
def generationOf (file : List UInt8) : ℕ := ofBeBytes ((file.drop 8).take 8)

section Calls

variable {ρ : Type} {sha : Sha256} {fromSlice : List UInt8 → Option ρ} {limits : Limits}

theorem readSegmentStream_generation {file : List UInt8} {generation : ℕ} {records : List ρ}
    (h : readSegmentStream sha fromSlice limits file = .ok (generation, records)) :
    generation = generationOf file :=
  (readSegmentStream_eq_ok.mp h).2.2.generation_eq.symm

theorem previousGeneration_some {directory : RecoveryDirectory} {file : List UInt8}
    (hfile : directory.snapshot = some file) {previous : ℕ}
    (h : previousGeneration sha fromSlice limits directory = .ok previous) :
    previous = generationOf file := by
  simp only [previousGeneration, hfile] at h
  cases hread : readSegmentStream sha fromSlice limits file with
  | error e =>
    rw [hread] at h
    cases h
  | ok found =>
    rw [hread] at h
    cases h
    exact readSegmentStream_generation hread

theorem previousGeneration_none {directory : RecoveryDirectory}
    (hnone : directory.snapshot = none) {previous : ℕ}
    (h : previousGeneration sha fromSlice limits directory = .ok previous) : previous = 0 := by
  simp only [previousGeneration, hnone, except_bind_eq_ok] at h
  obtain ⟨-, -, h⟩ := h
  cases hothers : directory.others with
  | nil =>
    rw [hothers] at h
    cases h
    rfl
  | cons file rest =>
    simp only [hothers, except_bind_eq_ok] at h
    obtain ⟨-, -, h⟩ := h
    cases h

/-- A commit writes a file of the generation that follows. -/
theorem commitSerializableSync_generation {directory directory' : RecoveryDirectory}
    {records : List (List UInt8)}
    (h : commitSerializableSync sha limits fromSlice directory records = .ok directory') :
    ∃ file previous, directory'.snapshot = some file ∧
      previousGeneration sha fromSlice limits directory = .ok previous ∧
      generationOf file = previous + 1 := by
  simp only [commitSerializableSync, except_bind_eq_ok, check_eq_ok] at h
  obtain ⟨-, -, -, -, previous, hprevious, -, hgeneration, -, hempty, ⟨written, total⟩, hwrite,
    hresult⟩ := h
  cases hresult
  obtain ⟨hwritten, -⟩ := writeRecords_spec hwrite (header_length (previous + 1)).symm (by decide)
    hempty
  refine ⟨_, previous, rfl, hprevious, ?_⟩
  rw [hwritten, List.append_assoc]
  exact (header_fields hgeneration _).2.2

/-- A recovered batch names the generation of the snapshot. -/
theorem recoverSync_eq_ok {directory : RecoveryDirectory} {batch : RecoveryBatch ρ}
    (h : recoverSync sha fromSlice limits directory = .ok batch) {committed : CommittedSpool}
    (hcommitted : committed ∈ batch.committedFiles) {file : List UInt8}
    (hfile : directory.snapshot = some file) : committed.generation = generationOf file := by
  simp only [recoverSync, hfile, except_bind_eq_ok] at h
  obtain ⟨⟨generation, records⟩, hread, hbatch⟩ := h
  cases hbatch
  rw [List.mem_singleton.mp hcommitted]
  exact readSegmentStream_generation hread

/-- A call leaves the snapshot alone, or unlinks it and a file of the batch has its generation. -/
def Cleans (files : List CommittedSpool) (disk disk' : Disk) : Prop :=
  disk'.directory.snapshot = disk.directory.snapshot ∨
    disk'.directory.snapshot = none ∧ ∀ file, disk.directory.snapshot = some file →
      ∃ committed ∈ files, generationOf file = committed.generation

instance (files : List CommittedSpool) : Std.Refl (Cleans files) where
  refl _ := .inl rfl

instance (files : List CommittedSpool) : IsTrans Disk (Cleans files) where
  trans first second third hfirst hsecond := by
    obtain hsame | ⟨hnone, hfiles⟩ := hfirst
    · rw [Cleans, ← hsame]
      exact hsecond
    · refine .inr ⟨?_, hfiles⟩
      obtain hsame | ⟨hgone, -⟩ := hsecond
      · exact hsame.trans hnone
      · exact hgone

theorem followsAt_fileSystem {R : Disk → Disk → Prop} [Std.Refl R]
    {effect : RecoveryDirectory → RecoveryDirectory} {disk : Disk}
    (h : R disk ⟨effect disk.directory, disk.healthy - 1⟩) : FollowsAt R (fileSystem effect) disk :=
  followsAt_get_bind (followsAt_ensure_bind fun _ => h)

theorem removeStale_cleans (files : List CommittedSpool) (others : List (List UInt8)) :
    Follows (Cleans files) (removeStale others) := by
  induction others with
  | nil => exact fun disk => followsAt_pure () disk
  | cons _ rest ih =>
    refine Follows.bind (fun disk => ?_) fun _ => ih
    exact followsAt_fileSystem (.inl rfl)

theorem removeStale_snapshot {others : List (List UInt8)} {disk disk' : Disk}
    {r : Except Error Unit} (h : exec (removeStale others) disk = (r, disk')) :
    disk'.directory.snapshot = disk.directory.snapshot := by
  obtain hsame | ⟨hnone, hfiles⟩ := (removeStale_cleans [] others).of_exec h
  · exact hsame
  · cases hfile : disk.directory.snapshot with
    | none => exact hnone
    | some file =>
      obtain ⟨_, hmem, -⟩ := hfiles file hfile
      cases hmem

/-- Only a snapshot with the generation of the file is unlinked. -/
theorem removeFile_cleans {files : List CommittedSpool} {committed : CommittedSpool}
    (hmem : committed ∈ files) :
    Follows (Cleans files) (removeFile sha fromSlice limits committed) := by
  intro disk
  refine followsAt_get_bind (followsAt_someOr_bind fun file hfile => ?_)
  refine followsAt_fromExcept_bind fun found hread => followsAt_whenever fun hsame => ?_
  refine followsAt_ensure_bind fun _ => followsAt_fromExcept_bind fun _ _ => ?_
  refine followsAt_bind (removeStale_cleans files _ disk) fun _ disk' hstale => ?_
  refine followsAt_fileSystem (.inr ⟨rfl, fun file' hfile' => ⟨committed, hmem, ?_⟩⟩)
  rw [removeStale_snapshot hstale, hfile] at hfile'
  cases hfile'
  exact (readSegmentStream_generation hread).symm.trans hsame

theorem removeCommitted_cleans (files : List CommittedSpool) :
    Follows (Cleans files) (removeCommitted sha fromSlice limits files) := by
  have hloop : ∀ rest : List CommittedSpool, (∀ committed ∈ rest, committed ∈ files) →
      Follows (Cleans files) (rest.forM (removeFile sha fromSlice limits)) := by
    intro rest
    induction rest with
    | nil => exact fun _ disk => followsAt_pure () disk
    | cons committed rest ih =>
      intro hrest
      show Follows _ (removeFile sha fromSlice limits committed >>= fun _ =>
        rest.forM (removeFile sha fromSlice limits))
      refine (removeFile_cleans (hrest committed List.mem_cons_self)).bind fun _ => ?_
      exact ih fun other hother => hrest other (List.mem_cons_of_mem _ hother)
  refine (hloop files fun _ h => h).bind fun _ disk => ?_
  exact followsAt_fileSystem (.inl rfl)

end Calls

/-! ## Runs -/

/-- A batch and the number of commits before its recovery. -/
structure KeptBatch (ρ : Type) where
  batch : RecoveryBatch ρ
  recoveredAt : ℕ

/-- A recovery directory with the batches that were recovered from it.  Commits are numbered, also
those whose directory sync failed after the rename. -/
structure Spooling (ρ : Type) where
  directory : RecoveryDirectory
  commits : ℕ
  /-- The commit that wrote the snapshot, 0 if it was there before. -/
  writtenBy : ℕ
  /-- The last commit that found no snapshot. -/
  restartedBy : ℕ
  kept : List (KeptBatch ρ)

inductive SpoolAction (ρ : Type) where
  | commit (records : List (List UInt8)) (healthy : ℕ)
  | recover
  | removeCommitted (batch : KeptBatch ρ) (healthy : ℕ)
  /-- Entries that are no spool files come and go, as temporary files do. -/
  | ignored (count : ℕ)

section Runs

variable {ρ : Type} (sha : Sha256) (fromSlice : List UInt8 → Option ρ) (limits : Limits)

/-- Number a commit that replaces the snapshot. -/
def Spooling.numbered (s : Spooling ρ) (directory : RecoveryDirectory) : Spooling ρ where
  directory
  commits := s.commits + 1
  writtenBy := s.commits + 1
  restartedBy := if s.directory.snapshot.isNone then s.commits + 1 else s.restartedBy
  kept := s.kept

def Spooling.perform (s : Spooling ρ) : SpoolAction ρ → Spooling ρ
  | .commit records healthy =>
      let disk := (exec (commit sha fromSlice limits records) ⟨s.directory, healthy⟩).2
      if disk.directory.snapshot = s.directory.snapshot then
        { s with directory := disk.directory }
      else s.numbered disk.directory
  | .recover =>
      match recoverSync sha fromSlice limits s.directory with
      | .ok batch => { s with kept := ⟨batch, s.commits⟩ :: s.kept }
      | .error _ => s
  | .removeCommitted kept healthy =>
      { s with directory := (exec (removeCommitted sha fromSlice limits kept.batch.committedFiles)
          ⟨s.directory, healthy⟩).2.directory }
  | .ignored count => { s with directory := { s.directory with ignored := count } }

/-- Calls on one recovery directory; cleanup is called with recovered batches, any number of
times. -/
def spooling : System (Spooling ρ) (SpoolAction ρ) where
  start s := s.commits = 0 ∧ s.writtenBy = 0 ∧ s.restartedBy = 0 ∧ s.kept = []
  step s action s' := (∀ kept healthy, action = .removeCommitted kept healthy → kept ∈ s.kept) ∧
    s' = s.perform sha fromSlice limits action

/-- A commit leaves the snapshot alone or puts a new one in its place. -/
theorem commit_snapshot (records : List (List UInt8)) (disk : Disk) :
    (exec (commit sha fromSlice limits records) disk).2.directory.snapshot =
        disk.directory.snapshot ∨
      ∃ directory, commitSerializableSync sha limits fromSlice disk.directory records =
          .ok directory ∧
        (exec (commit sha fromSlice limits records) disk).2.directory.snapshot =
          directory.snapshot := by
  unfold commit
  by_cases hrecords : records = []
  · rw [if_pos hrecords]
    exact .inl rfl
  rw [if_neg hrecords, exec_get_bind, exec_fromExcept_bind]
  cases commitSerializableSync sha limits fromSlice disk.directory records with
  | error e => exact .inl rfl
  | ok directory =>
    refine .inr ⟨directory, rfl, ?_⟩
    dsimp only
    rw [exec_modify_bind]
    simp only [fileSystem, exec_get_bind, exec_ensure_bind]
    split <;> rfl

/-- Cleanup leaves the snapshot alone, or unlinks it and the batch names its generation. -/
theorem cleanup_snapshot (s : Spooling ρ) (kept : KeptBatch ρ) (healthy : ℕ) :
    (s.perform sha fromSlice limits (.removeCommitted kept healthy)).directory.snapshot =
        s.directory.snapshot ∨
      (s.perform sha fromSlice limits (.removeCommitted kept healthy)).directory.snapshot = none ∧
        ∀ file, s.directory.snapshot = some file →
          ∃ committed ∈ kept.batch.committedFiles, generationOf file = committed.generation :=
  removeCommitted_cleans kept.batch.committedFiles ⟨s.directory, healthy⟩

/-- The generation that the commits have reached since one last began again. -/
def Spooling.reached (s : Spooling ρ) : ℕ := s.writtenBy + 1 - s.restartedBy

/-- Cleanup after a batch unlinks a snapshot that was committed after the recovery. -/
def DeletesNewer (s : Spooling ρ) (kept : KeptBatch ρ) (healthy : ℕ) : Prop :=
  s.directory.snapshot.isSome ∧
    (s.perform sha fromSlice limits (.removeCommitted kept healthy)).directory.snapshot = none ∧
    kept.recoveredAt < s.writtenBy

end Runs

section Runs

variable {ρ : Type} {sha : Sha256} {fromSlice : List UInt8 → Option ρ} {limits : Limits}

/-- Since the recovery of a batch, generations have only grown, unless they began again. -/
structure Grown (s : Spooling ρ) : Prop where
  writtenBy_eq : s.writtenBy = s.commits
  restartedBy_le : s.restartedBy ≤ s.commits
  /-- A commit that finds no snapshot writes generation 1. -/
  reached : s.restartedBy ≠ 0 → ∀ file, s.directory.snapshot = some file →
    generationOf file = s.reached
  recoveredAt_le : ∀ kept ∈ s.kept, kept.recoveredAt ≤ s.commits
  generation : ∀ kept ∈ s.kept, s.restartedBy ≤ kept.recoveredAt →
    ∀ committed ∈ kept.batch.committedFiles, ∀ file, s.directory.snapshot = some file →
      committed.generation ≤ generationOf file ∧
        (kept.recoveredAt < s.writtenBy → committed.generation < generationOf file)

/-- What leaves the snapshot alone or unlinks it keeps the generations. -/
theorem Grown.of_snapshot {s : Spooling ρ} (h : Grown s) {directory : RecoveryDirectory}
    (hsnapshot : ∀ file, directory.snapshot = some file → s.directory.snapshot = some file) :
    Grown { s with directory } where
  writtenBy_eq := h.writtenBy_eq
  restartedBy_le := h.restartedBy_le
  reached hrestarted file hfile := h.reached hrestarted file (hsnapshot file hfile)
  recoveredAt_le := h.recoveredAt_le
  generation kept hkept hrestarted committed hcommitted file hfile :=
    h.generation kept hkept hrestarted committed hcommitted file (hsnapshot file hfile)

/-- A commit that finds a snapshot writes a newer generation; one that finds none leaves no batch
of an earlier recovery to compare with. -/
theorem grown_commit {s : Spooling ρ} (h : Grown s) (records : List (List UInt8)) (healthy : ℕ) :
    Grown (s.perform sha fromSlice limits (.commit records healthy)) := by
  unfold Spooling.perform
  dsimp only
  split
  · next hsame => exact h.of_snapshot fun file hfile => hsame.symm.trans hfile
  · next hnew =>
    obtain hsame | ⟨directory, hcommit, hsnapshot⟩ :=
      commit_snapshot sha fromSlice limits records ⟨s.directory, healthy⟩
    · exact absurd hsame hnew
    obtain ⟨file, previous, hfile, hprevious, hgeneration⟩ :=
      commitSerializableSync_generation hcommit
    have hwritten := h.writtenBy_eq
    have hlast := h.restartedBy_le
    cases hfound : s.directory.snapshot with
    | none =>
      have hzero := previousGeneration_none hfound hprevious
      have hbegun : (s.numbered directory).restartedBy = s.commits + 1 := by
        simp only [Spooling.numbered, hfound, Option.isNone_none, if_true]
      refine ⟨rfl, hbegun.le, fun _ file' hfile' => ?_, fun kept hkept =>
        (h.recoveredAt_le kept hkept).trans (Nat.le_succ _), fun kept hkept hrestarted => ?_⟩
      · cases hfile'.symm.trans (hsnapshot.trans hfile)
        show _ = s.commits + 1 + 1 - (s.numbered directory).restartedBy
        omega
      · -- No batch was recovered since.
        have hrecovered := h.recoveredAt_le kept hkept
        have : (s.numbered directory).restartedBy ≤ kept.recoveredAt := hrestarted
        omega
    | some old =>
      have hold := previousGeneration_some hfound hprevious
      have hbegun : (s.numbered directory).restartedBy = s.restartedBy := by
        simp only [Spooling.numbered, hfound, Option.isNone_some, Bool.false_eq_true, if_false]
      refine ⟨rfl, hbegun.le.trans (hlast.trans (Nat.le_succ _)), fun hrestarted file' hfile' => ?_,
        fun kept hkept => (h.recoveredAt_le kept hkept).trans (Nat.le_succ _),
        fun kept hkept hrestarted committed hcommitted file' hfile' => ?_⟩
      · cases hfile'.symm.trans (hsnapshot.trans hfile)
        have hreached : generationOf old = s.writtenBy + 1 - s.restartedBy :=
          h.reached (hbegun ▸ hrestarted) old hfound
        show _ = s.commits + 1 + 1 - (s.numbered directory).restartedBy
        omega
      · cases hfile'.symm.trans (hsnapshot.trans hfile)
        have hle := (h.generation kept hkept (hbegun ▸ hrestarted) committed hcommitted old
          hfound).1
        exact ⟨by omega, fun _ => by omega⟩

theorem grown_recover {s : Spooling ρ} (h : Grown s) :
    Grown (s.perform sha fromSlice limits .recover) := by
  unfold Spooling.perform
  dsimp only
  split
  · next batch hbatch =>
    refine ⟨h.writtenBy_eq, h.restartedBy_le, h.reached, ?_, ?_⟩
    · intro kept hkept
      obtain rfl | hkept := List.mem_cons.mp hkept
      · exact le_rfl
      · exact h.recoveredAt_le kept hkept
    · intro kept hkept hrestarted committed hcommitted file hfile
      obtain rfl | hkept := List.mem_cons.mp hkept
      · -- The snapshot the batch came from was not committed after the recovery.
        have hwritten := h.writtenBy_eq
        exact ⟨(recoverSync_eq_ok hbatch hcommitted hfile).le, fun hlater => by
          have : s.commits < s.writtenBy := hlater
          omega⟩
      · exact h.generation kept hkept hrestarted committed hcommitted file hfile
  · exact h

theorem grown_of_reachable {s : Spooling ρ}
    (h : (spooling sha fromSlice limits).Reachable s) : Grown s := by
  refine h.invariant ?_ ?_
  · rintro s ⟨hcommits, hwritten, hrestarted, hkept⟩
    refine ⟨by omega, by omega, fun h => absurd hrestarted h, ?_, ?_⟩
    all_goals
      intro kept hmem
      rw [hkept] at hmem
      cases hmem
  · rintro s action s' hgrown ⟨-, rfl⟩
    cases action with
    | commit records healthy => exact grown_commit hgrown records healthy
    | recover => exact grown_recover hgrown
    | removeCommitted kept healthy =>
      refine hgrown.of_snapshot fun file hfile => ?_
      obtain hsame | ⟨hnone, -⟩ := cleanup_snapshot sha fromSlice limits s kept healthy
      · exact hsame.symm.trans hfile
      · cases hnone.symm.trans hfile
    | ignored count => exact hgrown.of_snapshot fun file hfile => hfile

/-- In every run, cleanup after a batch deletes no snapshot that was committed after the recovery,
unless a commit has begun again since then and the generation reached is one of the batch. -/
theorem cleanup_keeps_newer {s : Spooling ρ} (h : (spooling sha fromSlice limits).Reachable s)
    {kept : KeptBatch ρ} (hkept : kept ∈ s.kept)
    (hrestarted : kept.recoveredAt < s.restartedBy → ⟨s.reached⟩ ∉ kept.batch.committedFiles)
    (healthy : ℕ) : ¬ DeletesNewer sha fromSlice limits s kept healthy := by
  rintro ⟨hsome, hgone, hnewer⟩
  obtain ⟨file, hfile⟩ := Option.isSome_iff_exists.mp hsome
  obtain hsame | ⟨-, hfiles⟩ := cleanup_snapshot sha fromSlice limits s kept healthy
  · cases hgone.symm.trans (hsame.trans hfile)
  obtain ⟨committed, hcommitted, hgeneration⟩ := hfiles file hfile
  have hgrown := grown_of_reachable h
  obtain hsince | hbefore := lt_or_ge kept.recoveredAt s.restartedBy
  · refine hrestarted hsince ?_
    rw [← hgrown.reached (by omega) file hfile, hgeneration]
    exact hcommitted
  · have hgrew := hgrown.generation kept hkept hbefore committed hcommitted file hfile
    exact absurd hgeneration (hgrew.2 hnewer).ne'

/-- A commit keeps the recovered batches. -/
theorem Spooling.kept_commit (s : Spooling ρ) (records : List (List UInt8)) (healthy : ℕ) :
    (s.perform sha fromSlice limits (.commit records healthy)).kept = s.kept := by
  unfold Spooling.perform
  dsimp only
  split <;> rfl

/-- What cleanup does is determined by the generations of a batch. -/
theorem Spooling.perform_congr (s : Spooling ρ) {kept kept' : KeptBatch ρ}
    (h : kept.batch.committedFiles = kept'.batch.committedFiles) (healthy : ℕ) :
    s.perform sha fromSlice limits (.removeCommitted kept healthy) =
      s.perform sha fromSlice limits (.removeCommitted kept' healthy) := by
  simp only [Spooling.perform, h]

end Runs

/-- One call of a run with the sample record. -/
def sampleStep (s : Spooling SpoolRecord) (action : SpoolAction SpoolRecord) :
    Spooling SpoolRecord :=
  s.perform .standard parseSample .default action

theorem sampleStep_reachable {s : Spooling SpoolRecord}
    (h : (spooling .standard parseSample .default).Reachable s) (action : SpoolAction SpoolRecord)
    (hkept : ∀ kept healthy, action = .removeCommitted kept healthy → kept ∈ s.kept) :
    (spooling .standard parseSample .default).Reachable (sampleStep s action) :=
  h.step ⟨hkept, rfl⟩

/-- Commit the sample record; the directory sync succeeds. -/
def sampleCommit : SpoolAction SpoolRecord := .commit [snapshotJson sampleSpooled] 1

/-- The sample record is committed to an empty directory and recovered. -/
def sampleRecovered : Spooling SpoolRecord :=
  sampleStep (sampleStep ⟨⟨none, [], 0⟩, 0, 0, 0, []⟩ sampleCommit) .recover

theorem sampleRecovered_reachable :
    (spooling .standard parseSample .default).Reachable sampleRecovered := by
  have hempty : (spooling .standard parseSample .default).Reachable ⟨⟨none, [], 0⟩, 0, 0, 0, []⟩ :=
    .start ⟨rfl, rfl, rfl, rfl⟩
  have hcommitted := sampleStep_reachable hempty sampleCommit fun _ _ h => nomatch h
  exact sampleStep_reachable hcommitted .recover fun _ _ h => nomatch h

/-- The recovered batch names the first generation. -/
theorem sampleRecovered_kept : ∃ kept ∈ sampleRecovered.kept,
    kept.batch.committedFiles = [⟨1⟩] ∧ kept.recoveredAt = 1 := by
  have hfiles : sampleRecovered.kept.map (fun kept =>
      (kept.batch.committedFiles, kept.recoveredAt)) = [([⟨1⟩], 1)] := by decide +kernel
  obtain ⟨kept, hkept, hbatch⟩ := List.map_eq_singleton_iff.mp hfiles
  obtain ⟨hcommitted, hrecovered⟩ := Prod.mk.inj hbatch
  refine ⟨kept, ?_, hcommitted, hrecovered⟩
  rw [hkept]
  exact List.mem_singleton_self kept

/-- A second commit replaces the snapshot, which cleanup after the first one then keeps. -/
theorem cleanup_keeps_second_commit : ∃ kept ∈ sampleRecovered.kept,
    ¬ DeletesNewer .standard parseSample .default (sampleStep sampleRecovered sampleCommit) kept
      2 := by
  obtain ⟨kept, hkept, -, hrecovered⟩ := sampleRecovered_kept
  have hreachable := sampleStep_reachable sampleRecovered_reachable sampleCommit
    fun _ _ h => nomatch h
  have hkept' : kept ∈ (sampleStep sampleRecovered sampleCommit).kept := by
    rw [sampleStep, sampleCommit, Spooling.kept_commit]
    exact hkept
  have hrestarted : (sampleStep sampleRecovered sampleCommit).restartedBy = 1 := by
    decide +kernel
  exact ⟨kept, hkept, cleanup_keeps_newer hreachable hkept' (fun _ => by omega) 2⟩

/-- Cleanup unlinks the snapshot but cannot sync the directory, and the record is committed
again. -/
def sampleRetried (kept : KeptBatch SpoolRecord) : Spooling SpoolRecord :=
  sampleStep (sampleStep sampleRecovered (.removeCommitted kept 1)) sampleCommit

/-- The commit starts at the first generation again, so the second attempt at the cleanup unlinks
what it wrote. -/
theorem retried_cleanup_deletes_newer : ∃ kept,
    (spooling .standard parseSample .default).Reachable (sampleRetried kept) ∧
      kept ∈ (sampleRetried kept).kept ∧
      DeletesNewer .standard parseSample .default (sampleRetried kept) kept 2 := by
  obtain ⟨kept, hkept, hcommitted, hrecovered⟩ := sampleRecovered_kept
  -- The run is evaluated with a batch that has the same generations.
  have hplain : ∀ s healthy, Spooling.perform .standard parseSample .default s
      (.removeCommitted kept healthy) = Spooling.perform .standard parseSample .default s
        (.removeCommitted ⟨⟨[], [⟨1⟩], 1⟩, 1⟩ healthy) :=
    fun s healthy => s.perform_congr hcommitted healthy
  have hrun : sampleRetried kept = sampleRetried ⟨⟨[], [⟨1⟩], 1⟩, 1⟩ := by
    simp only [sampleRetried, sampleStep, hplain]
  have hdeletes : DeletesNewer .standard parseSample .default
      (sampleRetried ⟨⟨[], [⟨1⟩], 1⟩, 1⟩) ⟨⟨[], [⟨1⟩], 1⟩, 1⟩ 2 := by
    unfold DeletesNewer
    decide +kernel
  refine ⟨kept, ?_, ?_, ?_⟩
  · have hcleaned := sampleStep_reachable sampleRecovered_reachable (.removeCommitted kept 1)
      fun _ _ h => by
        cases h
        exact hkept
    exact sampleStep_reachable hcleaned sampleCommit fun _ _ h => nomatch h
  · rw [sampleRetried, sampleStep, sampleStep, sampleCommit, Spooling.kept_commit]
    exact hkept
  · rw [DeletesNewer, hrun, hplain, hrecovered]
    exact hdeletes

end Netbaiot.Spool
