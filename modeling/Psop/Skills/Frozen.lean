import Psop.Runs
import Psop.Skills.Publish

/-!
What a published version freezes.

A publish reads the head of the branch first and then the files, each at the branch as it is at that
moment. Its version carries the sha of the first read and the texts of the later ones. `Settled` says
that sha and texts belong together; `published_settled` is that they do in every run in which no commit
that changes README.md or SKILL.md comes between the two reads.
-/
namespace Psop.Skills

open Psop.Jobs (Held)

variable {host : Host} {s t : Skill}

/-! ### What an operation does -/

theorem accept_spec {recordId publishReason : String}
    (stepped : accept recordId publishReason s = some t) :
    ∃ draft, s.version? s.definition.latestDraftVersionId = some draft ∧
      (∀ r ∈ s.records, r.id ≠ recordId) ∧ t = { s with
        records := s.records ++
          [{ id := recordId, versionId := draft.id, publishReason := publishReason
             publishStatus := .compiling, publishedCommitSha := draft.sourceCommitSha.getD ""
             releaseRef := s.definition.defaultBranch }]
        publishes := s.publishes ++ [⟨recordId, s.definition, draft, .accepted⟩] } := by
  obtain ⟨draft, found, stepped⟩ := Option.bind_eq_some_iff.mp stepped
  split at stepped
  · cases stepped
  · rename_i fresh
    refine ⟨draft, found, fun r isRecord same => fresh ?_, (Option.some.inj stepped).symm⟩
    exact List.find?_isSome.mpr ⟨r, isRecord, beq_iff_eq.mpr same⟩

theorem advance_spec {recordId : String} (stepped : advancePublish host recordId s = some t) :
    ∃ p stage, s.publish? recordId = some p ∧ readOn host s p = some stage ∧
      t = s.setStage recordId stage := by
  obtain ⟨p, found, stepped⟩ := Option.bind_eq_some_iff.mp stepped
  obtain ⟨stage, reads, rfl⟩ := Option.map_eq_some_iff.mp stepped
  exact ⟨p, stage, found, reads, rfl⟩

theorem commit_spec {recordId versionId requestId jobId : String}
    (stepped : commitPublish host recordId versionId requestId jobId s = some t) :
    ∃ p bundle document versionNo, s.publish? recordId = some p ∧
      p.stage = .numbered bundle document versionNo ∧
      (∀ v ∈ s.versions, v.id ≠ versionId) ∧ (∀ r ∈ s.requests, r.id ≠ requestId) ∧
      (∀ j ∈ s.jobs, j.id ≠ jobId) ∧
      t = ((((s.updateVersion p.draft.id (syncedDraft p.draft bundle.headCommitSha
        document)).insertPublished host (publishedVersion versionId p bundle document versionNo)
        bundle.headCommitSha recordId requestId jobId).updateRecord recordId fun record =>
          { record with versionId := versionId, publishedCommitSha := bundle.headCommitSha }).setStage
        recordId .finished) := by
  obtain ⟨p, found, stepped⟩ := Option.bind_eq_some_iff.mp stepped
  split at stepped
  · rename_i bundle document versionNo isNumbered
    dsimp only at stepped
    split at stepped
    · cases stepped
    · rename_i fresh
      simp only [not_or] at fresh
      obtain ⟨-, newVersion, newRequest, newJob⟩ := fresh
      refine ⟨p, bundle, document, versionNo, found, isNumbered, fun v isVersion same => ?_,
        fun r isRequest same => ?_, fun j isJob same => ?_, (Option.some.inj stepped).symm⟩
      · exact newVersion (List.find?_isSome.mpr ⟨v, isVersion, beq_iff_eq.mpr same⟩)
      · exact newRequest (List.find?_isSome.mpr ⟨r, isRequest, beq_iff_eq.mpr same⟩)
      · exact newJob (List.find?_isSome.mpr ⟨j, isJob, beq_iff_eq.mpr same⟩)
  · cases stepped

theorem fail_spec {recordId : String} (stepped : failPublish recordId s = some t) :
    ∃ p, s.publish? recordId = some p ∧ p.stage ≠ .finished ∧
      t = (s.updateRecord recordId fun record => { record with publishStatus := .failed }).setStage
        recordId .finished := by
  obtain ⟨p, found, stepped⟩ := Option.bind_eq_some_iff.mp stepped
  split at stepped
  · cases stepped
  · rename_i open_
    exact ⟨p, found, open_, (Option.some.inj stepped).symm⟩

theorem publish?_mem {recordId : String} {p : Publish} (found : s.publish? recordId = some p) :
    p ∈ s.publishes ∧ p.recordId = recordId :=
  ⟨List.mem_of_find?_eq_some found, by simpa using List.find?_some found⟩

theorem mem_setStage {recordId : String} {stage : PublishStage} {p : Publish}
    (isPublish : p ∈ (s.setStage recordId stage).publishes) :
    ∃ q ∈ s.publishes, q.recordId = p.recordId ∧ q.definition = p.definition ∧ q.draft = p.draft ∧
      p.stage = if q.recordId = recordId then stage else q.stage := by
  obtain ⟨q, isQ, rfl⟩ := List.mem_map.mp isPublish
  refine ⟨q, isQ, ?_⟩
  split <;> exact ⟨rfl, rfl, rfl, rfl⟩

/-- A change of records that leaves what they are about. -/
def Restated (before after : List PublishRecord) : Prop :=
  ∃ change : PublishRecord → PublishRecord, after = before.map change ∧ ∀ r,
    (change r).id = r.id ∧ (change r).versionId = r.versionId ∧
    (change r).publishedCommitSha = r.publishedCommitSha

theorem Restated.refl (records : List PublishRecord) : Restated records records :=
  ⟨id, (List.map_id records).symm, fun _ => ⟨rfl, rfl, rfl⟩⟩

theorem Restated.trans {a b c : List PublishRecord} (first : Restated a b) (second : Restated b c) :
    Restated a c := by
  obtain ⟨change, rfl, keeps⟩ := first
  obtain ⟨change', rfl, keeps'⟩ := second
  refine ⟨change' ∘ change, List.map_map, fun r => ?_⟩
  obtain ⟨sameId, sameVersion, sameSha⟩ := keeps r
  obtain ⟨sameId', sameVersion', sameSha'⟩ := keeps' (change r)
  exact ⟨sameId'.trans sameId, sameVersion'.trans sameVersion, sameSha'.trans sameSha⟩

theorem restated_updateRecord {recordId : String} {change : PublishRecord → PublishRecord}
    (keeps : ∀ r, (change r).id = r.id ∧ (change r).versionId = r.versionId ∧
      (change r).publishedCommitSha = r.publishedCommitSha) :
    Restated s.records (s.updateRecord recordId change).records := by
  refine ⟨fun r => if r.id = recordId then change r else r, rfl, fun r => ?_⟩
  dsimp only
  split
  · exact keeps r
  · exact ⟨rfl, rfl, rfl⟩

/-- What the steps of a compile job leave alone. -/
structure JobStep (s t : Skill) : Prop where
  branch : t.branch = s.branch
  versions : t.versions = s.versions
  publishes : t.publishes = s.publishes
  draft : t.definition.latestDraftVersionId = s.definition.latestDraftVersionId
  records : Restated s.records t.records

theorem claimJob_step {jobId : String} (stepped : claimJob jobId s = some t) : JobStep s t := by
  obtain ⟨job, -, stepped⟩ := Option.bind_eq_some_iff.mp stepped
  obtain ⟨held, -, rfl⟩ := Option.map_eq_some_iff.mp stepped
  exact ⟨rfl, rfl, rfl, rfl, .refl _⟩

theorem compile_step {jobId : String} {status : RequestStatus}
    (stepped : compile jobId status s = some t) : JobStep s t := by
  obtain ⟨job, -, stepped⟩ := Option.bind_eq_some_iff.mp stepped
  obtain ⟨request, -, stepped⟩ := Option.bind_eq_some_iff.mp stepped
  split at stepped
  · cases stepped
  · split at stepped <;> obtain rfl := Option.some.inj stepped <;>
      exact ⟨rfl, rfl, rfl, rfl, .refl _⟩

theorem finalizePublish_step {jobId : String} (stepped : finalizePublish jobId s = some t) :
    JobStep s t := by
  obtain ⟨job, -, stepped⟩ := Option.bind_eq_some_iff.mp stepped
  obtain ⟨request, -, stepped⟩ := Option.bind_eq_some_iff.mp stepped
  split at stepped
  · cases stepped
  · split at stepped <;> obtain rfl := Option.some.inj stepped
    · refine ⟨?_, ?_, ?_, ?_, ?_⟩ <;> (dsimp only [Skill.updateJob]; split)
      any_goals rfl
      · exact restated_updateRecord fun _ => ⟨rfl, rfl, rfl⟩
      · exact .refl _
    · exact ⟨rfl, rfl, rfl, rfl, restated_updateRecord fun _ => ⟨rfl, rfl, rfl⟩⟩

theorem finalizeExhausted_step (job : CompileJob) (s : Skill) : JobStep s (finalizeExhausted job s) := by
  unfold finalizeExhausted
  split
  · exact ⟨rfl, rfl, rfl, rfl, .refl _⟩
  · split
    · exact ⟨rfl, rfl, rfl, rfl, .refl _⟩
    · refine ⟨rfl, rfl, rfl, rfl, restated_updateRecord fun r => ?_⟩
      split <;> exact ⟨rfl, rfl, rfl⟩

theorem dropJob_step {jobId : String} (stepped : dropJob jobId s = some t) : JobStep s t := by
  obtain ⟨job, -, stepped⟩ := Option.bind_eq_some_iff.mp stepped
  split at stepped
  · cases stepped
  · obtain rfl := Option.some.inj stepped
    split
    · obtain ⟨branch, versions, publishes, draft, records⟩ := finalizeExhausted_step job s
      exact ⟨branch, versions, publishes, draft, records⟩
    · exact ⟨rfl, rfl, rfl, rfl, .refl _⟩

/-! ### The draft -/

/-- The draft of the skill is one of its versions and stays a draft; a publish works on a copy of it. -/
structure Drafted (s : Skill) : Prop where
  draft : ∃ v ∈ s.versions, v.id = s.definition.latestDraftVersionId
  drafts : ∀ v ∈ s.versions, v.id = s.definition.latestDraftVersionId → v.status = .draft
  copies : ∀ p ∈ s.publishes, p.draft.id = s.definition.latestDraftVersionId

/-- Versions that differ in what a draft's row is rewritten with. -/
theorem mem_updateVersion {id : String} {change : Version → Version} {v : Version}
    (keeps : ∀ v, (change v).id = v.id ∧ (change v).status = v.status)
    (isVersion : v ∈ (s.updateVersion id change).versions) :
    ∃ w ∈ s.versions, v.id = w.id ∧ v.status = w.status ∧ (w.id ≠ id → v = w) := by
  obtain ⟨w, isW, rfl⟩ := List.mem_map.mp isVersion
  refine ⟨w, isW, ?_⟩
  split
  · rename_i same
    exact ⟨(keeps w).1, (keeps w).2, fun differ => absurd same differ⟩
  · exact ⟨rfl, rfl, fun _ => rfl⟩

theorem updateVersion_mem {id : String} {change : Version → Version} {v : Version}
    (keeps : ∀ v, (change v).id = v.id ∧ (change v).status = v.status) (isVersion : v ∈ s.versions) :
    ∃ w ∈ (s.updateVersion id change).versions, w.id = v.id := by
  refine ⟨_, List.mem_map_of_mem isVersion, ?_⟩
  split
  · exact (keeps v).1
  · rfl

theorem Drafted.updateVersion (drafted : Drafted s) {id : String} {change : Version → Version}
    (keeps : ∀ v, (change v).id = v.id ∧ (change v).status = v.status) :
    Drafted (s.updateVersion id change) := by
  refine ⟨?_, ?_, drafted.copies⟩
  · obtain ⟨v, isVersion, isDraft⟩ := drafted.draft
    obtain ⟨w, isW, same⟩ := updateVersion_mem keeps isVersion
    exact ⟨w, isW, same.trans isDraft⟩
  · intro v isVersion isDraft
    obtain ⟨w, isW, sameId, sameStatus, -⟩ := mem_updateVersion keeps isVersion
    rw [sameStatus]
    exact drafted.drafts w isW (sameId ▸ isDraft)

theorem Drafted.setStage (drafted : Drafted s) (recordId : String) (stage : PublishStage) :
    Drafted (s.setStage recordId stage) := by
  refine ⟨drafted.draft, drafted.drafts, fun p isPublish => ?_⟩
  obtain ⟨q, isQ, -, -, sameDraft, -⟩ := mem_setStage isPublish
  rw [← sameDraft]
  exact drafted.copies q isQ

theorem Drafted.jobStep (drafted : Drafted s) (step : JobStep s t) : Drafted t := by
  refine ⟨?_, ?_, ?_⟩
  · rw [step.versions, step.draft]
    exact drafted.draft
  · rw [step.versions, step.draft]
    exact drafted.drafts
  · rw [step.publishes, step.draft]
    exact drafted.copies

theorem syncedDraft_keeps (held : Version) (sha : String) (document : SkillDocument) (v : Version) :
    (syncedDraft held sha document v).id = v.id ∧
      (syncedDraft held sha document v).status = v.status := ⟨rfl, rfl⟩

theorem Drafted.accept (drafted : Drafted s) {recordId publishReason : String}
    (stepped : Skills.accept recordId publishReason s = some t) : Drafted t := by
  obtain ⟨draft, found, -, rfl⟩ := accept_spec stepped
  refine ⟨drafted.draft, drafted.drafts, fun p isPublish => ?_⟩
  rcases List.mem_append.mp isPublish with isOld | isNew
  · exact drafted.copies p isOld
  · rw [List.mem_singleton.mp isNew]
    simpa using List.find?_some found

theorem Drafted.commit (drafted : Drafted s) {recordId versionId requestId jobId : String}
    (stepped : commitPublish host recordId versionId requestId jobId s = some t) : Drafted t := by
  obtain ⟨p, bundle, document, versionNo, -, -, newVersion, -, -, rfl⟩ := commit_spec stepped
  have synced : Drafted (s.updateVersion p.draft.id (syncedDraft p.draft bundle.headCommitSha
      document)) := drafted.updateVersion (syncedDraft_keeps _ _ _)
  apply Drafted.setStage
  refine ⟨?_, ?_, synced.copies⟩
  · obtain ⟨v, isVersion, isDraft⟩ := synced.draft
    exact ⟨v, List.mem_append_left _ isVersion, isDraft⟩
  · intro v isVersion isDraft
    rcases List.mem_append.mp isVersion with isOld | isNew
    · exact synced.drafts v isOld isDraft
    · rw [List.mem_singleton.mp isNew] at isDraft
      obtain ⟨w, isW, isDraft'⟩ := drafted.draft
      exact absurd (isDraft'.trans isDraft.symm) (newVersion w isW)

theorem Drafted.fail (drafted : Drafted s) {recordId : String}
    (stepped : failPublish recordId s = some t) : Drafted t := by
  obtain ⟨p, -, -, rfl⟩ := fail_spec stepped
  apply Drafted.setStage
  exact ⟨drafted.draft, drafted.drafts, drafted.copies⟩

theorem Drafted.step (drafted : Drafted s) {e : PublishEvent} (stepped : s.step host e = some t) :
    Drafted t := by
  cases e with
  | editSource sha request files =>
    obtain ⟨branch, -, rfl⟩ := Option.map_eq_some_iff.mp stepped
    exact ⟨drafted.draft, drafted.drafts, drafted.copies⟩
  | editDraft sourceCommitSha document =>
    obtain rfl := Option.some.inj stepped
    exact drafted.updateVersion fun _ => ⟨rfl, rfl⟩
  | accept recordId publishReason => exact drafted.accept stepped
  | read recordId =>
    obtain ⟨p, stage, -, -, rfl⟩ := advance_spec stepped
    exact drafted.setStage recordId stage
  | commit recordId versionId requestId jobId => exact drafted.commit stepped
  | fail recordId => exact drafted.fail stepped
  | claim jobId => exact drafted.jobStep (claimJob_step stepped)
  | compile jobId status => exact drafted.jobStep (compile_step stepped)
  | finalize jobId => exact drafted.jobStep (finalizePublish_step stepped)
  | drop jobId => exact drafted.jobStep (dropJob_step stepped)

theorem drafted_created (branch : Branch) (definition : Definition) (document : SkillDocument) :
    Drafted (.created branch definition document) :=
  ⟨⟨_, List.mem_singleton_self _, rfl⟩, fun v isVersion _ => by rw [List.mem_singleton.mp isVersion],
    fun _ isPublish => absurd isPublish List.not_mem_nil⟩

/-! ### Reads of one commit -/

/-- A commit of the branch with these two texts. -/
def SourceAt (b : Branch) (sha readme skillMd : String) : Prop :=
  ∃ c, b.commit? sha = some c ∧ fileAt "README.md" c.files = some readme ∧
    fileAt "SKILL.md" c.files = some skillMd

/-- What a publish has read is what one commit holds. -/
def ReadAt (b : Branch) : PublishStage → Prop
  | .accepted | .finished => True
  | .head sha => ∃ c, b.commit? sha = some c
  | .readme sha readme => ∃ c, b.commit? sha = some c ∧ fileAt "README.md" c.files = some readme
  | .skillMd sha readme skillMd => SourceAt b sha readme skillMd
  | .loaded bundle => SourceAt b bundle.headCommitSha bundle.readmeContent bundle.skillMdContent
  | .numbered bundle document _ =>
    SourceAt b bundle.headCommitSha bundle.readmeContent bundle.skillMdContent ∧
      document.promptMaterial = ⟨bundle.readmeContent, bundle.skillMdContent⟩

/-- Sha and texts of a published version belong together, and its publish record has the same sha. -/
def Settled (s : Skill) (v : Version) : Prop :=
  ∃ sha document, v.sourceCommitSha = some sha ∧ v.manifestSnapshot = some document ∧
    SourceAt s.branch sha document.promptMaterial.readme document.promptMaterial.skillMd ∧
    (∃ r ∈ s.records, r.versionId = v.id) ∧
    ∀ r ∈ s.records, r.versionId = v.id → r.publishedCommitSha = sha

/-- Every commit of the branch stays. -/
def Grown (b b' : Branch) : Prop := ∀ sha c, b.commit? sha = some c → b'.commit? sha = some c

theorem SourceAt.grown {b b' : Branch} {sha readme skillMd : String}
    (source : SourceAt b sha readme skillMd) (grown : Grown b b') : SourceAt b' sha readme skillMd := by
  obtain ⟨c, found, texts⟩ := source
  exact ⟨c, grown sha c found, texts⟩

theorem ReadAt.grown {b b' : Branch} {stage : PublishStage} (read : ReadAt b stage)
    (grown : Grown b b') : ReadAt b' stage := by
  cases stage with
  | accepted => trivial
  | finished => trivial
  | head sha =>
    obtain ⟨c, found⟩ := read
    exact ⟨c, grown sha c found⟩
  | readme sha readme =>
    obtain ⟨c, found, text⟩ := read
    exact ⟨c, grown sha c found, text⟩
  | skillMd sha readme skillMd => exact SourceAt.grown read grown
  | loaded bundle => exact SourceAt.grown read grown
  | numbered bundle document versionNo => exact ⟨SourceAt.grown read.1 grown, read.2⟩

/-- The file is at the head what it is at the commit. -/
def SameFile (b : Branch) (sha path : String) : Prop :=
  fileAt path b.head.files = (b.commit? sha).bind fun c => fileAt path c.files

instance (b : Branch) (sha path : String) : Decidable (SameFile b sha path) :=
  inferInstanceAs (Decidable (_ = _))

/-- No commit that changes the text of a read comes between the publish's first read and this one. -/
def StageUndisturbed (b : Branch) : PublishStage → Prop
  | .head sha => SameFile b sha "README.md"
  | .readme sha _ => SameFile b sha "SKILL.md"
  | _ => True

instance (b : Branch) : ∀ stage, Decidable (StageUndisturbed b stage)
  | .head sha => inferInstanceAs (Decidable (SameFile b sha "README.md"))
  | .readme sha _ => inferInstanceAs (Decidable (SameFile b sha "SKILL.md"))
  | .accepted | .skillMd .. | .loaded _ | .numbered .. | .finished => inferInstanceAs (Decidable True)

def Undisturbed (s : Skill) : PublishEvent → Prop
  | .read recordId => ∀ p ∈ s.publish? recordId, StageUndisturbed s.branch p.stage
  | _ => True

instance : ∀ s e, Decidable (Undisturbed s e)
  | s, .read recordId =>
    inferInstanceAs (Decidable (∀ p ∈ s.publish? recordId, StageUndisturbed s.branch p.stage))
  | _, .editSource .. | _, .editDraft .. | _, .accept .. | _, .commit .. | _, .fail _ | _, .claim _
  | _, .compile .. | _, .finalize _ | _, .drop _ => inferInstanceAs (Decidable True)

/-- The document of a publish holds the texts that were read. -/
theorem publishDocument_material {p : Publish} {bundle : SourceBundle} {document : SkillDocument}
    (built : publishDocument host p bundle = some document) :
    document.promptMaterial = ⟨bundle.readmeContent, bundle.skillMdContent⟩ := by
  obtain ⟨old, -, built⟩ := Option.bind_eq_some_iff.mp built
  dsimp only at built
  split at built
  · rw [← Option.some.inj built]
    rfl
  · cases built

theorem readOn_at {p : Publish} {stage : PublishStage} (read : ReadAt s.branch p.stage)
    (still : StageUndisturbed s.branch p.stage) (reads : readOn host s p = some stage) :
    ReadAt s.branch stage := by
  unfold readOn at reads
  cases held : p.stage with
  | accepted =>
    rw [held] at reads
    rw [← Option.some.inj reads]
    exact ⟨s.branch.head, s.branch.commit?_head⟩
  | head sha =>
    rw [held] at reads read still
    obtain ⟨c, found⟩ := read
    obtain ⟨readme, text, rfl⟩ := Option.map_eq_some_iff.mp reads
    refine ⟨c, found, ?_⟩
    have same : some readme = (s.branch.commit? sha).bind _ := text.symm.trans still
    rw [found] at same
    exact same.symm
  | readme sha readme =>
    rw [held] at reads read still
    obtain ⟨c, found, first⟩ := read
    obtain ⟨skillMd, text, rfl⟩ := Option.map_eq_some_iff.mp reads
    refine ⟨c, found, first, ?_⟩
    have same : some skillMd = (s.branch.commit? sha).bind _ := text.symm.trans still
    rw [found] at same
    exact same.symm
  | skillMd sha readme skillMd =>
    rw [held] at reads read
    obtain ⟨skillYaml, -, rfl⟩ := Option.map_eq_some_iff.mp reads
    exact read
  | loaded bundle =>
    rw [held] at reads read
    obtain ⟨document, built, rfl⟩ := Option.map_eq_some_iff.mp reads
    exact ⟨read, publishDocument_material built⟩
  | numbered bundle document versionNo => rw [held] at reads; cases reads
  | finished => rw [held] at reads; cases reads

/-! ### The invariant -/

/-- Every publish under the record has finished. -/
def Closed (s : Skill) (r : PublishRecord) : Prop :=
  ∀ p ∈ s.publishes, p.recordId = r.id → p.stage = .finished

structure Consistent (s : Skill) : Prop where
  drafted : Drafted s
  known : ∀ r ∈ s.records, ∃ v ∈ s.versions, v.id = r.versionId
  recorded : ∀ p ∈ s.publishes, ∃ r ∈ s.records, r.id = p.recordId
  read : ∀ p ∈ s.publishes, ReadAt s.branch p.stage
  closed : ∀ v ∈ s.versions, v.status = .published → ∃ r ∈ s.records, r.versionId = v.id ∧ Closed s r
  settled : ∀ v ∈ s.versions, v.status = .published → Settled s v

/-- What keeps a version settled. -/
theorem Settled.kept {v : Version} (settled : Settled s v) (grown : Grown s.branch t.branch)
    (stays : ∃ r ∈ t.records, r.versionId = v.id)
    (origin : ∀ r ∈ t.records, r.versionId = v.id → ∃ r' ∈ s.records, r'.versionId = v.id ∧
      r'.publishedCommitSha = r.publishedCommitSha) : Settled t v := by
  obtain ⟨sha, document, hasSha, hasDocument, source, -, carries⟩ := settled
  refine ⟨sha, document, hasSha, hasDocument, source.grown grown, stays, fun r isRecord about => ?_⟩
  obtain ⟨r', isRecord', about', same⟩ := origin r isRecord about
  exact same.symm.trans (carries r' isRecord' about')

/-- The step of a publish that is open changes nothing about the records that are closed. -/
theorem Closed.setStage {r : PublishRecord} (closed : Closed s r) {p : Publish}
    (isPublish : p ∈ s.publishes) (open_ : p.stage ≠ .finished) (stage : PublishStage) :
    Closed (s.setStage p.recordId stage) r := by
  intro q isQ about
  obtain ⟨q', isQ', sameRecord, -, -, sameStage⟩ := mem_setStage isQ
  have differ : q'.recordId ≠ p.recordId := fun same =>
    open_ (closed p isPublish (same.symm.trans (sameRecord.trans about)))
  rw [sameStage, if_neg differ]
  exact closed q' isQ' (sameRecord.trans about)

/-- The same versions and records, up to what records are about, and a branch that has grown. -/
theorem Consistent.restated (consistent : Consistent s) (drafted : Drafted t)
    (versions : t.versions = s.versions) (grown : Grown s.branch t.branch)
    (records : Restated s.records t.records)
    (publishes : ∀ p ∈ t.publishes, ∃ q ∈ s.publishes, q.recordId = p.recordId)
    (read : ∀ p ∈ t.publishes, ReadAt t.branch p.stage)
    (closed : ∀ r r', Closed s r → r'.id = r.id → Closed t r') : Consistent t := by
  obtain ⟨change, same, keeps⟩ := records
  have stays : ∀ r ∈ s.records, change r ∈ t.records := fun r isRecord =>
    same ▸ List.mem_map_of_mem isRecord
  have origin : ∀ r ∈ t.records, ∃ r' ∈ s.records, r = change r' := by
    intro r isRecord
    rw [same] at isRecord
    obtain ⟨r', isRecord', rfl⟩ := List.mem_map.mp isRecord
    exact ⟨r', isRecord', rfl⟩
  refine ⟨drafted, fun r isRecord => ?_, fun p isPublish => ?_, read,
    fun v isVersion published => ?_, fun v isVersion published => ?_⟩
  · obtain ⟨r', isRecord', rfl⟩ := origin r isRecord
    rw [versions, (keeps r').2.1]
    exact consistent.known r' isRecord'
  · obtain ⟨q, isQ, sameRecord⟩ := publishes p isPublish
    obtain ⟨r, isRecord, own⟩ := consistent.recorded q isQ
    exact ⟨change r, stays r isRecord, (keeps r).1.trans (own.trans sameRecord)⟩
  · obtain ⟨r, isRecord, about, isClosed⟩ := consistent.closed v (versions ▸ isVersion) published
    exact ⟨change r, stays r isRecord, (keeps r).2.1.trans about, closed r _ isClosed (keeps r).1⟩
  · have settled := consistent.settled v (versions ▸ isVersion) published
    refine settled.kept grown ?_ fun r isRecord about => ?_
    · obtain ⟨sha, document, -, -, -, ⟨r, isRecord, about⟩, -⟩ := settled
      exact ⟨change r, stays r isRecord, (keeps r).2.1.trans about⟩
    · obtain ⟨r', isRecord', rfl⟩ := origin r isRecord
      exact ⟨r', isRecord', (keeps r').2.1.symm.trans about, (keeps r').2.2.symm⟩

theorem Consistent.jobStep (consistent : Consistent s) (step : JobStep s t) : Consistent t := by
  have grown : Grown s.branch t.branch := fun sha c found => by rw [step.branch]; exact found
  refine consistent.restated (consistent.drafted.jobStep step) step.versions grown step.records
    ?_ ?_ ?_
  · rw [step.publishes]
    exact fun p isPublish => ⟨p, isPublish, rfl⟩
  · rw [step.publishes, step.branch]
    exact consistent.read
  · intro r r' closed sameId p isPublish about
    rw [step.publishes] at isPublish
    exact closed p isPublish (about.trans sameId)

theorem grown_refl (b : Branch) : Grown b b := fun _ _ found => found

theorem Consistent.editDraft (consistent : Consistent s) (sourceCommitSha : Option String)
    (document : SkillDocument) : Consistent (editDraft sourceCommitSha document s) := by
  have keeps : ∀ v : Version, ({ v with
      sourceCommitSha := sourceCommitSha, manifestSnapshot := some document
      runtimePolicySnapshot := some document.runtimePolicy } : Version).id = v.id ∧
      ({ v with
        sourceCommitSha := sourceCommitSha, manifestSnapshot := some document
        runtimePolicySnapshot := some document.runtimePolicy } : Version).status = v.status :=
    fun _ => ⟨rfl, rfl⟩
  -- a published version is not the draft
  have old : ∀ v ∈ (Skills.editDraft sourceCommitSha document s).versions, v.status = .published →
      v ∈ s.versions := by
    intro v isVersion published
    obtain ⟨w, isW, -, sameStatus, same⟩ := mem_updateVersion keeps isVersion
    have differ : w.id ≠ s.definition.latestDraftVersionId := fun isDraft => by
      have := consistent.drafted.drafts w isW isDraft
      rw [← sameStatus, published] at this
      cases this
    rw [same differ]
    exact isW
  refine ⟨consistent.drafted.updateVersion keeps, fun r isRecord => ?_, consistent.recorded,
    consistent.read,
    fun v isVersion published => consistent.closed v (old v isVersion published) published,
    fun v isVersion published => consistent.settled v (old v isVersion published) published⟩
  obtain ⟨v, isVersion, about⟩ := consistent.known r isRecord
  obtain ⟨w, isW, same⟩ := updateVersion_mem keeps isVersion
  exact ⟨w, isW, same.trans about⟩

theorem Consistent.accept (consistent : Consistent s) {recordId publishReason : String}
    (stepped : accept recordId publishReason s = some t) : Consistent t := by
  have drafted := consistent.drafted.accept stepped
  obtain ⟨draft, found, fresh, rfl⟩ := accept_spec stepped
  have isDraft : draft.id = s.definition.latestDraftVersionId := by
    simpa using List.find?_some found
  have notDraft : ∀ v ∈ s.versions, v.status = .published → draft.id ≠ v.id := by
    intro v isVersion published same
    have := consistent.drafted.drafts v isVersion (same.symm.trans isDraft)
    rw [published] at this
    cases this
  refine ⟨drafted, fun r isRecord => ?_, fun p isPublish => ?_, fun p isPublish => ?_,
    fun v isVersion published => ?_, fun v isVersion published => ?_⟩
  · rcases List.mem_append.mp isRecord with isOld | isNew
    · exact consistent.known r isOld
    · rw [List.mem_singleton.mp isNew]
      exact ⟨draft, List.mem_of_find?_eq_some found, rfl⟩
  · rcases List.mem_append.mp isPublish with isOld | isNew
    · obtain ⟨r, isRecord, own⟩ := consistent.recorded p isOld
      exact ⟨r, List.mem_append_left _ isRecord, own⟩
    · rw [List.mem_singleton.mp isNew]
      exact ⟨_, List.mem_append_right _ (List.mem_singleton_self _), rfl⟩
  · rcases List.mem_append.mp isPublish with isOld | isNew
    · exact consistent.read p isOld
    · rw [List.mem_singleton.mp isNew]
      trivial
  · obtain ⟨r, isRecord, about, closed⟩ := consistent.closed v isVersion published
    refine ⟨r, List.mem_append_left _ isRecord, about, fun p isPublish sameRecord => ?_⟩
    rcases List.mem_append.mp isPublish with isOld | isNew
    · exact closed p isOld sameRecord
    · rw [List.mem_singleton.mp isNew] at sameRecord
      exact absurd sameRecord.symm (fresh r isRecord)
  · have settled := consistent.settled v isVersion published
    refine settled.kept (grown_refl _) ?_ fun r isRecord about => ?_
    · obtain ⟨sha, document, -, -, -, ⟨r, isRecord, about⟩, -⟩ := settled
      exact ⟨r, List.mem_append_left _ isRecord, about⟩
    · rcases List.mem_append.mp isRecord with isOld | isNew
      · exact ⟨r, isOld, about, rfl⟩
      · rw [List.mem_singleton.mp isNew] at about
        exact absurd about (notDraft v isVersion published)

theorem Consistent.read_step (consistent : Consistent s) {recordId : String}
    (still : Undisturbed s (.read recordId)) (stepped : advancePublish host recordId s = some t) :
    Consistent t := by
  obtain ⟨p, stage, found, reads, rfl⟩ := advance_spec stepped
  obtain ⟨isPublish, rfl⟩ := publish?_mem found
  have open_ : p.stage ≠ .finished := fun finished => by
    rw [readOn, finished] at reads
    cases reads
  have at_ := readOn_at (consistent.read p isPublish) (still p found) reads
  refine consistent.restated (consistent.drafted.setStage _ _) rfl (grown_refl _) (.refl _) ?_ ?_ ?_
  · intro q isQ
    obtain ⟨q', isQ', sameRecord, -⟩ := mem_setStage isQ
    exact ⟨q', isQ', sameRecord⟩
  · intro q isQ
    obtain ⟨q', isQ', -, -, -, sameStage⟩ := mem_setStage isQ
    rw [sameStage]
    split
    · exact at_
    · exact consistent.read q' isQ'
  · intro r r' closed sameId q isQ about
    exact (closed.setStage isPublish open_ stage) q isQ (about.trans sameId)

theorem Consistent.fail (consistent : Consistent s) {recordId : String}
    (stepped : failPublish recordId s = some t) : Consistent t := by
  have drafted := consistent.drafted.fail stepped
  obtain ⟨p, found, open_, rfl⟩ := fail_spec stepped
  obtain ⟨isPublish, rfl⟩ := publish?_mem found
  refine consistent.restated drafted rfl (grown_refl _)
    (restated_updateRecord fun _ => ⟨rfl, rfl, rfl⟩) ?_ ?_ ?_
  · intro q isQ
    obtain ⟨q', isQ', sameRecord, -⟩ := mem_setStage isQ
    exact ⟨q', isQ', sameRecord⟩
  · intro q isQ
    obtain ⟨q', isQ', -, -, -, sameStage⟩ := mem_setStage isQ
    rw [sameStage]
    split
    · trivial
    · exact consistent.read q' isQ'
  · intro r r' closed sameId q isQ about
    exact (closed.setStage isPublish open_ .finished) q isQ (about.trans sameId)

/-- The record of the publish is rewritten, the others are not. -/
theorem mem_updateRecord {id : String} {change : PublishRecord → PublishRecord} {r : PublishRecord}
    (isRecord : r ∈ (s.updateRecord id change).records) :
    ∃ r' ∈ s.records, r = if r'.id = id then change r' else r' := by
  obtain ⟨r', isRecord', rfl⟩ := List.mem_map.mp isRecord
  exact ⟨r', isRecord', rfl⟩

theorem Consistent.commit (consistent : Consistent s) {recordId versionId requestId jobId : String}
    (stepped : commitPublish host recordId versionId requestId jobId s = some t) : Consistent t := by
  have drafted := consistent.drafted.commit stepped
  obtain ⟨p, bundle, document, versionNo, found, isNumbered, newVersion, -, -, rfl⟩ :=
    commit_spec stepped
  obtain ⟨isPublish, rfl⟩ := publish?_mem found
  have open_ : p.stage ≠ .finished := fun finished => by
    rw [isNumbered] at finished
    cases finished
  obtain ⟨source, material⟩ : SourceAt s.branch bundle.headCommitSha bundle.readmeContent
      bundle.skillMdContent ∧ document.promptMaterial = _ := by
    have := consistent.read p isPublish
    rwa [isNumbered] at this
  have keeps := syncedDraft_keeps p.draft bundle.headCommitSha document
  -- the versions there were, the draft apart, and the new one
  have origin : ∀ v ∈ (s.updateVersion p.draft.id (syncedDraft p.draft bundle.headCommitSha
      document)).versions ++ [publishedVersion versionId p bundle document versionNo],
      v.status = .published →
      v ∈ s.versions ∨ v = publishedVersion versionId p bundle document versionNo := by
    intro v isVersion published
    rcases List.mem_append.mp isVersion with isOld | isNew
    · left
      obtain ⟨w, isW, -, sameStatus, same⟩ := mem_updateVersion keeps isOld
      have differ : w.id ≠ p.draft.id := fun isDraft => by
        have := consistent.drafted.drafts w isW (isDraft.trans (consistent.drafted.copies p isPublish))
        rw [← sameStatus, published] at this
        cases this
      rw [same differ]
      exact isW
    · exact .inr (List.mem_singleton.mp isNew)
  obtain ⟨own, isOwn, sameRecord⟩ := consistent.recorded p isPublish
  -- the record of a version there was is another publish's
  have stays : ∀ r ∈ s.records, r.id ≠ p.recordId → r ∈ (s.updateRecord p.recordId fun record =>
      { record with versionId := versionId, publishedCommitSha := bundle.headCommitSha }).records :=
    fun r isRecord differ => List.mem_map.mpr ⟨r, isRecord, if_neg differ⟩
  have apart : ∀ r ∈ s.records, Closed s r → r.id ≠ p.recordId := fun r _ closed same =>
    open_ (closed p isPublish same.symm)
  refine ⟨drafted, ?_, ?_, ?_, ?_, ?_⟩
  · intro r isRecord
    obtain ⟨r', isRecord', rfl⟩ := mem_updateRecord isRecord
    split
    · exact ⟨_, List.mem_append_right _ (List.mem_singleton_self _), rfl⟩
    · obtain ⟨v, isVersion, about⟩ := consistent.known r' isRecord'
      obtain ⟨w, isW, same⟩ := updateVersion_mem keeps isVersion
      exact ⟨w, List.mem_append_left _ isW, same.trans about⟩
  · intro q isQ
    obtain ⟨q', isQ', sameRecord, -⟩ := mem_setStage isQ
    obtain ⟨r, isRecord, own⟩ := consistent.recorded q' isQ'
    refine ⟨_, List.mem_map_of_mem isRecord, ?_⟩
    split <;> exact own.trans sameRecord
  · intro q isQ
    obtain ⟨q', isQ', -, -, -, sameStage⟩ := mem_setStage isQ
    rw [sameStage]
    split
    · trivial
    · exact consistent.read q' isQ'
  · intro v isVersion published
    rcases origin v isVersion published with isOld | rfl
    · obtain ⟨r, isRecord, about, closed⟩ := consistent.closed v isOld published
      exact ⟨r, stays r isRecord (apart r isRecord closed), about, closed.setStage isPublish open_ _⟩
    · refine ⟨_, List.mem_map.mpr ⟨own, isOwn, if_pos sameRecord⟩, rfl, fun q isQ about => ?_⟩
      obtain ⟨q', isQ', sameRecord', -, -, sameStage⟩ := mem_setStage isQ
      rw [sameStage, if_pos (sameRecord'.trans (about.trans sameRecord))]
  · intro v isVersion published
    rcases origin v isVersion published with isOld | rfl
    · have settled := consistent.settled v isOld published
      obtain ⟨r, isRecord, about, closed⟩ := consistent.closed v isOld published
      refine settled.kept (grown_refl _)
        ⟨r, stays r isRecord (apart r isRecord closed), about⟩ fun r isRecord about => ?_
      obtain ⟨r', isRecord', rfl⟩ := mem_updateRecord isRecord
      split at about
      · exact absurd about.symm (newVersion v isOld)
      · rename_i differ
        rw [if_neg differ]
        exact ⟨r', isRecord', about, rfl⟩
    · refine ⟨bundle.headCommitSha, document, rfl, rfl, ?_, ?_, ?_⟩
      · rw [material]
        exact source
      · exact ⟨_, List.mem_map.mpr ⟨own, isOwn, if_pos sameRecord⟩, rfl⟩
      · intro r isRecord about
        obtain ⟨r', isRecord', rfl⟩ := mem_updateRecord isRecord
        split
        · rfl
        · rename_i differ
          rw [if_neg differ] at about
          obtain ⟨w, isW, about'⟩ := consistent.known r' isRecord'
          exact absurd (about'.trans about) (newVersion w isW)

theorem Consistent.step (consistent : Consistent s) {e : PublishEvent} (still : Undisturbed s e)
    (stepped : s.step host e = some t) : Consistent t := by
  cases e with
  | editSource sha request files =>
    have drafted := consistent.drafted.step stepped
    obtain ⟨branch, advanced, rfl⟩ := Option.map_eq_some_iff.mp stepped
    have grown : Grown s.branch branch := fun _ _ found => Branch.advance_commit? advanced found
    exact consistent.restated drafted rfl grown (.refl _) (fun p isPublish => ⟨p, isPublish, rfl⟩)
      (fun p isPublish => (consistent.read p isPublish).grown grown)
      fun r r' closed sameId p isPublish about => closed p isPublish (about.trans sameId)
  | editDraft sourceCommitSha document =>
    obtain rfl := Option.some.inj stepped
    exact consistent.editDraft sourceCommitSha document
  | accept recordId publishReason => exact consistent.accept stepped
  | read recordId => exact consistent.read_step still stepped
  | commit recordId versionId requestId jobId => exact consistent.commit stepped
  | fail recordId => exact consistent.fail stepped
  | claim jobId => exact consistent.jobStep (claimJob_step stepped)
  | compile jobId status => exact consistent.jobStep (compile_step stepped)
  | finalize jobId => exact consistent.jobStep (finalizePublish_step stepped)
  | drop jobId => exact consistent.jobStep (dropJob_step stepped)

theorem consistent_created (branch : Branch) (definition : Definition) (document : SkillDocument) :
    Consistent (.created branch definition document) where
  drafted := drafted_created branch definition document
  known _ isRecord := absurd isRecord List.not_mem_nil
  recorded _ isPublish := absurd isPublish List.not_mem_nil
  read _ isPublish := absurd isPublish List.not_mem_nil
  closed v isVersion published := by
    rw [List.mem_singleton.mp isVersion] at published
    cases published
  settled v isVersion published := by
    rw [List.mem_singleton.mp isVersion] at published
    cases published

/-- **In every run in which no commit changes a text between a publish's read of the head and its read
of that text, every published version is one state of the source.** -/
theorem published_settled {branch : Branch} {definition : Definition} {document : SkillDocument}
    (run : Run (Skill.step host) Undisturbed (.created branch definition document) t) :
    ∀ v ∈ t.versions, v.status = .published → Settled t v := by
  have consistent := run.invariant (fun s e t (held : Consistent s) still stepped =>
    held.step still stepped) (consistent_created branch definition document)
  exact consistent.settled

/-! ### A commit between the reads -/

/-- The snapshot of a version is there, so the YAML is not parsed. -/
def plainHost : Host where
  parseSkillYaml := fun _ => none
  runtimeJobMaxAttempts := 3

def sourceOf (readme : String) : Files :=
  [("README.md", readme), ("SKILL.md", "Purpose"), ("skill.yaml", "skill: {}")]

/-- A skill whose source is its first commit. -/
def newSkill : Skill :=
  .created (.root "commit-1" (sourceOf "first"))
    { key := "skill-1", name := "Skill", description := "", defaultBranch := "main"
      latestDraftVersionId := "draft-1" }
    { key := "skill-1", name := "Skill", promptMaterial := ⟨"first", "Purpose"⟩
      runtimePolicy := .obj [], rest := .obj [] }

/-- A publish with a commit of another request after its read number `edited`. -/
def publishAround (edited : Nat) : List PublishEvent :=
  [PublishEvent.accept "record-1" ""] ++ List.replicate edited (PublishEvent.read "record-1") ++
    [PublishEvent.editSource "commit-2" "save-1" (sourceOf "second")] ++
    List.replicate (5 - edited) (.read "record-1") ++
    [PublishEvent.commit "record-1" "version-1" "request-1" "job-1"]

/-- The README of a published version is not the one at its commit. -/
def tornReadme (s : Skill) (v : Version) : Bool :=
  v.status == .published && v.manifestSnapshot.any fun document =>
    (v.sourceCommitSha.bind fun sha => s.branch.commit? sha).any fun c =>
      fileAt "README.md" c.files != some document.promptMaterial.readme

theorem tornReadme_unsettled {v : Version} (torn : tornReadme s v = true) : ¬ Settled s v := by
  rintro ⟨sha, document, hasSha, hasDocument, ⟨c, found, readme, -⟩, -⟩
  simp [tornReadme, hasSha, hasDocument, found, readme] at torn

/-- The commit comes after the read of the head and before the read of README.md. -/
theorem publish_torn : ¬ ∀ t, Run (Skill.step plainHost) anyStep newSkill t →
    ∀ v ∈ t.versions, v.status = .published → Settled t v := by
  intro always
  obtain ⟨t, followed, torn⟩ : ∃ t,
      follow (Skill.step plainHost) anyStep newSkill (publishAround 1) = some t ∧
      (t.versions.any (tornReadme t)) = true :=
    (Option.any_eq_true ..).mp (by decide +kernel)
  obtain ⟨v, isVersion, torn⟩ := List.any_eq_true.mp torn
  have published : v.status = .published := eq_of_beq (Bool.and_eq_true_iff.mp torn).1
  exact tornReadme_unsettled torn (always t (run_of_follow followed) v isVersion published)

/-- The commit comes after the last text was read. -/
theorem published_settled_late : ∃ t, Run (Skill.step plainHost) Undisturbed newSkill t ∧
    t.published.length = 1 ∧ ∀ v ∈ t.versions, v.status = .published → Settled t v := by
  obtain ⟨t, followed, one⟩ : ∃ t,
      follow (Skill.step plainHost) Undisturbed newSkill (publishAround 3) = some t ∧
      (t.published.length == 1) = true :=
    (Option.any_eq_true ..).mp (by decide +kernel)
  exact ⟨t, run_of_follow followed, beq_iff_eq.mp one, published_settled (run_of_follow followed)⟩

end Psop.Skills
