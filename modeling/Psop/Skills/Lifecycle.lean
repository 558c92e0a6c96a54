import Psop.Skills.Materials

/-!
The statuses of a material, its analyses and their jobs.

`Tended` is the invariant: an analysis is pending or running exactly while its job is not finished,
there is at most one such analysis, and a material in processing has it unless its upload has not
queued it yet. `material_lifecycle` carries it along every run whose writes are `Timely`;
`lifecycle_broken` has a run to each of the three ends that writes out of time come to.
-/
namespace Psop.Skills

open Psop.Jobs (Held written)

variable {s t : Material}

/-! ### Timely writes -/

/-- The attempt has the lease of its analysis. -/
def Material.holds (s : Material) (k : Nat) (attempt : AnalysisAttempt) : Prop :=
  ∀ analysis ∈ s.analyses[attempt.analysis]?, analysis.holder = some k

instance (s : Material) (k : Nat) (attempt : AnalysisAttempt) : Decidable (s.holds k attempt) :=
  inferInstanceAs (Decidable (∀ analysis ∈ s.analyses[attempt.analysis]?, analysis.holder = some k))

/-- An analysis is inserted while none is active, and a status other than the one that was read is
not written over an archived material. -/
def RequestTimely (s : Material) (request : AnalyzeRequest) : Prop :=
  request.stage = .inserting → (∀ analysis ∈ s.analyses, analysis.status.active = false) ∧
    (request.held ≠ .processing → s.status ≠ .archived)

instance (s : Material) (request : AnalyzeRequest) : Decidable (RequestTimely s request) :=
  inferInstanceAs (Decidable (request.stage = .inserting →
    (∀ analysis ∈ s.analyses, analysis.status.active = false) ∧
    (request.held ≠ .processing → s.status ≠ .archived)))

def HandlerStage.loadedMaterial? : HandlerStage → Option MaterialStatus
  | .loaded _ material => some material
  | _ => none

def Timely (s : Material) : MaterialEvent → Prop
  | .queueAnalyze r _ => ∀ request ∈ s.requests[r]?, RequestTimely s request
  | .start k => ∀ attempt ∈ s.attempts[k]?, ∀ material ∈ attempt.stage.loadedMaterial?,
      s.holds k attempt → material ≠ .processing → s.status ≠ .archived
  | .finish k _ => ∀ attempt ∈ s.attempts[k]?, s.holds k attempt → s.status ≠ .archived
  | _ => True

instance : ∀ s e, Decidable (Timely s e)
  | s, .queueAnalyze r _ => inferInstanceAs (Decidable (∀ request ∈ s.requests[r]?,
      RequestTimely s request))
  | s, .start k => inferInstanceAs (Decidable (∀ attempt ∈ s.attempts[k]?,
      ∀ material ∈ attempt.stage.loadedMaterial?,
      s.holds k attempt → material ≠ .processing → s.status ≠ .archived))
  | s, .finish k _ => inferInstanceAs (Decidable (∀ attempt ∈ s.attempts[k]?,
      s.holds k attempt → s.status ≠ .archived))
  | _, .queueUpload _ | _, .delete | _, .analyze | _, .claim _ | _, .load _ | _, .drop _ =>
    inferInstanceAs (Decidable True)

/-! ### Analyses and their jobs -/

/-- What a step makes of an analysis. -/
inductive Goes : Analysis → Analysis → Prop
  | claimed {old : Analysis} {held : Held} {k : Nat} (claims : old.held.claim = some held) :
      Goes old { old with held := held, holder := some k }
  | started {old : Analysis} {k : Nat} {read : AnalysisStatus} (holds : old.holder = some k) :
      Goes old { old with status := written read .running old.status }
  | finished {old : Analysis} {k : Nat} {outcome : AnalysisOutcome} (holds : old.holder = some k) :
      Goes old { status := outcome.analysis, held := old.held.settle outcome.job, holder := none }
  | retried {old : Analysis} (running : old.held.status = .running)
      (left : old.held.exhausted = false) :
      Goes old { old with held := old.held.drop, holder := none }
  | exhausted {old : Analysis} {status : AnalysisStatus} (running : old.held.status = .running)
      (none_ : old.held.exhausted = true) (fails : old.status.active = true → status = .failed) :
      Goes old { status := status, held := old.held.drop, holder := none }

/-- A step leaves the analyses alone, adds one, or goes on with one. -/
theorem analyses_cases {e : MaterialEvent} (stepped : s.step e = some t) :
    t.analyses = s.analyses ∨
    (∃ maxAttempts, t.analyses = s.analyses ++ [{ held := { maxAttempts := maxAttempts } }]) ∨
    ∃ a old new, s.analyses[a]? = some old ∧ Goes old new ∧ t.analyses = s.analyses.set a new := by
  cases e with
  | queueUpload maxAttempts =>
    simp only [Material.step, queueUpload] at stepped
    split at stepped
    · obtain rfl := Option.some.inj stepped
      exact .inl rfl
    · obtain rfl := Option.some.inj stepped
      exact .inr (.inl ⟨maxAttempts, rfl⟩)
    · cases stepped
  | delete =>
    simp only [Material.step, deleteMaterial] at stepped
    split at stepped
    · cases stepped
    · obtain rfl := Option.some.inj stepped
      exact .inl rfl
  | analyze =>
    simp only [Material.step, analyze] at stepped
    split at stepped
    · cases stepped
    · obtain rfl := Option.some.inj stepped
      exact .inl rfl
  | queueAnalyze r maxAttempts =>
    simp only [Material.step, queueAnalyze] at stepped
    split at stepped
    · obtain rfl := Option.some.inj stepped
      exact .inl rfl
    · obtain rfl := Option.some.inj stepped
      exact .inl rfl
    · obtain rfl := Option.some.inj stepped
      exact .inr (.inl ⟨maxAttempts, rfl⟩)
    · cases stepped
    · cases stepped
  | claim a =>
    obtain ⟨analysis, found, stepped⟩ := Option.bind_eq_some_iff.mp stepped
    obtain ⟨held, claims, rfl⟩ := Option.map_eq_some_iff.mp stepped
    exact .inr (.inr ⟨a, analysis, _, found, .claimed claims, rfl⟩)
  | load k =>
    simp only [Material.step, loadAnalysis] at stepped
    split at stepped
    · obtain ⟨analysis, -, rfl⟩ := Option.map_eq_some_iff.mp stepped
      exact .inl rfl
    · cases stepped
  | start k =>
    simp only [Material.step, startAnalysis] at stepped
    split at stepped
    · obtain ⟨analysis, found, rfl⟩ := Option.map_eq_some_iff.mp stepped
      split
      · exact .inl rfl
      · rename_i holds
        exact .inr (.inr ⟨_, analysis, _, found, .started (not_not.mp holds), rfl⟩)
    · cases stepped
  | finish k outcome =>
    simp only [Material.step, finishAnalysis] at stepped
    split at stepped
    · obtain ⟨analysis, found, rfl⟩ := Option.map_eq_some_iff.mp stepped
      split
      · exact .inl rfl
      · rename_i holds
        exact .inr (.inr ⟨_, analysis, _, found, .finished (not_not.mp holds), rfl⟩)
    · cases stepped
  | drop a =>
    obtain ⟨analysis, found, stepped⟩ := Option.bind_eq_some_iff.mp stepped
    simp only at stepped
    split at stepped
    · cases stepped
    · rename_i running
      split at stepped
      · rename_i exhausted
        obtain rfl := Option.some.inj stepped
        unfold finalizeExhaustedAnalysis
        split
        · exact .inr (.inr ⟨a, analysis, _, found,
            .exhausted (not_not.mp running) exhausted fun _ => rfl, rfl⟩)
        · rename_i ended
          exact .inr (.inr ⟨a, analysis, _, found,
            .exhausted (not_not.mp running) exhausted fun active => absurd active ended, rfl⟩)
      · rename_i left
        obtain rfl := Option.some.inj stepped
        exact .inr (.inr ⟨a, analysis, _, found,
          .retried (not_not.mp running) (Bool.not_eq_true _ ▸ left), rfl⟩)

/-- An analysis is pending or running exactly while its job is not finished, and its lease is that
of a running job. -/
structure Analysis.Paired (analysis : Analysis) : Prop where
  agree : analysis.status.active = !analysis.held.finished
  holding : ∀ k, analysis.holder = some k → analysis.held.status = .running

/-- With a running job an analysis is pending or running. -/
theorem Analysis.Paired.active {analysis : Analysis} (paired : analysis.Paired)
    (running : analysis.held.status = .running) : analysis.status.active = true := by
  rw [paired.agree, Held.finished, running]
  rfl

theorem Goes.paired {old new : Analysis} (goes : Goes old new) (paired : old.Paired) :
    new.Paired := by
  cases goes with
  | claimed claims =>
    obtain ⟨running, unfinished, -⟩ := Held.claim_spec claims
    refine ⟨?_, fun _ _ => running⟩
    show old.status.active = !Held.finished _
    rw [paired.agree, unfinished, Held.finished, running]
  | started holds =>
    have active := paired.active (paired.holding _ holds)
    refine ⟨?_, paired.holding⟩
    show (written _ .running old.status).active = !old.held.finished
    rw [← paired.agree, active, written]
    split
    · exact active
    · rfl
  | @finished _ outcome holds =>
    refine ⟨?_, fun _ none_ => nomatch none_⟩
    cases outcome <;> rfl
  | retried running left =>
    have dropped := Held.drop_running running
    rw [if_neg (left ▸ Bool.false_ne_true)] at dropped
    refine ⟨?_, fun _ none_ => nomatch none_⟩
    show old.status.active = !old.held.drop.finished
    rw [paired.active running, Held.finished, dropped]
    rfl
  | exhausted running none_ fails =>
    have dropped := Held.drop_running running
    rw [if_pos none_] at dropped
    refine ⟨?_, fun _ none_ => nomatch none_⟩
    show AnalysisStatus.active _ = !old.held.drop.finished
    rw [fails (paired.active running), Held.finished, dropped]
    rfl

/-- An analysis that ended stays so. -/
theorem Goes.ends {old new : Analysis} (goes : Goes old new) (paired : old.Paired)
    (active : new.status.active = true) : old.status.active = true := by
  cases goes with
  | claimed | retried => exact active
  | started holds => exact paired.active (paired.holding _ holds)
  | @finished _ outcome => cases outcome <;> cases active
  | exhausted running => exact paired.active running

/-- Every analysis agrees with its job, in every run. -/
theorem paired_step {e : MaterialEvent} (paired : ∀ analysis ∈ s.analyses, analysis.Paired)
    (stepped : s.step e = some t) : ∀ analysis ∈ t.analyses, analysis.Paired := by
  rcases analyses_cases stepped with same | ⟨maxAttempts, same⟩ | ⟨a, old, new, found, goes, same⟩
  · rw [same]
    exact paired
  · rw [same]
    intro analysis mem
    rcases List.mem_append.mp mem with mem | mem
    · exact paired analysis mem
    · rw [List.mem_singleton.mp mem]
      exact ⟨rfl, fun _ holds => nomatch holds⟩
  · rw [same]
    intro analysis mem
    rcases List.mem_or_eq_of_mem_set mem with mem | rfl
    · exact paired analysis mem
    · exact goes.paired (paired old (List.mem_of_getElem? found))

/-! ### The invariant -/

structure Tended (s : Material) : Prop where
  paired : ∀ analysis ∈ s.analyses, analysis.Paired
  single : ∀ (i j : Nat) a b, s.analyses[i]? = some a → s.analyses[j]? = some b →
    a.status.active = true → b.status.active = true → i = j
  tended : s.status = .processing → s.upload = .done → ∃ a ∈ s.analyses, a.status.active = true
  first : s.upload ≠ .done → s.analyses = [] ∧ (s.status = .processing ∨ s.status = .archived) ∧
    ∀ request ∈ s.requests, request.held = .processing
  checked : ∀ request ∈ s.requests, request.stage = .queueing ∨ request.stage = .inserting →
    request.held ≠ .processing

/-- An archived material stays archived. -/
def StaysArchived (s t : Material) : Prop := s.status = .archived → t.status = .archived

/-- The attempts are not part of the invariant. -/
theorem Tended.setAttempt (tended : Tended s) (k : Nat) (stage : HandlerStage) :
    Tended (s.setAttempt k stage) :=
  ⟨tended.paired, tended.single, tended.tended, tended.first, tended.checked⟩

/-- A material with an analysis is past its upload. -/
theorem Tended.uploaded (tended : Tended s) {a : Nat} {old : Analysis}
    (found : s.analyses[a]? = some old) : s.upload = .done := by
  by_contra begun
  rw [(tended.first begun).1] at found
  cases found

/-- One analysis goes on: it may end, and a material in processing has one that did not. -/
theorem Tended.setAnalysis (tended : Tended s) {a : Nat} {old new : Analysis}
    (status : MaterialStatus) (found : s.analyses[a]? = some old) (goes : Goes old new)
    (still : status = .processing → new.status.active = true) :
    Tended { s.setAnalysis a new with status := status } := by
  have inside : a < s.analyses.length := (List.getElem?_eq_some_iff.mp found).1
  have isPaired := tended.paired old (List.mem_of_getElem? found)
  have was : ∀ (i : Nat) analysis, (s.analyses.set a new)[i]? = some analysis →
      analysis.status.active = true → ∃ before : Analysis, s.analyses[i]? = some before ∧
        before.status.active = true := by
    intro i analysis given active
    by_cases here : a = i
    · subst here
      rw [List.getElem?_set_self inside] at given
      obtain rfl := Option.some.inj given
      exact ⟨old, found, goes.ends isPaired active⟩
    · exact ⟨analysis, (List.getElem?_set_ne here).symm.trans given, active⟩
  refine ⟨fun analysis mem => ?_, fun i j x y atI atJ activeX activeY => ?_,
    fun processing _ => ⟨new, List.mem_set inside new, still processing⟩,
    fun begun => absurd (tended.uploaded found) begun, tended.checked⟩
  · rcases List.mem_or_eq_of_mem_set mem with mem | rfl
    · exact tended.paired analysis mem
    · exact goes.paired isPaired
  · obtain ⟨x', atI', activeX'⟩ := was i x atI activeX
    obtain ⟨y', atJ', activeY'⟩ := was j y atJ activeY
    exact tended.single i j x' y' atI' atJ' activeX' activeY'

theorem mem_modify_request {r : Nat} {stage : AnalyzeStage} {request : AnalyzeRequest}
    (isRequest : request ∈ (s.setRequest r stage).requests) :
    ∃ (i : Nat) (old : AnalyzeRequest), s.requests[i]? = some old ∧ old.held = request.held ∧
      request.stage = if i = r then stage else old.stage := by
  obtain ⟨i, found⟩ := List.mem_iff_getElem?.mp isRequest
  rw [show (s.setRequest r stage).requests = s.requests.modify r _ from rfl, List.getElem?_modify]
    at found
  obtain ⟨old, isOld, same⟩ := Option.map_eq_some_iff.mp found
  refine ⟨i, old, isOld, ?_⟩
  by_cases here : r = i
  · rw [if_pos here] at same
    rw [← same, if_pos here.symm]
    exact ⟨rfl, rfl⟩
  · rw [if_neg here] at same
    rw [← same, if_neg fun equal => here equal.symm]
    exact ⟨rfl, rfl⟩

/-- A request comes to queue an analysis only where it did not read processing. -/
theorem Tended.setRequest (tended : Tended s) {r : Nat} {stage : AnalyzeStage}
    (checked : ∀ request, s.requests[r]? = some request → stage = .queueing ∨ stage = .inserting →
      request.held ≠ .processing) : Tended (s.setRequest r stage) := by
  refine ⟨tended.paired, tended.single, tended.tended, fun begun => ?_,
    fun request isRequest queues => ?_⟩
  · obtain ⟨none_, either, held⟩ := tended.first begun
    refine ⟨none_, either, fun request isRequest => ?_⟩
    obtain ⟨i, old, isOld, same, -⟩ := mem_modify_request isRequest
    exact same ▸ held old (List.mem_of_getElem? isOld)
  · obtain ⟨i, old, isOld, same, isStage⟩ := mem_modify_request isRequest
    rw [isStage] at queues
    rw [← same]
    split at queues
    · rename_i here
      exact checked old (here ▸ isOld) queues
    · exact tended.checked old (List.mem_of_getElem? isOld) queues

/-! ### Requests -/

/-- An analysis that is queued beside no other tends the material. -/
theorem Tended.insert (tended : Tended s)
    (alone : ∀ analysis ∈ s.analyses, analysis.status.active = false) (held : MaterialStatus)
    (maxAttempts : Nat) : Tended { insertAnalysis held maxAttempts s with upload := .done } := by
  set new : Analysis := { held := { maxAttempts := maxAttempts } } with isNew
  have last : ∀ (i : Nat) analysis, (s.analyses ++ [new])[i]? = some analysis →
      analysis.status.active = true → i = s.analyses.length := by
    intro i analysis given active
    rcases Nat.lt_trichotomy i s.analyses.length with inside | here | beyond
    · rw [List.getElem?_append_left inside] at given
      rw [alone analysis (List.mem_of_getElem? given)] at active
      cases active
    · exact here
    · rw [List.getElem?_eq_none (by simp only [List.length_append, List.length_singleton]; omega)]
        at given
      cases given
  refine ⟨fun analysis mem => ?_, fun i j x y atI atJ activeX activeY => ?_,
    fun _ _ => ⟨new, List.mem_append_right _ (List.mem_singleton_self new), rfl⟩,
    fun begun => absurd rfl begun, tended.checked⟩
  · rcases List.mem_append.mp mem with mem | mem
    · exact tended.paired analysis mem
    · rw [List.mem_singleton.mp mem]
      exact ⟨rfl, fun _ holds => nomatch holds⟩
  · exact (last i x atI activeX).trans (last j y atJ activeY).symm

theorem Tended.queueUpload (tended : Tended s) {maxAttempts : Nat}
    (stepped : queueUpload maxAttempts s = some t) : Tended t ∧ t.status = s.status := by
  unfold Skills.queueUpload at stepped
  cases stage : s.upload with
  | stored =>
    simp only [stage] at stepped
    obtain rfl := Option.some.inj stepped
    have begun : s.upload ≠ .done := fun done => nomatch stage.symm.trans done
    have absent : keepsExisting false s.latestAnalysis = false := by
      rw [Material.latestAnalysis, (tended.first begun).1]
      rfl
    rw [absent]
    exact ⟨⟨tended.paired, tended.single, fun _ done => (nomatch done),
      fun _ => tended.first begun, tended.checked⟩, rfl⟩
  | inserting =>
    simp only [stage] at stepped
    obtain rfl := Option.some.inj stepped
    have begun : s.upload ≠ .done := fun done => nomatch stage.symm.trans done
    have alone : ∀ analysis ∈ s.analyses, analysis.status.active = false := by
      rw [(tended.first begun).1]
      exact fun analysis mem => nomatch mem
    refine ⟨tended.insert alone .processing maxAttempts, ?_⟩
    show written .processing .processing s.status = s.status
    exact if_pos rfl
  | done =>
    simp only [stage] at stepped
    cases stepped

theorem Tended.delete (tended : Tended s) (stepped : deleteMaterial s = some t) :
    Tended t ∧ t.status = .archived := by
  unfold deleteMaterial at stepped
  split at stepped
  · cases stepped
  · obtain rfl := Option.some.inj stepped
    refine ⟨⟨tended.paired, tended.single, fun same => (nomatch same),
      fun begun => ?_, tended.checked⟩, rfl⟩
    obtain ⟨none_, -, held⟩ := tended.first begun
    exact ⟨none_, .inr rfl, held⟩

theorem Tended.analyze (tended : Tended s) (stepped : analyze s = some t) :
    Tended t ∧ t.status = s.status := by
  unfold Skills.analyze at stepped
  split at stepped
  · cases stepped
  · rename_i unarchived
    obtain rfl := Option.some.inj stepped
    refine ⟨⟨tended.paired, tended.single, tended.tended, fun begun => ?_,
      fun request isRequest queues => ?_⟩, rfl⟩
    · obtain ⟨none_, either, held⟩ := tended.first begun
      refine ⟨none_, either, fun request isRequest => ?_⟩
      rcases List.mem_append.mp isRequest with isRequest | isRequest
      · exact held request isRequest
      · rw [List.mem_singleton.mp isRequest]
        exact either.resolve_right unarchived
    · rcases List.mem_append.mp isRequest with isRequest | isRequest
      · exact tended.checked request isRequest queues
      · rw [List.mem_singleton.mp isRequest] at queues
        rcases queues with queues | queues <;> cases queues

theorem Tended.queueAnalyze (tended : Tended s) {r maxAttempts : Nat}
    (timely : Timely s (.queueAnalyze r maxAttempts))
    (stepped : queueAnalyze r maxAttempts s = some t) : Tended t ∧ StaysArchived s t := by
  unfold Skills.queueAnalyze at stepped
  split at stepped
  · -- its own check: it goes on only where it did not read processing
    rename_i held found
    obtain rfl := Option.some.inj stepped
    refine ⟨tended.setRequest fun request isRequest queues processing => ?_, id⟩
    obtain rfl := Option.some.inj (found.symm.trans isRequest)
    rw [show held = .processing from processing] at queues
    rcases queues with queues | queues <;> cases queues
  · rename_i held found
    obtain rfl := Option.some.inj stepped
    refine ⟨tended.setRequest fun request isRequest _ => ?_, id⟩
    obtain rfl := Option.some.inj (found.symm.trans isRequest)
    exact tended.checked _ (List.mem_of_getElem? found) (.inl rfl)
  · rename_i held found
    obtain rfl := Option.some.inj stepped
    obtain ⟨alone, unarchived⟩ := timely _ found rfl
    have read : held ≠ .processing := tended.checked _ (List.mem_of_getElem? found) (.inr rfl)
    have done : s.upload = .done := by
      by_contra begun
      exact read ((tended.first begun).2.2 _ (List.mem_of_getElem? found))
    have inserted := tended.insert alone held maxAttempts
    have kept : { insertAnalysis held maxAttempts s with upload := .done } =
        insertAnalysis held maxAttempts s := by
      rw [← done]
      rfl
    rw [kept] at inserted
    refine ⟨inserted.setRequest fun _ _ queues => ?_,
      fun archived => absurd archived (unarchived read)⟩
    rcases queues with queues | queues <;> cases queues
  · cases stepped
  · cases stepped

/-! ### The job of an analysis -/

theorem Tended.claim (tended : Tended s) {a : Nat} (stepped : claimAnalysis a s = some t) :
    Tended t ∧ t.status = s.status := by
  obtain ⟨analysis, found, stepped⟩ := Option.bind_eq_some_iff.mp stepped
  obtain ⟨held, claims, rfl⟩ := Option.map_eq_some_iff.mp stepped
  have goes : Goes analysis { analysis with held := held, holder := some s.attempts.length } :=
    .claimed claims
  have active : analysis.status.active = true := by
    rw [(tended.paired analysis (List.mem_of_getElem? found)).agree, (Held.claim_spec claims).2.1]
    rfl
  have moved := tended.setAnalysis s.status found goes fun _ => active
  exact ⟨⟨moved.paired, moved.single, moved.tended, moved.first, moved.checked⟩, rfl⟩

theorem Tended.load (tended : Tended s) {k : Nat} (stepped : loadAnalysis k s = some t) :
    Tended t ∧ t.status = s.status := by
  unfold loadAnalysis at stepped
  split at stepped
  · obtain ⟨analysis, -, rfl⟩ := Option.map_eq_some_iff.mp stepped
    exact ⟨tended.setAttempt k _, rfl⟩
  · cases stepped

theorem Tended.start (tended : Tended s) {k : Nat} (timely : Timely s (.start k))
    (stepped : startAnalysis k s = some t) : Tended t ∧ StaysArchived s t := by
  unfold startAnalysis at stepped
  split at stepped
  · rename_i a status material at_
    obtain ⟨analysis, found, rfl⟩ := Option.map_eq_some_iff.mp stepped
    split
    · exact ⟨tended.setAttempt k _, id⟩
    · rename_i holds
      have holds : analysis.holder = some k := not_not.mp holds
      have isPaired := tended.paired analysis (List.mem_of_getElem? found)
      have goes : Goes analysis
          { analysis with status := written status .running analysis.status } := .started holds
      have running : (written status .running analysis.status).active = true := by
        rw [(goes.paired isPaired).agree, Held.finished, isPaired.holding k holds]
        rfl
      refine ⟨(tended.setAnalysis _ found goes fun _ => running).setAttempt k _, fun archived => ?_⟩
      have untouched : material = .processing := by
        by_contra read
        refine timely _ at_ material rfl (fun other isOther => ?_) read archived
        obtain rfl := Option.some.inj (found.symm.trans isOther)
        exact holds
      show written material .processing s.status = .archived
      rw [untouched, written, if_pos rfl]
      exact archived
  · cases stepped

theorem Tended.finish (tended : Tended s) {k : Nat} {outcome : AnalysisOutcome}
    (timely : Timely s (.finish k outcome)) (stepped : finishAnalysis k outcome s = some t) :
    Tended t ∧ StaysArchived s t := by
  unfold finishAnalysis at stepped
  split at stepped
  · rename_i a at_
    obtain ⟨analysis, found, rfl⟩ := Option.map_eq_some_iff.mp stepped
    split
    · exact ⟨tended.setAttempt k _, id⟩
    · rename_i holds
      have holds : analysis.holder = some k := not_not.mp holds
      have goes : Goes analysis
          { status := outcome.analysis, held := analysis.held.settle outcome.job } :=
        .finished holds
      have ended : written .processing outcome.material s.status ≠ .processing := by
        cases outcome <;> simp [written, AnalysisOutcome.material]
      have moved := tended.setAnalysis _ found goes fun processing => absurd processing ended
      refine ⟨moved.setAttempt k _, fun archived => ?_⟩
      refine absurd archived (timely _ at_ fun other isOther => ?_)
      obtain rfl := Option.some.inj (found.symm.trans isOther)
      exact holds
  · cases stepped

theorem Tended.drop (tended : Tended s) {a : Nat} (stepped : dropAnalysis a s = some t) :
    Tended t ∧ StaysArchived s t := by
  obtain ⟨analysis, found, stepped⟩ := Option.bind_eq_some_iff.mp stepped
  simp only at stepped
  split at stepped
  · cases stepped
  · rename_i running
    have running : analysis.held.status = .running := not_not.mp running
    have active := (tended.paired analysis (List.mem_of_getElem? found)).active running
    split at stepped
    · -- the finaliser fails the analysis, and the material that is not archived
      rename_i exhausted
      obtain rfl := Option.some.inj stepped
      rw [finalizeExhaustedAnalysis, if_pos active]
      have goes : Goes analysis { status := .failed, held := analysis.held.drop, holder := none } :=
        .exhausted running exhausted fun _ => rfl
      refine ⟨tended.setAnalysis _ found goes fun processing => ?_, fun archived => if_pos archived⟩
      split at processing <;> cases processing
    · rename_i left
      obtain rfl := Option.some.inj stepped
      have goes : Goes analysis { analysis with held := analysis.held.drop, holder := none } :=
        .retried running (Bool.not_eq_true _ ▸ left)
      exact ⟨tended.setAnalysis s.status found goes fun _ => active, id⟩

/-! ### Runs -/

theorem Tended.step (tended : Tended s) {e : MaterialEvent} (timely : Timely s e)
    (stepped : s.step e = some t) : Tended t ∧ StaysArchived s t := by
  cases e with
  | queueUpload maxAttempts =>
    obtain ⟨tended', same⟩ := tended.queueUpload stepped
    exact ⟨tended', same.trans⟩
  | delete =>
    obtain ⟨tended', archived⟩ := tended.delete stepped
    exact ⟨tended', fun _ => archived⟩
  | analyze =>
    obtain ⟨tended', same⟩ := tended.analyze stepped
    exact ⟨tended', same.trans⟩
  | queueAnalyze r maxAttempts => exact tended.queueAnalyze timely stepped
  | claim a =>
    obtain ⟨tended', same⟩ := tended.claim stepped
    exact ⟨tended', same.trans⟩
  | load k =>
    obtain ⟨tended', same⟩ := tended.load stepped
    exact ⟨tended', same.trans⟩
  | start k => exact tended.start timely stepped
  | finish k outcome => exact tended.finish timely stepped
  | drop a => exact tended.drop stepped

theorem tended_uploaded : Tended .uploaded :=
  ⟨fun _ mem => (nomatch mem), fun _ _ _ _ given => (nomatch given), fun _ done => (nomatch done),
    fun _ => ⟨rfl, .inl rfl, fun _ mem => nomatch mem⟩, fun _ mem => nomatch mem⟩

/-- An analysis that is pending or running, with a job that is not finished. -/
def Analysis.ongoing (analysis : Analysis) : Bool :=
  analysis.status.active && !analysis.held.finished

/-- At most one analysis is pending or running, and beside a material in processing there is one
exactly from the end of its upload on. -/
def InStep (s : Material) : Prop :=
  (∀ (i j : Nat) a b, s.analyses[i]? = some a → s.analyses[j]? = some b →
    a.status.active = true → b.status.active = true → i = j) ∧
  (s.status = .processing → ((∃ a ∈ s.analyses, a.ongoing = true) ↔ s.upload = .done))

theorem Tended.inStep (tended : Tended s) : InStep s := by
  refine ⟨tended.single, fun processing => ⟨fun ⟨a, mem, _⟩ => ?_, fun done => ?_⟩⟩
  · obtain ⟨i, found⟩ := List.mem_iff_getElem?.mp mem
    exact tended.uploaded found
  · obtain ⟨a, mem, active⟩ := tended.tended processing done
    refine ⟨a, mem, ?_⟩
    rw [Analysis.ongoing, ← (tended.paired a mem).agree, active]
    rfl

/-- **In every run whose writes are timely an archived material stays archived, at most one analysis
is pending or running, and from the end of its upload a material in processing has one whose job is
not finished.** -/
theorem material_lifecycle (before : Run Material.step Timely .uploaded s)
    (after : Run Material.step Timely s t) : StaysArchived s t ∧ InStep t := by
  have preserved : ∀ s e t, Tended s → Timely s e → s.step e = some t → Tended t :=
    fun s e t tended timely stepped => (tended.step timely stepped).1
  have tended := before.invariant preserved tended_uploaded
  have kept : ∀ s e t, Tended s → Timely s e → s.step e = some t → StaysArchived s t :=
    fun s e t tended timely stepped => (tended.step timely stepped).2
  have chain : ∀ s t u, StaysArchived s t → StaysArchived t u → StaysArchived s u :=
    fun _ _ _ first second => second ∘ first
  exact ⟨after.related (fun _ archived => archived) chain preserved kept tended,
    (after.invariant preserved tended).inStep⟩

/-! ### Writes out of time -/

/-- An upload and its analysis up to the result. -/
def analysed : List MaterialEvent :=
  [.queueUpload 3, .queueUpload 3, .claim 0, .load 0, .start 0]

/-- A deletion beside a running analysis is undone by its result, two requests that have both passed
their checks queue an analysis each, and an upload that stops between its transactions leaves a
material in processing that no request may analyse. -/
theorem lifecycle_broken :
    (¬ ∀ s t, Run Material.step anyStep .uploaded s → Run Material.step anyStep s t →
      StaysArchived s t) ∧
    (¬ ∀ t, Run Material.step anyStep .uploaded t → ∀ (i j : Nat) a b, t.analyses[i]? = some a →
      t.analyses[j]? = some b → a.status.active = true → b.status.active = true → i = j) ∧
    ¬ ∀ t, Run Material.step anyStep .uploaded t → t.status = .processing →
      ∃ a ∈ t.analyses, a.ongoing = true := by
  refine ⟨fun always => ?_, fun always => ?_, fun always => ?_⟩
  · have checked : ((follow Material.step anyStep .uploaded (analysed ++ [MaterialEvent.delete])).bind fun s =>
        (follow Material.step anyStep s [.finish 0 .ready]).map fun t => (s, t)).any (fun (s, t) =>
          s.status == .archived && t.status == .ready) = true := by decide +kernel
    obtain ⟨s, ⟨s', t⟩, before, after, undone⟩ := checked_run checked
    obtain ⟨u, followed, same⟩ := Option.map_eq_some_iff.mp after
    obtain ⟨rfl, rfl⟩ := Prod.mk.inj same
    obtain ⟨archived, ready⟩ := Bool.and_eq_true_iff.mp undone
    have still := always s u (run_of_follow before) (run_of_follow followed)
      (beq_iff_eq.mp archived)
    rw [beq_iff_eq.mp ready] at still
    cases still
  · obtain ⟨t, followed, twice⟩ : ∃ t, follow Material.step anyStep .uploaded
        (analysed ++ [MaterialEvent.finish 0 .ready, .analyze, .analyze, .queueAnalyze 0 3, .queueAnalyze 1 3,
          .queueAnalyze 0 3, .queueAnalyze 1 3, .queueAnalyze 0 3, .queueAnalyze 1 3]) = some t ∧
        (t.analyses[1]?.any (·.status.active) && t.analyses[2]?.any (·.status.active)) = true :=
      (Option.any_eq_true ..).mp (by decide +kernel)
    obtain ⟨one, two⟩ := Bool.and_eq_true_iff.mp twice
    obtain ⟨a, atOne, activeA⟩ := (Option.any_eq_true ..).mp one
    obtain ⟨b, atTwo, activeB⟩ := (Option.any_eq_true ..).mp two
    cases always t (run_of_follow followed) 1 2 a b atOne atTwo activeA activeB
  · obtain ⟨t, followed, left⟩ : ∃ t, follow Material.step anyStep .uploaded
        [.analyze, .queueAnalyze 0 3] = some t ∧
        (t.status == .processing && t.analyses.isEmpty) = true :=
      (Option.any_eq_true ..).mp (by decide +kernel)
    obtain ⟨processing, none_⟩ := Bool.and_eq_true_iff.mp left
    obtain ⟨a, mem, -⟩ := always t (run_of_follow followed) (beq_iff_eq.mp processing)
    rw [List.isEmpty_iff.mp none_] at mem
    cases mem

/-- An upload whose first attempt is dropped, its analysis, a second analysis, and a deletion. -/
theorem material_lifecycle_deleted : ∃ s t, Run Material.step Timely .uploaded s ∧
    Run Material.step Timely s t ∧ s.status = .archived ∧ StaysArchived s t ∧ InStep t := by
  have checked : ((follow Material.step Timely .uploaded [.queueUpload 3, .queueUpload 3, .claim 0,
      .load 0, .drop 0, .claim 0, .load 1, .start 1, .finish 1 .failed, .analyze, .queueAnalyze 0 3,
      .queueAnalyze 0 3, .queueAnalyze 0 3, .claim 1, .delete]).bind fun s =>
        (follow Material.step Timely s [.load 2, .drop 1]).map fun t => (s, t)).any (fun (s, t) =>
          s.status == .archived && t.analyses.length == 2) = true := by decide +kernel
  obtain ⟨s, ⟨s', t⟩, before, after, passes⟩ := checked_run checked
  obtain ⟨u, followed, same⟩ := Option.map_eq_some_iff.mp after
  obtain ⟨rfl, rfl⟩ := Prod.mk.inj same
  obtain ⟨archived, -⟩ := Bool.and_eq_true_iff.mp passes
  exact ⟨s, u, run_of_follow before, run_of_follow followed, beq_iff_eq.mp archived,
    material_lifecycle (run_of_follow before) (run_of_follow followed)⟩

end Psop.Skills
