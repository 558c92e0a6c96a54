import Psop.SkillTests.Driver

/-!
The driver on its timeline and the driver of the scenario run.

`Driving` says which input is sent when, `Scenario` what the sessions of all parties write. Where the ids
of the inputs are distinct the two are one driver: `Follows` lays a state of the one on a state of the
other, a step of the attempt that has the lease is a step of the scenario's driver
(`advance_followed`), and **`driving_refines`** carries it over whole runs.
-/
namespace Psop.SkillTests

open Psop.Jobs (Held written)
open Psop.Runtime (RunStatus JobStatus)

/-! ### One state on another -/

/-- The attempt as the scenario run has it. -/
def DrivingStage.view : DrivingStage → DriverStage
  | .claimed => .claimed
  | .loaded held now runtime => .loaded held now runtime
  | .sending held now runtime _ _ sentAny => .sending held now runtime sentAny
  | .settling now => .settling now
  | .over => .over

/-- The attempt's row has its cursor. -/
def DrivingStage.Current : DrivingStage → Prop
  | .sending _ now _ _ cursor _ => now.driverCursor = cursor
  | .claimed | .loaded .. | .settling _ | .over => True

structure Follows (s : Driving) (c : Scenario) : Prop where
  run : c.run = s.row
  runtime : c.runtime = s.runtime
  inputs : c.inputs = s.inputEvents.length
  appended : c.appended = s.submitted.length
  held : c.driver.held = s.job
  /-- The last attempt has the lease while the job is running. -/
  lease : s.job.status = .running → ∀ k, k + 1 = s.attempts.length → c.driver.holder = some k
  count : c.drivers.length = s.attempts.length
  /-- An attempt that has stopped may be anywhere: it has lost the lease. -/
  stages : ∀ (k : Nat) (stage : DrivingStage), s.attempts[k]? = some stage →
    stage = .over ∨ c.drivers[k]? = some stage.view ∧ stage.Current

/-- An attempt moves on only while it has the lease, and an ended scenario run is not cancelled. -/
def Driving.Leased (s : Driving) : DrivingEvent → Prop
  | .step k => s.job.status = .running ∧ k + 1 = s.attempts.length
  | .cancel => s.row.status.terminal = false
  | .claim | .stop _ | .drop | .runtime _ | .sync | .tick _ => True

variable {s t : Driving} {c d : Scenario} {k : Nat} {stage : DrivingStage} {held now : ScenarioRun}
  {runtime : RunStatus} {cursor : Nat} {sentAny : Bool}

/-- The attempt's next stage. -/
theorem Follows.attempt (follows : Follows s c) (k : Nat) (current : stage.Current) :
    Follows (s.setAttempt k stage) (c.setDriver k stage.view) where
  run := follows.run
  runtime := follows.runtime
  inputs := follows.inputs
  appended := follows.appended
  held := follows.held
  lease running j isLast := follows.lease running j (by simpa [Driving.setAttempt] using isLast)
  count := by simp [Driving.setAttempt, Scenario.setDriver, follows.count]
  stages j other isStage := by
    simp only [Driving.setAttempt, Scenario.setDriver, List.getElem?_set] at isStage ⊢
    split at isStage
    · split at isStage
      · rename_i same inRange
        rw [if_pos same, follows.count, if_pos inRange, ← Option.some.inj isStage]
        exact .inr ⟨rfl, current⟩
      · cases isStage
    · rename_i differs
      rw [if_neg differs]
      exact follows.stages j other isStage

theorem Follows.commit (follows : Follows s c) (row : ScenarioRun) :
    Follows { s with row := row } { c with run := row } :=
  ⟨rfl, follows.runtime, follows.inputs, follows.appended, follows.held, follows.lease, follows.count,
    follows.stages⟩

/-- The times are the timeline's only. -/
theorem Follows.timed (follows : Follows s c) (availableAt now : Int) :
    Follows { s with availableAt := availableAt, now := now } c :=
  ⟨follows.run, follows.runtime, follows.inputs, follows.appended, follows.held, follows.lease,
    follows.count, follows.stages⟩

theorem Follows.release (follows : Follows s c) {job : Held} (released : job.status ≠ .running) :
    Follows { s with job := job } { c with driver := ⟨job, none⟩ } :=
  ⟨follows.run, follows.runtime, follows.inputs, follows.appended, rfl,
    fun running => absurd running released, follows.count, follows.stages⟩

/-- A flush writes the same row on both sides. -/
theorem Follows.flush (follows : Follows s c) (held now : ScenarioRun) :
    Follows (s.flush held now) (c.flush held now) := by
  have same : c.flush held now = { c with run := (s.flush held now).row } := by
    rw [Scenario.flush, follows.run]
    rfl
  rw [same]
  exact follows.commit _

theorem sync_cursor (runtime : RunStatus) (row : ScenarioRun) :
    (syncScenarioRun runtime row).driverCursor = row.driverCursor := by
  unfold syncScenarioRun
  split
  · rfl
  · split
    · rfl
    · split <;> rfl

theorem settled_released (driverStatus : DriverStatus) (job : Held) :
    (settledDriver driverStatus job).status ≠ .running := by
  cases driverStatus <;> simp [settledDriver, Held.settle, Held.again]

theorem ensure_follows (follows : Follows s c) : Follows s (ensureFinalizer c) :=
  ⟨follows.run, follows.runtime, follows.inputs, follows.appended, follows.held, follows.lease,
    follows.count, follows.stages⟩

/-! ### A step of the attempt that has the lease -/

theorem step_of_drive {view : DriverStage} (look : Due) (isStage : c.drivers[k]? = some view)
    (open_ : view ≠ .over) (lease : c.driver.holder = some k) :
    c.step (.driver k look) = drive k look c view := by
  rw [Scenario.step, stepDriver, isStage, Option.bind_some, if_neg open_, if_pos lease]

theorem loaded_followed (follows : Follows s c) (bounded : now.driverCursor ≤ s.inputEvents.length)
    (advanced : advance k s (.loaded held now runtime) = some t) :
    ∃ d, drive k .due c (.loaded held now runtime) = some d ∧ Follows t d := by
  have cursor : min now.driverCursor s.inputEvents.length = now.driverCursor := Nat.min_eq_left bounded
  rw [advance, cursor] at advanced
  rw [drive, follows.inputs]
  split at advanced
  · rename_i cancelled
    obtain rfl := Option.some.inj advanced
    rw [if_pos cancelled]
    exact ⟨_, rfl, @Follows.attempt _ _ (.settling now) (follows.flush held now) k trivial⟩
  · rename_i goesOn
    rw [if_neg goesOn]
    split at advanced
    · rename_i early
      obtain rfl := Option.some.inj advanced
      rw [if_pos early]
      exact ⟨_, rfl, @Follows.attempt _ _ (.settling _) (follows.flush held _) k trivial⟩
    · rename_i inTime
      obtain rfl := Option.some.inj advanced
      rw [if_neg inTime]
      exact ⟨_, rfl, @Follows.attempt _ _ (.sending held now runtime s.now now.driverCursor false)
        follows k rfl⟩

theorem out_followed (follows : Follows s c) (isCursor : now.driverCursor = cursor)
    (out : s.inputEvents[cursor]? = none) :
    ∃ d, drive k .due c (.sending held now runtime sentAny) = some d ∧
      Follows (driveOut k s held now runtime cursor sentAny) d := by
  subst isCursor
  rw [drive, follows.inputs, if_pos (List.getElem?_eq_none_iff.mp out)]
  exact ⟨_, rfl, @Follows.attempt _ _ (.settling _) (ensure_follows (follows.flush held _)) k trivial⟩

theorem early_followed {event : Json} (follows : Follows s c) (isCursor : now.driverCursor = cursor)
    (isEvent : s.inputEvents[cursor]? = some event) :
    ∃ look d, drive k look c (.sending held now runtime sentAny) = some d ∧
      Follows (driveEarly k s held now runtime cursor sentAny event) d := by
  subst isCursor
  have inRange : ¬c.inputs ≤ now.driverCursor := by
    rw [follows.inputs, Nat.not_le]
    exact (List.getElem?_eq_some_iff.mp isEvent).1
  have waits (row : ScenarioRun) (sameCursor : row.driverCursor = now.driverCursor) : Follows
      ({ s.flush held { row with driverStatus := .waitingTime, driverCursor := now.driverCursor } with
        job := s.job.again
        availableAt := s.scheduledAt event }.setAttempt k .over)
      ({ c.flush held { row with driverStatus := .waitingTime } with
        driver := ⟨c.driver.held.again, none⟩ }.setDriver k .over) := by
    have flushed := follows.flush held { row with driverStatus := .waitingTime }
    have released := @Follows.release _ _ flushed s.job.again (by simp [Held.again])
    rw [follows.held, ← sameCursor]
    exact @Follows.attempt _ _ .over (released.timed (s.scheduledAt event) s.now) k trivial
  unfold driveEarly
  dsimp only
  by_cases sent : sentAny = true
  · subst sent
    simp only [if_true]
    split
    · rename_i ended
      refine ⟨.ahead, _, ?_, @Follows.attempt _ _ (.settling _) (follows.flush held _) k trivial⟩
      rw [drive, if_neg inRange]
      simp [ended, DrivingStage.view]
    · rename_i goesOn
      split
      · refine ⟨.arrived, _, ?_, @Follows.attempt _ _ (.sending held (syncScenarioRun runtime now) runtime
          s.now now.driverCursor true) follows k (sync_cursor runtime now)⟩
        rw [drive, if_neg inRange]
        simp [goesOn, DrivingStage.view]
      · refine ⟨.ahead, _, ?_, waits _ (sync_cursor runtime now)⟩
        rw [drive, if_neg inRange]
        simp [goesOn]
  · rw [Bool.not_eq_true] at sent
    subst sent
    refine ⟨.ahead, _, ?_, waits now rfl⟩
    rw [drive, if_neg inRange]
    simp

theorem due_followed {timeline : Timeline} {event : Json} (drives : Drives timeline s)
    (ids : (s.inputEvents.map eventId).Nodup) (follows : Follows s c)
    (isCursor : now.driverCursor = cursor) (isEvent : s.inputEvents[cursor]? = some event)
    (driven : driveDue k s held now cursor event = some t) :
    ∃ d, drive k .due c (.sending held now runtime sentAny) = some d ∧ Follows t d := by
  subst isCursor
  have inRange : ¬c.inputs ≤ now.driverCursor := by
    rw [follows.inputs, Nat.not_le]
    exact (List.getElem?_eq_some_iff.mp isEvent).1
  have known := known_iff drives.booked drives.inOrder ids isEvent
  rw [← follows.appended] at known
  rw [drive, if_neg inRange, if_pos rfl, follows.runtime]
  unfold driveDue at driven
  dsimp only at driven ⊢
  split at driven
  · rename_i isKnown
    obtain rfl := Option.some.inj driven
    rw [if_pos (known.mp isKnown)]
    exact ⟨_, rfl, @Follows.attempt _ _ (.sending held _ s.runtime s.now (now.driverCursor + 1) true)
      follows k rfl⟩
  · rename_i isNew
    split at driven
    · cases driven
    · rename_i isOpen
      obtain rfl := Option.some.inj driven
      rw [if_neg (mt known.mpr isNew), if_neg isOpen]
      have flushed := follows.flush held now
      have sent : Follows ((s.flush held now).submit event)
          { c.flush held now with appended := c.appended + 1 } :=
        ⟨flushed.run, flushed.runtime, flushed.inputs, by
          rw [Driving.submit, List.length_append, List.length_singleton]
          exact congrArg (· + 1) follows.appended, flushed.held, flushed.lease, flushed.count,
          flushed.stages⟩
      exact ⟨_, rfl, @Follows.attempt _ _ (.sending now _ s.runtime s.now (now.driverCursor + 1) true)
        sent k rfl⟩

/-- **A step of the attempt that has the lease** is one of the scenario run's driver. -/
theorem advance_followed {timeline : Timeline} (drives : Drives timeline s)
    (ids : (s.inputEvents.map eventId).Nodup) (follows : Follows s c)
    (isStage : s.attempts[k]? = some stage) (current : stage.Current)
    (advanced : advance k s stage = some t) :
    ∃ look d, drive k look c stage.view = some d ∧ Follows t d := by
  have lags := drives.inOrder.stages stage (List.mem_of_getElem? isStage)
  cases stage with
  | claimed =>
    obtain rfl := Option.some.inj advanced
    refine ⟨.due, _, rfl, ?_⟩
    rw [follows.run, follows.runtime]
    exact @Follows.attempt _ _ (.loaded _ _ _) follows k trivial
  | loaded held now runtime =>
    exact ⟨.due, loaded_followed follows (lags.2.cursor.trans drives.inOrder.bounded) advanced⟩
  | sending held now runtime clock cursor sentAny =>
    rw [advance] at advanced
    split at advanced
    · rename_i out
      obtain rfl := Option.some.inj advanced
      exact ⟨.due, out_followed follows current out⟩
    · rename_i event isEvent
      split at advanced
      · obtain rfl := Option.some.inj advanced
        exact early_followed follows current isEvent
      · exact ⟨.due, due_followed drives ids follows current isEvent advanced⟩
  | settling now =>
    obtain rfl := Option.some.inj advanced
    refine ⟨.due, _, rfl, ?_⟩
    rw [follows.held]
    have released := follows.release (settled_released now.driverStatus s.job)
    exact @Follows.attempt _ _ .over released k trivial
  | _ => cases advanced

/-! ### The other parties -/

/-- A session that commits a row nobody has written since sets it. -/
theorem flush_own (c : Scenario) (now : ScenarioRun) : c.flush c.run now = { c with run := now } := by
  have column {α : Type} [DecidableEq α] (stored new : α) : written stored new stored = new := by
    rw [written]
    split
    · rename_i same
      exact same.symm
    · rfl
  rw [Scenario.flush, column, column, column]

theorem requested (c : Scenario) (request : RequestStage) :
    Scenario.step { c with requests := c.requests ++ [request] } (.request c.requests.length) =
      answerRequest c.requests.length { c with requests := c.requests ++ [request] } request := by
  rw [Scenario.step, List.getElem?_concat_length, Option.bind_some]

theorem Follows.requests (follows : Follows s c) (requests : List RequestStage) :
    Follows s { c with requests := requests } :=
  ⟨follows.run, follows.runtime, follows.inputs, follows.appended, follows.held, follows.lease,
    follows.count, follows.stages⟩

/-- A request opened and answered at once. -/
theorem answered {request : RequestStage} {e : ScenarioEvent}
    (opens : c.step e = some { c with requests := c.requests ++ [request] })
    (answers : answerRequest c.requests.length { c with requests := c.requests ++ [request] } request =
      some d) : Run Scenario.step anyStep c d :=
  (Run.single trivial opens).trans (Run.single trivial ((requested c request).trans answers))

theorem sync_followed (follows : Follows s c) : ∃ d, Run Scenario.step anyStep c d ∧
    Follows { s with row := syncScenarioRun s.runtime s.row } d := by
  refine ⟨_, @answered c _ (.syncing c.run c.runtime) .openSync rfl rfl, ?_⟩
  have flushed := (follows.requests (c.requests ++ [.syncing c.run c.runtime])).commit
    (syncScenarioRun s.runtime s.row)
  rw [← follows.runtime, ← follows.run] at flushed ⊢
  rw [flush_own { c with requests := c.requests ++ [.syncing c.run c.runtime] }]
  exact flushed.requests _

theorem sync_open {row : ScenarioRun} (isOpen : row.status.terminal = false)
    (goesOn : runtime.finished = false) :
    syncScenarioRun runtime row = { row with status := openStatus runtime } := by
  have notCancelled : runtime ≠ .cancelled := by
    rintro rfl
    cases goesOn
  rw [syncScenarioRun, isOpen, goesOn, if_neg Bool.false_ne_true, if_neg notCancelled, if_neg (by simp)]

theorem open_status_open (runtime : RunStatus) : (openStatus runtime).terminal = false := by
  cases runtime <;> rfl

/-- A cancellation up to the commit that ends the runtime run. -/
theorem cancelling_answered (isOpen : c.run.status.terminal = false) (goesOn : c.runtime.finished = false) :
    answerRequest c.requests.length { c with requests := c.requests ++ [.cancelling c.run c.runtime] }
        (.cancelling c.run c.runtime) =
      some { c with
        run := { c.run with status := openStatus c.runtime }
        runtime := .cancelled
        requests := c.requests ++ [.closing { c.run with status := openStatus c.runtime }] } := by
  have now := sync_open isOpen goesOn
  have notCancelled : openStatus c.runtime ≠ .cancelled := by
    intro same
    have stays := open_status_open c.runtime
    rw [same] at stays
    cases stays
  have last (request : RequestStage) : (c.requests ++ [RequestStage.cancelling c.run c.runtime]).set
        c.requests.length request = c.requests ++ [request] := by
    rw [List.set_append_right _ _ (Nat.le_refl _), Nat.sub_self]
    rfl
  rw [answerRequest, now]
  dsimp only
  rw [if_neg notCancelled, if_neg (by simp [open_status_open, goesOn]),
    flush_own { c with requests := c.requests ++ [.cancelling c.run c.runtime] }, Scenario.setRequest]
  rw [last]

theorem cancel_released (job : Held) : job.cancel.status ≠ .running := by
  unfold Held.cancel Held.finished
  cases status : job.status <;> simp [status]

theorem cancel_followed (follows : Follows s c) (isOpen : s.row.status.terminal = false)
    (goesOn : s.runtime.finished = false) : ∃ d, Run Scenario.step anyStep c d ∧
      Follows { s with
        runtime := .cancelled
        row := { s.row with status := .cancelled, driverStatus := .cancelled }
        job := s.job.cancel } d := by
  rw [← follows.run] at isOpen ⊢
  rw [← follows.runtime] at goesOn
  have cancels := answered (show c.step .openCancel = some { c with
    requests := c.requests ++ [.cancelling c.run c.runtime] } from rfl) (cancelling_answered isOpen goesOn)
  have closes := Run.single (show anyStep _ _ from trivial) (requested { c with
    run := { c.run with status := openStatus c.runtime }, runtime := .cancelled }
    (.closing { c.run with status := openStatus c.runtime }))
  refine ⟨_, cancels.trans closes, ?_⟩
  exact ⟨congrArg Scenario.run (flush_own { c with
      run := { c.run with status := openStatus c.runtime }
      runtime := .cancelled
      requests := c.requests ++ [.closing { c.run with status := openStatus c.runtime }] } _),
    rfl, follows.inputs, follows.appended, congrArg Held.cancel follows.held,
    fun running => absurd running (cancel_released _), follows.count, follows.stages⟩

theorem claim_followed {job : Held} (follows : Follows s c) (claimed : s.job.claim = some job) :
    ∃ d, c.step .claimDriver = some d ∧
      Follows { s with job := job, attempts := s.attempts ++ [.claimed] } d := by
  have stepped : c.step .claimDriver = some { c with
      driver := ⟨job, some c.drivers.length⟩, drivers := c.drivers ++ [.claimed] } := by
    rw [Scenario.step, SkillTests.claimDriver, follows.held, claimed]
    rfl
  refine ⟨_, stepped, ?_⟩
  refine ⟨follows.run, follows.runtime, follows.inputs, follows.appended, rfl, fun _ k isLast => ?_, ?_,
    fun k stage isStage => ?_⟩
  · rw [List.length_append, List.length_singleton] at isLast
    show some c.drivers.length = some k
    rw [follows.count, Nat.succ.inj isLast]
  · show (c.drivers ++ [_]).length = (s.attempts ++ [_]).length
    rw [List.length_append, List.length_append, follows.count]
    rfl
  · by_cases isOld : k < s.attempts.length
    · rw [List.getElem?_append_left isOld] at isStage
      show stage = .over ∨ (c.drivers ++ [_])[k]? = _ ∧ _
      rw [List.getElem?_append_left (follows.count.symm ▸ isOld)]
      exact follows.stages k stage isStage
    · have isNew : k = s.attempts.length := by
        have inRange := (List.getElem?_eq_some_iff.mp isStage).1
        rw [List.length_append, List.length_singleton] at inRange
        omega
      subst isNew
      rw [List.getElem?_concat_length] at isStage
      obtain rfl := Option.some.inj isStage
      refine .inr ⟨?_, trivial⟩
      show (c.drivers ++ [_])[_]? = _
      rw [← follows.count, List.getElem?_concat_length]
      rfl

theorem drop_followed (follows : Follows s c) (running : s.job.status = .running) :
    ∃ d, c.step .dropDriver = some d ∧ Follows { s with
      row := if s.job.exhausted then finalizeExhaustedTimelineDriver s.row else s.row
      job := s.job.drop } d := by
  have released : s.job.drop.status ≠ .running := by
    unfold Held.drop
    dsimp only
    split <;> simp
  have stepped : c.step .dropDriver = some { c with
      run := if s.job.exhausted then finalizeExhaustedTimelineDriver s.row else s.row
      driver := ⟨s.job.drop, none⟩ } := by
    rw [Scenario.step, SkillTests.dropDriver, follows.held, follows.run, if_neg (not_not.mpr running)]
  have committed := follows.commit
    (if s.job.exhausted then finalizeExhaustedTimelineDriver s.row else s.row)
  exact ⟨_, stepped, committed.release released⟩

/-- **A step** of the driver on its timeline is some steps of the scenario run. -/
theorem step_followed {timeline : Timeline} {event : DrivingEvent} (drives : Drives timeline s)
    (ids : (s.inputEvents.map eventId).Nodup) (follows : Follows s c) (may : s.Leased event)
    (stepped : s.step event = some t) : ∃ d, Run Scenario.step anyStep c d ∧ Follows t d := by
  cases event with
  | claim =>
    obtain ⟨job, claimed, rfl⟩ := Option.map_eq_some_iff.mp stepped
    obtain ⟨d, claims, later⟩ := claim_followed follows claimed
    exact ⟨d, Run.single trivial claims, later⟩
  | step k =>
    obtain ⟨stage, isStage, advanced⟩ := Option.bind_eq_some_iff.mp stepped
    rcases follows.stages k stage isStage with rfl | ⟨isView, current⟩
    · cases advanced
    obtain ⟨look, d, driven, later⟩ := advance_followed drives ids follows isStage current advanced
    have open_ : stage.view ≠ .over := by
      intro stopped
      rw [stopped] at driven
      cases driven
    have moves := step_of_drive look isView open_ (follows.lease may.1 k may.2)
    exact ⟨d, Run.single trivial (moves.trans driven), later⟩
  | stop k =>
    obtain rfl := Option.some.inj stepped
    refine ⟨c, .refl _, follows.run, follows.runtime, follows.inputs, follows.appended, follows.held,
      fun running j isLast => follows.lease running j (by simpa [Driving.setAttempt] using isLast), ?_,
      fun j stage isStage => ?_⟩
    · simpa [Driving.setAttempt] using follows.count
    · simp only [Driving.setAttempt, List.getElem?_set] at isStage
      split at isStage
      · split at isStage
        · exact .inl (Option.some.inj isStage).symm
        · cases isStage
      · exact follows.stages j stage isStage
  | drop =>
    rw [Driving.step] at stepped
    split at stepped
    · cases stepped
    · rename_i running
      obtain rfl := Option.some.inj stepped
      obtain ⟨d, drops, later⟩ := drop_followed follows (not_not.mp running)
      exact ⟨d, Run.single trivial drops, later⟩
  | runtime status =>
    rw [Driving.step] at stepped
    split at stepped
    · cases stepped
    · rename_i goesOn
      obtain rfl := Option.some.inj stepped
      have moves : c.step (.runtime status) = some { c with runtime := status } := by
        rw [Scenario.step, follows.runtime, if_neg goesOn]
      exact ⟨_, Run.single trivial moves, follows.run, rfl, follows.inputs, follows.appended,
        follows.held, follows.lease, follows.count, follows.stages⟩
  | sync =>
    obtain rfl := Option.some.inj stepped
    exact sync_followed follows
  | cancel =>
    rw [Driving.step] at stepped
    split at stepped
    · cases stepped
    · rename_i goesOn
      obtain rfl := Option.some.inj stepped
      exact cancel_followed follows may (Bool.eq_false_iff.mpr goesOn)
  | tick now =>
    rw [Driving.step] at stepped
    split at stepped
    · obtain rfl := Option.some.inj stepped
      exact ⟨c, .refl _, follows.timed s.availableAt now⟩
    · cases stepped

/-! ### Whole runs -/

theorem started_followed (scenarioRunId : String) (timeline : Timeline) (timeOrigin : Int)
    (maxAttempts : Nat) : Follows (.started scenarioRunId timeline timeOrigin maxAttempts)
      (.started timeline.inputEvents.length maxAttempts) := by
  refine ⟨rfl, rfl, rfl, rfl, rfl, fun running => ?_, rfl, fun k stage isStage => ?_⟩
  · cases running
  · cases isStage

/-- **The two drivers are one**: where the ids of the inputs are distinct, every run of the driver on its
timeline, in which an attempt without the lease stops, is one of the scenario run, which has the same
row, the same job, and as many inputs sent. -/
theorem driving_refines {timeline : Timeline} {scenarioRunId : String} {timeOrigin : Int}
    {maxAttempts : Nat} (ids : (timeline.inputEvents.map eventId).Nodup)
    (run : Run Driving.step Driving.Leased (.started scenarioRunId timeline timeOrigin maxAttempts) s) :
    ∃ c, Run Scenario.step anyStep (.started timeline.inputEvents.length maxAttempts) c ∧
      c.run = s.row ∧ c.runtime = s.runtime ∧ c.driver.held = s.job ∧ c.appended = s.submitted.length := by
  have start := drives_started scenarioRunId timeline timeOrigin maxAttempts
  have followed := @Run.invariant _ _ _ _ (fun s => Drives timeline s ∧ ∃ c,
      Run Scenario.step anyStep (.started timeline.inputEvents.length maxAttempts) c ∧ Follows s c)
    (fun s e t held may stepped => ?_) _ _ run ⟨start, _, .refl _, started_followed ..⟩
  · obtain ⟨-, c, ran, follows⟩ := followed
    exact ⟨c, ran, follows.run, follows.runtime, follows.held, follows.appended⟩
  · obtain ⟨drives, c, ran, follows⟩ := held
    have known : (s.inputEvents.map eventId).Nodup := by
      rw [Driving.inputEvents, drives.booked.timeline]
      exact ids
    obtain ⟨d, moves, later⟩ := step_followed drives known follows may stepped
    exact ⟨⟨booked_step drives.booked stepped, in_order_step drives.booked drives.inOrder known stepped⟩,
      d, ran.trans moves, later⟩

end Psop.SkillTests
