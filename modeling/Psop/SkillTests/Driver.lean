import Psop.SkillTests.Scenario
import Psop.SkillTests.Timeline

/-!
The timeline driver of a scenario run.

An attempt of its job sends the inputs under its cursor, one transaction each. The row of the scenario
run is flushed with the next append, so its cursor lags behind what the runtime run has, and a later
attempt may send an input again; the runtime run knows it by an external id made of the id of the
event. Attempts may overlap, and any of them may end at any moment.

**`driver_submits`**: when the driver has completed, the runtime run has the inputs of the timeline,
each once and in their order, iff their ids are distinct.
-/
namespace Psop.SkillTests

open Json
open Psop.Jobs (Held written)
open Psop.Runtime (RunStatus JobStatus)

/-- A terminal event the driver appended; times are in microseconds. -/
structure Submitted where
  externalEventId : String
  event : Json
  occurredAt : Int
  createdAt : Int

/-- `held` is the row as the session read it or last wrote it, `now` as it has it, `clock` the time it
looked at last. -/
inductive DrivingStage where
  | claimed
  | loaded (held now : ScenarioRun) (runtime : RunStatus)
  | sending (held now : ScenarioRun) (runtime : RunStatus) (clock : Int) (cursor : Nat)
      (sentAny : Bool)
  /-- The handler has its result, and the job is still to be settled. -/
  | settling (now : ScenarioRun)
  | over
deriving DecidableEq

/-- The driver's job, its scenario run and what the runtime run has of it. -/
structure Driving where
  scenarioRunId : String
  timeline : Timeline
  timeOrigin : Int
  row : ScenarioRun := {}
  runtime : RunStatus := .queued
  submitted : List Submitted := []
  job : Held
  availableAt : Int
  attempts : List DrivingStage := []
  now : Int

namespace Driving

variable (s : Driving)

abbrev inputEvents : List Json := s.timeline.inputEvents

/-- `_scenario_time` -/
def scheduledAt (event : Json) : Int := s.timeOrigin + 1000 * max 0 (eventAtMs event)

def externalEventId (event : Json) : String :=
  "skill-test-scenario-run:" ++ s.scenarioRunId ++ ":timeline:" ++ eventId event

def setAttempt (k : Nat) (stage : DrivingStage) : Driving :=
  { s with attempts := s.attempts.set k stage }

/-- A session that read `held` commits the row as `now`. -/
def flush (held now : ScenarioRun) : Driving :=
  { s with row :=
    { status := written held.status now.status s.row.status
      driverStatus := written held.driverStatus now.driverStatus s.row.driverStatus
      driverCursor := written held.driverCursor now.driverCursor s.row.driverCursor } }

/-- `get_terminal_event_by_external_id` -/
def known (event : Json) : Bool :=
  s.submitted.any fun item => item.externalEventId == s.externalEventId event

/-- `_append_terminal_event` -/
def submit (event : Json) : Driving :=
  { s with submitted := s.submitted ++
    [⟨s.externalEventId event, event, s.scheduledAt event, s.now⟩] }

end Driving

/-- The input under the cursor is not due: the attempt waits for it, unless the runtime run has ended
or the input is due by now. -/
def driveEarly (k : Nat) (s : Driving) (held now : ScenarioRun) (runtime : RunStatus) (cursor : Nat)
    (sentAny : Bool) (event : Json) : Driving :=
  let waiting (now : ScenarioRun) : Driving :=
    { s.flush held { now with driverStatus := .waitingTime, driverCursor := cursor } with
      job := s.job.again
      availableAt := s.scheduledAt event }.setAttempt k .over
  if sentAny then
    let synced := syncScenarioRun runtime now
    if runtime.finished then
      (s.flush held (endedEarly synced)).setAttempt k (.settling (endedEarly synced))
    else if s.scheduledAt event ≤ s.now then
      s.setAttempt k (.sending held synced runtime s.now cursor sentAny)
    else waiting synced
  else waiting now

/-- The input under the cursor is appended, or found to be there: then nothing is committed. -/
def driveDue (k : Nat) (s : Driving) (held now : ScenarioRun) (cursor : Nat) (event : Json) :
    Option Driving :=
  let next : ScenarioRun := { now with driverCursor := cursor + 1 }
  if s.known event then
    some (s.setAttempt k (.sending held next s.runtime s.now (cursor + 1) true))
  else if s.runtime.finished then none
  else some (((s.flush held now).submit event).setAttempt k
    (.sending now next s.runtime s.now (cursor + 1) true))

/-- `process_timeline_driver_for_run` after the last input. -/
def driveOut (k : Nat) (s : Driving) (held now : ScenarioRun) (runtime : RunStatus) (cursor : Nat)
    (sentAny : Bool) : Driving :=
  let completed : ScenarioRun := { now with driverStatus := .completed, driverCursor := cursor }
  let synced := if sentAny then syncScenarioRun runtime completed else completed
  (s.flush held synced).setAttempt k (.settling synced)

/-- `process_driver_job` up to its next commit, or to the next input. -/
def advance (k : Nat) (s : Driving) : DrivingStage → Option Driving
  | .claimed => some (s.setAttempt k (.loaded s.row (syncScenarioRun s.runtime s.row) s.runtime))
  | .loaded held now runtime =>
    let cursor := min now.driverCursor s.inputEvents.length
    if now.status = .cancelled ∨ now.driverStatus = .cancelled then
      some ((s.flush held now).setAttempt k (.settling now))
    else if runtime.finished ∧ cursor < s.inputEvents.length then
      some ((s.flush held (endedEarly now)).setAttempt k (.settling (endedEarly now)))
    else some (s.setAttempt k (.sending held now runtime s.now cursor false))
  | .sending held now runtime clock cursor sentAny => match s.inputEvents[cursor]? with
    | none => some (driveOut k s held now runtime cursor sentAny)
    | some event =>
      if clock < s.scheduledAt event then
        some (driveEarly k s held now runtime cursor sentAny event)
      else driveDue k s held now cursor event
  | .settling now =>
    some ({ s with job := settledDriver now.driverStatus s.job }.setAttempt k .over)
  | .over => none

inductive DrivingEvent where
  | claim
  | step (attempt : Nat)
  /-- An attempt stops for good: it raises, or its process is gone. -/
  | stop (attempt : Nat)
  /-- The running attempt's job is dropped: its handler raised, or its lease expired. -/
  | drop
  | runtime (status : RunStatus)
  /-- A request that reads the scenario run brings its status in line. -/
  | sync
  | cancel
  | tick (now : Int)

def Driving.step (s : Driving) : DrivingEvent → Option Driving
  | .claim => s.job.claim.map fun job => { s with job := job, attempts := s.attempts ++ [.claimed] }
  | .step k => s.attempts[k]?.bind (advance k s)
  | .stop k => some (s.setAttempt k .over)
  | .drop =>
    if s.job.status ≠ .running then none
    else some { s with
      row := if s.job.exhausted then finalizeExhaustedTimelineDriver s.row else s.row
      job := s.job.drop }
  | .runtime status => if s.runtime.finished then none else some { s with runtime := status }
  | .sync => some { s with row := syncScenarioRun s.runtime s.row }
  | .cancel => if s.runtime.finished then none else some { s with
      runtime := .cancelled
      row := { s.row with status := .cancelled, driverStatus := .cancelled }
      job := s.job.cancel }
  | .tick now => if s.now ≤ now then some { s with now := now } else none

/-- A scenario run that was just started. -/
def Driving.started (scenarioRunId : String) (timeline : Timeline) (timeOrigin : Int)
    (maxAttempts : Nat) : Driving where
  scenarioRunId := scenarioRunId
  timeline := timeline
  timeOrigin := timeOrigin
  job := { maxAttempts := maxAttempts }
  availableAt := timeOrigin
  now := timeOrigin

/-! ### What is stored, whatever the ids -/

variable {s t : Driving} {k : Nat} {stage : DrivingStage} {held now : ScenarioRun}
  {runtime : RunStatus} {cursor : Nat} {sentAny : Bool} {event : Json}

/-- The time an attempt looked at last has come. -/
def DrivingStage.Timely (now : Int) : DrivingStage → Prop
  | .sending _ _ _ clock _ _ => clock ≤ now
  | .claimed | .loaded .. | .settling _ | .over => True

structure Booked (timeline : Timeline) (s : Driving) : Prop where
  timeline : s.timeline = timeline
  /-- No input is appended before its offset. -/
  stored : ∀ item ∈ s.submitted, item.externalEventId = s.externalEventId item.event ∧
    item.occurredAt = s.scheduledAt item.event ∧ s.scheduledAt item.event ≤ item.createdAt
  once : (s.submitted.map Submitted.externalEventId).Nodup
  timely : ∀ stage ∈ s.attempts, stage.Timely s.now

theorem Booked.row {timeline : Timeline} (booked : Booked timeline s) (row : ScenarioRun) (job : Held)
    (availableAt : Int) :
    Booked timeline { s with row := row, job := job, availableAt := availableAt } :=
  ⟨booked.timeline, booked.stored, booked.once, booked.timely⟩

theorem Booked.attempt {timeline : Timeline} (booked : Booked timeline s) (k : Nat)
    (timely : stage.Timely s.now) : Booked timeline (s.setAttempt k stage) := by
  refine ⟨booked.timeline, booked.stored, booked.once, fun other isIn => ?_⟩
  rcases List.mem_or_eq_of_mem_set isIn with before | rfl
  · exact booked.timely other before
  · exact timely

theorem booked_submit {timeline : Timeline} (booked : Booked timeline s)
    (isNew : s.known event = false) (due : s.scheduledAt event ≤ s.now) :
    Booked timeline (s.submit event) := by
  refine ⟨booked.timeline, fun item isIn => ?_, ?_, booked.timely⟩
  · rcases List.mem_append.mp isIn with before | isLast
    · exact booked.stored item before
    · rw [List.mem_singleton.mp isLast]
      exact ⟨rfl, rfl, due⟩
  · rw [Driving.submit, List.map_append]
    refine List.nodup_append.mpr ⟨booked.once, List.nodup_singleton _, ?_⟩
    intro id before other isLast same
    obtain ⟨item, isIn, rfl⟩ := List.mem_map.mp before
    rw [List.map_singleton, List.mem_singleton] at isLast
    have found := List.any_eq_false.mp isNew item isIn
    exact found (beq_iff_eq.mpr (same.trans isLast))

theorem booked_early {timeline : Timeline} (booked : Booked timeline s) :
    Booked timeline (driveEarly k s held now runtime cursor sentAny event) := by
  unfold driveEarly
  dsimp only
  split
  · split
    · exact (booked.row _ s.job s.availableAt).attempt k trivial
    · split
      · exact booked.attempt k (le_refl s.now)
      · exact (booked.row _ s.job.again (s.scheduledAt event)).attempt k trivial
  · exact (booked.row _ s.job.again (s.scheduledAt event)).attempt k trivial

theorem booked_due {timeline : Timeline} (booked : Booked timeline s)
    (due : s.scheduledAt event ≤ s.now) (driven : driveDue k s held now cursor event = some t) :
    Booked timeline t := by
  unfold driveDue at driven
  dsimp only at driven
  split at driven
  · obtain rfl := Option.some.inj driven
    exact booked.attempt k (le_refl s.now)
  · rename_i isNew
    split at driven
    · cases driven
    · obtain rfl := Option.some.inj driven
      have flushed := booked.row (s.flush held now).row s.job s.availableAt
      exact (booked_submit flushed (Bool.eq_false_iff.mpr isNew) due).attempt k (le_refl s.now)

theorem booked_advance {timeline : Timeline} (booked : Booked timeline s)
    (timely : stage.Timely s.now) (advanced : advance k s stage = some t) : Booked timeline t := by
  cases stage with
  | claimed =>
    obtain rfl := Option.some.inj advanced
    exact booked.attempt k trivial
  | loaded held now runtime =>
    rw [advance] at advanced
    split at advanced
    · obtain rfl := Option.some.inj advanced
      exact (booked.row _ s.job s.availableAt).attempt k trivial
    · split at advanced
      · obtain rfl := Option.some.inj advanced
        exact (booked.row _ s.job s.availableAt).attempt k trivial
      · obtain rfl := Option.some.inj advanced
        exact booked.attempt k (le_refl s.now)
  | sending held now runtime clock cursor sentAny =>
    rw [advance] at advanced
    split at advanced
    · obtain rfl := Option.some.inj advanced
      exact (booked.row _ s.job s.availableAt).attempt k trivial
    · split at advanced
      · obtain rfl := Option.some.inj advanced
        exact booked_early booked
      · rename_i due
        exact booked_due booked ((not_lt.mp due).trans timely) advanced
  | settling now =>
    obtain rfl := Option.some.inj advanced
    exact (booked.row s.row _ s.availableAt).attempt k trivial
  | _ => cases advanced

theorem booked_step {timeline : Timeline} {event : DrivingEvent} (booked : Booked timeline s)
    (stepped : s.step event = some t) : Booked timeline t := by
  cases event with
  | claim =>
    obtain ⟨job, -, rfl⟩ := Option.map_eq_some_iff.mp stepped
    refine ⟨booked.timeline, booked.stored, booked.once, fun stage isIn => ?_⟩
    rcases List.mem_append.mp isIn with before | isNew
    · exact booked.timely stage before
    · rw [List.mem_singleton.mp isNew]
      trivial
  | step k =>
    obtain ⟨stage, isStage, advanced⟩ := Option.bind_eq_some_iff.mp stepped
    exact booked_advance booked (booked.timely stage (List.mem_of_getElem? isStage)) advanced
  | stop k =>
    obtain rfl := Option.some.inj stepped
    exact booked.attempt k trivial
  | drop =>
    rw [Driving.step] at stepped
    split at stepped
    · cases stepped
    · obtain rfl := Option.some.inj stepped
      exact booked.row _ _ s.availableAt
  | runtime status =>
    rw [Driving.step] at stepped
    split at stepped
    · cases stepped
    · obtain rfl := Option.some.inj stepped
      exact ⟨booked.timeline, booked.stored, booked.once, booked.timely⟩
  | sync =>
    obtain rfl := Option.some.inj stepped
    exact booked.row _ s.job s.availableAt
  | cancel =>
    rw [Driving.step] at stepped
    split at stepped
    · cases stepped
    · obtain rfl := Option.some.inj stepped
      exact ⟨booked.timeline, booked.stored, booked.once, booked.timely⟩
  | tick now =>
    rw [Driving.step] at stepped
    split at stepped
    · rename_i later
      obtain rfl := Option.some.inj stepped
      refine ⟨booked.timeline, booked.stored, booked.once, fun stage isIn => ?_⟩
      have timely := booked.timely stage isIn
      cases stage with
      | sending => exact le_trans timely later
      | _ => trivial
    · cases stepped

/-! ### The order of the inputs, where their ids are distinct -/

/-- A row that lags behind the `sent` inputs of `all`. -/
structure Lags (sent all : Nat) (row : ScenarioRun) : Prop where
  cursor : row.driverCursor ≤ sent
  completed : row.driverStatus = .completed → sent = all

def DrivingStage.Lags (sent all : Nat) : DrivingStage → Prop
  | .loaded held now _ => SkillTests.Lags sent all held ∧ SkillTests.Lags sent all now
  | .sending held now _ _ cursor _ =>
    SkillTests.Lags sent all held ∧ SkillTests.Lags sent all now ∧ cursor ≤ sent
  | .settling now => SkillTests.Lags sent all now
  | .claimed | .over => True

/-- The inputs under every cursor were sent, in their order and without a gap. -/
structure InOrder (s : Driving) : Prop where
  sent : s.submitted.map Submitted.event = s.inputEvents.take s.submitted.length
  row : Lags s.submitted.length s.inputEvents.length s.row
  stages : ∀ stage ∈ s.attempts, stage.Lags s.submitted.length s.inputEvents.length

theorem InOrder.bounded (inOrder : InOrder s) : s.submitted.length ≤ s.inputEvents.length := by
  have lengths := congrArg List.length inOrder.sent
  rw [List.length_map, List.length_take] at lengths
  omega

theorem Lags.later {sent more all : Nat} {row : ScenarioRun} (lags : Lags sent all row)
    (le : sent ≤ more) (bounded : more ≤ all) : Lags more all row := by
  refine ⟨lags.cursor.trans le, fun completed => ?_⟩
  have isAll := lags.completed completed
  omega

theorem Lags.sync {sent all : Nat} {row : ScenarioRun} (lags : Lags sent all row)
    (runtime : RunStatus) : Lags sent all (syncScenarioRun runtime row) := by
  unfold syncScenarioRun
  split
  · exact lags
  · split
    · exact ⟨lags.cursor, nofun⟩
    · split <;> exact ⟨lags.cursor, lags.completed⟩

theorem Lags.endedEarly {sent all : Nat} {row : ScenarioRun} (lags : Lags sent all row) :
    Lags sent all (endedEarly row) :=
  ⟨lags.cursor, nofun⟩

/-- A flush writes columns of a row that lags over those of another one. -/
theorem InOrder.flush (inOrder : InOrder s)
    (lags : Lags s.submitted.length s.inputEvents.length now) : InOrder (s.flush held now) := by
  refine ⟨inOrder.sent, ⟨?_, fun completed => ?_⟩, inOrder.stages⟩
  · show written held.driverCursor now.driverCursor s.row.driverCursor ≤ s.submitted.length
    rw [written]
    split
    · exact inOrder.row.cursor
    · exact lags.cursor
  · have isCompleted : written held.driverStatus now.driverStatus s.row.driverStatus = .completed :=
      completed
    rw [written] at isCompleted
    split at isCompleted
    · exact inOrder.row.completed isCompleted
    · exact lags.completed isCompleted

theorem InOrder.attempt (inOrder : InOrder s) (k : Nat)
    (lags : stage.Lags s.submitted.length s.inputEvents.length) : InOrder (s.setAttempt k stage) := by
  refine ⟨inOrder.sent, inOrder.row, fun other isIn => ?_⟩
  rcases List.mem_or_eq_of_mem_set isIn with before | rfl
  · exact inOrder.stages other before
  · exact lags

theorem external_id_inj {a b : Json} (same : s.externalEventId a = s.externalEventId b) :
    eventId a = eventId b :=
  (String.append_right_inj _).mp same

/-- What was sent before the cursor is known, and nothing else is. -/
theorem known_iff {timeline : Timeline} (booked : Booked timeline s) (inOrder : InOrder s)
    (ids : (s.inputEvents.map eventId).Nodup) (isEvent : s.inputEvents[cursor]? = some event) :
    s.known event = true ↔ cursor < s.submitted.length := by
  obtain ⟨inRange, isAt⟩ := List.getElem?_eq_some_iff.mp isEvent
  rw [Driving.known, List.any_eq_true]
  constructor
  · rintro ⟨item, isIn, same⟩
    rw [beq_iff_eq, (booked.stored item isIn).1] at same
    have isSent : item.event ∈ s.inputEvents.take s.submitted.length :=
      inOrder.sent ▸ List.mem_map_of_mem isIn
    obtain ⟨j, bound, isItem⟩ := List.mem_take_iff_getElem.mp isSent
    have sameId : (s.inputEvents.map eventId).get ⟨j, by rw [List.length_map]; omega⟩ =
        (s.inputEvents.map eventId).get ⟨cursor, by rw [List.length_map]; exact inRange⟩ := by
      rw [List.get_eq_getElem, List.get_eq_getElem, List.getElem_map, List.getElem_map, isItem, isAt]
      exact external_id_inj same
    have sameIndex : j = cursor := congrArg Fin.val ((List.Nodup.get_inj_iff ids).mp sameId)
    omega
  · intro before
    have isSent : event ∈ s.submitted.map Submitted.event := by
      rw [inOrder.sent, ← isAt]
      exact List.mem_take_iff_getElem.mpr ⟨cursor, by omega, rfl⟩
    obtain ⟨item, isIn, rfl⟩ := List.mem_map.mp isSent
    exact ⟨item, isIn, beq_iff_eq.mpr (booked.stored item isIn).1⟩

theorem in_order_submit (inOrder : InOrder s)
    (isEvent : s.inputEvents[s.submitted.length]? = some event) : InOrder (s.submit event) := by
  obtain ⟨inRange, isAt⟩ := List.getElem?_eq_some_iff.mp isEvent
  have length : (s.submit event).submitted.length = s.submitted.length + 1 := by
    rw [Driving.submit, List.length_append, List.length_singleton]
  refine ⟨?_, ?_, fun stage isIn => ?_⟩
  · rw [length]
    show (s.submitted ++ [_]).map Submitted.event = s.inputEvents.take _
    rw [List.map_append, inOrder.sent, List.take_add_one, isEvent]
    rfl
  · rw [length]
    exact inOrder.row.later (Nat.le_succ _) inRange
  · rw [length]
    have lags := inOrder.stages stage isIn
    cases stage with
    | loaded => exact ⟨lags.1.later (Nat.le_succ _) inRange, lags.2.later (Nat.le_succ _) inRange⟩
    | sending =>
      exact ⟨lags.1.later (Nat.le_succ _) inRange, lags.2.1.later (Nat.le_succ _) inRange,
        lags.2.2.trans (Nat.le_succ _)⟩
    | settling => exact Lags.later lags (Nat.le_succ _) inRange
    | _ => trivial

theorem in_order_early (inOrder : InOrder s)
    (isHeld : Lags s.submitted.length s.inputEvents.length held)
    (isNow : Lags s.submitted.length s.inputEvents.length now) (isCursor : cursor ≤ s.submitted.length) :
    InOrder (driveEarly k s held now runtime cursor sentAny event) := by
  have waiting (row : ScenarioRun) : InOrder
      ({ s.flush held { row with driverStatus := .waitingTime, driverCursor := cursor } with
        job := s.job.again
        availableAt := s.scheduledAt event }.setAttempt k .over) := by
    have flushed : InOrder (s.flush held
        { row with driverStatus := .waitingTime, driverCursor := cursor }) :=
      inOrder.flush ⟨isCursor, nofun⟩
    have again : InOrder
        { s.flush held { row with driverStatus := .waitingTime, driverCursor := cursor } with
          job := s.job.again
          availableAt := s.scheduledAt event } :=
      ⟨flushed.sent, flushed.row, flushed.stages⟩
    exact again.attempt k trivial
  have synced := isNow.sync runtime
  unfold driveEarly
  dsimp only
  split
  · split
    · exact (inOrder.flush synced.endedEarly).attempt k synced.endedEarly
    · split
      · exact inOrder.attempt k ⟨isHeld, synced, isCursor⟩
      · exact waiting _
  · exact waiting _

theorem in_order_due {timeline : Timeline} (booked : Booked timeline s) (inOrder : InOrder s)
    (ids : (s.inputEvents.map eventId).Nodup)
    (isHeld : Lags s.submitted.length s.inputEvents.length held)
    (isNow : Lags s.submitted.length s.inputEvents.length now) (isCursor : cursor ≤ s.submitted.length)
    (isEvent : s.inputEvents[cursor]? = some event)
    (driven : driveDue k s held now cursor event = some t) : InOrder t := by
  have known := known_iff booked inOrder ids isEvent
  unfold driveDue at driven
  dsimp only at driven
  split at driven
  · rename_i isKnown
    obtain rfl := Option.some.inj driven
    have before := known.mp isKnown
    exact inOrder.attempt k ⟨isHeld, ⟨before, isNow.completed⟩, before⟩
  · rename_i isNew
    split at driven
    · cases driven
    · obtain rfl := Option.some.inj driven
      -- the cursor is at the first input that was not sent
      obtain rfl : cursor = s.submitted.length := by
        have notBefore := mt known.mpr isNew
        omega
      have flushed : InOrder (s.flush held now) := inOrder.flush isNow
      have sent := in_order_submit flushed isEvent
      have length : ((s.flush held now).submit event).submitted.length = s.submitted.length + 1 := by
        rw [Driving.submit, List.length_append, List.length_singleton]
        rfl
      have bounded := sent.bounded
      rw [length] at bounded
      refine sent.attempt k ?_
      rw [length]
      have later := isNow.later (Nat.le_succ _) bounded
      exact ⟨later, ⟨le_refl _, later.completed⟩, le_refl _⟩

theorem in_order_advance {timeline : Timeline} (booked : Booked timeline s) (inOrder : InOrder s)
    (ids : (s.inputEvents.map eventId).Nodup)
    (lags : stage.Lags s.submitted.length s.inputEvents.length)
    (advanced : advance k s stage = some t) : InOrder t := by
  cases stage with
  | claimed =>
    obtain rfl := Option.some.inj advanced
    exact inOrder.attempt k ⟨inOrder.row, inOrder.row.sync _⟩
  | loaded held now runtime =>
    rw [advance] at advanced
    split at advanced
    · obtain rfl := Option.some.inj advanced
      exact (inOrder.flush lags.2).attempt k lags.2
    · split at advanced
      · obtain rfl := Option.some.inj advanced
        exact (inOrder.flush lags.2.endedEarly).attempt k lags.2.endedEarly
      · obtain rfl := Option.some.inj advanced
        exact inOrder.attempt k ⟨lags.1, lags.2, (Nat.min_le_left _ _).trans lags.2.cursor⟩
  | sending held now runtime clock cursor sentAny =>
    rw [advance] at advanced
    split at advanced
    · rename_i past
      obtain rfl := Option.some.inj advanced
      have isAll : s.submitted.length = s.inputEvents.length :=
        le_antisymm inOrder.bounded ((List.getElem?_eq_none_iff.mp past).trans lags.2.2)
      have completed : Lags s.submitted.length s.inputEvents.length
          { now with driverStatus := .completed, driverCursor := cursor } :=
        ⟨lags.2.2, fun _ => isAll⟩
      unfold driveOut
      dsimp only
      split
      · exact (inOrder.flush (completed.sync _)).attempt k (completed.sync _)
      · exact (inOrder.flush completed).attempt k completed
    · rename_i event isEvent
      split at advanced
      · obtain rfl := Option.some.inj advanced
        exact in_order_early inOrder lags.1 lags.2.1 lags.2.2
      · exact in_order_due booked inOrder ids lags.1 lags.2.1 lags.2.2 isEvent advanced
  | settling now =>
    obtain rfl := Option.some.inj advanced
    have settled : InOrder { s with job := settledDriver now.driverStatus s.job } :=
      ⟨inOrder.sent, inOrder.row, inOrder.stages⟩
    exact settled.attempt k trivial
  | _ => cases advanced

theorem in_order_step {timeline : Timeline} {event : DrivingEvent} (booked : Booked timeline s)
    (inOrder : InOrder s) (ids : (s.inputEvents.map eventId).Nodup)
    (stepped : s.step event = some t) : InOrder t := by
  cases event with
  | claim =>
    obtain ⟨job, -, rfl⟩ := Option.map_eq_some_iff.mp stepped
    refine ⟨inOrder.sent, inOrder.row, fun stage isIn => ?_⟩
    rcases List.mem_append.mp isIn with before | isNew
    · exact inOrder.stages stage before
    · rw [List.mem_singleton.mp isNew]
      trivial
  | step k =>
    obtain ⟨stage, isStage, advanced⟩ := Option.bind_eq_some_iff.mp stepped
    exact in_order_advance booked inOrder ids
      (inOrder.stages stage (List.mem_of_getElem? isStage)) advanced
  | stop k =>
    obtain rfl := Option.some.inj stepped
    exact inOrder.attempt k trivial
  | drop =>
    rw [Driving.step] at stepped
    split at stepped
    · cases stepped
    · obtain rfl := Option.some.inj stepped
      refine ⟨inOrder.sent, ?_, inOrder.stages⟩
      dsimp only
      unfold finalizeExhaustedTimelineDriver
      split
      · split
        · exact inOrder.row
        · exact ⟨inOrder.row.cursor, nofun⟩
      · exact inOrder.row
  | runtime status =>
    rw [Driving.step] at stepped
    split at stepped
    · cases stepped
    · obtain rfl := Option.some.inj stepped
      exact ⟨inOrder.sent, inOrder.row, inOrder.stages⟩
  | sync =>
    obtain rfl := Option.some.inj stepped
    exact ⟨inOrder.sent, inOrder.row.sync _, inOrder.stages⟩
  | cancel =>
    rw [Driving.step] at stepped
    split at stepped
    · cases stepped
    · obtain rfl := Option.some.inj stepped
      exact ⟨inOrder.sent, ⟨inOrder.row.cursor, nofun⟩, inOrder.stages⟩
  | tick now =>
    rw [Driving.step] at stepped
    split at stepped
    · obtain rfl := Option.some.inj stepped
      exact ⟨inOrder.sent, inOrder.row, inOrder.stages⟩
    · cases stepped

/-! ### Whole runs -/

theorem booked_run {allowed : Driving → DrivingEvent → Prop} {timeline : Timeline}
    (run : Run Driving.step allowed s t) (booked : Booked timeline s) : Booked timeline t :=
  run.invariant (fun _ _ _ held _ stepped => booked_step held stepped) booked

/-- The two invariants together. -/
structure Drives (timeline : Timeline) (s : Driving) : Prop where
  booked : Booked timeline s
  inOrder : InOrder s

theorem drives_run {allowed : Driving → DrivingEvent → Prop} {timeline : Timeline}
    (ids : (timeline.inputEvents.map eventId).Nodup) (run : Run Driving.step allowed s t)
    (drives : Drives timeline s) : Drives timeline t := by
  refine run.invariant (fun s event t held _ stepped => ?_) drives
  have known : (s.inputEvents.map eventId).Nodup := by
    rw [Driving.inputEvents, held.booked.timeline]
    exact ids
  exact ⟨booked_step held.booked stepped, in_order_step held.booked held.inOrder known stepped⟩

theorem drives_started (scenarioRunId : String) (timeline : Timeline) (timeOrigin : Int)
    (maxAttempts : Nat) :
    Drives timeline (.started scenarioRunId timeline timeOrigin maxAttempts) := by
  have noStage (stage : DrivingStage) : stage ∉ [] := List.not_mem_nil
  have noEvent (item : Submitted) : item ∉ [] := List.not_mem_nil
  exact ⟨⟨rfl, fun item isIn => absurd isIn (noEvent item), List.nodup_nil,
      fun stage isIn => absurd isIn (noStage stage)⟩,
    ⟨List.take_zero.symm, ⟨Nat.zero_le _, nofun⟩, fun stage isIn => absurd isIn (noStage stage)⟩⟩

/-- Whatever was appended, no id was appended twice. -/
theorem Booked.distinct {timeline : Timeline} (booked : Booked timeline s) :
    (s.submitted.map fun item => eventId item.event).Nodup := by
  have same : s.submitted.map Submitted.externalEventId =
      (s.submitted.map fun item => eventId item.event).map fun id =>
        "skill-test-scenario-run:" ++ s.scenarioRunId ++ ":timeline:" ++ id := by
    rw [List.map_map]
    exact List.map_congr_left fun item isIn => (booked.stored item isIn).1
  have once := booked.once
  rw [same] at once
  exact once.of_map _

/-- **The timeline driver** has appended each input once, in the order of the offsets and none before
its offset, when it has completed, iff the ids of the inputs are distinct. -/
theorem driver_submits (sensorPayload : SensorPayload) (value : Json) (durationMs : Int)
    (timeline : Timeline) (scenarioRunId : String) (timeOrigin : Int) (maxAttempts : Nat)
    (s : Driving) (normalized : normalizeTimeline sensorPayload value durationMs = .ok timeline)
    (run : Run Driving.step anyStep (.started scenarioRunId timeline timeOrigin maxAttempts) s)
    (completed : s.row.driverStatus = .completed) :
    (s.submitted.map Submitted.event = timeline.inputEvents ∧
      (s.submitted.map Submitted.event).Pairwise (fun a b => eventAtMs a ≤ eventAtMs b) ∧
      ∀ item ∈ s.submitted, item.occurredAt = s.scheduledAt item.event ∧
        s.scheduledAt item.event ≤ item.createdAt) ↔
    (timeline.inputEvents.map eventId).Nodup := by
  have start := drives_started scenarioRunId timeline timeOrigin maxAttempts
  have booked := booked_run run start.booked
  constructor
  · rintro ⟨all, -⟩
    rw [← all, List.map_map]
    exact booked.distinct
  · intro ids
    have inOrder := (drives_run ids run start).inOrder
    have all : s.submitted.map Submitted.event = timeline.inputEvents := by
      rw [inOrder.sent, inOrder.row.completed completed, List.take_length, Driving.inputEvents,
        booked.timeline]
    refine ⟨all, ?_, fun item isIn => (booked.stored item isIn).2⟩
    rw [all]
    exact (normalize_timeline_spec normalized).2.filter _

/-- A text input of a timeline. -/
def textAt (id : Fields) (atMs : Int) (text : String) : Json :=
  obj (id ++ [("lane_id", str "input.text"), ("at_ms", num atMs), ("payload_inline", str text)])

/-- The timeline of two text inputs, as it is normalized; the second one has no id of its own. -/
def twoInputs (first : String) : Option Timeline :=
  (normalizeTimeline (fun _ payload _ => .ok payload)
    (obj [("events", arr [textAt [("id", str first)] 1000 "The kettle is on.",
      textAt [] 2000 "The water boils."])]) 60000).toOption

theorem two_inputs_normalized {first : String} {timeline : Timeline}
    (isTimeline : twoInputs first = some timeline) :
    normalizeTimeline (fun _ payload _ => .ok payload)
      (obj [("events", arr [textAt [("id", str first)] 1000 "The kettle is on.",
        textAt [] 2000 "The water boils."])]) 60000 = .ok timeline := by
  rw [twoInputs] at isTimeline
  cases normalized : normalizeTimeline (fun _ payload _ => .ok payload)
      (obj [("events", arr [textAt [("id", str first)] 1000 "The kettle is on.",
        textAt [] 2000 "The water boils."])]) 60000 with
  | error raised =>
    rw [normalized] at isTimeline
    cases isTimeline
  | ok other =>
    rw [normalized] at isTimeline
    exact congrArg Except.ok (Option.some.inj isTimeline)

/-- The driver is started, and both inputs are due. -/
def dueDriving (timeline : Timeline) : Driving := .started "run-1" timeline 0 3

/-- Its first attempt is gone after the first input, and the second one begins anew. -/
def retriedDrive (timeline : Timeline) : Option Driving :=
  follow Driving.step anyStep (dueDriving timeline)
    ([DrivingEvent.tick 1500000, .claim, .step 0, .step 0, .step 0, .stop 0, .drop, .tick 2500000, .claim] ++
      List.replicate 5 (DrivingEvent.step 1))

theorem two_inputs_submitted : ∃ timeline s, twoInputs "kettle" = some timeline ∧
    Run Driving.step anyStep (dueDriving timeline) s ∧ s.row.driverStatus = .completed ∧
    s.submitted.map Submitted.event = timeline.inputEvents ∧ s.submitted.length = 2 := by
  have ids : (twoInputs "kettle").any (fun timeline =>
      decide (timeline.inputEvents.map eventId).Nodup) = true := by
    decide +kernel
  obtain ⟨timeline, s, isTimeline, followed, check⟩ := checked_run (show
    ((twoInputs "kettle").bind retriedDrive).any (fun s =>
      decide (s.row.driverStatus = .completed) && decide (s.submitted.length = 2)) = true by
    decide +kernel)
  rw [Bool.and_eq_true, decide_eq_true_eq, decide_eq_true_eq] at check
  rw [isTimeline] at ids
  have run := run_of_follow followed
  have submits := driver_submits _ _ _ timeline "run-1" 0 3 s (two_inputs_normalized isTimeline) run
    check.1
  exact ⟨timeline, s, isTimeline, run, check.1, (submits.mpr (of_decide_eq_true ids)).1, check.2⟩

/-- The first input brings the id that the second one is given: the second one is lost, and the driver
completes on an open run. -/
theorem generated_id_loses_input : ∃ timeline s, twoInputs "event_2" = some timeline ∧
    Run Driving.step anyStep (dueDriving timeline) s ∧ s.row.driverStatus = .completed ∧
    s.runtime.finished = false ∧ timeline.inputEvents.length = 2 ∧ s.submitted.length = 1 := by
  have two : (twoInputs "event_2").any (fun timeline =>
      decide (timeline.inputEvents.length = 2)) = true := by
    decide +kernel
  obtain ⟨timeline, s, isTimeline, followed, check⟩ := checked_run (show
    ((twoInputs "event_2").bind retriedDrive).any (fun s =>
      decide (s.row.driverStatus = .completed) && decide (s.runtime.finished = false) &&
        decide (s.submitted.length = 1)) = true by
    decide +kernel)
  rw [isTimeline] at two
  rw [Bool.and_eq_true, Bool.and_eq_true, decide_eq_true_eq, decide_eq_true_eq,
    decide_eq_true_eq] at check
  exact ⟨timeline, s, isTimeline, run_of_follow followed, check.1.1, check.1.2,
    of_decide_eq_true two, check.2⟩

end Psop.SkillTests
