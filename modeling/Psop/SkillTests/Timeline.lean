import Mathlib.Data.List.Lex
import Mathlib.Data.List.Sort
import Mathlib.Data.Prod.Lex
import Psop.Skills.Exceptions

/-!
The timeline of a test scenario, as it is normalized before a run.

An event keeps the id it brings; one without is named after its position. Events are ordered by
their offset, then by their id. An event is an expectation or an input for the runtime run.
`normalize_event_spec` says what a normalized event holds, `normalize_timeline_spec` how the events
of a timeline are ordered. Nothing makes the ids of a timeline distinct.
-/
namespace Psop.SkillTests

open Json Skills

/-- What a handler raises: an exception of the domain, or another one. -/
inductive Raised where
  | skills (error : SkillsError)
  | other
deriving Repr

def TIMELINE_SCHEMA_VERSION : String := "psop-skill-test-timeline/v1"

def DEFAULT_TIMELINE_DURATION_MS : Int := 1800000

def DEFAULT_TIMELINE_LANES : List Fields :=
  [[("id", str "sensor.gps"), ("kind", str "input"), ("label", str "GPS"),
      ("event_kind", str "sensor.gps.reading.v1"), ("mime_type", str "application/json")],
    [("id", str "sensor.pose3d"), ("kind", str "input"), ("label", str "三轴定位"),
      ("event_kind", str "sensor.pose3d.reading.v1"), ("mime_type", str "application/json")],
    [("id", str "input.text"), ("kind", str "input"), ("label", str "文本"),
      ("event_kind", str "terminal.text.input.v1")],
    [("id", str "input.image"), ("kind", str "input"), ("label", str "图片"),
      ("event_kind", str "terminal.image.input.v1")],
    [("id", str "input.audio"), ("kind", str "input"), ("label", str "音频"),
      ("event_kind", str "terminal.audio.input.v1")],
    [("id", str "input.video"), ("kind", str "input"), ("label", str "视频"),
      ("event_kind", str "terminal.video.input.v1")],
    [("id", str "expected.semantic"), ("kind", str "output"), ("label", str "文本")]]

def SENSOR_LANES : List String := ["sensor.gps", "sensor.pose3d"]

/-- `_is_expectation_event` -/
def isExpectationEvent (event : Json) : Bool :=
  (event.field "lane_id").str? = some "expected.semantic" || (event.field? "expectation").isSome

/-- `str(event.get("id") or "")` -/
def eventId (event : Json) : String := (event.field "id").strOr

/-- `int(event.get("at_ms") or 0)` of a normalized event. -/
def eventAtMs (event : Json) : Int := (event.field "at_ms").toIntOr0?.getD 0

/-- `_default_event_kind_for_lane` -/
def defaultEventKindForLane (laneId : String) : String :=
  if laneId = "sensor.gps" then "sensor.gps.reading.v1"
  else if laneId = "sensor.pose3d" then "sensor.pose3d.reading.v1"
  else if Text.contains "image" laneId then "terminal.image.input.v1"
  else if Text.contains "audio" laneId then "terminal.audio.input.v1"
  else if Text.contains "video" laneId then "terminal.video.input.v1"
  else "terminal.text.input.v1"

/-- `_default_mime_for_lane` -/
def defaultMimeForLane (laneId : String) : String :=
  if laneId ∈ SENSOR_LANES then "application/json"
  else if Text.contains "image" laneId then "image/*"
  else if Text.contains "audio" laneId then "audio/*"
  else if Text.contains "video" laneId then "video/*"
  else "text/plain"

/-- One part of `_normalize_timeline_event_parts`, after the ids of the parts before it. -/
def normalizeTimelineEventPart (eventId : String) (index : Nat) (seen : List String) (part : Json) :
    Except Raised (Json × String) :=
  match part with
  | obj fields =>
    let partId := Text.strip ((part.field "part_id").strOr ("part_" ++ toString (index + 1)))
    let kind := Text.lower (Text.strip (part.field "kind").strOr)
    if partId = "" ∨ partId ∈ seen then
      .error (.skills (SkillValidationError "时间轴事件 part_id 必须唯一。"
        [("event_id", str eventId), ("part_id", str partId)]))
    else if kind ∉ ["text", "image", "video", "audio"] then
      .error (.skills (SkillValidationError "时间轴事件 part kind 仅支持 text/image/video/audio。"
        [("event_id", str eventId), ("kind", str kind)]))
    else
      let mimeType := (part.field "mime_type").strOr
        (if kind = "text" then "text/plain" else kind ++ "/*")
      .ok (obj (setKey "mime_type" (str mimeType)
        (setKey "kind" (str kind) (setKey "part_id" (str partId) fields))), partId)
  | _ =>
    .error (.skills (SkillValidationError "时间轴事件 part 必须是对象。"
      [("event_id", str eventId), ("index", num index)]))

def normalizePartsFrom (eventId : String) (index : Nat) (seen : List String) :
    List Json → Except Raised (List Json)
  | [] => .ok []
  | part :: parts => do
    let (normalized, partId) ← normalizeTimelineEventPart eventId index seen part
    return normalized :: (← normalizePartsFrom eventId (index + 1) (partId :: seen) parts)

/-- `_normalize_sensor_payload`: the payload of a lane's event, or what is wrong with it. -/
abbrev SensorPayload := String → Json → String → Except Raised Json

/-- `int(event.get("at_ms") or 0)`, which may raise. -/
def readAtMs (event : Json) : Except Raised Int :=
  match (event.field "at_ms").toIntOr0? with
  | some atMs => .ok atMs
  | none => .error .other

/-- An input with parts is a multimodal one. -/
def normalizeInputParts (event : Json) (eventId : String) (fields : Fields) :
    Except Raised Fields :=
  match event.field "parts" with
  | arr (part :: parts) => do
    let normalized ← normalizePartsFrom eventId 0 [] (part :: parts)
    return setKey "mime_type" (str "multipart/mixed")
      (setKey "event_kind" (str "terminal.multimodal.input.v1")
        (setKey "parts" (arr normalized) fields))
  | _ => .ok fields

/-- The fields an input's event gets beside the common ones. -/
def normalizeInput (sensorPayload : SensorPayload) (event : Json) (eventId laneId : String)
    (common : Fields) : Except Raised Fields := do
  let withKind := setKey "event_kind" (str ((event.field "event_kind").strOr
    (defaultEventKindForLane laneId))) common
  let withMime := setKey "mime_type" (str ((event.field "mime_type").strOr
    (defaultMimeForLane laneId))) withKind
  let withParts ← normalizeInputParts event eventId withMime
  if laneId ∈ SENSOR_LANES then
    let payload ← sensorPayload laneId (event.field "payload_inline") eventId
    return setKey "payload_inline" payload withParts
  else return withParts

/-- `_normalize_timeline_event` -/
def normalizeTimelineEvent (sensorPayload : SensorPayload) (index : Nat) (event : Json) :
    Except Raised Json := do
  let laneId := (event.field "lane_id").strOr
  if laneId = "" then
    throw (.skills (SkillValidationError "时间轴事件缺少 lane_id。" [("index", num index)]))
  let atMs ← readAtMs event
  if atMs < 0 then
    throw (.skills (SkillValidationError "时间轴事件 at_ms 不能小于 0。"
      [("index", num index), ("at_ms", num atMs)]))
  let id := (event.field "id").strOr ("event_" ++ toString (index + 1))
  let required := ((event.field? "required").getD (.bool true)).truthy
  let common := setKey "required" (.bool required) (setKey "at_ms" (num atMs)
    (setKey "lane_id" (str laneId) (setKey "id" (str id) event.fields)))
  if isExpectationEvent (obj common) then
    let expectation := Text.strip (event.field "expectation").strOr
    if expectation = "" then
      throw (.skills (SkillValidationError "语义输出事件缺少 expectation。" [("event_id", str id)]))
    return obj (setKey "expectation" (str expectation)
      (setKey "lane_id" (str "expected.semantic") common))
  else return obj (← normalizeInput sensorPayload event id laneId common)

/-- The loop over a timeline's events, which passes over what is no object. -/
def normalizeEventsFrom (sensorPayload : SensorPayload) (index : Nat) :
    List Json → Except Raised (List Json)
  | [] => .ok []
  | event :: events => do
    if event.isObj then
      let normalized ← normalizeTimelineEvent sensorPayload index event
      return normalized :: (← normalizeEventsFrom sensorPayload (index + 1) events)
    else normalizeEventsFrom sensorPayload (index + 1) events

/-- The order of `sort(key=lambda item: (at_ms, id))`. -/
def eventOrder (a b : Json) : Bool :=
  eventAtMs a < eventAtMs b ||
    (eventAtMs a = eventAtMs b && !Text.codesLt (Text.codes (eventId b)) (Text.codes (eventId a)))

/-- `_normalize_timeline_lanes` -/
def normalizeTimelineLanes (lanes : Json) : List Json :=
  let raw := lanes.items.filter fun lane => lane.isObj && (lane.field "id").truthy
  let named (lane : Json) : Json := obj (setKey "id" (str (lane.field "id").toStr) lane.fields)
  let laneId (lane : Json) : String := (lane.field "id").toStr
  (DEFAULT_TIMELINE_LANES.map fun known =>
    let given := (raw.map named).find? fun lane => laneId lane = laneId (obj known)
    obj (union ((given.map Json.fields).getD []) known)) ++
  (raw.filter fun lane => DEFAULT_TIMELINE_LANES.all fun known =>
    laneId lane ≠ laneId (obj known)).map named

structure Timeline where
  schemaVersion : String
  durationMs : Int
  lanes : List Json
  events : List Json
  forkSeed : Json

/-- `int(raw.get("duration_ms") or duration_ms or DEFAULT_TIMELINE_DURATION_MS)`, which may raise. -/
def readDuration (value : Json) (durationMs : Int) : Except Raised Int :=
  let duration := (value.field "duration_ms").or
    ((num durationMs).or (num DEFAULT_TIMELINE_DURATION_MS))
  match duration.toInt? with
  | some duration => .ok duration
  | none => .error .other

/-- `_normalize_timeline` -/
def normalizeTimeline (sensorPayload : SensorPayload) (value : Json) (durationMs : Int) :
    Except Raised Timeline := do
  let normalizedDuration ← readDuration value durationMs
  if normalizedDuration < 1 then
    throw (.skills (SkillValidationError "测试场景时长必须大于 0。"
      [("duration_ms", num normalizedDuration)]))
  let events ← normalizeEventsFrom sensorPayload 0 (value.field "events").items
  return {
    schemaVersion := (value.field "schema_version").strOr TIMELINE_SCHEMA_VERSION
    durationMs := normalizedDuration
    lanes := normalizeTimelineLanes (value.field "lanes")
    events := events.insertionSort fun a b => eventOrder a b
    forkSeed := (value.field "fork_seed").or (obj []) }

/-- `_timeline_input_events` -/
def Timeline.inputEvents (timeline : Timeline) : List Json :=
  timeline.events.filter fun event => event.isObj && !isExpectationEvent event

/-- `_timeline_expectation_events` -/
def Timeline.expectationEvents (timeline : Timeline) : List Json :=
  timeline.events.filter fun event => event.isObj && isExpectationEvent event

theorem except_bind {ε α β : Type} {x : Except ε α} {f : α → Except ε β} {b : β}
    (ok : (x >>= f) = .ok b) : ∃ a, x = .ok a ∧ f a = .ok b := by
  cases x with
  | error e => cases ok
  | ok a => exact ⟨a, rfl, ok⟩

/-! ### The order of the events -/

/-- What events are sorted by. -/
def eventKey (event : Json) : Int ×ₗ List Nat := toLex (eventAtMs event, Text.codes (eventId event))

theorem event_order_iff (a b : Json) : eventOrder a b = true ↔ eventKey a ≤ eventKey b := by
  simp only [eventOrder, eventKey, Prod.Lex.toLex_le_toLex, Bool.or_eq_true, Bool.and_eq_true,
    decide_eq_true_eq, Bool.not_eq_true', ← Bool.not_eq_true, Text.codes_lt_iff, not_lt]

instance : Std.Total fun a b : Json => eventOrder a b = true :=
  ⟨fun a b => by simpa only [event_order_iff] using le_total (eventKey a) (eventKey b)⟩

instance : IsTrans Json fun a b => eventOrder a b = true :=
  ⟨fun a b c => by simpa only [event_order_iff] using le_trans⟩

theorem at_ms_le {a b : Json} (order : eventOrder a b = true) : eventAtMs a ≤ eventAtMs b := by
  rw [eventOrder, Bool.or_eq_true, Bool.and_eq_true, decide_eq_true_eq, decide_eq_true_eq] at order
  rcases order with earlier | ⟨same, -⟩
  · exact le_of_lt earlier
  · exact le_of_eq same

/-! ### What normalizing leaves -/

/-- What every event of a normalized timeline has. -/
structure Normalized (event : Json) : Prop where
  isObj : event.isObj = true
  hasId : ∃ id, event.field? "id" = some (str id)
  hasAtMs : ∃ atMs, 0 ≤ atMs ∧ event.field? "at_ms" = some (num atMs)

/-- A write to other fields leaves an event normalized. -/
theorem Normalized.set {fields : Fields} (normalized : Normalized (obj fields)) {key : String}
    (value : Json) (notId : key ≠ "id") (notAtMs : key ≠ "at_ms") :
    Normalized (obj (setKey key value fields)) := by
  obtain ⟨-, ⟨id, hasId⟩, atMs, nonneg, hasAtMs⟩ := normalized
  exact ⟨rfl, ⟨id, (lookup_setKey_other notId _ _).trans hasId⟩, atMs, nonneg,
    (lookup_setKey_other notAtMs _ _).trans hasAtMs⟩

theorem normalize_input_normalized {sensorPayload : SensorPayload} {event : Json}
    {id laneId : String} {common fields : Fields} (normalized : Normalized (obj common))
    (ok : normalizeInput sensorPayload event id laneId common = .ok fields) :
    Normalized (obj fields) := by
  have marked := (normalized.set (str ((event.field "event_kind").strOr
    (defaultEventKindForLane laneId))) (by decide : "event_kind" ≠ "id") (by decide)).set
    (str ((event.field "mime_type").strOr (defaultMimeForLane laneId))) (by decide : "mime_type" ≠ "id")
    (by decide)
  rw [normalizeInput] at ok
  obtain ⟨withParts, parts, rest⟩ := except_bind ok
  have kept : Normalized (obj withParts) := by
    rw [normalizeInputParts] at parts
    split at parts
    · obtain ⟨normalizedParts, -, done⟩ := except_bind parts
      obtain rfl := Except.ok.inj done
      exact ((marked.set _ (by decide) (by decide)).set _ (by decide) (by decide)).set _ (by decide)
        (by decide)
    · obtain rfl := Except.ok.inj parts
      exact marked
  split at rest
  · obtain ⟨payload, -, done⟩ := except_bind rest
    obtain rfl := Except.ok.inj done
    exact kept.set _ (by decide) (by decide)
  · obtain rfl := Except.ok.inj rest
    exact kept

theorem normalize_event_normalized {sensorPayload : SensorPayload} {index : Nat}
    {event normalized : Json}
    (ok : normalizeTimelineEvent sensorPayload index event = .ok normalized) :
    Normalized normalized := by
  unfold normalizeTimelineEvent at ok
  simp only at ok
  split at ok
  · cases ok
  obtain ⟨atMs, -, ok⟩ := except_bind ok
  split at ok
  · cases ok
  rename_i nonneg
  have common : Normalized (obj (setKey "required"
      (.bool ((event.field? "required").getD (.bool true)).truthy) (setKey "at_ms" (num atMs)
        (setKey "lane_id" (str (event.field "lane_id").strOr) (setKey "id"
          (str ((event.field "id").strOr ("event_" ++ toString (index + 1)))) event.fields))))) := by
    refine ⟨rfl, ⟨(event.field "id").strOr ("event_" ++ toString (index + 1)), ?_⟩, atMs,
      not_lt.mp nonneg, ?_⟩
    · rw [field?, Json.fields, lookup_setKey_other (by decide), lookup_setKey_other (by decide),
        lookup_setKey_other (by decide), lookup_setKey_same]
    · rw [field?, Json.fields, lookup_setKey_other (by decide), lookup_setKey_same]
  split at ok
  · split at ok
    · cases ok
    · obtain rfl := Except.ok.inj ok
      exact (common.set _ (by decide) (by decide)).set _ (by decide) (by decide)
  · obtain ⟨fields, input, done⟩ := except_bind ok
    obtain rfl := Except.ok.inj done
    exact normalize_input_normalized common input

theorem normalize_events_normalized {sensorPayload : SensorPayload} {index : Nat}
    {events normalized : List Json}
    (ok : normalizeEventsFrom sensorPayload index events = .ok normalized) :
    ∀ event ∈ normalized, Normalized event := by
  induction events generalizing index normalized with
  | nil =>
    obtain rfl := Except.ok.inj ok
    exact nofun
  | cons event events ih =>
    rw [normalizeEventsFrom] at ok
    split at ok
    · obtain ⟨first, isFirst, ok⟩ := except_bind ok
      obtain ⟨rest, isRest, done⟩ := except_bind ok
      obtain rfl := Except.ok.inj done
      intro other isIn
      rcases List.mem_cons.mp isIn with rfl | later
      · exact normalize_event_normalized isFirst
      · exact ih isRest other later
    · exact ih ok

/-- **A normalized timeline** has normalized events in the order of their offsets. -/
theorem normalize_timeline_spec {sensorPayload : SensorPayload} {value : Json} {durationMs : Int}
    {timeline : Timeline} (ok : normalizeTimeline sensorPayload value durationMs = .ok timeline) :
    (∀ event ∈ timeline.events, Normalized event) ∧
      timeline.events.Pairwise fun a b => eventAtMs a ≤ eventAtMs b := by
  unfold normalizeTimeline at ok
  obtain ⟨duration, -, ok⟩ := except_bind ok
  split at ok
  · cases ok
  obtain ⟨events, isEvents, done⟩ := except_bind ok
  obtain rfl := Except.ok.inj done
  refine ⟨fun event isIn => ?_, ?_⟩
  · exact normalize_events_normalized isEvents event ((List.mem_insertionSort _).mp isIn)
  · exact (List.pairwise_insertionSort _ events).imp at_ms_le

end Psop.SkillTests
