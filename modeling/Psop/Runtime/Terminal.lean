import Psop.Json

/-!
Terminal events as the rows of `terminal_event` and as the entries a session token holds of them.

A row is numbered within its run (`seqNo`) and points one way, to the runtime or to the user. Its
token payload repeats the row, with the parts and their bundle when it has parts; `text` is the
summary of an input that the token's input envelope and the evidence carry.
-/
namespace Psop.Runtime

open Json

inductive Direction where
  | input | output
deriving DecidableEq, Repr

def Direction.name : Direction → String
  | .input => "input"
  | .output => "output"

/-- `direction.strip().lower()`, `none` where it is neither direction. -/
def Direction.ofText (direction : String) : Option Direction :=
  let normalized := Text.lower (Text.strip direction)
  if normalized = "input" then some .input
  else if normalized = "output" then some .output
  else none

theorem Direction.name_inj {d e : Direction} (same : d.name = e.name) : d = e := by
  cases d <;> cases e <;> first | rfl | exact absurd same (by decide)

structure TerminalEventPart where
  id : String
  partId : String
  orderIndex : Int
  kind : String
  mimeType : String
  text : String
  artifactObjectId : Json
  sizeBytes : Int
  checksum : String
  metadata : Json
deriving Repr

structure TerminalEvent where
  id : String
  seqNo : Nat
  direction : Direction
  eventKind : String
  mimeType : String
  payloadInline : Json
  artifactObjectId : Json
  bindingId : Json
  externalEventId : Option String
  sourceRef : Json
  occurredAt : String
  parts : List TerminalEventPart
deriving Repr

/-- `_terminal_event_part_token_payload` -/
def TerminalEventPart.tokenPayload (part : TerminalEventPart) : Json :=
  obj [("id", str part.id), ("part_id", str part.partId), ("order_index", num part.orderIndex),
    ("kind", str part.kind), ("mime_type", str part.mimeType), ("text", str part.text),
    ("artifact_object_id", part.artifactObjectId), ("size_bytes", num part.sizeBytes),
    ("checksum", str part.checksum), ("metadata", part.metadata)]

/-- `_terminal_input_text_from_payload` -/
def inputTextFromPayload (value : Json) : String :=
  match value with
  | .str s => s
  | .null => ""
  | value =>
    let keys := ["user_input", "text", "value", "content", "description", "summary", "name", "filename"]
    match keys.find? fun key => (value.field key).truthy with
    | some key => (value.field key).toStr
    | none => value.dumps

/-- The line of one part in the summary of an input, if it has one. -/
def partLine (part : Json) : Option String :=
  let kind := (part.field "kind").strOr
  let text := Text.strip (part.field "text").strOr
  let metadata := part.field "metadata"
  let filename := Text.strip ((metadata.field "filename").or (metadata.field "name")).strOr
  if kind = "text" ∧ text ≠ "" then some text
  else if filename ≠ "" then some ((if kind = "" then "attachment" else kind) ++ ": " ++ filename)
  else if kind ≠ "" then some (kind ++ " input")
  else none

/-- `_terminal_input_summary` -/
def inputSummary (parts : List Json) (payloadInline : Json) : String :=
  match parts.filterMap partLine with
  | [] => inputTextFromPayload payloadInline
  | lines => Text.join "\n" lines

namespace TerminalEvent

/-- `_terminal_event_token_payload` -/
def payloadFields (event : TerminalEvent) : Fields :=
  [("id", str event.id), ("seq_no", num event.seqNo), ("direction", str event.direction.name),
    ("event_kind", str event.eventKind), ("mime_type", str event.mimeType),
    ("payload_inline", event.payloadInline), ("artifact_object_id", event.artifactObjectId),
    ("binding_id", event.bindingId), ("source_ref", event.sourceRef),
    ("occurred_at", str event.occurredAt)]

def partPayloads (event : TerminalEvent) : List Json :=
  event.parts.map TerminalEventPart.tokenPayload

/-- `_terminal_input_bundle_from_parts` -/
def inputBundle (event : TerminalEvent) (parts : List Json) : Json :=
  obj [("event_id", str event.id), ("seq_no", num event.seqNo), ("event_kind", str event.eventKind),
    ("mime_type", str event.mimeType), ("text", str (inputSummary parts event.payloadInline)),
    ("parts", arr parts)]

/-- `_terminal_event_token_payload_with_parts` -/
def tokenFields (event : TerminalEvent) : Fields :=
  match event.partPayloads with
  | [] => event.payloadFields
  | parts => event.payloadFields ++ [("parts", arr parts), ("input_bundle", event.inputBundle parts)]

def tokenPayload (event : TerminalEvent) : Json := obj event.tokenFields

/-- `_terminal_input_text` over the event's own parts. -/
def inputText (event : TerminalEvent) : String :=
  match event.partPayloads with
  | [] => inputTextFromPayload event.payloadInline
  | parts => inputSummary parts event.payloadInline

/-- The payload as evidence of a wait: with the input text, and a bundle also where it has no
parts. -/
def evidence (event : TerminalEvent) : Json :=
  obj (setKey "input_bundle"
    (((event.tokenPayload).field "input_bundle").or (event.inputBundle event.partPayloads))
    (setKey "text" (str event.inputText) event.tokenFields))

theorem payload_lookup (event : TerminalEvent) {key : String}
    (own : key ≠ "parts" ∧ key ≠ "input_bundle") :
    lookup key event.tokenFields = lookup key event.payloadFields := by
  unfold tokenFields
  split
  · rfl
  · rw [lookup_append]
    simp only [lookup_cons, if_neg own.1.symm, if_neg own.2.symm, lookup_nil, Option.or_none]

theorem evidence_lookup (event : TerminalEvent) {key : String}
    (own : key ≠ "parts" ∧ key ≠ "input_bundle" ∧ key ≠ "text") :
    lookup key (event.evidence).fields = lookup key event.payloadFields := by
  rw [evidence, fields, lookup_setKey_other own.2.1.symm, lookup_setKey_other own.2.2.symm,
    payload_lookup event ⟨own.1, own.2.1⟩]

@[simp] theorem tokenPayload_seqNo (event : TerminalEvent) :
    event.tokenPayload.field? "seq_no" = some (num event.seqNo) := by
  rw [tokenPayload, field?_obj, payload_lookup event (by decide)]
  simp [payloadFields]

@[simp] theorem tokenPayload_id (event : TerminalEvent) :
    event.tokenPayload.field? "id" = some (str event.id) := by
  rw [tokenPayload, field?_obj, payload_lookup event (by decide)]
  simp [payloadFields]

@[simp] theorem evidence_seqNo (event : TerminalEvent) :
    event.evidence.field? "seq_no" = some (num event.seqNo) := by
  rw [field?, evidence_lookup event (by decide)]
  simp [payloadFields]

@[simp] theorem evidence_id (event : TerminalEvent) :
    event.evidence.field? "id" = some (str event.id) := by
  rw [field?, evidence_lookup event (by decide)]
  simp [payloadFields]

@[simp] theorem evidence_direction (event : TerminalEvent) :
    event.evidence.field? "direction" = some (str event.direction.name) := by
  rw [field?, evidence_lookup event (by decide)]
  simp [payloadFields]

end TerminalEvent
end Psop.Runtime
