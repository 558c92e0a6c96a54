import Psop.Runtime.Terminal
import Psop.Skills.Exceptions

/-!
The parts of a terminal event and the ids they are stored under.

A part may bring its own id. One without is named after its kind and the number it has among the
parts of that kind, and an uploaded file is named the same way before it joins the parts, on a count
of its own. The names generated on one count never meet (`names_nodup`, `upload_names_nodup`).
**`stored_part_ids_nodup`** says exactly when the ids of all stored parts are
distinct: the given ids are, trimmed, and none of them spells the name of another part or file.
-/
namespace Psop.Runtime

open Json Skills

inductive PartKind where
  | text | image | video | audio
deriving DecidableEq, Repr

def PartKind.name : PartKind → String
  | .text => "text"
  | .image => "image"
  | .video => "video"
  | .audio => "audio"

/-- `kind in {"text", "image", "video", "audio"}`. -/
def PartKind.ofText (kind : String) : Option PartKind :=
  [PartKind.text, .image, .video, .audio].find? fun known => known.name = kind

structure TerminalEventPartInput where
  partId : Option String
  kind : String
  mimeType : String
  text : Option String
  artifactObjectId : Option String
  sizeBytes : Option Int
  checksum : Option String
  metadata : Json
deriving Repr

/-- `f"{kind}_{number}"` -/
def generatedId (kind : PartKind) (number : Nat) : String := kind.name ++ "_" ++ toString number

/-- `_part_kind_for_mime_type` -/
def partKindForMimeType (mimeType : String) : String :=
  if Text.startsWith "image/" mimeType then "image"
  else if Text.startsWith "audio/" mimeType then "audio"
  else if Text.startsWith "video/" mimeType then "video"
  else if Text.startsWith "text/" mimeType then "text" else "file"

def TerminalEventPartInput.kindText (part : TerminalEventPartInput) : String :=
  let kind := Text.lower (Text.strip part.kind)
  if kind = "" then partKindForMimeType (Text.lower (Text.strip part.mimeType)) else kind

/-- The id a part brings, `none` where it brings only white space. -/
def TerminalEventPartInput.ownId (part : TerminalEventPartInput) : Option String :=
  let own := Text.strip (part.partId.getD "")
  if own = "" then none else some own

/-- How many parts of each kind came before. -/
abbrev Counts := PartKind → Nat

def Counts.add (kind : PartKind) (counts : Counts) : Counts :=
  fun other => if other = kind then counts other + 1 else counts other

def jsonText : Option String → Json
  | some s => .str s
  | none => .null

/-- `_validate_terminal_event_part`: the part with its kind, or what is wrong with it. -/
def validateTerminalEventPart (part : TerminalEventPartInput) (counts : Counts) :
    Except SkillsError (TerminalEventPartInput × Counts) := do
  match PartKind.ofText part.kindText with
  | none =>
    throw (SkillValidationError "terminal event part kind 仅支持 text/image/video/audio。"
      [("kind", .str part.kind)])
  | some kind =>
    if kind = .text ∧ Text.strip (part.text.getD "") = "" then
      throw (SkillValidationError "text part 必须包含 text。" [("part_id", jsonText part.partId)])
    if kind ≠ .text ∧ part.artifactObjectId.getD "" = "" then
      throw (SkillValidationError "多模态 part 必须绑定 artifact_object_id。"
        [("part_id", jsonText part.partId)])
    let mimeType := Text.lower (Text.strip part.mimeType)
    if kind ≠ .text ∧ ¬ Text.startsWith (kind.name ++ "/") mimeType then
      throw (SkillValidationError "terminal event part kind 与 mime_type 不匹配。"
        [("part_id", jsonText part.partId), ("kind", .str kind.name),
          ("mime_type", .str part.mimeType)])
    let counts := counts.add kind
    return ({ part with
      partId := some (part.ownId.getD (generatedId kind (counts kind)))
      kind := kind.name
      mimeType :=
        if part.mimeType = "" then
          if kind = .text then "text/plain" else "application/octet-stream"
        else part.mimeType }, counts)

def validateParts (counts : Counts) :
    List TerminalEventPartInput → Except SkillsError (List TerminalEventPartInput)
  | [] => return []
  | part :: parts => do
    let (validated, counts) ← validateTerminalEventPart part counts
    return validated :: (← validateParts counts parts)

/-- `_normalize_terminal_event_parts`: an event without parts may get one from its payload. -/
def normalizeTerminalEventParts (event : TerminalEvent) (parts : List TerminalEventPartInput) :
    Except SkillsError (List TerminalEventPartInput) :=
  if parts ≠ [] then validateParts (fun _ => 0) parts
  else if event.artifactObjectId.truthy then .ok []
  else
    let mimeType := Text.lower (Text.strip event.mimeType)
    let eventKind := Text.lower (Text.strip event.eventKind)
    let isText := Text.startsWith "text/" mimeType || Text.startsWith "terminal.text." eventKind
    if event.direction = .output ∧ ¬ isText then .ok []
    else
      let text := inputTextFromPayload event.payloadInline
      if text = "" then .ok []
      else .ok [{
        partId := some "text_1"
        kind := "text"
        mimeType := if event.direction = .output then event.mimeType else "text/plain"
        text := some text
        artifactObjectId := none
        sizeBytes := none
        checksum := none
        metadata := .obj [] }]

/-- The row a normalized part is stored as. -/
def TerminalEventPartInput.row (id : String) (orderIndex : Nat) (part : TerminalEventPartInput) :
    TerminalEventPart where
  id := id
  partId := part.partId.getD ""
  orderIndex := orderIndex
  kind := part.kind
  mimeType := part.mimeType
  text := part.text.getD ""
  artifactObjectId := jsonText part.artifactObjectId
  sizeBytes := part.sizeBytes.getD 0
  checksum := part.checksum.getD ""
  metadata := part.metadata

/-- The rows of an event's parts, in order from one. -/
def partRows (ids : Nat → String) (parts : List TerminalEventPartInput) : List TerminalEventPart :=
  (parts.zipIdx 1).map fun (part, order) => part.row (ids order) order

/-! ### Uploaded files -/

/-- A file of a multipart request: the sizes of the chunks its stream is read in, and the checksum
of what is read. -/
structure UploadFile where
  fieldName : String
  filename : Option String
  contentType : Option String
  chunks : List Nat
  checksum : String
deriving Repr

structure UploadLimits where
  maxUploadFiles : Nat
  maxImageBytes : Int
  maxFileBytes : Int
  maxTotalFileBytes : Int

structure InspectedUpload where
  fieldName : String
  filename : String
  mimeType : String
  kind : PartKind
  partId : String
  sizeBytes : Int
  checksum : String
deriving Repr

/-- `safe_terminal_upload_filename` -/
def safeTerminalUploadFilename (filename : String) : String :=
  let slashed := String.ofList (filename.toList.map fun c => if c = '\\' then '/' else c)
  let cleaned := Text.strip ((Text.splitOn '/' slashed).getLastD "")
  if cleaned = "" then "upload.bin" else cleaned

/-- `terminal_part_kind_for_mime_type`, where only three kinds are accepted. -/
def uploadKind (mimeType : String) : Option PartKind :=
  if Text.startsWith "image/" mimeType then some .image
  else if Text.startsWith "audio/" mimeType then some .audio
  else if Text.startsWith "video/" mimeType then some .video
  else none

@[irreducible] def UploadFile.mimeType (upload : UploadFile) : String :=
  let content := upload.contentType.getD ""
  let content := if content = "" then "application/octet-stream" else content
  Text.lower (Text.strip ((Text.splitOn ';' content).headD ""))

/-- `str(part.kind or "").lower()`: the count of a request's parts takes the kind as it is given. -/
def givenCounts (parts : List TerminalEventPartInput) : Counts := fun kind =>
  parts.countP fun part => Text.lower part.kind = kind.name

/-- `_inspect_stream`: the size read so far is compared with the limits after every chunk. -/
def inspectStream (maxFileBytes maxTotalBytes existingTotalBytes : Int) (sizeBytes : Int) :
    List Nat → Except SkillsError Int
  | [] => return sizeBytes
  | chunk :: chunks => do
    let sizeBytes := sizeBytes + chunk
    if maxFileBytes < sizeBytes then
      throw (PayloadTooLargeError "terminal event 单个上传文件过大。"
        [("max_bytes", .num maxFileBytes), ("size_bytes", .num sizeBytes)])
    if maxTotalBytes < existingTotalBytes + sizeBytes then
      throw (PayloadTooLargeError "terminal event 上传文件总量过大。"
        [("max_bytes", .num maxTotalBytes), ("size_bytes", .num (existingTotalBytes + sizeBytes))])
    inspectStream maxFileBytes maxTotalBytes existingTotalBytes sizeBytes chunks

def inspectFrom (limits : UploadLimits) (counts : Counts) (totalSize : Int) :
    List UploadFile → Except SkillsError (List InspectedUpload)
  | [] => return []
  | upload :: uploads => do
    let given := upload.filename.getD ""
    let filename := safeTerminalUploadFilename (if given = "" then "upload.bin" else given)
    let mimeType := upload.mimeType
    match uploadKind mimeType with
    | none =>
      throw (SkillValidationError "多模态文件仅支持 image/audio/video MIME 类型。"
        [("mime_type", .str mimeType)])
    | some kind =>
      let counts := counts.add kind
      let maxFileBytes := if kind = .image then limits.maxImageBytes else limits.maxFileBytes
      let sizeBytes ← inspectStream maxFileBytes limits.maxTotalFileBytes totalSize 0 upload.chunks
      if sizeBytes = 0 then
        throw (SkillValidationError "上传文件不能为空。" [("filename", .str filename)])
      let rest ← inspectFrom limits counts (totalSize + sizeBytes) uploads
      return ⟨upload.fieldName, filename, mimeType, kind, generatedId kind (counts kind), sizeBytes,
        upload.checksum⟩ :: rest

/-- `_inspect_uploads` -/
def inspectUploads (limits : UploadLimits) (parts : List TerminalEventPartInput)
    (uploads : List UploadFile) : Except SkillsError (List InspectedUpload) :=
  inspectFrom limits (givenCounts parts) 0 uploads

/-- What the object store answers for an uploaded file. -/
structure StoredObject where
  bucket : String
  objectKey : String
  mediaType : String
  sizeBytes : Int
  checksum : String
  metadata : Json
deriving Repr

structure UploadedTerminalPart where
  inspected : InspectedUpload
  stored : StoredObject
deriving Repr

/-- The part an uploaded file joins the request's parts as. -/
def UploadedTerminalPart.part (artifactObjectId : String) (item : UploadedTerminalPart) :
    TerminalEventPartInput where
  partId := some item.inspected.partId
  kind := item.inspected.kind.name
  mimeType := item.stored.mediaType
  text := none
  artifactObjectId := some artifactObjectId
  sizeBytes := some item.stored.sizeBytes
  checksum := some item.stored.checksum
  metadata := .obj [("filename", .str item.inspected.filename),
    ("name", .str item.inspected.filename), ("field_name", .str item.inspected.fieldName)]

/-- The parts of a multipart request: the given ones, then the uploaded files with the artifacts
they were stored as. -/
def joinedParts (parts : List TerminalEventPartInput) (uploaded : List UploadedTerminalPart)
    (artifactIds : Nat → String) : List TerminalEventPartInput :=
  parts ++ uploaded.zipIdx.map fun (item, index) => item.part (artifactIds index)

/-! ### Numbering -/

/-- A part of a valid kind with the number it has among those of its kind. -/
structure NumberedPart where
  part : TerminalEventPartInput
  kind : PartKind
  number : Nat

def numbered (counts : Counts) : List TerminalEventPartInput → List NumberedPart
  | [] => []
  | part :: parts => match PartKind.ofText part.kindText with
    | some kind => ⟨part, kind, counts kind + 1⟩ :: numbered (counts.add kind) parts
    | none => numbered counts parts

section

attribute [local irreducible] PartKind.ofText

theorem numbered_cons (counts : Counts) (part : TerminalEventPartInput)
    (parts : List TerminalEventPartInput) :
    numbered counts (part :: parts) = match PartKind.ofText part.kindText with
      | some kind => ⟨part, kind, counts kind + 1⟩ :: numbered (counts.add kind) parts
      | none => numbered counts parts := rfl

end

/-- The name of a part that brings no id. -/
def NumberedPart.name (item : NumberedPart) : Option String :=
  match item.part.ownId with
  | some _ => none
  | none => some (generatedId item.kind item.number)

/-- The kinds of uploaded files, numbered on from the counts of a request's parts. -/
def numberedUploads (counts : Counts) : List UploadFile → List (PartKind × Nat)
  | [] => []
  | upload :: uploads => match uploadKind upload.mimeType with
    | some kind => (kind, counts kind + 1) :: numberedUploads (counts.add kind) uploads
    | none => numberedUploads counts uploads

theorem PartKind.name_inj {k l : PartKind} (same : k.name = l.name) : k = l := by
  cases k <;> cases l <;> first | rfl | exact absurd same (by decide)

theorem Counts.le_add (counts : Counts) (kind other : PartKind) :
    counts other ≤ counts.add kind other := by
  rw [Counts.add]
  split <;> omega

theorem Counts.add_self (counts : Counts) (kind : PartKind) : counts.add kind kind = counts kind + 1 :=
  if_pos rfl

/-- A generated name tells the kind and the number. -/
theorem generated_id_inj {k l : PartKind} {m n : Nat} (same : generatedId k m = generatedId l n) :
    k = l ∧ m = n := by
  have texts := congrArg String.toList same
  simp only [generatedId, String.toList_append] at texts
  have kinds : k = l := by
    cases k <;> cases l <;> first | rfl | exact absurd (List.cons.inj texts).1 (by decide)
  subst kinds
  refine ⟨rfl, ?_⟩
  have numerals := List.append_cancel_left texts
  have values := Text.digits_numeral m
  rw [numerals, Text.digits_numeral] at values
  exact (Option.some.inj values).symm

theorem numbered_bound {parts : List TerminalEventPartInput} {counts : Counts} {item : NumberedPart}
    (isIn : item ∈ numbered counts parts) : counts item.kind < item.number := by
  induction parts generalizing counts with
  | nil => cases isIn
  | cons part parts ih =>
    rw [numbered_cons] at isIn
    split at isIn
    · rename_i kind _
      rcases List.mem_cons.mp isIn with rfl | later
      · exact Nat.lt_succ_self _
      · exact lt_of_le_of_lt (counts.le_add kind _) (ih later)
    · exact ih isIn

theorem mem_names {items : List NumberedPart} {id : String} : id ∈ items.filterMap NumberedPart.name ↔
    ∃ item ∈ items, item.part.ownId = none ∧ generatedId item.kind item.number = id := by
  rw [List.mem_filterMap]
  refine exists_congr fun item => and_congr_right fun _ => ?_
  rw [NumberedPart.name]
  cases item.part.ownId <;> simp

/-- **Generated names** are distinct: the numbers of one kind only grow. -/
theorem names_nodup (counts : Counts) (parts : List TerminalEventPartInput) :
    ((numbered counts parts).filterMap NumberedPart.name).Nodup := by
  induction parts generalizing counts with
  | nil => exact List.nodup_nil
  | cons part parts ih =>
    rw [numbered_cons]
    split
    · rename_i kind _
      rw [List.filterMap_cons]
      split
      · exact ih _
      · rename_i id named
        refine List.nodup_cons.mpr ⟨fun again => ?_, ih _⟩
        obtain ⟨item, isIn, -, same⟩ := mem_names.mp again
        have isName : generatedId kind (counts kind + 1) = id := by
          rw [NumberedPart.name] at named
          split at named
          · cases named
          · exact Option.some.inj named
        obtain ⟨sameKind, sameNumber⟩ := generated_id_inj (same.trans isName.symm)
        have later := numbered_bound isIn
        rw [sameKind, Counts.add_self] at later
        omega
    · exact ih _

theorem numbered_uploads_bound {uploads : List UploadFile} {counts : Counts} {kind : PartKind}
    {number : Nat} (isIn : (kind, number) ∈ numberedUploads counts uploads) :
    counts kind < number := by
  induction uploads generalizing counts with
  | nil => cases isIn
  | cons upload uploads ih =>
    rw [numberedUploads] at isIn
    split at isIn
    · rename_i first _
      rcases List.mem_cons.mp isIn with same | later
      · obtain ⟨rfl, rfl⟩ := Prod.mk.inj same
        exact Nat.lt_succ_self _
      · exact lt_of_le_of_lt (counts.le_add first _) (ih later)
    · exact ih isIn

theorem upload_names_nodup (counts : Counts) (uploads : List UploadFile) :
    ((numberedUploads counts uploads).map fun item => generatedId item.1 item.2).Nodup := by
  induction uploads generalizing counts with
  | nil => exact List.nodup_nil
  | cons upload uploads ih =>
    rw [numberedUploads]
    split
    · rename_i kind _
      refine List.nodup_cons.mpr ⟨fun again => ?_, ih _⟩
      obtain ⟨⟨other, number⟩, isIn, same⟩ := List.mem_map.mp again
      obtain ⟨sameKind, sameNumber⟩ := generated_id_inj same
      have later := numbered_uploads_bound isIn
      simp only at sameKind sameNumber
      rw [sameKind, Counts.add_self] at later
      omega
    · exact ih _

/-! ### What is stored -/

/-- The id a part is stored under. -/
def NumberedPart.storedId (item : NumberedPart) : String :=
  item.part.ownId.getD (generatedId item.kind item.number)

theorem validate_part_spec {part validated : TerminalEventPartInput} {counts counts' : Counts}
    (ok : validateTerminalEventPart part counts = .ok (validated, counts')) :
    ∃ kind, PartKind.ofText part.kindText = some kind ∧ counts' = counts.add kind ∧
      validated.partId = some (part.ownId.getD (generatedId kind (counts kind + 1))) := by
  unfold validateTerminalEventPart at ok
  split at ok
  · cases ok
  · rename_i kind isKind
    simp only [bind, Except.bind, pure, Except.pure, throw, throwThe, MonadExceptOf.throw] at ok
    split at ok
    · cases ok
    split at ok
    · cases ok
    split at ok
    · cases ok
    obtain ⟨rfl, rfl⟩ := Prod.mk.inj (Except.ok.inj ok)
    exact ⟨kind, isKind, rfl, by rw [Counts.add_self]⟩

/-- **Validated parts** have the ids of the numbered ones, and none is left out. -/
theorem validate_parts_spec {parts validated : List TerminalEventPartInput} {counts : Counts}
    (ok : validateParts counts parts = .ok validated) :
    validated.map (·.partId) = (numbered counts parts).map (fun item => some item.storedId) ∧
      (numbered counts parts).map NumberedPart.part = parts := by
  induction parts generalizing counts validated with
  | nil =>
    obtain rfl := Except.ok.inj ok
    exact ⟨rfl, rfl⟩
  | cons part parts ih =>
    rw [validateParts] at ok
    cases first : validateTerminalEventPart part counts with
    | error reason =>
      rw [first] at ok
      cases ok
    | ok answer =>
      obtain ⟨head, counts'⟩ := answer
      rw [first] at ok
      cases rest : validateParts counts' parts with
      | error reason =>
        simp only [bind, Except.bind, rest] at ok
        cases ok
      | ok tail =>
        simp only [bind, Except.bind, rest, pure, Except.pure] at ok
        obtain rfl := Except.ok.inj ok
        obtain ⟨kind, isKind, rfl, isId⟩ := validate_part_spec first
        obtain ⟨ids, whole⟩ := ih rest
        rw [numbered_cons, isKind]
        exact ⟨by rw [List.map_cons, List.map_cons, isId, ids]; rfl, by rw [List.map_cons, whole]⟩

/-- The ids that are stored are those the parts bring and the generated names. -/
theorem stored_perm (items : List NumberedPart) : (items.map NumberedPart.storedId).Perm
    (items.filterMap (fun item => item.part.ownId) ++ items.filterMap NumberedPart.name) := by
  induction items with
  | nil => exact .nil
  | cons item items ih =>
    rw [List.map_cons, List.filterMap_cons, List.filterMap_cons, NumberedPart.name, NumberedPart.storedId]
    cases item.part.ownId with
    | some own => exact ih.cons own
    | none => exact (ih.cons _).trans List.perm_middle.symm

theorem numbered_append (xs ys : List TerminalEventPartInput) (counts : Counts) :
    ∃ later, numbered counts (xs ++ ys) = numbered counts xs ++ numbered later ys := by
  induction xs generalizing counts with
  | nil => exact ⟨counts, rfl⟩
  | cons part xs ih =>
    rw [List.cons_append, numbered_cons, numbered_cons]
    split
    · rename_i kind _
      obtain ⟨later, same⟩ := ih (counts.add kind)
      exact ⟨later, congrArg _ same⟩
    · exact ih counts

/-- A name is its own trimmed text. -/
theorem generated_id_trimmed (kind : PartKind) (number : Nat) :
    Text.strip (generatedId kind number) = generatedId kind number := by
  have numeral : (toString number).toList ≠ [] := by
    rw [Nat.toString_eq_repr, Nat.toList_repr]
    exact Nat.toDigits_ne_nil
  apply Text.strip_of_ends
  · intro c isFirst
    rw [generatedId, String.toList_append, String.toList_append] at isFirst
    cases kind <;> cases isFirst <;> decide
  · intro c isLast
    rw [generatedId, String.toList_append, List.getLast?_append] at isLast
    obtain ⟨last, found⟩ := Option.isSome_iff_exists.mp (List.getLast?_isSome.mpr numeral)
    rw [found] at isLast
    obtain rfl := Option.some.inj isLast
    exact Text.isSpace_of_isDigit (Text.isDigit_of_numeral (List.mem_of_getLast? found))

theorem upload_own (item : UploadedTerminalPart) (artifactId : String) {kind : PartKind}
    {number : Nat} (isId : item.inspected.partId = generatedId kind number) :
    (item.part artifactId).ownId = some (generatedId kind number) := by
  have nonempty : generatedId kind number ≠ "" := by
    intro empty
    have chars := congrArg String.toList empty
    rw [generatedId, String.toList_append, String.toList_append] at chars
    cases kind <;> cases chars
  simp only [TerminalEventPartInput.ownId, UploadedTerminalPart.part, isId, Option.getD_some,
    generated_id_trimmed]
  exact if_neg nonempty

theorem inspect_from_spec {limits : UploadLimits} {counts : Counts} {total : Int}
    {uploads : List UploadFile} {inspected : List InspectedUpload}
    (ok : inspectFrom limits counts total uploads = .ok inspected) :
    inspected.map (·.partId) =
      (numberedUploads counts uploads).map fun item => generatedId item.1 item.2 := by
  induction uploads generalizing counts total inspected with
  | nil =>
    obtain rfl := Except.ok.inj ok
    rfl
  | cons upload uploads ih =>
    unfold inspectFrom at ok
    simp only at ok
    split at ok
    · cases ok
    · rename_i kind isKind
      simp only [bind, Except.bind, pure, Except.pure, throw, throwThe, MonadExceptOf.throw] at ok
      split at ok
      · cases ok
      split at ok
      · cases ok
      split at ok
      · cases ok
      rename_i rest more
      obtain rfl := Except.ok.inj ok
      rw [numberedUploads, isKind, List.map_cons, ih more, List.map_cons, Counts.add_self]

/-! ### When the stored ids are distinct -/

/-- The ids that parts bring, trimmed. -/
def ownIds (parts : List TerminalEventPartInput) : List String := parts.filterMap (·.ownId)

/-- The parts' own ids are distinct, and none of them spells the kind and the number of a part that
brings none. -/
structure OwnIdsApart (parts : List TerminalEventPartInput) : Prop where
  distinct : (ownIds parts).Nodup
  unspelled : ∀ item ∈ numbered (fun _ => 0) parts, item.part.ownId = none →
    generatedId item.kind item.number ∉ ownIds parts

/-- No part's own id spells the kind and the number of an uploaded file, and no part without an id
has a file's kind and number. -/
structure UploadsApart (parts : List TerminalEventPartInput) (uploads : List UploadFile) :
    Prop where
  unspelled : ∀ file ∈ numberedUploads (givenCounts parts) uploads,
    generatedId file.1 file.2 ∉ ownIds parts
  uncounted : ∀ file ∈ numberedUploads (givenCounts parts) uploads,
    ∀ item ∈ numbered (fun _ => 0) parts, item.part.ownId = none →
      item.kind = file.1 → item.number ≠ file.2

/-- The files' parts bring the names that the inspection gave them. -/
theorem upload_ids {uploaded : List UploadedTerminalPart} {uploads : List UploadFile}
    {counts : Counts} (inspected : uploaded.map (·.inspected.partId) =
      (numberedUploads counts uploads).map fun item => generatedId item.1 item.2)
    (artifactIds : Nat → String) (start : Nat) :
    ((uploaded.zipIdx start).map fun (item, index) => item.part (artifactIds index)).map (·.ownId) =
      ((numberedUploads counts uploads).map fun item => generatedId item.1 item.2).map some := by
  rw [← inspected, List.map_map, List.map_map]
  have each : ∀ item ∈ uploaded, ∀ index,
      (item.part (artifactIds index)).ownId = some item.inspected.partId := by
    intro item isIn index
    have isId : item.inspected.partId ∈ uploaded.map (·.inspected.partId) :=
      List.mem_map.mpr ⟨item, isIn, rfl⟩
    rw [inspected] at isId
    obtain ⟨⟨kind, number⟩, -, isName⟩ := List.mem_map.mp isId
    rw [upload_own item _ isName.symm, isName]
  clear inspected
  induction uploaded generalizing start with
  | nil => rfl
  | cons item uploaded ih =>
    rw [List.zipIdx_cons, List.map_cons, List.map_cons, ih]
    · rw [Function.comp_apply, Function.comp_apply, each item List.mem_cons_self start]
    · exact fun other isIn => each other (List.mem_cons_of_mem _ isIn)

theorem filterMap_of_map_some {α β : Type} {f : α → Option β} {xs : List α} {ys : List β}
    (same : xs.map f = ys.map some) : xs.filterMap f = ys := by
  have mapped := congrArg (List.filterMap id) same
  simpa [List.filterMap_map] using mapped

theorem numbered_parts {items : List NumberedPart} {parts : List TerminalEventPartInput}
    (whole : items.map NumberedPart.part = parts) :
    items.filterMap (fun item => item.part.ownId) = ownIds parts := by
  rw [← whole, ownIds, List.filterMap_map, Function.comp_def]

/-- A part with an id of its own needs no name. -/
theorem no_names {parts : List TerminalEventPartInput} (counts : Counts)
    (own : ∀ part ∈ parts, part.ownId ≠ none) :
    (numbered counts parts).filterMap NumberedPart.name = [] := by
  induction parts generalizing counts with
  | nil => rfl
  | cons part parts ih =>
    have rest := fun counts => ih counts fun other isIn => own other (List.mem_cons_of_mem _ isIn)
    rw [numbered_cons]
    split
    · rw [List.filterMap_cons, NumberedPart.name]
      cases isOwn : part.ownId with
      | none => exact absurd isOwn (own part List.mem_cons_self)
      | some id => exact rest _
    · exact rest _

theorem row_ids (rowIds : Nat → String) (parts : List TerminalEventPartInput) :
    (partRows rowIds parts).map TerminalEventPart.partId = parts.map fun part => part.partId.getD "" := by
  have general : ∀ start, ((parts.zipIdx start).map fun (part, order) =>
      part.row (rowIds order) order).map TerminalEventPart.partId =
        parts.map fun part => part.partId.getD "" := by
    induction parts with
    | nil => exact fun _ => rfl
    | cons part parts ih =>
      intro start
      rw [List.zipIdx_cons, List.map_cons, List.map_cons, List.map_cons, ih]
      rfl
  exact general 1

/-- An event without parts gets one at most. -/
theorem normalize_no_parts {event : TerminalEvent} {normalized : List TerminalEventPartInput}
    (ok : normalizeTerminalEventParts event [] = .ok normalized) : normalized.length ≤ 1 := by
  rw [normalizeTerminalEventParts, if_neg (not_not.mpr rfl)] at ok
  split at ok
  · obtain rfl := Except.ok.inj ok
    exact Nat.zero_le _
  simp only at ok
  split at ok
  · obtain rfl := Except.ok.inj ok
    exact Nat.zero_le _
  split at ok
  · obtain rfl := Except.ok.inj ok
    exact Nat.zero_le _
  · obtain rfl := Except.ok.inj ok
    exact le_refl _

/-- The ids of validated parts, in some order: the own ones, the files' and the generated names. -/
theorem joined_ids_perm {parts normalized : List TerminalEventPartInput} {uploads : List UploadFile}
    {uploaded : List UploadedTerminalPart} {artifactIds : Nat → String} {counts : Counts}
    (inspected : uploaded.map (·.inspected.partId) =
      (numberedUploads counts uploads).map fun item => generatedId item.1 item.2)
    (ok : validateParts (fun _ => 0) (joinedParts parts uploaded artifactIds) = .ok normalized) :
    (normalized.map fun part => part.partId.getD "").Perm
      (ownIds parts ++ ((numberedUploads counts uploads).map fun item => generatedId item.1 item.2) ++
        (numbered (fun _ => 0) parts).filterMap NumberedPart.name) := by
  obtain ⟨ids, whole⟩ := validate_parts_spec ok
  have texts : (normalized.map fun part => part.partId.getD "") =
      (numbered (fun _ => 0) (joinedParts parts uploaded artifactIds)).map NumberedPart.storedId := by
    have mapped := congrArg (List.map fun id : Option String => id.getD "") ids
    simpa only [List.map_map, Function.comp_def, Option.getD_some] using mapped
  have files := upload_ids inspected artifactIds 0
  have own : ownIds (joinedParts parts uploaded artifactIds) =
      ownIds parts ++ (numberedUploads counts uploads).map fun item => generatedId item.1 item.2 := by
    rw [joinedParts, ownIds, List.filterMap_append, ownIds]
    exact congrArg _ (filterMap_of_map_some files)
  obtain ⟨later, split⟩ := numbered_append parts
    (uploaded.zipIdx.map fun (item, index) => item.part (artifactIds index)) (fun _ => 0)
  have names : (numbered (fun _ => 0) (joinedParts parts uploaded artifactIds)).filterMap
      NumberedPart.name = (numbered (fun _ => 0) parts).filterMap NumberedPart.name := by
    rw [joinedParts, split, List.filterMap_append, no_names later, List.append_nil]
    intro part isIn none
    have isOwn := List.mem_map.mpr ⟨part, isIn, none⟩
    rw [files] at isOwn
    obtain ⟨name, -, same⟩ := List.mem_map.mp isOwn
    cases same
  rw [texts, ← own, ← numbered_parts whole, ← names]
  exact stored_perm _

/-- **The ids an event's parts are stored under** are distinct exactly if the ids the request gives
are, trimmed, and none of them, nor the number of a part without one, meets the kind and number of
another part or of an uploaded file. An event appended without files is the case of no uploads. -/
theorem stored_part_ids_nodup {limits : UploadLimits} {event : TerminalEvent}
    {parts normalized : List TerminalEventPartInput} {uploads : List UploadFile}
    {uploaded : List UploadedTerminalPart} {artifactIds rowIds : Nat → String}
    (inspected : inspectUploads limits parts uploads = .ok (uploaded.map (·.inspected)))
    (ok : normalizeTerminalEventParts event (joinedParts parts uploaded artifactIds) =
      .ok normalized) :
    ((partRows rowIds normalized).map TerminalEventPart.partId).Nodup ↔
      OwnIdsApart parts ∧ UploadsApart parts uploads := by
  have files : uploaded.map (·.inspected.partId) = (numberedUploads (givenCounts parts) uploads).map
      fun item => generatedId item.1 item.2 := by
    have ids := inspect_from_spec inspected
    rwa [List.map_map] at ids
  rw [row_ids]
  by_cases empty : joinedParts parts uploaded artifactIds = []
  · rw [empty] at ok
    obtain ⟨noParts, noFiles⟩ := List.append_eq_nil_iff.mp empty
    obtain rfl : uploaded = [] := by simpa using noFiles
    have noUploads := List.map_eq_nil_iff.mp files.symm
    subst noParts
    refine iff_of_true ?_ ⟨⟨List.nodup_nil, fun item isIn => absurd isIn List.not_mem_nil⟩, ?_, ?_⟩
    · rcases normalized with _ | ⟨part, _ | ⟨other, rest⟩⟩
      · exact List.nodup_nil
      · simp
      · have short := normalize_no_parts ok
        simp at short
    · rw [noUploads]
      exact nofun
    · rw [noUploads]
      exact nofun
  · rw [normalizeTerminalEventParts, if_pos empty] at ok
    have noted : ∀ item ∈ numbered (fun _ => 0) parts, item.part.ownId = none →
        generatedId item.kind item.number ∈
          (numbered (fun _ => 0) parts).filterMap NumberedPart.name :=
      fun item isIn isNone => mem_names.mpr ⟨item, isIn, isNone, rfl⟩
    rw [(joined_ids_perm files ok).nodup_iff, List.nodup_append, List.nodup_append]
    constructor
    · rintro ⟨⟨distinct, -, apart⟩, -, unspelled⟩
      refine ⟨⟨distinct, fun item isIn isNone own => ?_⟩, fun file isFile own => ?_,
        fun file isFile item isIn isNone sameKind sameNumber => ?_⟩
      · exact unspelled _ (List.mem_append_left _ own) _ (noted item isIn isNone) rfl
      · exact apart _ own _ (List.mem_map.mpr ⟨file, isFile, rfl⟩) rfl
      · refine unspelled _ (List.mem_append_right _ (List.mem_map.mpr ⟨file, isFile, rfl⟩)) _
          (noted item isIn isNone) ?_
        rw [sameKind, sameNumber]
    · rintro ⟨⟨distinct, unspelled⟩, apart, uncounted⟩
      refine ⟨⟨distinct, upload_names_nodup _ _, ?_⟩, names_nodup _ _, ?_⟩
      · rintro id own _ isName rfl
        obtain ⟨file, isFile, rfl⟩ := List.mem_map.mp isName
        exact apart file isFile own
      · rintro id isId _ isName rfl
        obtain ⟨item, isIn, isNone, rfl⟩ := mem_names.mp isName
        rcases List.mem_append.mp isId with own | isFile
        · exact unspelled item isIn isNone own
        · obtain ⟨file, isFile, same⟩ := List.mem_map.mp isFile
          obtain ⟨sameKind, sameNumber⟩ := generated_id_inj same
          exact uncounted file isFile item isIn isNone sameKind.symm sameNumber.symm

instance (parts : List TerminalEventPartInput) : Decidable (OwnIdsApart parts) :=
  decidable_of_iff ((ownIds parts).Nodup ∧ ∀ item ∈ numbered (fun _ => 0) parts,
      item.part.ownId = none → generatedId item.kind item.number ∉ ownIds parts)
    ⟨fun ⟨distinct, unspelled⟩ => ⟨distinct, unspelled⟩,
      fun ⟨distinct, unspelled⟩ => ⟨distinct, unspelled⟩⟩

instance (parts : List TerminalEventPartInput) (uploads : List UploadFile) :
    Decidable (UploadsApart parts uploads) :=
  decidable_of_iff ((∀ file ∈ numberedUploads (givenCounts parts) uploads,
        generatedId file.1 file.2 ∉ ownIds parts) ∧
      ∀ file ∈ numberedUploads (givenCounts parts) uploads,
        ∀ item ∈ numbered (fun _ => 0) parts, item.part.ownId = none →
          item.kind = file.1 → item.number ≠ file.2)
    ⟨fun ⟨unspelled, uncounted⟩ => ⟨unspelled, uncounted⟩,
      fun ⟨unspelled, uncounted⟩ => ⟨unspelled, uncounted⟩⟩

def textPart (partId : Option String) (text : String) : TerminalEventPartInput :=
  ⟨partId, "text", "text/plain", some text, none, none, none, .obj []⟩

def pictureUpload : UploadFile := ⟨"file", some "cup.png", some "image/png", [3], "c0"⟩

def uploadLimits : UploadLimits := ⟨8, 100, 100, 200⟩

/-- An input of the user, before its parts are stored. -/
def partsEvent : TerminalEvent where
  id := "e1"
  seqNo := 1
  direction := .input
  eventKind := "terminal.multimodal.input.v1"
  mimeType := "multipart/mixed"
  payloadInline := .null
  artifactObjectId := .null
  bindingId := .null
  externalEventId := none
  sourceRef := .obj []
  occurredAt := "t1"
  parts := []

def storedPicture (inspected : InspectedUpload) : UploadedTerminalPart :=
  ⟨inspected, "psop", "key", inspected.mimeType, inspected.sizeBytes, inspected.checksum, .obj []⟩

theorem text_and_picture_ids_nodup : ∃ inspected normalized,
    inspectUploads uploadLimits [textPart none "hot", textPart (some "note") "full"]
      [pictureUpload, pictureUpload] = .ok inspected ∧
    normalizeTerminalEventParts partsEvent
      (joinedParts [textPart none "hot", textPart (some "note") "full"]
        (inspected.map storedPicture) (fun _ => "a1")) = .ok normalized ∧
    ((partRows (fun _ => "p1") normalized).map TerminalEventPart.partId).Nodup := by
  have inspects : (inspectUploads uploadLimits [textPart none "hot", textPart (some "note") "full"]
      [pictureUpload, pictureUpload]).toOption.any (fun inspected =>
        (normalizeTerminalEventParts partsEvent
          (joinedParts [textPart none "hot", textPart (some "note") "full"]
            (inspected.map storedPicture) (fun _ => "a1"))).isOk) = true := by decide +kernel
  cases ran : inspectUploads uploadLimits [textPart none "hot", textPart (some "note") "full"]
      [pictureUpload, pictureUpload] with
  | error reason =>
    rw [ran] at inspects
    cases inspects
  | ok inspected =>
    rw [ran] at inspects
    have normalizes : (normalizeTerminalEventParts partsEvent
        (joinedParts [textPart none "hot", textPart (some "note") "full"]
          (inspected.map storedPicture) (fun _ => "a1"))).isOk = true := inspects
    cases done : normalizeTerminalEventParts partsEvent
        (joinedParts [textPart none "hot", textPart (some "note") "full"]
          (inspected.map storedPicture) (fun _ => "a1")) with
    | error reason =>
      rw [done] at normalizes
      cases normalizes
    | ok normalized =>
      have same : (inspected.map storedPicture).map (·.inspected) = inspected := by
        rw [List.map_map]
        exact List.map_id _
      exact ⟨inspected, normalized, rfl, done,
        (stored_part_ids_nodup (ran.trans (congrArg _ same.symm)) done).mpr (by decide +kernel)⟩

/-- A second text without an id takes the name that the first one brings. -/
theorem part_ids_meet : ¬ ∀ event parts normalized rowIds,
    normalizeTerminalEventParts event parts = .ok normalized → (ownIds parts).Nodup →
      ((partRows rowIds normalized).map TerminalEventPart.partId).Nodup := by
  intro distinct
  have ids : ((normalizeTerminalEventParts partsEvent
      [textPart (some "text_2") "hot", textPart none "full"]).toOption.map fun normalized =>
        (partRows (fun _ => "p1") normalized).map TerminalEventPart.partId) =
          some ["text_2", "text_2"] := by decide +kernel
  cases done : normalizeTerminalEventParts partsEvent
      [textPart (some "text_2") "hot", textPart none "full"] with
  | error reason =>
    rw [done] at ids
    cases ids
  | ok normalized =>
    rw [done] at ids
    have nodup := distinct _ _ _ (fun _ => "p1") done (by decide +kernel)
    have meet : (partRows (fun _ => "p1") normalized).map TerminalEventPart.partId =
      ["text_2", "text_2"] := Option.some.inj ids
    rw [meet] at nodup
    exact absurd nodup (by decide)

end Psop.Runtime
