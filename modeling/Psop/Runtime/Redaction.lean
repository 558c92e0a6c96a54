import Psop.Skills.Exceptions

/-!
What a trace stores of an exception.

The values under sensitive keys are replaced where the details are walked through. Two texts escape
that: the body of a provider's response, which is stored as it came beside its parsed form, and the
Python text of a value nested nine deep, where the walk ends. `RawTextsAgree` compares them: `source`
says which value is stored under a key, `reached` what lies at the end of a walk through it.
**`redaction_noninterference`**: for details that differ in sensitive values only, the stored payloads
are equal iff these texts agree.
-/
namespace Psop.Runtime

open Json Skills
open Text (contains lower strip)

/-! ### Values -/

def SENSITIVE_PARTS : List String :=
  ["api_key", "apikey", "authorization", "password", "secret", "token"]

/-- `_is_sensitive_trace_detail_key` -/
@[irreducible] def isSensitiveTraceDetailKey (key : String) : Bool :=
  SENSITIVE_PARTS.any fun part => contains part (lower key)

/-- The longest text that is stored whole. -/
def MAX_TRACE_STRING : Nat := 8000

/-- `_truncate_trace_string` -/
def truncateTraceString (value : String) : String :=
  let length := value.toList.length
  if length ≤ MAX_TRACE_STRING then value
  else String.ofList (value.toList.take MAX_TRACE_STRING) ++ "...[truncated " ++
    toString (length - MAX_TRACE_STRING) ++ " chars]"

/-- How many entries of a container are stored. -/
def MAX_TRACE_ENTRIES : Nat := 100

/-- The levels a walk descends through: one for each `depth` from 0 to 8. -/
def TRACE_LEVELS : Nat := 9

def REDACTED : Json := str "[redacted]"

/-- `_sanitize_trace_payload_value`, with the levels left instead of the depth. -/
def sanitizeTracePayloadValue : Nat → Json → Json
  | 0, value => str (truncateTraceString value.toStr)
  | _ + 1, str s => str (truncateTraceString s)
  | levels + 1, obj fields => obj ((fields.take MAX_TRACE_ENTRIES).map fun (key, child) =>
      (key, if isSensitiveTraceDetailKey key then REDACTED
        else sanitizeTracePayloadValue levels child))
  | levels + 1, arr items =>
    arr ((items.take MAX_TRACE_ENTRIES).map (sanitizeTracePayloadValue levels))
  | _ + 1, value => value

/-! ### Details -/

/-- `json.loads`, or nothing where it raises a `JSONDecodeError`. -/
abbrev Loads := String → Option Json

/-- `_parse_trace_error_body`; a body of `null` parses to `None`. -/
def parseTraceErrorBody (loads : Loads) (body : Json) : Option Json :=
  match body with
  | str text => if strip text = "" then none else match loads text with
    | some null => none
    | parsed => parsed
  | _ => none

/-- `target[key] = ...` for a key that the target has not. -/
def copyFresh (parsed : Fields) (key : String) (target : Fields) : Fields :=
  match lookup key parsed with
  | some value => if key ∈ target.map Prod.fst then target
      else setKey key (sanitizeTracePayloadValue TRACE_LEVELS value) target
  | none => target

def copyProviderError (providerError : Fields) (target : Fields) (key : String) : Fields :=
  match lookup key providerError with
  | some value => setKey ("provider_error_" ++ key) (sanitizeTracePayloadValue TRACE_LEVELS value) target
  | none => target

/-- `_copy_provider_error_summary` -/
def copyProviderErrorSummary (parsed : Json) (target : Fields) : Fields :=
  match parsed with
  | obj fields =>
    let target := copyFresh fields "id" (copyFresh fields "request_id" target)
    match lookup "error" fields with
    | some (obj providerError) =>
      ["code", "type", "message"].foldl (copyProviderError providerError) target
    | _ => target
  | _ => target

/-- `_normalize_trace_error_details` -/
def normalizeTraceErrorDetails (loads : Loads) (details : Fields) : Fields :=
  match sanitizeTracePayloadValue TRACE_LEVELS (obj details) with
  | obj normalized =>
    match parseTraceErrorBody loads ((lookup "body" details).getD null) with
    | some parsed =>
      if "body_json" ∈ normalized.map Prod.fst then normalized
      else copyProviderErrorSummary parsed
        (setKey "body_json" (sanitizeTracePayloadValue TRACE_LEVELS parsed) normalized)
    | none => normalized
  | _ => []

/-- An exception as a trace records it: its text and class, its codes where it is one of the domain,
and its details where it has any. -/
structure TracedException where
  text : String
  className : String
  codes : Option (String × Int)
  details : Fields
deriving Repr

/-- `_runtime_exception_trace_payload` -/
def runtimeExceptionTracePayload (loads : Loads) (exc : TracedException) (recoverable : Option Bool)
    (latestInputEventSeq : Option Json) : Fields :=
  [("error", str exc.text), ("error_type", str exc.className)] ++
  (recoverable.map fun value => ("recoverable", bool value)).toList ++
  (latestInputEventSeq.map fun value => ("latest_input_event_seq", value)).toList ++
  (match exc.codes with
    | some (errorCode, statusCode) => [("error_code", str errorCode), ("status_code", num statusCode)]
    | none => []) ++
  (if exc.details = [] then []
  else [("error_details", obj (normalizeTraceErrorDetails loads exc.details))])

/-! ### Details that differ in sensitive values only -/

mutual
/-- The value with nothing under its sensitive keys, at any depth. -/
def mask : Json → Json
  | arr items => arr (maskItems items)
  | obj fields => obj (maskFields fields)
  | value => value
termination_by structural x => x
def maskItems : List Json → List Json
  | [] => []
  | item :: items => mask item :: maskItems items
termination_by structural x => x
def maskFields : List (String × Json) → List (String × Json)
  | [] => []
  | field :: fields => maskField field :: maskFields fields
termination_by structural x => x
def maskField : String × Json → String × Json
  | (key, value) => (key, if isSensitiveTraceDetailKey key then null else mask value)
termination_by structural x => x
end

/-- A masked value, and whether it was written as a text. -/
structure Masked where
  encoded : Bool
  value : Json

/-- A detail without its sensitive values; a body is masked inside its text. -/
def maskDetail (loads : Loads) (detail : String × Json) : String × Masked :=
  if isSensitiveTraceDetailKey detail.1 then (detail.1, ⟨false, null⟩)
  else if detail.1 = "body" then match parseTraceErrorBody loads detail.2 with
    | some parsed => (detail.1, ⟨true, mask parsed⟩)
    | none => (detail.1, ⟨false, mask detail.2⟩)
  else (detail.1, ⟨false, mask detail.2⟩)

/-- Two details that differ only in values under sensitive keys, also inside a body. -/
def AlikeDetails (loads : Loads) (details others : Fields) : Prop :=
  details.map (maskDetail loads) = others.map (maskDetail loads)

/-! ### What is stored as it is -/

/-- A field of the parsed body that is stored beside it; a key of the details keeps its value. -/
def freshCopy (known : List String) (parsed : Fields) (key : String) : Option (String × Json) :=
  if key ∈ known then none else (lookup key parsed).map fun value => (key, value)

/-- A field of the provider's error that is stored beside it. -/
def errorCopy (providerError : Fields) (key : String) : Option (String × Json) :=
  (lookup key providerError).map fun value => ("provider_error_" ++ key, value)

/-- What the trace copies out of a parsed body, under the keys it stores it at. -/
def copiesOf (known : List String) : Json → Fields
  | obj fields => ["request_id", "id"].filterMap (freshCopy known fields) ++
    (match lookup "error" fields with
      | some (obj providerError) => ["code", "type", "message"].filterMap (errorCopy providerError)
      | _ => [])
  | _ => []

/-- The keys of the details that are stored. -/
def storedKeys (details : Fields) : List String := (details.take MAX_TRACE_ENTRIES).map Prod.fst

/-- What the trace stores beside the details: the parsed body, and what it copies out of it. -/
def copies (loads : Loads) (details : Fields) : Fields :=
  match parseTraceErrorBody loads ((lookup "body" details).getD null) with
  | some parsed => if "body_json" ∈ storedKeys details then []
      else ("body_json", parsed) :: copiesOf (storedKeys details) parsed
  | none => []

/-- The value that the trace stores under a key, with the levels left for it. -/
def source (loads : Loads) (details : Fields) (key : String) : Option (Nat × Json) :=
  match lookup key (copies loads details) with
  | some value => some (TRACE_LEVELS, value)
  | none => (lookup key (details.take MAX_TRACE_ENTRIES)).map fun value => (TRACE_LEVELS - 1, value)

/-- The entry of a container at a place, if it is stored and not redacted. -/
def entryAt (place : Nat) : Json → Option Json
  | obj fields => (fields.take MAX_TRACE_ENTRIES)[place]?.bind fun (key, child) =>
      if isSensitiveTraceDetailKey key then none else some child
  | arr items => (items.take MAX_TRACE_ENTRIES)[place]?
  | _ => none

/-- The value that a path of places leads to. -/
def reached : List Nat → Json → Option Json
  | [], value => some value
  | place :: path, value => (entryAt place value).bind (reached path)

/-- Two values whose values so many levels down have the same Python text. -/
def SameDeep (levels : Nat) (value other : Json) : Prop :=
  ∀ path, path.length = levels →
    (reached path value).map (fun deep => truncateTraceString deep.toStr) =
      (reached path other).map (fun deep => truncateTraceString deep.toStr)

/-- Two details that agree in what the trace takes over unredacted: the text of the body, and the
text of each value that lies below the last level. -/
structure RawTextsAgree (loads : Loads) (details others : Fields) : Prop where
  body : ∀ text other, lookup "body" (details.take MAX_TRACE_ENTRIES) = some (str text) →
    lookup "body" (others.take MAX_TRACE_ENTRIES) = some (str other) →
    truncateTraceString text = truncateTraceString other
  deep : ∀ key, isSensitiveTraceDetailKey key = false → ∀ levels value other,
    source loads details key = some (levels, value) → source loads others key = some (levels, other) →
    SameDeep levels value other

/-! ### One value -/

theorem mask_items (items : List Json) : maskItems items = items.map mask := by
  induction items with
  | nil => rfl
  | cons item items ih => rw [maskItems, ih, List.map_cons]

theorem mask_fields (fields : Fields) : maskFields fields = fields.map maskField := by
  induction fields with
  | nil => rfl
  | cons field fields ih => rw [maskFields, ih, List.map_cons]

/-- Lists of one length have the same images iff these agree place by place. -/
theorem map_eq_iff {α β : Type} {f : α → β} {xs ys : List α} (lengths : xs.length = ys.length) :
    xs.map f = ys.map f ↔ ∀ (i : Nat) (a b : α), xs[i]? = some a → ys[i]? = some b → f a = f b := by
  constructor
  · intro same i a b isA isB
    have agree := congrArg (fun images => images[i]?) same
    simpa only [List.getElem?_map, isA, isB, Option.map_some, Option.some.injEq] using agree
  · intro agree
    refine List.ext_getElem (by rw [List.length_map, List.length_map, lengths]) fun i _ _ => ?_
    rw [List.getElem_map, List.getElem_map]
    exact agree i _ _ (List.getElem?_eq_getElem _) (List.getElem?_eq_getElem _)

/-- Two optional values with the same image are both there or both not. -/
theorem map_eq_cases {α β : Type} {f : α → β} {x y : Option α} (same : x.map f = y.map f) :
    x = none ∧ y = none ∨ ∃ a b, x = some a ∧ y = some b ∧ f a = f b := by
  cases x with
  | none =>
    cases y with
    | none => exact .inl ⟨rfl, rfl⟩
    | some b => cases same
  | some a =>
    cases y with
    | none => cases same
    | some b => exact .inr ⟨a, b, rfl, rfl, Option.some.inj same⟩

/-- Values with the same mask are the same, or of one shape. -/
theorem mask_cases {value other : Json} (same : mask value = mask other) : value = other ∨
    (∃ items others, value = arr items ∧ other = arr others ∧ items.map mask = others.map mask) ∨
    ∃ fields others, value = obj fields ∧ other = obj others ∧
      fields.map maskField = others.map maskField := by
  cases value with
  | arr items =>
    cases other with
    | arr others =>
      rw [mask, mask, mask_items, mask_items] at same
      exact .inr (.inl ⟨items, others, rfl, rfl, Json.arr.inj same⟩)
    | _ =>
      simp only [mask] at same
      cases same
  | obj fields =>
    cases other with
    | obj others =>
      rw [mask, mask, mask_fields, mask_fields] at same
      exact .inr (.inr ⟨fields, others, rfl, rfl, Json.obj.inj same⟩)
    | _ =>
      simp only [mask] at same
      cases same
  | _ =>
    refine .inl ?_
    cases other with
    | arr | obj =>
      simp only [mask] at same
      cases same
    | _ => exact same

/-- A field without its sensitive values keeps its key, and its value where the key is not sensitive. -/
theorem mask_field {f g : String × Json} (same : maskField f = maskField g) :
    f.1 = g.1 ∧ (isSensitiveTraceDetailKey f.1 = false → mask f.2 = mask g.2) := by
  obtain ⟨key, value⟩ := f
  obtain ⟨other, otherValue⟩ := g
  rw [maskField, maskField, Prod.mk.injEq] at same
  obtain ⟨rfl, sameValue⟩ := same
  refine ⟨rfl, fun isPlain => ?_⟩
  rwa [if_neg (Bool.eq_false_iff.mp isPlain), if_neg (Bool.eq_false_iff.mp isPlain)] at sameValue

/-- The first entries of lists with the same images, at one place. -/
theorem taken_cases {α β : Type} {f : α → β} {xs ys : List α} (same : xs.map f = ys.map f)
    (count place : Nat) : (xs.take count)[place]? = none ∧ (ys.take count)[place]? = none ∨
    ∃ a b, (xs.take count)[place]? = some a ∧ (ys.take count)[place]? = some b ∧ f a = f b := by
  apply map_eq_cases
  rw [← List.getElem?_map, ← List.getElem?_map, List.map_take, List.map_take, same]

theorem length_taken {α β : Type} {f : α → β} {xs ys : List α} (same : xs.map f = ys.map f) (count : Nat) :
    (xs.take count).length = (ys.take count).length := by
  have lengths := congrArg List.length same
  rw [List.length_map, List.length_map] at lengths
  rw [List.length_take, List.length_take, lengths]

/-- The entries at one place of values with the same mask. -/
theorem entry_cases {value other : Json} (same : mask value = mask other) (place : Nat) :
    entryAt place value = none ∧ entryAt place other = none ∨
      ∃ a b, entryAt place value = some a ∧ entryAt place other = some b ∧ mask a = mask b := by
  rcases mask_cases same with rfl | ⟨items, others, rfl, rfl, sameItems⟩ |
      ⟨fields, others, rfl, rfl, sameFields⟩
  · exact map_eq_cases rfl
  · exact taken_cases sameItems MAX_TRACE_ENTRIES place
  · rw [entryAt, entryAt]
    rcases taken_cases sameFields MAX_TRACE_ENTRIES place with ⟨absent, alsoAbsent⟩ |
        ⟨⟨key, a⟩, ⟨otherKey, b⟩, isF, isG, sameField⟩
    · rw [absent, alsoAbsent]
      exact .inl ⟨rfl, rfl⟩
    · obtain ⟨rfl, sameValue⟩ := mask_field sameField
      rw [isF, isG, Option.bind_some, Option.bind_some]
      by_cases sensitive : isSensitiveTraceDetailKey key = true
      · exact .inl ⟨if_pos sensitive, if_pos sensitive⟩
      · exact .inr ⟨a, b, if_neg sensitive, if_neg sensitive, sameValue (Bool.eq_false_iff.mpr sensitive)⟩

theorem same_deep_succ (levels : Nat) {value other : Json} (same : mask value = mask other) :
    SameDeep (levels + 1) value other ↔ ∀ place a b, entryAt place value = some a →
      entryAt place other = some b → SameDeep levels a b := by
  constructor
  · intro deep place a b isA isB path length
    have agree := deep (place :: path) (by rw [List.length_cons, length])
    rwa [reached, reached, isA, isB] at agree
  · intro entries path length
    obtain _ | ⟨place, path⟩ := path
    · cases length
    · rw [reached, reached]
      rcases entry_cases same place with ⟨absent, alsoAbsent⟩ | ⟨a, b, isA, isB, -⟩
      · rw [absent, alsoAbsent]
      · rw [isA, isB]
        exact entries place a b isA isB path (Nat.succ.inj length)

theorem sanitize_succ (levels : Nat) {value other : Json} (same : mask value = mask other) :
    sanitizeTracePayloadValue (levels + 1) value = sanitizeTracePayloadValue (levels + 1) other ↔
      ∀ place a b, entryAt place value = some a → entryAt place other = some b →
        sanitizeTracePayloadValue levels a = sanitizeTracePayloadValue levels b := by
  rcases mask_cases same with rfl | ⟨items, others, rfl, rfl, sameItems⟩ |
      ⟨fields, others, rfl, rfl, sameFields⟩
  · refine ⟨fun _ place a b isA isB => ?_, fun _ => rfl⟩
    rw [Option.some.inj (isA.symm.trans isB)]
  · rw [sanitizeTracePayloadValue, sanitizeTracePayloadValue, Json.arr.injEq]
    exact map_eq_iff (length_taken sameItems MAX_TRACE_ENTRIES)
  · rw [sanitizeTracePayloadValue, sanitizeTracePayloadValue, Json.obj.injEq,
      map_eq_iff (length_taken sameFields MAX_TRACE_ENTRIES)]
    refine forall_congr' fun place => ?_
    rw [entryAt, entryAt]
    rcases taken_cases sameFields MAX_TRACE_ENTRIES place with ⟨absent, -⟩ |
        ⟨⟨key, a⟩, ⟨otherKey, b⟩, isF, isG, sameField⟩
    · simp [absent]
    · obtain ⟨rfl, -⟩ := mask_field sameField
      by_cases sensitive : isSensitiveTraceDetailKey key = true <;> simp [isF, isG, sensitive]

/-- **The walk through a value** hides what is sensitive, down to its end. -/
theorem sanitize_eq_iff (levels : Nat) {value other : Json} (same : mask value = mask other) :
    sanitizeTracePayloadValue levels value = sanitizeTracePayloadValue levels other ↔
      SameDeep levels value other := by
  induction levels generalizing value other with
  | zero =>
    rw [sanitizeTracePayloadValue, sanitizeTracePayloadValue, Json.str.injEq]
    constructor
    · intro agree path length
      rw [List.length_eq_zero_iff.mp length, reached, reached, Option.map_some, Option.map_some, agree]
    · intro deep
      exact Option.some.inj (deep [] rfl)
  | succ levels ih =>
    rw [sanitize_succ levels same, same_deep_succ levels same]
    refine forall_congr' fun place => forall_congr' fun a => forall_congr' fun b =>
      forall_congr' fun isA => forall_congr' fun isB => ?_
    rcases entry_cases same place with ⟨absent, -⟩ | ⟨v, w, isV, isW, sameEntry⟩
    · cases isA.symm.trans absent
    · obtain rfl := Option.some.inj (isA.symm.trans isV)
      obtain rfl := Option.some.inj (isB.symm.trans isW)
      exact ih sameEntry

/-! ### What is stored under a key -/

/-- A copy is stored as any value. -/
def store (target : Fields) (copy : String × Json) : Fields :=
  setKey copy.1 (sanitizeTracePayloadValue TRACE_LEVELS copy.2) target

/-- The details as the walk leaves them. -/
def storedDetails (details : Fields) : Fields :=
  (details.take MAX_TRACE_ENTRIES).map fun (key, child) =>
    (key, if isSensitiveTraceDetailKey key then REDACTED
      else sanitizeTracePayloadValue (TRACE_LEVELS - 1) child)

theorem keys_stored (details : Fields) : (storedDetails details).map Prod.fst = storedKeys details := by
  rw [storedDetails, storedKeys, List.map_map]
  rfl

theorem mem_keys_store (target : Fields) (copy : String × Json) (key : String) :
    key ∈ (store target copy).map Prod.fst ↔ key = copy.1 ∨ key ∈ target.map Prod.fst := by
  rw [store, keys_setKey]
  split
  · rename_i known
    exact ⟨.inr, by rintro (rfl | isIn) <;> assumption⟩
  · rw [List.mem_append, List.mem_singleton, or_comm]

theorem copy_fresh_eq {known : List String} {fields target : Fields} {key : String}
    (sameKnown : key ∈ target.map Prod.fst ↔ key ∈ known) : copyFresh fields key target =
      ((freshCopy known fields key).map (store target)).getD target := by
  rw [copyFresh, freshCopy]
  by_cases isKnown : key ∈ known
  · rw [if_pos isKnown]
    split
    · exact if_pos (sameKnown.mpr isKnown)
    · rfl
  · rw [if_neg isKnown]
    split
    · rename_i found
      rw [if_neg (mt sameKnown.mp isKnown), found]
      rfl
    · rename_i absent
      rw [absent]
      rfl

theorem copy_error_eq (providerError target : Fields) (key : String) :
    copyProviderError providerError target key =
      ((errorCopy providerError key).map (store target)).getD target := by
  rw [copyProviderError, errorCopy]
  split <;> rename_i found <;> rw [found] <;> rfl

/-- Storing what is found stores it key by key. -/
theorem foldl_copies (copy : String → Option (String × Json)) (keys : List String) (target : Fields) :
    (keys.filterMap copy).foldl store target =
      keys.foldl (fun target key => ((copy key).map (store target)).getD target) target := by
  rw [List.foldl_filterMap]
  congr 1
  funext target key
  cases copy key <;> rfl

theorem copy_summary_eq {known : List String} {parsed : Json} {target : Fields}
    (sameKnown : ∀ key ∈ ["request_id", "id"], key ∈ target.map Prod.fst ↔ key ∈ known) :
    copyProviderErrorSummary parsed target = (copiesOf known parsed).foldl store target := by
  unfold copyProviderErrorSummary copiesOf
  split
  · rename_i fields
    have first : copyFresh fields "request_id" target =
        ((freshCopy known fields "request_id").map (store target)).getD target :=
      copy_fresh_eq (sameKnown _ (by simp))
    have stillKnown : "id" ∈ (copyFresh fields "request_id" target).map Prod.fst ↔ "id" ∈ known := by
      rw [← sameKnown "id" (by simp), first]
      rcases isCopy : freshCopy known fields "request_id" with _ | copy
      · rfl
      · have isKey : copy.1 = "request_id" := by
          unfold freshCopy at isCopy
          split at isCopy
          · cases isCopy
          · obtain ⟨value, -, rfl⟩ := Option.map_eq_some_iff.mp isCopy
            rfl
        rw [Option.map_some, Option.getD_some, mem_keys_store, isKey]
        exact or_iff_right (by decide)
    have fresh : copyFresh fields "id" (copyFresh fields "request_id" target) =
        (["request_id", "id"].filterMap (freshCopy known fields)).foldl store target := by
      rw [copy_fresh_eq stillKnown, first, foldl_copies]
      rfl
    rw [List.foldl_append, ← fresh]
    dsimp only
    split
    · rw [foldl_copies]
      congr 1
      funext target key
      exact copy_error_eq _ target key
    · rfl
  · rfl

/-- The trace stores the details as the walk leaves them, then the copies. -/
theorem normalize_eq (loads : Loads) (details : Fields) : normalizeTraceErrorDetails loads details =
    (copies loads details).foldl store (storedDetails details) := by
  have walked : sanitizeTracePayloadValue TRACE_LEVELS (obj details) = obj (storedDetails details) := rfl
  rw [normalizeTraceErrorDetails, walked, copies]
  dsimp only
  split
  · rw [keys_stored]
    split
    · rfl
    · rw [List.foldl_cons]
      refine copy_summary_eq fun key isKey => ?_
      have differs : key ≠ "body_json" := by
        rintro rfl
        exact absurd isKey (by decide)
      rw [← keys_stored]
      exact (mem_keys_store _ ("body_json", _) key).trans (or_iff_right differs)
  · rfl

/-! ### Looking a stored value up -/

/-- The keys that a copy may be stored under. -/
def COPY_KEYS : List String := ["body_json", "request_id", "id", "provider_error_code",
  "provider_error_type", "provider_error_message"]

theorem keys_copies_sublist {name : String → String} {copy : String → Option (String × Json)}
    (named : ∀ key entry, copy key = some entry → entry.1 = name key) (keys : List String) :
    ((keys.filterMap copy).map Prod.fst).Sublist (keys.map name) := by
  induction keys with
  | nil => exact List.Sublist.refl _
  | cons key keys ih =>
    rcases isCopy : copy key with _ | entry
    · rw [List.filterMap_cons_none isCopy]
      exact ih.cons _
    · rw [List.filterMap_cons_some isCopy, List.map_cons, List.map_cons, named key entry isCopy]
      exact ih.cons_cons _

theorem keys_copies_of (known : List String) (parsed : Json) :
    ((copiesOf known parsed).map Prod.fst).Sublist COPY_KEYS.tail := by
  unfold copiesOf
  split
  · rename_i fields
    have fresh : (((["request_id", "id"].filterMap (freshCopy known fields))).map Prod.fst).Sublist
        (["request_id", "id"].map id) := by
      refine keys_copies_sublist (fun key entry isCopy => ?_) _
      unfold freshCopy at isCopy
      split at isCopy
      · cases isCopy
      · obtain ⟨value, -, rfl⟩ := Option.map_eq_some_iff.mp isCopy
        rfl
    have errors : ((match lookup "error" fields with
          | some (obj providerError) => ["code", "type", "message"].filterMap (errorCopy providerError)
          | _ => []).map Prod.fst).Sublist (["code", "type", "message"].map ("provider_error_" ++ ·)) := by
      split
      · refine keys_copies_sublist (fun key entry isCopy => ?_) _
        obtain ⟨value, -, rfl⟩ := Option.map_eq_some_iff.mp isCopy
        rfl
      · exact List.nil_sublist _
    rw [List.map_append]
    exact fresh.append errors
  · exact List.nil_sublist _

theorem keys_copies (loads : Loads) (details : Fields) :
    ((copies loads details).map Prod.fst).Sublist COPY_KEYS := by
  unfold copies
  split
  · split
    · exact List.nil_sublist _
    · exact (keys_copies_of _ _).cons_cons _
  · exact List.nil_sublist _

theorem nodup_copies (loads : Loads) (details : Fields) : ((copies loads details).map Prod.fst).Nodup :=
  (keys_copies loads details).nodup (by decide)

/-- The keys that values are copied from or to are not sensitive. -/
theorem plain {key : String}
    (isKey : key ∈ ["body", "id", "request_id", "error", "code", "type", "message"] ++ COPY_KEYS) :
    isSensitiveTraceDetailKey key = false := by
  have all : ∀ key ∈ ["body", "id", "request_id", "error", "code", "type", "message"] ++ COPY_KEYS,
      isSensitiveTraceDetailKey key = false := by
    decide +kernel
  exact all key isKey

theorem plain_copy {loads : Loads} {details : Fields} {key : String} {value : Json}
    (found : lookup key (copies loads details) = some value) : key ∈ COPY_KEYS :=
  (keys_copies loads details).subset (List.mem_map_of_mem (lookup_mem found))

/-- A copy is found before what is stored under its key already. -/
theorem lookup_foldl {entries : Fields} (distinct : (entries.map Prod.fst).Nodup) (target : Fields)
    (key : String) : lookup key (entries.foldl store target) =
      ((lookup key entries).map (sanitizeTracePayloadValue TRACE_LEVELS)).or (lookup key target) := by
  induction entries generalizing target with
  | nil => rfl
  | cons entry rest ih =>
    obtain ⟨k, v⟩ := entry
    rw [List.map_cons, List.nodup_cons] at distinct
    rw [List.foldl_cons, ih distinct.2, store, lookup_cons]
    by_cases same : k = key
    · subst same
      rw [if_pos rfl, lookup_none_of_not_mem distinct.1, lookup_setKey_same]
      rfl
    · rw [if_neg same, lookup_setKey_other same]

/-- What the trace stores under a key is its source, walked through. -/
theorem lookup_normalize (loads : Loads) (details : Fields) (key : String) :
    lookup key (normalizeTraceErrorDetails loads details) =
      (source loads details key).map fun (levels, value) =>
        if isSensitiveTraceDetailKey key then REDACTED else sanitizeTracePayloadValue levels value := by
  have walked : lookup key (storedDetails details) =
      (lookup key (details.take MAX_TRACE_ENTRIES)).map fun value =>
        if isSensitiveTraceDetailKey key then REDACTED
        else sanitizeTracePayloadValue (TRACE_LEVELS - 1) value :=
    lookup_map (fun key value => if isSensitiveTraceDetailKey key then REDACTED
      else sanitizeTracePayloadValue (TRACE_LEVELS - 1) value) key _
  rw [normalize_eq, lookup_foldl (nodup_copies loads details), walked, source]
  rcases isCopy : lookup key (copies loads details) with _ | value
  · rw [Option.map_none, Option.none_or, Option.map_map]
    rfl
  · rw [Option.map_some, Option.map_some, Option.some_or,
      plain (List.mem_append_right _ (plain_copy isCopy))]
    rfl

theorem keys_foldl {entries others target otherTarget : Fields}
    (sameEntries : entries.map Prod.fst = others.map Prod.fst)
    (sameTarget : target.map Prod.fst = otherTarget.map Prod.fst) :
    (entries.foldl store target).map Prod.fst = (others.foldl store otherTarget).map Prod.fst := by
  induction entries generalizing others target otherTarget with
  | nil =>
    rw [List.map_eq_nil_iff.mp sameEntries.symm]
    exact sameTarget
  | cons entry rest ih =>
    obtain _ | ⟨other, others⟩ := others
    · cases sameEntries
    rw [List.map_cons, List.map_cons, List.cons.injEq] at sameEntries
    rw [List.foldl_cons, List.foldl_cons]
    refine ih sameEntries.2 ?_
    rw [store, store, keys_setKey, keys_setKey, sameEntries.1, sameTarget]

theorem nodup_foldl (entries : Fields) {target : Fields} (distinct : (target.map Prod.fst).Nodup) :
    ((entries.foldl store target).map Prod.fst).Nodup := by
  induction entries generalizing target with
  | nil => exact distinct
  | cons entry rest ih => exact ih (nodup_setKey distinct _ _)

/-! ### Details that are alike -/

theorem mask_detail_key (loads : Loads) (detail : String × Json) :
    (maskDetail loads detail).1 = detail.1 := by
  unfold maskDetail
  split
  · rfl
  · split
    · split <;> rfl
    · rfl

/-- What two lookups of one key find in details that are alike. -/
theorem lookup_alike {loads : Loads} {details others : Fields} (alike : AlikeDetails loads details others)
    (key : String) : lookup key details = none ∧ lookup key others = none ∨
      ∃ value other, lookup key details = some value ∧ lookup key others = some other ∧
        maskDetail loads (key, value) = maskDetail loads (key, other) := by
  have masked (fields : Fields) : lookup key (fields.map (maskDetail loads)) =
      (lookup key fields).map fun value => (maskDetail loads (key, value)).2 := by
    rw [← lookup_map fun key value => (maskDetail loads (key, value)).2]
    refine congrArg (lookup key) (List.map_congr_left fun field _ => ?_)
    exact Prod.ext (mask_detail_key loads field) rfl
  have same := congrArg (lookup key) alike
  rw [masked, masked] at same
  rcases map_eq_cases same with absent | ⟨value, other, found, alsoFound, sameValue⟩
  · exact .inl absent
  · refine .inr ⟨value, other, found, alsoFound, Prod.ext ?_ sameValue⟩
    rw [mask_detail_key, mask_detail_key]

theorem take_alike {loads : Loads} {details others : Fields} (alike : AlikeDetails loads details others)
    (count : Nat) : AlikeDetails loads (details.take count) (others.take count) := by
  rw [AlikeDetails, List.map_take, List.map_take, alike]

theorem keys_alike {loads : Loads} {details others : Fields} (alike : AlikeDetails loads details others) :
    details.map Prod.fst = others.map Prod.fst := by
  have keys (fields : Fields) : (fields.map (maskDetail loads)).map Prod.fst = fields.map Prod.fst := by
    rw [List.map_map]
    exact List.map_congr_left fun field _ => mask_detail_key loads field
  rw [← keys, alike, keys]

/-- A body is parsed where it is a text. -/
theorem parsed_text {loads : Loads} {value parsed : Json}
    (isParsed : parseTraceErrorBody loads value = some parsed) : ∃ text, value = str text := by
  cases value with
  | str text => exact ⟨text, rfl⟩
  | _ => cases isParsed

/-- Two bodies that are alike are parsed alike, or neither is and they have the same mask. -/
theorem body_alike {loads : Loads} {value other : Json}
    (same : maskDetail loads ("body", value) = maskDetail loads ("body", other)) :
    (∃ parsed otherParsed, parseTraceErrorBody loads value = some parsed ∧
      parseTraceErrorBody loads other = some otherParsed ∧ mask parsed = mask otherParsed) ∨
    parseTraceErrorBody loads value = none ∧ parseTraceErrorBody loads other = none ∧
      mask value = mask other := by
  have isPlain : isSensitiveTraceDetailKey "body" = false := plain (by simp)
  unfold maskDetail at same
  simp only [isPlain, Bool.false_eq_true, if_false, if_true] at same
  split at same <;> split at same
  · rename_i isParsed _ _ alsoParsed
    exact .inl ⟨_, _, isParsed, alsoParsed, (Masked.mk.inj (Prod.mk.inj same).2).2⟩
  · cases (Masked.mk.inj (Prod.mk.inj same).2).1
  · cases (Masked.mk.inj (Prod.mk.inj same).2).1
  · rename_i absent _ alsoAbsent
    exact .inr ⟨absent, alsoAbsent, (Masked.mk.inj (Prod.mk.inj same).2).2⟩

/-- What it takes for the values of a detail to be alike. -/
theorem values_alike {loads : Loads} {key : String} {value other : Json}
    (isPlain : isSensitiveTraceDetailKey key = false)
    (same : maskDetail loads (key, value) = maskDetail loads (key, other)) : mask value = mask other ∨
      key = "body" ∧ ∃ text otherText, value = str text ∧ other = str otherText := by
  by_cases isBody : key = "body"
  · subst isBody
    rcases body_alike same with ⟨_, _, isParsed, alsoParsed, -⟩ | ⟨-, -, sameMask⟩
    · exact .inr ⟨rfl, _, _, (parsed_text isParsed).choose_spec, (parsed_text alsoParsed).choose_spec⟩
    · exact .inl sameMask
  · rw [maskDetail, maskDetail, if_neg (Bool.eq_false_iff.mp isPlain), if_neg (Bool.eq_false_iff.mp isPlain),
      if_neg isBody, if_neg isBody] at same
    exact .inl (Masked.mk.inj (Prod.mk.inj same).2).2

theorem parsed_alike {loads : Loads} {details others : Fields} (alike : AlikeDetails loads details others) :
    (parseTraceErrorBody loads ((lookup "body" details).getD null)).map mask =
      (parseTraceErrorBody loads ((lookup "body" others).getD null)).map mask := by
  rcases lookup_alike alike "body" with ⟨absent, alsoAbsent⟩ | ⟨value, other, found, alsoFound, same⟩
  · rw [absent, alsoAbsent]
  · rw [found, alsoFound, Option.getD_some, Option.getD_some]
    rcases body_alike same with ⟨_, _, isParsed, alsoParsed, sameMask⟩ | ⟨absent, alsoAbsent, -⟩
    · rw [isParsed, alsoParsed, Option.map_some, Option.map_some, sameMask]
    · rw [absent, alsoAbsent]

/-- A lookup under a key that is not sensitive finds values with the same mask. -/
theorem lookup_masked {fields others : Fields} (same : fields.map maskField = others.map maskField)
    {key : String} (isPlain : isSensitiveTraceDetailKey key = false) :
    (lookup key fields).map mask = (lookup key others).map mask := by
  have seen (fields : Fields) : lookup key (fields.map maskField) = (lookup key fields).map mask := by
    have change := lookup_map (fun key value => if isSensitiveTraceDetailKey key then null else mask value)
      key fields
    simp only [isPlain, Bool.false_eq_true, if_false] at change
    rw [← change]
    exact congrArg (lookup key) (List.map_congr_left fun field _ => by rw [maskField])
  rw [← seen, ← seen, same]

/-- A copy without its sensitive values. -/
def maskCopy (copy : String × Json) : String × Json := (copy.1, mask copy.2)

theorem map_copy {value other : Option Json} (same : value.map mask = other.map mask) (key : String) :
    (value.map fun value => (key, value)).map maskCopy =
      (other.map fun value => (key, value)).map maskCopy := by
  rcases map_eq_cases same with ⟨rfl, rfl⟩ | ⟨v, w, rfl, rfl, sameValue⟩
  · rfl
  · simp only [Option.map_some, maskCopy, sameValue]

theorem filterMap_copies {copy otherCopy : String → Option (String × Json)} {keys : List String}
    (same : ∀ key ∈ keys, (copy key).map maskCopy = (otherCopy key).map maskCopy) :
    (keys.filterMap copy).map maskCopy = (keys.filterMap otherCopy).map maskCopy := by
  rw [List.map_filterMap, List.map_filterMap]
  exact List.filterMap_congr same

/-- Bodies with the same mask are copied from alike. -/
theorem copies_of_alike (known : List String) {parsed other : Json} (same : mask parsed = mask other) :
    (copiesOf known parsed).map maskCopy = (copiesOf known other).map maskCopy := by
  rcases mask_cases same with rfl | ⟨items, others, rfl, rfl, -⟩ | ⟨fields, others, rfl, rfl, sameFields⟩
  · rfl
  · rfl
  · have found {key : String} (isKey : key ∈ ["id", "request_id", "error"]) :
        (lookup key fields).map mask = (lookup key others).map mask :=
      lookup_masked sameFields (plain (List.mem_append_left _ (by grind)))
    rw [copiesOf, copiesOf, List.map_append, List.map_append]
    congr 1
    · refine filterMap_copies fun key isKey => ?_
      unfold freshCopy
      split
      · rfl
      · exact map_copy (found (by grind)) key
    · rcases map_eq_cases (found (by simp : "error" ∈ _)) with ⟨absent, alsoAbsent⟩ |
          ⟨error, otherError, isError, alsoError, sameError⟩
      · rw [absent, alsoAbsent]
      rw [isError, alsoError]
      rcases mask_cases sameError with rfl | ⟨items, others, rfl, rfl, -⟩ |
          ⟨errors, others, rfl, rfl, sameErrors⟩
      · rfl
      · rfl
      · refine filterMap_copies fun key isKey => map_copy (lookup_masked sameErrors ?_) _
        exact plain (List.mem_append_left _ (by grind))

theorem stored_keys_alike {loads : Loads} {details others : Fields}
    (alike : AlikeDetails loads details others) : storedKeys details = storedKeys others :=
  keys_alike (take_alike alike MAX_TRACE_ENTRIES)

theorem copies_alike {loads : Loads} {details others : Fields} (alike : AlikeDetails loads details others) :
    (copies loads details).map maskCopy = (copies loads others).map maskCopy := by
  rw [copies, copies, stored_keys_alike alike]
  rcases map_eq_cases (parsed_alike alike) with ⟨absent, alsoAbsent⟩ | ⟨v, w, isV, isW, same⟩
  · rw [absent, alsoAbsent]
  · rw [isV, isW]
    dsimp only
    split
    · rfl
    · rw [List.map_cons, List.map_cons, copies_of_alike _ same, maskCopy, maskCopy, same]

/-- **The sources of details that are alike**: nothing under a key for both, or values with the same
mask, or the texts of two bodies. -/
theorem source_cases {loads : Loads} {details others : Fields} (alike : AlikeDetails loads details others)
    {key : String} (isPlain : isSensitiveTraceDetailKey key = false) :
    source loads details key = none ∧ source loads others key = none ∨
    ∃ levels value other, source loads details key = some (levels, value) ∧
      source loads others key = some (levels, other) ∧ (mask value = mask other ∨
        key = "body" ∧ levels = TRACE_LEVELS - 1 ∧ ∃ text otherText, value = str text ∧
          other = str otherText ∧ lookup "body" (details.take MAX_TRACE_ENTRIES) = some value ∧
            lookup "body" (others.take MAX_TRACE_ENTRIES) = some other) := by
  have copied : (lookup key (copies loads details)).map mask =
      (lookup key (copies loads others)).map mask := by
    rw [← lookup_map fun _ => mask, ← lookup_map fun _ => mask]
    exact congrArg (lookup key) (copies_alike alike)
  rw [source, source]
  rcases map_eq_cases copied with ⟨absent, alsoAbsent⟩ | ⟨v, w, isV, isW, same⟩
  · rw [absent, alsoAbsent]
    rcases lookup_alike (take_alike alike MAX_TRACE_ENTRIES) key with ⟨none, alsoNone⟩ |
        ⟨value, other, found, alsoFound, same⟩
    · rw [none, alsoNone]
      exact .inl ⟨rfl, rfl⟩
    · rw [found, alsoFound]
      refine .inr ⟨_, value, other, rfl, rfl, (values_alike isPlain same).imp id ?_⟩
      rintro ⟨rfl, text, otherText, rfl, rfl⟩
      exact ⟨rfl, rfl, text, otherText, rfl, rfl, found, alsoFound⟩
  · rw [isV, isW]
    exact .inr ⟨_, v, w, rfl, rfl, .inl same⟩

theorem keys_normalize {loads : Loads} {details others : Fields} (alike : AlikeDetails loads details others) :
    (normalizeTraceErrorDetails loads details).map Prod.fst =
      (normalizeTraceErrorDetails loads others).map Prod.fst := by
  rw [normalize_eq, normalize_eq]
  refine keys_foldl ?_ (by rw [keys_stored, keys_stored, stored_keys_alike alike])
  have same := congrArg (List.map Prod.fst) (copies_alike alike)
  rwa [List.map_map, List.map_map] at same

/-- No copy is stored under a key that is none of the keys of copies. -/
theorem source_detail {loads : Loads} {details : Fields} {key : String} (isDetail : key ∉ COPY_KEYS) :
    source loads details key =
      (lookup key (details.take MAX_TRACE_ENTRIES)).map fun value => (TRACE_LEVELS - 1, value) := by
  rw [source]
  rcases isCopy : lookup key (copies loads details) with _ | value
  · rfl
  · exact absurd (plain_copy isCopy) isDetail

theorem lookup_sensitive {loads : Loads} {details others : Fields} (alike : AlikeDetails loads details others)
    {key : String} (sensitive : isSensitiveTraceDetailKey key = true) :
    lookup key (normalizeTraceErrorDetails loads details) =
      lookup key (normalizeTraceErrorDetails loads others) := by
  have isDetail : key ∉ COPY_KEYS := fun isKey =>
    absurd (plain (List.mem_append_right _ isKey)) (by simp [sensitive])
  rw [lookup_normalize, lookup_normalize, source_detail isDetail, source_detail isDetail]
  rcases lookup_alike (take_alike alike MAX_TRACE_ENTRIES) key with ⟨absent, alsoAbsent⟩ |
      ⟨value, other, found, alsoFound, -⟩
  · rw [absent, alsoAbsent]
  · simp only [found, alsoFound, Option.map_some, sensitive, if_true]

/-- What is stored under a key that is not sensitive, for two sources. -/
theorem lookup_plain {loads : Loads} {details others : Fields} {key : String}
    (isPlain : isSensitiveTraceDetailKey key = false) {levels : Nat} {value other : Json}
    (isV : source loads details key = some (levels, value))
    (isW : source loads others key = some (levels, other)) :
    lookup key (normalizeTraceErrorDetails loads details) =
        lookup key (normalizeTraceErrorDetails loads others) ↔
      sanitizeTracePayloadValue levels value = sanitizeTracePayloadValue levels other := by
  rw [lookup_normalize, lookup_normalize, isV, isW]
  simp only [Option.map_some, isPlain, Bool.false_eq_true, if_false, Option.some.injEq]

theorem same_deep_texts (levels : Nat) (text other : String) :
    SameDeep (levels + 1) (str text) (str other) := by
  intro path length
  obtain _ | ⟨place, path⟩ := path
  · cases length
  · rfl

/-- **What is stored** for details that are alike is the same iff what the trace takes over as it is
agrees. -/
theorem normalize_eq_iff {loads : Loads} {details others : Fields} (distinct : (details.map Prod.fst).Nodup)
    (alike : AlikeDetails loads details others) :
    normalizeTraceErrorDetails loads details = normalizeTraceErrorDetails loads others ↔
      RawTextsAgree loads details others := by
  have nodup : ((normalizeTraceErrorDetails loads details).map Prod.fst).Nodup := by
    rw [normalize_eq]
    refine nodup_foldl _ ?_
    rw [keys_stored, storedKeys, List.map_take]
    exact distinct.sublist (List.take_sublist _ _)
  have isDetail : "body" ∉ COPY_KEYS := by decide
  constructor
  · intro same
    have agree (key : String) := congrArg (lookup key) same
    refine ⟨fun text other found alsoFound => ?_, fun key isPlain levels value other isV isW => ?_⟩
    · have stored := (lookup_plain (plain (by simp))
        ((source_detail isDetail).trans (congrArg (Option.map _) found))
        ((source_detail isDetail).trans (congrArg (Option.map _) alsoFound))).mp (agree "body")
      exact Json.str.inj stored
    · rcases source_cases alike isPlain with ⟨absent, -⟩ | ⟨l, v, w, foundV, foundW, how⟩
      · cases isV.symm.trans absent
      obtain ⟨rfl, rfl⟩ := Prod.mk.inj (Option.some.inj (isV.symm.trans foundV))
      obtain ⟨-, rfl⟩ := Prod.mk.inj (Option.some.inj (isW.symm.trans foundW))
      rcases how with sameMask | ⟨-, rfl, text, otherText, rfl, rfl, -⟩
      · exact (sanitize_eq_iff levels sameMask).mp ((lookup_plain isPlain isV isW).mp (agree key))
      · exact same_deep_texts _ text otherText
  · intro agree
    refine eq_of_lookups (keys_normalize alike) nodup fun key _ => ?_
    by_cases sensitive : isSensitiveTraceDetailKey key = true
    · exact lookup_sensitive alike sensitive
    have isPlain := Bool.eq_false_iff.mpr sensitive
    rcases source_cases alike isPlain with ⟨absent, alsoAbsent⟩ | ⟨levels, v, w, isV, isW, how⟩
    · rw [lookup_normalize, lookup_normalize, absent, alsoAbsent]
    rw [lookup_plain isPlain isV isW]
    rcases how with sameMask | ⟨-, rfl, text, otherText, rfl, rfl, found, alsoFound⟩
    · exact (sanitize_eq_iff levels sameMask).mpr (agree.deep key isPlain levels v w isV isW)
    · exact congrArg str (agree.body text otherText found alsoFound)

/-- **Redaction**: the details of two exceptions that differ in sensitive values only are stored as the
same payload iff the texts that the trace takes over as they are agree. -/
theorem redaction_noninterference (loads : Loads) (text className : String)
    (codes : Option (String × Int)) (details others : Fields) (recoverable : Option Bool)
    (latestInputEventSeq : Option Json) (distinct : (details.map Prod.fst).Nodup)
    (alike : AlikeDetails loads details others) :
    runtimeExceptionTracePayload loads ⟨text, className, codes, details⟩ recoverable latestInputEventSeq =
      runtimeExceptionTracePayload loads ⟨text, className, codes, others⟩ recoverable
        latestInputEventSeq ↔
    RawTextsAgree loads details others := by
  rw [← normalize_eq_iff distinct alike]
  have lengths := congrArg List.length alike
  rw [List.length_map, List.length_map] at lengths
  have bothEmpty : details = [] ↔ others = [] := by
    rw [← List.length_eq_zero_iff, ← List.length_eq_zero_iff, lengths]
  unfold runtimeExceptionTracePayload
  rw [List.append_cancel_left_eq]
  by_cases isEmpty : details = []
  · rw [isEmpty, bothEmpty.mp isEmpty]
    exact ⟨fun _ => rfl, fun _ => rfl⟩
  · rw [if_neg isEmpty, if_neg (mt bothEmpty.mpr isEmpty), List.cons.injEq, and_iff_left rfl,
      Prod.mk.injEq, and_iff_right rfl, Json.obj.injEq]

/-! ### A refused key -/

def bodyA : String := "\x7b\"api_key\": \"a\"\x7d"
def bodyB : String := "\x7b\"api_key\": \"b\"\x7d"

/-- What `json.loads` makes of the two bodies. -/
def bodyLoads (text : String) : Option Json :=
  if text = bodyA then some (obj [("api_key", str "a")])
  else if text = bodyB then some (obj [("api_key", str "b")])
  else none

/-- A provider's response that repeats the request's key. -/
def refused (body : String) : TracedException :=
  ⟨"provider_http_error", "ProviderError", none, [("status", num 401), ("body", str body)]⟩

/-- A key inside a body is stored with the body. -/
theorem body_discloses_key : AlikeDetails bodyLoads (refused bodyA).details (refused bodyB).details ∧
    runtimeExceptionTracePayload bodyLoads (refused bodyA) none none ≠
      runtimeExceptionTracePayload bodyLoads (refused bodyB) none none := by
  refine ⟨?_, ?_⟩
  · have texts : strip bodyA ≠ "" ∧ strip bodyB ≠ "" ∧ bodyB ≠ bodyA := by decide +kernel
    have parsedA : parseTraceErrorBody bodyLoads (str bodyA) = some (obj [("api_key", str "a")]) := by
      simp [parseTraceErrorBody, bodyLoads, texts]
    have parsedB : parseTraceErrorBody bodyLoads (str bodyB) = some (obj [("api_key", str "b")]) := by
      simp [parseTraceErrorBody, bodyLoads, texts]
    have isPlain : isSensitiveTraceDetailKey "body" = false := plain (by simp)
    have sensitive : isSensitiveTraceDetailKey "api_key" = true := by decide +kernel
    simp [AlikeDetails, refused, maskDetail, parsedA, parsedB, isPlain, mask, maskFields, maskField,
      sensitive]
  · exact fun same => absurd (congrArg (fun payload => (obj payload).toStr) same) (by decide +kernel)

/-- The headers that a provider refused. -/
def refusedHeaders (secret : String) : Fields :=
  [("headers", obj [("Authorization", str secret), ("accept", str "*/*")]), ("api_key", str secret)]

theorem headers_alike (secret other : String) :
    AlikeDetails bodyLoads (refusedHeaders secret) (refusedHeaders other) := by
  have sensitive : isSensitiveTraceDetailKey "Authorization" = true ∧
      isSensitiveTraceDetailKey "api_key" = true := by
    decide +kernel
  simp [AlikeDetails, refusedHeaders, maskDetail, mask, maskFields, maskField, sensitive]

theorem headers_agree (secret other : String) :
    RawTextsAgree bodyLoads (refusedHeaders secret) (refusedHeaders other) := by
  refine ⟨fun text other found _ => ?_, fun key isPlain levels v w isV isW => ?_⟩
  · cases found
  have unparsed (secret : String) : copies bodyLoads (refusedHeaders secret) = [] := rfl
  have isSensitive : isSensitiveTraceDetailKey "Authorization" = true ∧
      isSensitiveTraceDetailKey "api_key" = true := by
    decide +kernel
  rw [source, unparsed] at isV isW
  by_cases isHeaders : key = "headers"
  · subst isHeaders
    cases isV
    cases isW
    refine (sanitize_eq_iff 8 (by simp [mask, maskFields, maskField, isSensitive])).mp ?_
    simp [sanitizeTracePayloadValue, isSensitive]
  · have absent : lookup key ((refusedHeaders secret).take MAX_TRACE_ENTRIES) = none := by
      refine lookup_none_of_not_mem fun isKey => ?_
      obtain rfl | rfl : key = "headers" ∨ key = "api_key" := by
        simpa [refusedHeaders, MAX_TRACE_ENTRIES] using isKey
      · exact isHeaders rfl
      · exact absurd isSensitive.2 (Bool.eq_false_iff.mp isPlain)
    rw [lookup_nil, absent] at isV
    cases isV

/-- Keys in headers are not stored. -/
theorem headers_redacted : RawTextsAgree bodyLoads (refusedHeaders "a") (refusedHeaders "b") ∧
    runtimeExceptionTracePayload bodyLoads ⟨"refused", "ProviderError", none, refusedHeaders "a"⟩ none none =
      runtimeExceptionTracePayload bodyLoads ⟨"refused", "ProviderError", none, refusedHeaders "b"⟩ none
        none :=
  ⟨headers_agree "a" "b", (redaction_noninterference bodyLoads "refused" "ProviderError" none
    (refusedHeaders "a") (refusedHeaders "b") none none (by decide +kernel)
    (headers_alike "a" "b")).mpr (headers_agree "a" "b")⟩

end Psop.Runtime
