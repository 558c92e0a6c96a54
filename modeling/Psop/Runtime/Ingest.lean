import Psop.Runs
import Psop.Runtime.Parts
import Mathlib.Algebra.Ring.Nat

/-!
The objects that an upload request leaves in the store.

A request stores its files one by one, then commits the rows that refer to them, and deletes what is
not referred to when it fails, is cancelled or turns out to be a duplicate. `step` is the request
between two of its waits; a `Reply` is what it waited for, a cancellation included. No object that a
row refers to is ever deleted (`IngestInvariant.kept`). **`upload_cleanup`**: nothing is left over iff every
cancellation leaves the request able to delete what it stored (`Recoverable`).
-/
namespace Psop.Runtime

open Json Skills

/-! ### The request -/

/-- The bucket and the key of an object. -/
abbrev ObjectRef := String × String

instance : LawfulBEq ObjectRef := inferInstance

/-- `posixpath.join` -/
def posixJoin (path part : String) : String :=
  if Text.startsWith "/" part then part
  else if path = "" ∨ path.toList.getLast? = some '/' then path ++ part
  else path ++ "/" ++ part

def terminalObjectKey (runId uuid filename : String) : String :=
  posixJoin (posixJoin "terminal-event-parts" runId) (uuid ++ "-" ++ filename)

/-- A request with its files, and the ids it draws for their keys. The external id is the payload's or
the idempotency key. -/
structure IngestRequest where
  runId : String
  externalEventId : Option String
  parts : List TerminalEventPartInput
  uploads : List UploadFile
  limits : UploadLimits
  bucket : String
  uuids : Nat → String

def IngestRequest.named (request : IngestRequest) : Bool :=
  request.externalEventId.any (· != "")

/-- Where the request stores its files, nothing if they are refused. -/
def IngestRequest.refs (request : IngestRequest) : List ObjectRef :=
  match inspectUploads request.limits request.parts request.uploads with
  | .ok inspected => inspected.zipIdx.map fun (item, index) =>
      (request.bucket, terminalObjectKey request.runId (request.uuids index) item.filename)
  | .error _ => []

/-! ### What a request waits for -/

/-- A call in the thread pool. Where it is cancelled, the function has finished and its result is lost. -/
inductive Thread (α : Type)
  | returns (value : α)
  | raises
  | cancelled
deriving Repr, DecidableEq

/-- An operation of the object store, and whether it took effect where it did not return. -/
inductive StoreCall
  | returns
  | raises (took : Bool)
  /-- Cancelled: the operation is awaited, then the cancellation is raised with its result. -/
  | cancelled (took : Bool)
  /-- Cancelled again while a cancelled operation is awaited. -/
  | abandoned (took : Bool)
deriving Repr, DecidableEq

def StoreCall.took : StoreCall → Bool
  | .returns => true
  | .raises took | .cancelled took | .abandoned took => took

/-- Database work that may raise, with an integrity error or another one. -/
inductive Database
  | returns
  | raises (integrity : Bool)
deriving Repr, DecidableEq

/-- What `_persist` meets. -/
structure PersistAnswers where
  /-- The queries before the rows are written. -/
  queried : Database
  runFound : Bool
  /-- The artifacts of the event stored under the external id. -/
  stored : Option (List String)
  acceptsInput : Bool
  /-- The ids of the artifact rows, and their flush. -/
  artifactIds : Nat → String
  flushed : Database
  /-- The second look for the external id. -/
  storedMeanwhile : Option (List String)
  /-- `append_terminal_event` up to its commit. -/
  appended : Database
  /-- The commit may raise after it has taken effect. -/
  committed : Database
  landed : Bool
  /-- The response, with the artifacts of the stored event. -/
  responded : Database
  partArtifacts : List String

inductive Persisted
  | returned (duplicate : Bool)
  | raised (integrity : Bool)
deriving Repr, DecidableEq

/-- A request's event is a duplicate unless it has all artifacts that the request refers to. -/
def isDuplicate (referred persisted : List String) : Bool :=
  referred ≠ [] && !referred.all (persisted.contains ·)

/-- The artifacts that the parts of a request refer to, the uploaded ones last. -/
def referredArtifacts (parts : List TerminalEventPartInput) (count : Nat) (artifactIds : Nat → String) :
    List String :=
  (parts.filterMap fun part => part.artifactObjectId.filter (· ≠ "")) ++
    (List.range count).map artifactIds

/-- `_persist`: whether its rows are committed, and how it ends. -/
def persist (request : IngestRequest) (count : Nat) (answers : PersistAnswers) : Bool × Persisted :=
  let referred := referredArtifacts request.parts count answers.artifactIds
  match answers.queried with
  | .raises integrity => (false, .raised integrity)
  | .returns =>
  if !answers.runFound then (false, .raised false)
  else if request.named && answers.stored.isSome then (false, .returned true)
  else if !answers.acceptsInput then (false, .raised false)
  else match answers.flushed with
  | .raises integrity => (false, .raised integrity)
  | .returns =>
  match answers.storedMeanwhile.filter fun _ => request.named with
  | some persisted => (false, .returned (isDuplicate referred persisted))
  | none =>
  match answers.appended with
  | .raises integrity => (false, .raised integrity)
  | .returns =>
  match answers.committed with
  | .raises integrity => (answers.landed, .raised integrity)
  | .returns =>
  match answers.responded with
  | .raises integrity => (true, .raised integrity)
  | .returns => (true, .returned (isDuplicate referred answers.partArtifacts))

/-- What a request waited for. -/
inductive Reply
  | preflight (existing : Thread Bool)
  | inspection (read : Thread Unit)
  | store (call : StoreCall)
  | persist (answers : PersistAnswers) (cancelled : Bool)
  | duplicate (found : Thread Bool)
  | references (read : Thread Unit)

/-! ### The request between two waits -/

/-- What a request is waiting for. `handling` is set in the handler of an error or a cancellation. -/
inductive IngestPhase
  | preflight
  | inspecting
  /-- The next file to store, or the rows where none is left. -/
  | uploading (left : List ObjectRef)
  /-- The object of an upload that failed is being deleted. -/
  | discarding (ref : ObjectRef)
  | loadingDuplicate
  | checkingReferences (handling : Bool)
  | deleting (handling : Bool) (ref : ObjectRef) (left : List ObjectRef)
  | ended (returned : Bool)
deriving Repr, DecidableEq

/-- A request with the objects it has stored so far, and all objects and artifact rows. -/
structure Ingest where
  phase : IngestPhase
  uploaded : List ObjectRef
  objects : List ObjectRef
  rows : List ObjectRef
deriving Repr, DecidableEq

def Ingest.delete (ref : ObjectRef) (call : StoreCall) (s : Ingest) : Ingest :=
  { s with objects := if call.took then s.objects.filter (· ≠ ref) else s.objects }

/-- The objects whose cleanup is over: the response, or the error that is handled. -/
def deleteNext (handling : Bool) : List ObjectRef → IngestPhase
  | [] => .ended (!handling)
  | ref :: left => .deleting handling ref left

/-- A cancellation in the cleanup of a duplicate is handled, one in the handler ends the request. -/
def interrupted (handling : Bool) : IngestPhase :=
  if handling then .ended false else .checkingReferences true

/-- The loop of `_cleanup`: an error is logged, a cancellation is raised. -/
def afterDeletion (handling : Bool) (left : List ObjectRef) : StoreCall → IngestPhase
  | .returns | .raises _ => deleteNext handling left
  | .cancelled _ | .abandoned _ => interrupted handling

/-- `_append` from its start to its first wait. -/
def IngestRequest.begin (request : IngestRequest) (objects rows : List ObjectRef) : Ingest :=
  ⟨if request.limits.maxUploadFiles < request.uploads.length then .ended false else .preflight,
    [], objects, rows⟩

/-- `_upload` and the loop around it. -/
def uploadStep (ref : ObjectRef) (left : List ObjectRef) (call : StoreCall) (s : Ingest) : Ingest :=
  let s := { s with objects := if call.took then s.objects ++ [ref] else s.objects }
  match call with
  | .returns => { s with phase := .uploading left, uploaded := s.uploaded ++ [ref] }
  | .raises _ | .cancelled _ => { s with phase := .discarding ref }
  | .abandoned _ => { s with phase := .checkingReferences true }

/-- Where the result of `_persist` leads; an integrity error may mean that the event is stored already. -/
def afterPersist (cancelled : Bool) (persisted : Persisted) : IngestPhase :=
  if cancelled then .checkingReferences true
  else match persisted with
    | .returned true => .checkingReferences false
    | .returned false => .ended true
    | .raised true => .loadingDuplicate
    | .raised false => .checkingReferences true

def persistStep (request : IngestRequest) (answers : PersistAnswers) (cancelled : Bool) (s : Ingest) :
    Ingest :=
  let result := persist request s.uploaded.length answers
  { s with
    phase := afterPersist cancelled result.2
    rows := if result.1 then s.rows ++ s.uploaded else s.rows }

/-- `_append` from one wait to the next, with `_cleanup` and `_cleanup_object_key`. -/
def ingestStep (request : IngestRequest) (s : Ingest) : Reply → Option Ingest
  | .preflight existing => match s.phase with
    | .preflight => some { s with phase := match existing with
        | .returns existing => if existing then .ended true else .inspecting
        | .raises | .cancelled => .ended false }
    | _ => none
  | .inspection read => match s.phase with
    | .inspecting => some { s with phase := match read with
        | .returns _ =>
          if (inspectUploads request.limits request.parts request.uploads).isOk then .uploading request.refs
          else .ended false
        | .raises | .cancelled => .ended false }
    | _ => none
  | .store call => match s.phase with
    | .uploading (ref :: left) => some (uploadStep ref left call s)
    | .discarding ref => some { s.delete ref call with phase := .checkingReferences true }
    | .deleting handling ref left =>
      some { s.delete ref call with phase := afterDeletion handling left call }
    | _ => none
  | .persist answers cancelled => match s.phase with
    | .uploading [] => some (persistStep request answers cancelled s)
    | _ => none
  | .duplicate found => match s.phase with
    | .loadingDuplicate => some { s with phase := match found with
        | .returns found => .checkingReferences !(request.named && found)
        | .raises | .cancelled => .checkingReferences true }
    | _ => none
  | .references read => match s.phase with
    | .checkingReferences handling => some { s with phase := match read with
        | .returns _ => deleteNext handling (s.uploaded.filter (· ∉ s.rows))
        | .raises => .ended !handling
        | .cancelled => interrupted handling }
    | _ => none

/-! ### What holds along every run -/

/-- The keys that a request draws are new. -/
structure FreshKeys (request : IngestRequest) (objects rows : List ObjectRef) : Prop where
  distinct : request.refs.Nodup
  unstored : ∀ ref ∈ request.refs, ref ∉ objects
  unreferenced : ∀ ref ∈ request.refs, ref ∉ rows

/-- Deletions take effect, the check for references returns, the ids of new artifact rows are new. -/
def Assumed (s : Ingest) : Reply → Prop
  | .store call => match s.phase with
    | .discarding _ | .deleting _ _ _ => call.took = true
    | _ => True
  | .references read => read ≠ .raises
  | .persist answers _ => ∀ persisted ∈ answers.storedMeanwhile, ∀ index < s.uploaded.length,
      answers.artifactIds index ∉ persisted
  | _ => True

instance (s : Ingest) (reply : Reply) : Decidable (Assumed s reply) := by
  cases reply with
  | store call =>
    show Decidable (match s.phase with
      | .discarding _ | .deleting _ _ _ => call.took = true
      | _ => True)
    split <;> infer_instance
  | references read => exact inferInstanceAs (Decidable (read ≠ .raises))
  | persist answers =>
    exact inferInstanceAs (Decidable (∀ persisted ∈ answers.storedMeanwhile, ∀ index < s.uploaded.length,
      answers.artifactIds index ∉ persisted))
  | preflight | inspection | duplicate => exact inferInstanceAs (Decidable True)

/-- Nothing that a row refers to is missing, unless it was missing from the start. -/
def NothingLost (objects rows : List ObjectRef) (s : Ingest) : Prop :=
  ∀ ref ∈ s.rows, ref ∈ objects ∨ ref ∉ rows → ref ∈ s.objects

/-- Every object that the request stored is referred to or gone. -/
def NothingLeft (request : IngestRequest) (s : Ingest) : Prop :=
  ∀ ref ∈ request.refs, ref ∈ s.objects → ref ∈ s.rows

/-- What the phase says of the rows and of the objects still to delete. -/
def Placed (request : IngestRequest) (rows : List ObjectRef) (s : Ingest) : Prop :=
  match s.phase with
  | .preflight | .inspecting => s.uploaded = [] ∧ s.rows = rows
  | .uploading left => s.uploaded ++ left = request.refs ∧ s.rows = rows ∧ s.uploaded ⊆ s.objects
  | .discarding ref => ref ∈ request.refs ∧ ref ∉ s.uploaded ∧ s.rows = rows
  | .deleting _ ref left => (ref :: left).Sublist s.uploaded ∧ ∀ other ∈ ref :: left, other ∉ s.rows
  | _ => True

structure IngestInvariant (request : IngestRequest) (objects rows : List ObjectRef) (s : Ingest) : Prop where
  own : s.uploaded.Sublist request.refs
  others : objects ⊆ s.objects
  referred : ∀ ref ∈ s.rows, ref ∈ rows ∨ ref ∈ s.uploaded
  held : ∀ ref ∈ s.uploaded, ref ∈ s.rows → ref ∈ s.objects
  placed : Placed request rows s

theorem IngestInvariant.kept {request : IngestRequest} {objects rows : List ObjectRef} {s : Ingest}
    (sound : IngestInvariant request objects rows s) : NothingLost objects rows s := by
  rintro ref isRow (stored | isNew)
  · exact sound.others stored
  · rcases sound.referred ref isRow with isOld | uploaded
    · exact absurd isOld isNew
    · exact sound.held ref uploaded isRow

theorem begin_sound (request : IngestRequest) (objects rows : List ObjectRef) :
    IngestInvariant request objects rows (request.begin objects rows) := by
  refine ⟨List.nil_sublist _, fun _ => id, fun _ => .inl, fun _ none => absurd none List.not_mem_nil, ?_⟩
  unfold IngestRequest.begin
  split
  · trivial
  · exact ⟨rfl, rfl⟩

theorem mem_delete {s : Ingest} {ref other : ObjectRef} {call : StoreCall}
    (stored : other ∈ (s.delete ref call).objects) : other ∈ s.objects := by
  have stored : other ∈ if call.took then s.objects.filter (· ≠ ref) else s.objects := stored
  split at stored
  · exact (List.mem_filter.mp stored).1
  · exact stored

theorem mem_delete_of_ne {s : Ingest} {ref other : ObjectRef} (call : StoreCall) (stored : other ∈ s.objects)
    (isOther : other ≠ ref) : other ∈ (s.delete ref call).objects := by
  show other ∈ if call.took then s.objects.filter (· ≠ ref) else s.objects
  split
  · exact List.mem_filter.mpr ⟨stored, decide_eq_true isOther⟩
  · exact stored

theorem ne_of_mem_delete {s : Ingest} {ref other : ObjectRef} {call : StoreCall} (took : call.took = true)
    (stored : other ∈ (s.delete ref call).objects) : other ≠ ref := by
  have stored : other ∈ if call.took then s.objects.filter (· ≠ ref) else s.objects := stored
  rw [if_pos took] at stored
  exact of_decide_eq_true (List.mem_filter.mp stored).2

/-- Deleting what no row refers to keeps the rest. -/
theorem IngestInvariant.delete {request : IngestRequest} {objects rows : List ObjectRef} {s : Ingest}
    (sound : IngestInvariant request objects rows s) (fresh : FreshKeys request objects rows)
    {ref : ObjectRef}
    (isOwn : ref ∈ request.refs) (unreferred : ref ∉ s.uploaded ∨ ref ∉ s.rows) (call : StoreCall)
    (phase : IngestPhase) (placed : Placed request rows { s.delete ref call with phase := phase }) :
    IngestInvariant request objects rows { s.delete ref call with phase := phase } where
  own := sound.own
  others other stored := mem_delete_of_ne call (sound.others stored)
    fun same => fresh.unstored ref isOwn (same ▸ stored)
  referred := sound.referred
  held other uploaded isRow := mem_delete_of_ne call (sound.held other uploaded isRow) fun same => by
    rw [same] at uploaded isRow
    rcases unreferred with none | none
    · exact none uploaded
    · exact none isRow
  placed := placed

/-- Where the phase changes alone. -/
theorem IngestInvariant.turn {request : IngestRequest} {objects rows : List ObjectRef} {s : Ingest}
    (sound : IngestInvariant request objects rows s) {phase : IngestPhase}
    (placed : Placed request rows { s with phase := phase }) :
    IngestInvariant request objects rows { s with phase := phase } :=
  ⟨sound.own, sound.others, sound.referred, sound.held, placed⟩

theorem placed_interrupted (request : IngestRequest) (rows : List ObjectRef) (s : Ingest) (handling : Bool) :
    Placed request rows { s with phase := interrupted handling } := by
  cases handling <;> trivial

theorem placed_next {request : IngestRequest} {rows : List ObjectRef} {s : Ingest} {handling : Bool}
    {left : List ObjectRef} (uploaded : left.Sublist s.uploaded) (unreferred : ∀ other ∈ left, other ∉ s.rows) :
    Placed request rows { s with phase := deleteNext handling left } := by
  cases left with
  | nil => trivial
  | cons ref left => exact ⟨uploaded, unreferred⟩

theorem upload_sound {request : IngestRequest} {objects rows : List ObjectRef} {s : Ingest}
    (sound : IngestInvariant request objects rows s) (fresh : FreshKeys request objects rows)
    {ref : ObjectRef}
    {left : List ObjectRef} (isPhase : s.phase = .uploading (ref :: left)) (call : StoreCall) :
    IngestInvariant request objects rows (uploadStep ref left call s) := by
  have placed := sound.placed
  unfold Placed at placed
  rw [isPhase] at placed
  obtain ⟨split, oldRows, stored⟩ := placed
  have isOwn : ref ∈ request.refs := split ▸ List.mem_append_right _ List.mem_cons_self
  have isNew : ref ∉ s.uploaded := fun uploaded =>
    (List.nodup_append.mp (split ▸ fresh.distinct)).2.2 ref uploaded ref List.mem_cons_self rfl
  have unreferred (other : ObjectRef) (uploaded : other ∈ s.uploaded) : other ∉ s.rows :=
    oldRows ▸ fresh.unreferenced other (sound.own.subset uploaded)
  -- The store grows at most.
  have grown (more : List ObjectRef) (phase : IngestPhase)
      (placed : Placed request rows { s with phase := phase, objects := s.objects ++ more }) :
      IngestInvariant request objects rows { s with phase := phase, objects := s.objects ++ more } :=
    ⟨sound.own, fun _ stored => List.mem_append_left _ (sound.others stored), sound.referred,
      fun other uploaded isRow => absurd isRow (unreferred other uploaded), placed⟩
  cases call with
  | returns =>
    refine ⟨?_, fun _ stored => List.mem_append_left _ (sound.others stored), ?_, ?_, ?_⟩
    · rw [← split]
      exact (List.singleton_sublist.mpr List.mem_cons_self).append_left s.uploaded
    · exact fun other isRow => (sound.referred other isRow).imp_right (List.mem_append_left _)
    · intro other uploaded _
      rcases List.mem_append.mp uploaded with before | now
      · exact List.mem_append_left _ (stored before)
      · exact List.mem_append_right _ now
    · refine ⟨(List.append_assoc s.uploaded [ref] left).trans split, oldRows, fun other uploaded => ?_⟩
      rcases List.mem_append.mp uploaded with before | now
      · exact List.mem_append_left _ (stored before)
      · exact List.mem_append_right _ now
  | raises took | cancelled took =>
    cases took with
    | true => exact grown [ref] _ ⟨isOwn, isNew, oldRows⟩
    | false => exact sound.turn ⟨isOwn, isNew, oldRows⟩
  | abandoned took =>
    cases took with
    | true => exact grown [ref] _ trivial
    | false => exact sound.turn trivial

theorem placed_after (request : IngestRequest) (rows : List ObjectRef) (s : Ingest) (cancelled : Bool)
    (persisted : Persisted) : Placed request rows { s with phase := afterPersist cancelled persisted } := by
  cases cancelled
  · rcases persisted with (_ | _) | (_ | _) <;> trivial
  · trivial

/-- Rows are committed for all files or for none. -/
theorem persist_sound {request : IngestRequest} {objects rows : List ObjectRef} {s : Ingest}
    (sound : IngestInvariant request objects rows s) (isPhase : s.phase = .uploading [])
    (answers : PersistAnswers)
    (cancelled : Bool) : IngestInvariant request objects rows (persistStep request answers cancelled s) := by
  have placed := sound.placed
  unfold Placed at placed
  rw [isPhase] at placed
  obtain ⟨-, -, stored⟩ := placed
  refine ⟨sound.own, sound.others, fun ref isRow => ?_, fun ref uploaded _ => stored uploaded,
    placed_after request rows (persistStep request answers cancelled s) cancelled _⟩
  have isRow : ref ∈ if (persist request s.uploaded.length answers).1 then s.rows ++ s.uploaded
      else s.rows := isRow
  split at isRow
  · exact (List.mem_append.mp isRow).elim (sound.referred ref) .inr
  · exact sound.referred ref isRow

theorem step_sound {request : IngestRequest} {objects rows : List ObjectRef} {s t : Ingest}
    (sound : IngestInvariant request objects rows s) (fresh : FreshKeys request objects rows) {reply : Reply}
    (stepped : ingestStep request s reply = some t) : IngestInvariant request objects rows t := by
  have placed := sound.placed
  unfold Placed at placed
  cases reply with
  | preflight existing =>
    simp only [ingestStep] at stepped
    split at stepped
    · rename_i isPhase
      cases stepped
      rw [isPhase] at placed
      apply sound.turn
      rcases existing with (_ | _) | _ | _
      · exact placed
      all_goals trivial
    · cases stepped
  | inspection read =>
    simp only [ingestStep] at stepped
    split at stepped
    · rename_i isPhase
      cases stepped
      rw [isPhase] at placed
      obtain ⟨none, oldRows⟩ := placed
      apply sound.turn
      cases read with
      | returns =>
        dsimp only
        split
        · refine ⟨by rw [none, List.nil_append], oldRows, ?_⟩
          rw [none]
          exact List.nil_subset _
        · trivial
      | raises | cancelled => trivial
    · cases stepped
  | store call =>
    simp only [ingestStep] at stepped
    split at stepped
    · rename_i isPhase
      cases stepped
      exact upload_sound sound fresh isPhase call
    · rename_i ref isPhase
      cases stepped
      rw [isPhase] at placed
      obtain ⟨isOwn, isNew, -⟩ := placed
      exact sound.delete fresh isOwn (.inl isNew) call _ trivial
    · rename_i handling ref left isPhase
      cases stepped
      rw [isPhase] at placed
      obtain ⟨uploaded, unreferred⟩ := placed
      apply sound.delete fresh (sound.own.subset (uploaded.subset List.mem_cons_self))
        (.inr (unreferred ref List.mem_cons_self))
      cases call with
      | returns | raises =>
        exact placed_next ((List.sublist_cons_self ref left).trans uploaded)
          fun other isLeft => unreferred other (List.mem_cons_of_mem ref isLeft)
      | cancelled | abandoned => exact placed_interrupted ..
    · cases stepped
  | persist answers cancelled =>
    simp only [ingestStep] at stepped
    split at stepped
    · rename_i isPhase
      cases stepped
      exact persist_sound sound isPhase answers cancelled
    · cases stepped
  | duplicate found =>
    simp only [ingestStep] at stepped
    split at stepped
    · cases stepped
      apply sound.turn
      cases found <;> trivial
    · cases stepped
  | references read =>
    simp only [ingestStep] at stepped
    split at stepped
    · cases stepped
      apply sound.turn
      cases read with
      | returns =>
        exact placed_next List.filter_sublist fun other isLeft =>
          of_decide_eq_true (List.mem_filter.mp isLeft).2
      | raises => trivial
      | cancelled => exact placed_interrupted ..
    · cases stepped

/-! ### What a cancellation leaves behind -/

/-- The step leaves the request able to delete what it stored: an upload that is given up has not stored
its object, and a cancellation in the handler comes when nothing else is left to delete. -/
def Recoverable (s : Ingest) : Reply → Prop
  | .store call => match s.phase with
    | .uploading _ => call ≠ .abandoned true
    | .deleting true _ left => match call with
      | .cancelled _ | .abandoned _ => ∀ other ∈ left, other ∉ s.objects
      | .returns | .raises _ => True
    | _ => True
  | .references read => s.phase = .checkingReferences true → read = .cancelled →
      ∀ ref ∈ s.uploaded, ref ∈ s.objects → ref ∈ s.rows
  | _ => True

/-- Where the objects are that the request has stored. -/
def Located (request : IngestRequest) (s : Ingest) : Prop :=
  ∀ ref ∈ request.refs, ref ∈ s.objects → match s.phase with
    | .preflight | .inspecting => False
    | .uploading _ | .loadingDuplicate | .checkingReferences _ => ref ∈ s.uploaded
    | .discarding other => ref ∈ s.uploaded ∨ ref = other
    | .deleting _ other left => ref ∈ s.rows ∨ ref ∈ other :: left
    | .ended _ => ref ∈ s.rows

/-- An object that nothing refers to and that the handler does not know of. -/
def Orphaned (request : IngestRequest) (s : Ingest) : Prop :=
  ∃ ref ∈ request.refs, ref ∈ s.objects ∧ ref ∉ s.rows ∧ match s.phase with
    | .checkingReferences true => ref ∉ s.uploaded
    | .deleting true other left => ref ∉ other :: left
    | .ended _ => True
    | _ => False

theorem duplicate_of_missing {referred persisted : List String} {id : String} (isReferred : id ∈ referred)
    (missing : id ∉ persisted) : isDuplicate referred persisted = true := by
  have notAll : referred.all (persisted.contains ·) = false :=
    List.all_eq_false.mpr ⟨id, isReferred, by rwa [List.contains_iff_mem]⟩
  unfold isDuplicate
  rw [notAll, Bool.not_false, Bool.and_true, decide_eq_true_eq]
  exact List.ne_nil_of_mem isReferred

/-- `_persist` returns without a duplicate only where it has committed its rows or had none. -/
theorem committed_of_new {request : IngestRequest} {count : Nat} {answers : PersistAnswers}
    (isNew : ∀ persisted ∈ answers.storedMeanwhile, ∀ index < count, answers.artifactIds index ∉ persisted)
    (returned : (persist request count answers).2 = .returned false) :
    (persist request count answers).1 = true ∨ count = 0 := by
  rcases Nat.eq_zero_or_pos count with none | some
  · exact .inr none
  refine .inl ?_
  cases ended : persist request count answers with
  | mk committed persisted =>
  rw [ended] at returned
  obtain rfl : persisted = .returned false := returned
  unfold persist at ended
  dsimp only at ended
  split at ended
  · cases ended
  split at ended
  · cases ended
  split at ended
  · cases ended
  split at ended
  · cases ended
  split at ended
  · cases ended
  split at ended
  · rename_i artifacts found
    have missing := isNew artifacts (Option.mem_filter_iff.mp found).1 0 some
    have isReferred : answers.artifactIds 0 ∈ referredArtifacts request.parts count answers.artifactIds :=
      List.mem_append_right _ (List.mem_map_of_mem (List.mem_range.mpr some))
    rw [duplicate_of_missing isReferred missing] at ended
    cases ended
  split at ended
  · cases ended
  split at ended
  · cases ended
  split at ended
  · cases ended
  · obtain rfl : true = committed := (Prod.mk.inj ended).1
    rfl

theorem located_next {request : IngestRequest} {s : Ingest} {left : List ObjectRef} (handling : Bool)
    (located : ∀ ref ∈ request.refs, ref ∈ s.objects → ref ∈ s.rows ∨ ref ∈ left) :
    Located request { s with phase := deleteNext handling left } := by
  intro ref isOwn stored
  have place := located ref isOwn stored
  cases left with
  | nil => exact place.resolve_right List.not_mem_nil
  | cons => exact place

theorem upload_located {request : IngestRequest} {s : Ingest} (located : Located request s)
    {ref : ObjectRef} {left : List ObjectRef} (isPhase : s.phase = .uploading (ref :: left))
    {call : StoreCall} (keeps : call ≠ .abandoned true) :
    Located request (uploadStep ref left call s) := by
  intro other isOwn stored
  have before (wasStored : other ∈ s.objects) : other ∈ s.uploaded := by
    have place := located other isOwn wasStored
    rwa [isPhase] at place
  have after : other ∈ s.objects ++ [ref] → other ∈ s.uploaded ∨ other = ref := fun stored =>
    (List.mem_append.mp stored).imp before List.mem_singleton.mp
  cases call with
  | returns =>
    exact List.mem_append.mpr ((after stored).imp_right List.mem_singleton.mpr)
  | raises took | cancelled took =>
    cases took with
    | true => exact after stored
    | false => exact .inl (before stored)
  | abandoned took =>
    cases took with
    | true => exact absurd rfl keeps
    | false => exact before stored

theorem persist_located {request : IngestRequest} {s : Ingest} (located : Located request s)
    (isPhase : s.phase = .uploading []) {answers : PersistAnswers} {cancelled : Bool}
    (assumed : Assumed s (.persist answers cancelled)) :
    Located request (persistStep request answers cancelled s) := by
  intro other isOwn stored
  have uploaded : other ∈ s.uploaded := by
    have place := located other isOwn stored
    rwa [isPhase] at place
  unfold persistStep
  dsimp only
  cases cancelled with
  | true => exact uploaded
  | false =>
    have isNew (returned : (persist request s.uploaded.length answers).2 = .returned false) :=
      committed_of_new assumed returned
    cases ended : (persist request s.uploaded.length answers).2 with
    | returned duplicate =>
      cases duplicate with
      | true => exact uploaded
      | false =>
        rcases isNew ended with committed | none
        · show other ∈ if (persist request s.uploaded.length answers).1 then s.rows ++ s.uploaded else s.rows
          rw [if_pos committed]
          exact List.mem_append_right _ uploaded
        · rw [List.length_eq_zero_iff.mp none] at uploaded
          exact absurd uploaded List.not_mem_nil
    | raised integrity => cases integrity <;> exact uploaded

/-- A row of the request's own refers to what it has stored. -/
theorem own_row {request : IngestRequest} {objects rows : List ObjectRef} {s : Ingest}
    (sound : IngestInvariant request objects rows s) (fresh : FreshKeys request objects rows)
    {ref : ObjectRef}
    (isOwn : ref ∈ request.refs) (isRow : ref ∈ s.rows) : ref ∈ s.uploaded :=
  (sound.referred ref isRow).resolve_left (fresh.unreferenced ref isOwn)

theorem delete_located {request : IngestRequest} {objects rows : List ObjectRef} {s : Ingest}
    (sound : IngestInvariant request objects rows s) (fresh : FreshKeys request objects rows)
    (located : Located request s) {handling : Bool} {ref : ObjectRef} {left : List ObjectRef}
    (isPhase : s.phase = .deleting handling ref left) {call : StoreCall} (took : call.took = true)
    (recoverable : Recoverable s (.store call)) :
    Located request { s.delete ref call with phase := afterDeletion handling left call } := by
  have placed := sound.placed
  simp only [Placed, isPhase] at placed
  have rest (other : ObjectRef) (isOwn : other ∈ request.refs) (stored : other ∈ (s.delete ref call).objects) :
      other ∈ s.rows ∨ other ∈ left := by
    have place := located other isOwn (mem_delete stored)
    rw [isPhase] at place
    exact place.imp_right fun isLeft =>
      (List.mem_cons.mp isLeft).resolve_left (ne_of_mem_delete took stored)
  have stops (stops : ∀ other ∈ left, handling = true → other ∉ s.objects) :
      Located request { s.delete ref call with phase := interrupted handling } := by
    intro other isOwn stored
    cases handling with
    | true => exact (rest other isOwn stored).resolve_right fun isLeft => stops other isLeft rfl (mem_delete stored)
    | false =>
      exact (rest other isOwn stored).elim (own_row sound fresh isOwn)
        fun isLeft => placed.1.subset (List.mem_cons_of_mem ref isLeft)
  cases call with
  | returns | raises => exact located_next handling rest
  | cancelled | abandoned =>
    refine stops fun other isLeft isHandling => ?_
    subst isHandling
    simp only [Recoverable, isPhase] at recoverable
    exact recoverable other isLeft

theorem step_located {request : IngestRequest} {objects rows : List ObjectRef} {s t : Ingest}
    (sound : IngestInvariant request objects rows s) (fresh : FreshKeys request objects rows)
    (located : Located request s)
    {reply : Reply} (assumed : Assumed s reply) (recoverable : Recoverable s reply)
    (stepped : ingestStep request s reply = some t) : Located request t := by
  cases reply with
  | preflight existing =>
    simp only [ingestStep] at stepped
    split at stepped
    · rename_i isPhase
      cases stepped
      intro ref isOwn stored
      have place := located ref isOwn stored
      rw [isPhase] at place
      exact place.elim
    · cases stepped
  | inspection read =>
    simp only [ingestStep] at stepped
    split at stepped
    · rename_i isPhase
      cases stepped
      intro ref isOwn stored
      have place := located ref isOwn stored
      rw [isPhase] at place
      exact place.elim
    · cases stepped
  | store call =>
    simp only [ingestStep] at stepped
    split at stepped
    · rename_i ref left isPhase
      cases stepped
      simp only [Recoverable, isPhase] at recoverable
      exact upload_located located isPhase recoverable
    · rename_i ref isPhase
      cases stepped
      simp only [Assumed, isPhase] at assumed
      intro other isOwn stored
      have place := located other isOwn (mem_delete stored)
      rw [isPhase] at place
      exact place.resolve_right (ne_of_mem_delete assumed stored)
    · rename_i handling ref left isPhase
      cases stepped
      simp only [Assumed, isPhase] at assumed
      exact delete_located sound fresh located isPhase assumed recoverable
    · cases stepped
  | persist answers cancelled =>
    simp only [ingestStep] at stepped
    split at stepped
    · rename_i isPhase
      cases stepped
      exact persist_located located isPhase assumed
    · cases stepped
  | duplicate found =>
    simp only [ingestStep] at stepped
    split at stepped
    · rename_i isPhase
      cases stepped
      intro ref isOwn stored
      have place := located ref isOwn stored
      rw [isPhase] at place
      cases found <;> exact place
    · cases stepped
  | references read =>
    simp only [ingestStep] at stepped
    split at stepped
    · rename_i handling isPhase
      cases stepped
      have uploaded (ref : ObjectRef) (isOwn : ref ∈ request.refs) (stored : ref ∈ s.objects) :
          ref ∈ s.uploaded := by
        have place := located ref isOwn stored
        rwa [isPhase] at place
      cases read with
      | returns =>
        refine located_next handling fun ref isOwn stored => ?_
        by_cases isRow : ref ∈ s.rows
        · exact .inl isRow
        · exact .inr (List.mem_filter.mpr ⟨uploaded ref isOwn stored, decide_eq_true isRow⟩)
      | raises => exact absurd rfl assumed
      | cancelled =>
        intro ref isOwn stored
        cases handling with
        | true => exact recoverable isPhase rfl ref (uploaded ref isOwn stored) stored
        | false => exact uploaded ref isOwn stored
    · cases stepped

/-- A step that is not recoverable leaves an object behind. -/
theorem step_orphans {request : IngestRequest} {objects rows : List ObjectRef} {s t : Ingest}
    (sound : IngestInvariant request objects rows s) (fresh : FreshKeys request objects rows)
    {reply : Reply} (lost : ¬ Recoverable s reply)
    (stepped : ingestStep request s reply = some t) : Orphaned request t := by
  have placed := sound.placed
  unfold Placed at placed
  cases reply with
  | store call =>
    simp only [ingestStep] at stepped
    split at stepped
    · rename_i ref left isPhase
      cases stepped
      simp only [Recoverable, isPhase, ne_eq, not_not] at lost
      subst lost
      rw [isPhase] at placed
      obtain ⟨split, oldRows, -⟩ := placed
      have isOwn : ref ∈ request.refs := split ▸ List.mem_append_right _ List.mem_cons_self
      refine ⟨ref, isOwn, List.mem_append_right _ List.mem_cons_self, ?_, fun uploaded => ?_⟩
      · exact fun isRow => fresh.unreferenced ref isOwn (oldRows ▸ isRow)
      · exact (List.nodup_append.mp (split ▸ fresh.distinct)).2.2 ref uploaded ref List.mem_cons_self rfl
    · rename_i isPhase
      simp [Recoverable, isPhase] at lost
    · rename_i handling ref left isPhase
      cases stepped
      rw [isPhase] at placed
      obtain ⟨uploaded, unreferred⟩ := placed
      have apart := List.nodup_cons.mp ((fresh.distinct.sublist sound.own).sublist uploaded)
      simp only [Recoverable, isPhase] at lost
      have left_over (isLost : ¬ ∀ other ∈ left, other ∉ s.objects) :
          ∃ other ∈ request.refs, other ∈ (s.delete ref call).objects ∧ other ∉ s.rows := by
        push Not at isLost
        obtain ⟨other, isLeft, stored⟩ := isLost
        refine ⟨other, sound.own.subset (uploaded.subset (List.mem_cons_of_mem ref isLeft)),
          mem_delete_of_ne call stored fun same => apart.1 (same ▸ isLeft),
          unreferred other (List.mem_cons_of_mem ref isLeft)⟩
      cases handling with
      | false => exact absurd trivial lost
      | true =>
        cases call with
        | returns | raises => exact absurd trivial lost
        | cancelled | abandoned =>
          obtain ⟨other, isOwn, stored, unreferred⟩ := left_over lost
          exact ⟨other, isOwn, stored, unreferred, trivial⟩
    · cases stepped
  | references read =>
    simp only [Recoverable] at lost
    push Not at lost
    obtain ⟨isPhase, rfl, ref, uploaded, stored, unreferred⟩ := lost
    simp only [ingestStep, isPhase, Option.some.injEq] at stepped
    subst stepped
    exact ⟨ref, sound.own.subset uploaded, stored, unreferred, trivial⟩
  | preflight | inspection | persist | duplicate => exact absurd trivial lost

theorem orphaned_next {request : IngestRequest} {s : Ingest} {ref : ObjectRef} (isOwn : ref ∈ request.refs)
    (stored : ref ∈ s.objects) (unreferred : ref ∉ s.rows) {left : List ObjectRef} (unknown : ref ∉ left) :
    Orphaned request { s with phase := deleteNext true left } := by
  cases left with
  | nil => exact ⟨ref, isOwn, stored, unreferred, trivial⟩
  | cons => exact ⟨ref, isOwn, stored, unreferred, unknown⟩

/-- What is left behind stays. -/
theorem orphaned_stays {request : IngestRequest} {s t : Ingest} {reply : Reply}
    (orphaned : Orphaned request s) (stepped : ingestStep request s reply = some t) :
    Orphaned request t := by
  obtain ⟨ref, isOwn, stored, unreferred, unknown⟩ := orphaned
  split at unknown
  · rename_i isPhase
    cases reply with
    | references read =>
      simp only [ingestStep, isPhase, Option.some.injEq] at stepped
      subst stepped
      cases read with
      | returns =>
        exact orphaned_next isOwn stored unreferred fun isLeft => unknown (List.mem_filter.mp isLeft).1
      | raises | cancelled => exact ⟨ref, isOwn, stored, unreferred, trivial⟩
    | _ => simp [ingestStep, isPhase] at stepped
  · rename_i other left isPhase
    cases reply with
    | store call =>
      simp only [ingestStep, isPhase, Option.some.injEq] at stepped
      subst stepped
      obtain ⟨isOther, isRest⟩ := not_or.mp (mt List.mem_cons.mpr unknown)
      have stays := mem_delete_of_ne call stored isOther
      cases call with
      | returns | raises => exact orphaned_next (s := s.delete other _) isOwn stays unreferred isRest
      | cancelled | abandoned => exact ⟨ref, isOwn, stays, unreferred, trivial⟩
    | _ => simp [ingestStep, isPhase] at stepped
  · rename_i isPhase
    cases reply <;> simp [ingestStep, isPhase] at stepped
  · exact unknown.elim

theorem begin_located {request : IngestRequest} {objects rows : List ObjectRef}
    (fresh : FreshKeys request objects rows) : Located request (request.begin objects rows) :=
  fun ref isOwn stored => absurd stored (fresh.unstored ref isOwn)

/-! ### Runs -/

/-- A request that ran so far: every step was recoverable, or something is left over for good. -/
def Followed (request : IngestRequest) (objects rows : List ObjectRef) (s : Ingest) : Prop :=
  IngestInvariant request objects rows s ∧
    (Located request s ∧ Run (ingestStep request) (fun s reply => Assumed s reply ∧ Recoverable s reply)
      (request.begin objects rows) s ∨ Orphaned request s)

theorem followed_run {request : IngestRequest} {objects rows : List ObjectRef}
    (fresh : FreshKeys request objects rows) {s : Ingest}
    (run : Run (ingestStep request) Assumed (request.begin objects rows) s) :
    Followed request objects rows s := by
  refine run.invariant ?_ ⟨begin_sound request objects rows, .inl ⟨begin_located fresh, .refl _⟩⟩
  rintro s reply t ⟨sound, ⟨located, recovers⟩ | orphaned⟩ assumed stepped
  · refine ⟨step_sound sound fresh stepped, ?_⟩
    by_cases recoverable : Recoverable s reply
    · exact .inl ⟨step_located sound fresh located assumed recoverable stepped,
        recovers.tail ⟨assumed, recoverable⟩ stepped⟩
    · exact .inr (step_orphans sound fresh recoverable stepped)
  · exact ⟨step_sound sound fresh stepped, .inr (orphaned_stays orphaned stepped)⟩

/-- What recoverable steps keep track of. -/
structure Recovered (request : IngestRequest) (objects rows : List ObjectRef) (s : Ingest) : Prop where
  sound : IngestInvariant request objects rows s
  located : Located request s

theorem recovered_run {request : IngestRequest} {objects rows : List ObjectRef}
    (fresh : FreshKeys request objects rows) {s : Ingest}
    (run : Run (ingestStep request) (fun s reply => Assumed s reply ∧ Recoverable s reply)
      (request.begin objects rows) s) : Recovered request objects rows s := by
  refine run.invariant ?_ ⟨begin_sound request objects rows, begin_located fresh⟩
  rintro s reply t ⟨sound, located⟩ ⟨assumed, recoverable⟩ stepped
  exact ⟨step_sound sound fresh stepped, step_located sound fresh located assumed recoverable stepped⟩

/-- **Upload cleanup**: when a request ends, no object that a row refers to is missing; and every object
it stored is referred to or deleted iff the request could recover from each of its cancellations. -/
theorem upload_cleanup {request : IngestRequest} {objects rows : List ObjectRef}
    (fresh : FreshKeys request objects rows) {s : Ingest} {returned : Bool}
    (run : Run (ingestStep request) Assumed (request.begin objects rows) s)
    (ended : s.phase = .ended returned) :
    (NothingLost objects rows s ∧ NothingLeft request s) ↔
      Run (ingestStep request) (fun s reply => Assumed s reply ∧ Recoverable s reply)
        (request.begin objects rows) s := by
  obtain ⟨sound, place⟩ := followed_run fresh run
  constructor
  · rintro ⟨-, nothingLeft⟩
    rcases place with ⟨-, recovers⟩ | ⟨ref, isOwn, stored, unreferred, -⟩
    · exact recovers
    · exact absurd (nothingLeft ref isOwn stored) unreferred
  · intro recovers
    refine ⟨sound.kept, fun ref isOwn stored => ?_⟩
    have place := (recovered_run fresh recovers).located ref isOwn stored
    rwa [ended] at place

/-! ### Two pictures -/

def picturesRequest : IngestRequest where
  runId := "r1"
  externalEventId := some "x1"
  parts := []
  uploads := [pictureUpload, pictureUpload]
  limits := uploadLimits
  bucket := "psop"
  uuids index := if index = 0 then "u0" else "u1"

/-- The run ends while the files are stored. -/
def lateAnswers : PersistAnswers where
  queried := .returns
  runFound := true
  stored := none
  acceptsInput := false
  artifactIds _ := "a1"
  flushed := .returns
  storedMeanwhile := none
  appended := .returns
  committed := .returns
  landed := false
  responded := .returns
  partArtifacts := []

def picturesStored : List Reply :=
  [.preflight (.returns false), .inspection (.returns ()), .store .returns, .store .returns]

theorem pictures_fresh : FreshKeys picturesRequest [] [] :=
  ⟨by decide +kernel, fun _ _ => List.not_mem_nil, fun _ _ => List.not_mem_nil⟩

/-- Both pictures are deleted where the request fails undisturbed. -/
theorem pictures_cleaned_up : ∃ s, s.phase = .ended false ∧ s.objects = [] ∧
    (NothingLost [] [] s ∧ NothingLeft picturesRequest s ↔
      Run (ingestStep picturesRequest) (fun s reply => Assumed s reply ∧ Recoverable s reply)
        (picturesRequest.begin [] []) s) := by
  have followed : (follow (ingestStep picturesRequest) Assumed (picturesRequest.begin [] [])
      (picturesStored ++ [Reply.persist lateAnswers false, .references (.returns ()), .store .returns,
        .store .returns])).any (fun s => s.phase = .ended false ∧ s.objects = []) = true := by
    decide +kernel
  obtain ⟨s, ran, checked⟩ := (Option.any_eq_true ..).mp followed
  obtain ⟨ended, gone⟩ := of_decide_eq_true checked
  exact ⟨s, ended, gone, upload_cleanup pictures_fresh (run_of_follow ran) ended⟩

/-- A cancellation while the failure is handled leaves both pictures in the store. -/
theorem pictures_left_over : ¬ ∀ (request : IngestRequest) (objects rows : List ObjectRef) (s : Ingest)
    (returned : Bool), FreshKeys request objects rows →
    Run (ingestStep request) Assumed (request.begin objects rows) s → s.phase = .ended returned →
    NothingLost objects rows s ∧ NothingLeft request s := by
  intro holds
  have followed : (follow (ingestStep picturesRequest) Assumed (picturesRequest.begin [] [])
      (picturesStored ++ [Reply.persist lateAnswers false, .references .cancelled])).any (fun s =>
        s.phase = .ended false ∧ ∃ ref ∈ picturesRequest.refs, ref ∈ s.objects ∧ ref ∉ s.rows) = true := by
    decide +kernel
  obtain ⟨s, ran, checked⟩ := (Option.any_eq_true ..).mp followed
  obtain ⟨ended, ref, isOwn, stored, unreferred⟩ := of_decide_eq_true checked
  have cleaned := holds picturesRequest [] [] s false pictures_fresh (run_of_follow ran) ended
  exact unreferred (cleaned.2 ref isOwn stored)

end Psop.Runtime
