import Psop.Calendar
import Psop.Dict
import Psop.Runtime.TaskStatus
import Mathlib.Data.List.Sort
import Mathlib.Data.Prod.Lex
import Mathlib.Data.Set.Finite.Lemmas

/-!
What the browser shows of a run (`static/js/utils/runtime-events.js`), from deliveries that come in
any order and more than once.

Task statuses are kept one at a time: `shouldReplaceTaskStatus` takes a later snapshot, and of one
snapshot the greater text of `updated_at`. The texts order the statuses as `DateTime.written` does,
so what is shown last is the greatest in that order, and it is the latest exactly where no status
of the last second without a fraction masks it (`shown_latest_iff`). Events are merged by their
number; deliveries of the same events give the same list (`merged_events`).
-/
namespace Psop.Client

open Psop.Runtime (TaskStatus)

/-! ### Task statuses -/

/-- What `_build_run_task_status_response` answers with: the projection and the run's
`updated_at`. -/
structure TaskStatusResponse where
  status : TaskStatus
  updatedAt : DateTime

/-- A delivered status. -/
structure Delivered where
  runId : String
  snapshotSeq : Nat
  updatedAt : String
  status : TaskStatus

/-- The response on the wire. -/
def serialise (response : TaskStatusResponse) : Delivered where
  runId := response.status.runId
  snapshotSeq := response.status.snapshotSeq
  updatedAt := response.updatedAt.isoformat
  status := response.status

def shouldReplaceTaskStatus (current incoming : Option Delivered) : Bool :=
  match incoming with
  | none => false
  | some incoming =>
    if incoming.runId = "" then false
    else match current with
      | none => true
      | some current =>
        if current.runId ≠ incoming.runId then true
        else if incoming.snapshotSeq ≠ current.snapshotSeq then
          current.snapshotSeq < incoming.snapshotSeq
        else Text.codesLt (Text.codes current.updatedAt) (Text.codes incoming.updatedAt)

/-- A delivery to a client that shows a status, or none yet. -/
def deliver (shown : Option Delivered) (incoming : Delivered) : Option Delivered :=
  if shouldReplaceTaskStatus shown (some incoming) then some incoming else shown

/-- What is shown after a list of deliveries. -/
def shownAfter (responses : List TaskStatusResponse) : Option Delivered :=
  (responses.map serialise).foldl deliver none

/-- The snapshot number and the instant. -/
def TaskStatusResponse.latest (response : TaskStatusResponse) : Nat ×ₗ (List Nat ×ₗ Nat) :=
  toLex (response.status.snapshotSeq, response.updatedAt.moment)

/-- The snapshot number and the text of the instant. -/
def TaskStatusResponse.shown (response : TaskStatusResponse) : Nat ×ₗ (List Nat ×ₗ Nat) :=
  toLex (response.status.snapshotSeq, response.updatedAt.written)

/-- The client shows a delivered status with the greatest snapshot number and instant. -/
def ShowsLatest (responses : List TaskStatusResponse) : Prop :=
  ∃ response ∈ responses, shownAfter responses = some (serialise response) ∧
    ∀ other ∈ responses, other.latest ≤ response.latest

/-- A status of the latest snapshot and second has no fraction, and the latest one has. -/
def Masked (responses : List TaskStatusResponse) : Prop :=
  ∃ response ∈ responses, (∀ other ∈ responses, other.latest ≤ response.latest) ∧
    response.updatedAt.microsecond ≠ 0 ∧ ∃ other ∈ responses,
      other.status.snapshotSeq = response.status.snapshotSeq ∧
        other.updatedAt.clock = response.updatedAt.clock ∧ other.updatedAt.microsecond = 0

/-- Responses of one run. -/
def OneRun (runId : String) (responses : List TaskStatusResponse) : Prop :=
  runId ≠ "" ∧ ∀ response ∈ responses, response.status.runId = runId

theorem replaces_iff {runId : String} {current incoming : TaskStatusResponse} (known : runId ≠ "")
    (isCurrent : current.status.runId = runId) (isIncoming : incoming.status.runId = runId) :
    shouldReplaceTaskStatus (some (serialise current)) (some (serialise incoming)) = true ↔
      current.shown < incoming.shown := by
  rw [TaskStatusResponse.shown, TaskStatusResponse.shown, Prod.Lex.toLex_lt_toLex]
  simp only [shouldReplaceTaskStatus, serialise, isCurrent, isIncoming, known, ne_eq,
    not_true_eq_false, if_false]
  split
  · rename_i differs
    rw [decide_eq_true_eq]
    exact ⟨.inl, fun order => order.resolve_right fun same => differs same.1.symm⟩
  · rename_i same
    rw [DateTime.iso_lt_iff]
    have same := (not_not.mp same).symm
    exact ⟨fun less => .inr ⟨same, less⟩, fun order =>
      (order.resolve_left fun less => absurd same (Nat.ne_of_lt less)).2⟩

/-- One more delivery. -/
theorem deliver_spec {runId : String} {current incoming : TaskStatusResponse}
    (known : runId ≠ "") (isCurrent : current.status.runId = runId)
    (isIncoming : incoming.status.runId = runId) :
    deliver (some (serialise current)) (serialise incoming) =
      some (serialise (if current.shown < incoming.shown then incoming else current)) := by
  rw [deliver]
  by_cases less : current.shown < incoming.shown
  · rw [if_pos ((replaces_iff known isCurrent isIncoming).mpr less), if_pos less]
  · rw [if_neg fun replaces => less ((replaces_iff known isCurrent isIncoming).mp replaces),
      if_neg less]

/-- Deliveries after a first one leave the greatest text. -/
theorem deliveries_spec {runId : String} (known : runId ≠ "")
    (responses : List TaskStatusResponse) {current : TaskStatusResponse}
    (isCurrent : current.status.runId = runId)
    (ofRun : ∀ response ∈ responses, response.status.runId = runId) :
    ∃ response ∈ current :: responses,
      (responses.map serialise).foldl deliver (some (serialise current)) =
        some (serialise response) ∧
      ∀ other ∈ current :: responses, other.shown ≤ response.shown := by
  induction responses generalizing current with
  | nil =>
    refine ⟨current, List.mem_cons_self, rfl, fun other isIn => ?_⟩
    rw [List.mem_singleton.mp isIn]
  | cons incoming responses ih =>
    have isIncoming := ofRun incoming List.mem_cons_self
    have rest : ∀ response ∈ responses, response.status.runId = runId := fun response isIn =>
      ofRun response (List.mem_cons_of_mem _ isIn)
    rw [List.map_cons, List.foldl_cons, deliver_spec known isCurrent isIncoming]
    by_cases less : current.shown < incoming.shown
    · rw [if_pos less]
      obtain ⟨response, isIn, shows, greatest⟩ := ih isIncoming rest
      refine ⟨response, List.mem_cons_of_mem _ isIn, shows, fun other isOther => ?_⟩
      rcases List.mem_cons.mp isOther with rfl | later
      · exact le_of_lt (lt_of_lt_of_le less (greatest incoming List.mem_cons_self))
      · exact greatest other later
    · rw [if_neg less]
      obtain ⟨response, isIn, shows, greatest⟩ := ih isCurrent rest
      have keeps := greatest current List.mem_cons_self
      refine ⟨response, ?_, shows, fun other isOther => ?_⟩
      · rcases List.mem_cons.mp isIn with rfl | later
        · exact List.mem_cons_self
        · exact List.mem_cons_of_mem _ (List.mem_cons_of_mem _ later)
      · rcases List.mem_cons.mp isOther with rfl | later
        · exact keeps
        · rcases List.mem_cons.mp later with rfl | last
          · exact le_trans (not_lt.mp less) keeps
          · exact greatest other (List.mem_cons_of_mem _ last)

/-- What is shown is the greatest in the order of the texts. -/
theorem shown_greatest {runId : String} {responses : List TaskStatusResponse}
    (oneRun : OneRun runId responses) (some_ : responses ≠ []) :
    ∃ response ∈ responses, shownAfter responses = some (serialise response) ∧
      ∀ other ∈ responses, other.shown ≤ response.shown := by
  obtain ⟨known, ofRun⟩ := oneRun
  cases responses with
  | nil => exact absurd rfl some_
  | cons first rest =>
    have isFirst := ofRun first List.mem_cons_self
    have opens : deliver none (serialise first) = some (serialise first) := by
      rw [deliver, if_pos]
      simp [shouldReplaceTaskStatus, serialise, isFirst, known]
    rw [shownAfter, List.map_cons, List.foldl_cons, opens]
    exact deliveries_spec known rest isFirst fun response isIn =>
      ofRun response (List.mem_cons_of_mem _ isIn)

theorem latest_le {a b : TaskStatusResponse} : a.latest ≤ b.latest ↔
    a.status.snapshotSeq < b.status.snapshotSeq ∨
      a.status.snapshotSeq = b.status.snapshotSeq ∧
        (a.updatedAt.clock < b.updatedAt.clock ∨ a.updatedAt.clock = b.updatedAt.clock ∧
          a.updatedAt.microsecond ≤ b.updatedAt.microsecond) := by
  rw [TaskStatusResponse.latest, TaskStatusResponse.latest, Prod.Lex.toLex_le_toLex,
    DateTime.moment, DateTime.moment, Prod.Lex.toLex_le_toLex]

theorem shown_le {a b : TaskStatusResponse} : a.shown ≤ b.shown ↔
    a.status.snapshotSeq < b.status.snapshotSeq ∨
      a.status.snapshotSeq = b.status.snapshotSeq ∧
        (a.updatedAt.clock < b.updatedAt.clock ∨ a.updatedAt.clock = b.updatedAt.clock ∧
          DateTime.place a.updatedAt.microsecond ≤ DateTime.place b.updatedAt.microsecond) := by
  rw [TaskStatusResponse.shown, TaskStatusResponse.shown, Prod.Lex.toLex_le_toLex,
    DateTime.written, DateTime.written, Prod.Lex.toLex_le_toLex]

theorem shown_of_serialise {a b : TaskStatusResponse} (same : serialise a = serialise b) :
    a.shown = b.shown := by
  obtain ⟨-, sameSeq, sameText, -⟩ := Delivered.mk.inj same
  have sameWritten : a.updatedAt.written = b.updatedAt.written := by
    apply le_antisymm
    · rw [← not_lt, ← DateTime.iso_lt_iff, sameText, DateTime.iso_lt_iff]
      exact lt_irrefl _
    · rw [← not_lt, ← DateTime.iso_lt_iff, sameText, DateTime.iso_lt_iff]
      exact lt_irrefl _
  rw [TaskStatusResponse.shown, TaskStatusResponse.shown, sameSeq, sameWritten]

/-- Two statuses, one the later and the other shown in its place, share snapshot and second. -/
theorem same_second {a b : TaskStatusResponse} (later : a.latest ≤ b.latest)
    (shows : b.shown ≤ a.shown) : a.status.snapshotSeq = b.status.snapshotSeq ∧
      a.updatedAt.clock = b.updatedAt.clock ∧
        a.updatedAt.microsecond ≤ b.updatedAt.microsecond ∧
        DateTime.place b.updatedAt.microsecond ≤ DateTime.place a.updatedAt.microsecond := by
  rw [latest_le] at later
  rw [shown_le] at shows
  rcases later with less | ⟨same, inSecond⟩
  · rcases shows with more | ⟨same, -⟩
    · exact absurd (Nat.lt_trans less more) (Nat.lt_irrefl _)
    · exact absurd same (Nat.ne_of_gt less)
  rcases shows with more | ⟨-, atSecond⟩
  · exact absurd same (Nat.ne_of_gt more)
  refine ⟨same, ?_⟩
  rcases inSecond with less | ⟨sameClock, fraction⟩
  · rcases atSecond with more | ⟨sameClock, -⟩
    · exact absurd (lt_trans less more) (lt_irrefl _)
    · exact absurd sameClock (ne_of_gt less)
  · rcases atSecond with more | ⟨-, placed⟩
    · exact absurd sameClock (ne_of_gt more)
    · exact ⟨sameClock, fraction, placed⟩

/-- The client shows the latest status exactly where no status without a fraction masks it. -/
theorem shown_latest_iff {runId : String} {responses : List TaskStatusResponse}
    (oneRun : OneRun runId responses) (some_ : responses ≠ []) :
    ShowsLatest responses ↔ ¬Masked responses := by
  obtain ⟨response, isIn, shows, greatest⟩ := shown_greatest oneRun some_
  constructor
  · rintro ⟨shown, isShown, shownIs, latest⟩ ⟨last, isLast, lastLatest, fraction, other, isOther,
      sameSeq, sameClock, whole⟩
    have sameShown : shown.shown = response.shown := shown_of_serialise
      (Option.some.inj (shownIs.symm.trans shows))
    have same : shown.latest = last.latest :=
      le_antisymm (lastLatest shown isShown) (latest last isLast)
    obtain ⟨shownSeq, inSecond⟩ := Prod.mk.inj (toLex.injective same)
    obtain ⟨shownClock, shownFraction⟩ := Prod.mk.inj (toLex.injective inSecond)
    have below := greatest other isOther
    rw [← sameShown, shown_le, shownSeq, sameSeq, shownClock, sameClock, shownFraction, whole,
      DateTime.place, DateTime.place, if_pos rfl, if_neg fraction] at below
    have bound := last.updatedAt.microsecond_lt
    rcases below with less | ⟨-, less | ⟨-, placed⟩⟩
    · exact Nat.lt_irrefl _ less
    · exact lt_irrefl _ less
    · omega
  · intro clear
    obtain ⟨last, isLast, lastLatest⟩ := Set.exists_max_image {r | r ∈ responses}
      TaskStatusResponse.latest (List.finite_toSet responses) ⟨response, isIn⟩
    obtain ⟨sameSeq, sameClock, fraction, placed⟩ :=
      same_second (lastLatest response isIn) (greatest last isLast)
    refine ⟨response, isIn, shows, fun other isOther => ?_⟩
    have most := lastLatest other isOther
    have equal : response.updatedAt.microsecond = last.updatedAt.microsecond := by
      by_cases whole : last.updatedAt.microsecond = 0
      · omega
      · have some : response.updatedAt.microsecond ≠ 0 := fun none => clear
          ⟨last, isLast, lastLatest, whole, response, isIn, sameSeq, sameClock, none⟩
        rw [DateTime.place, DateTime.place, if_neg whole, if_neg some] at placed
        omega
    have same : response.latest = last.latest := by
      rw [TaskStatusResponse.latest, TaskStatusResponse.latest, DateTime.moment, DateTime.moment,
        sameSeq, sameClock, equal]
    rw [same]
    exact most

/-! ### Events -/

/-- An event: its number and its other fields. -/
structure Event where
  seqNo : Nat
  body : Dict String Json

/-- `{ ...(map.get(seq) || {}), ...item }` -/
def spread (known : Option Event) (item : Event) : Event where
  seqNo := item.seqNo
  body := (match known with
    | none => Dict.empty
    | some event => event.body).union item.body

def mergeBySeq (existing incoming : List Event) : List Event :=
  let map := existing.foldl (fun map item => map.put item.seqNo item) (Dict.empty : Dict Nat Event)
  let map := incoming.foldl (fun map item =>
    map.put item.seqNo (spread (map.get? item.seqNo) item)) map
  (map.entries.map Prod.snd).mergeSort fun a b => a.seqNo ≤ b.seqNo

/-- The list after a list of deliveries, each of some events. -/
def mergedAfter (deliveries : List (List Event)) : List Event := deliveries.foldl mergeBySeq []

/-- Events of one number are one event. -/
def Immutable (events : Event → Prop) : Prop :=
  ∀ a b, events a → events b → a.seqNo = b.seqNo → a = b

theorem spread_none (item : Event) : spread none item = item := by
  rw [spread, Dict.union_empty]

theorem spread_self (item : Event) : spread (some item) item = item := by
  rw [spread, Dict.union_self]

/-- A map that holds events, each under its own number. -/
def Holds (map : Dict Nat Event) (events : Event → Prop) : Prop :=
  ∀ k event, map.get? k = some event ↔ events event ∧ event.seqNo = k

theorem holds_put {map : Dict Nat Event} {events : Event → Prop} {item : Event}
    (holds : Holds map events) (immutable : Immutable fun e => events e ∨ e = item) :
    Holds (map.put item.seqNo item) fun e => events e ∨ e = item := by
  intro k event
  by_cases same : item.seqNo = k
  · subst same
    rw [Dict.get_put_same, Option.some_inj]
    constructor
    · rintro rfl
      exact ⟨.inr rfl, rfl⟩
    · rintro ⟨isIn, sameSeq⟩
      exact immutable item event (.inr rfl) isIn sameSeq.symm
  · rw [Dict.get_put_other same, holds]
    constructor
    · rintro ⟨isIn, isKey⟩
      exact ⟨.inl isIn, isKey⟩
    · rintro ⟨isIn | rfl, isKey⟩
      · exact ⟨isIn, isKey⟩
      · exact absurd isKey same

/-- What is there under the item's number is the item. -/
theorem spread_known {map : Dict Nat Event} {events : Event → Prop} {item : Event}
    (holds : Holds map events) (immutable : Immutable fun e => events e ∨ e = item) :
    spread (map.get? item.seqNo) item = item := by
  cases found : map.get? item.seqNo with
  | none => exact spread_none item
  | some event =>
    obtain ⟨isIn, sameSeq⟩ := (holds _ _).mp found
    rw [immutable event item (.inl isIn) (.inr rfl) sameSeq, spread_self]

theorem holds_congr {map : Dict Nat Event} {events others : Event → Prop}
    (holds : Holds map events) (same : ∀ e, events e ↔ others e) : Holds map others := by
  intro k event
  rw [holds, same]

/-- Putting events one after the other, as either loop does. -/
theorem holds_loop (put : Dict Nat Event → Event → Dict Nat Event) (items : List Event)
    {map : Dict Nat Event} {events : Event → Prop} (holds : Holds map events)
    (puts : ∀ {map : Dict Nat Event} {events : Event → Prop} {item : Event}, Holds map events →
      Immutable (fun e => events e ∨ e = item) → put map item = map.put item.seqNo item)
    (immutable : Immutable fun e => events e ∨ e ∈ items) :
    Holds (items.foldl put map) fun e => events e ∨ e ∈ items := by
  induction items generalizing map events with
  | nil => exact holds_congr holds (by simp)
  | cons item items ih =>
    have first : Immutable fun e => events e ∨ e = item := by
      intro a b isA isB
      apply immutable a b
      · exact isA.imp_right fun same : a = item => same ▸ List.mem_cons_self
      · exact isB.imp_right fun same : b = item => same ▸ List.mem_cons_self
    have regroup : ∀ e, ((events e ∨ e = item) ∨ e ∈ items) ↔ events e ∨ e ∈ item :: items := by
      intro e
      rw [List.mem_cons, or_assoc]
    rw [List.foldl_cons, puts holds first]
    refine holds_congr (ih (holds_put holds first) fun a b isA isB => ?_) regroup
    exact immutable a b ((regroup a).mp isA) ((regroup b).mp isB)

/-- The list has the events of the map, by increasing number. -/
theorem sorted_values {map : Dict Nat Event} {events : Event → Prop} (holds : Holds map events) :
    ((map.entries.map Prod.snd).mergeSort fun a b => a.seqNo ≤ b.seqNo).Pairwise
        (fun a b => a.seqNo < b.seqNo) ∧
      ∀ e, (e ∈ (map.entries.map Prod.snd).mergeSort fun a b => a.seqNo ≤ b.seqNo) ↔ events e := by
  have own : ∀ entry ∈ map.entries, entry.2.seqNo = entry.1 := fun entry isIn =>
    ((holds _ _).mp (Dict.mem_entries.mp isIn)).2
  have sorted : ((map.entries.map Prod.snd).mergeSort fun a b => a.seqNo ≤ b.seqNo).Pairwise
      fun a b => (a.seqNo ≤ b.seqNo : Bool) := by
    apply List.pairwise_mergeSort
    · intro a b c first second
      rw [decide_eq_true_eq] at *
      exact Nat.le_trans first second
    · intro a b
      rw [Bool.or_eq_true, decide_eq_true_eq, decide_eq_true_eq]
      exact Nat.le_total _ _
  have distinct : ((map.entries.map Prod.snd).mergeSort fun a b => a.seqNo ≤ b.seqNo).Pairwise
      fun a b => a.seqNo ≠ b.seqNo := by
    have keys : (map.entries.map fun entry => entry.2.seqNo).Nodup := by
      rw [List.map_congr_left own]
      exact map.distinct
    rw [List.Nodup, List.pairwise_map] at keys
    refine (List.Perm.pairwise_iff (fun {a b} differs => Ne.symm differs)
      (List.mergeSort_perm _ _)).mpr ?_
    rw [List.pairwise_map]
    exact keys
  refine ⟨?_, fun e => ?_⟩
  · refine (sorted.and distinct).imp fun {a b} both => ?_
    exact Nat.lt_of_le_of_ne (of_decide_eq_true both.1) both.2
  · rw [List.mem_mergeSort, List.mem_map]
    constructor
    · rintro ⟨⟨k, event⟩, isIn, rfl⟩
      exact ((holds _ _).mp (Dict.mem_entries.mp isIn)).1
    · intro isIn
      exact ⟨(e.seqNo, e), Dict.mem_entries.mpr ((holds _ _).mpr ⟨isIn, rfl⟩), rfl⟩

/-- **One merge** has the events of both lists, by increasing number. -/
theorem merge_by_seq_spec {existing incoming : List Event}
    (immutable : Immutable fun e => e ∈ existing ∨ e ∈ incoming) :
    (mergeBySeq existing incoming).Pairwise (fun a b => a.seqNo < b.seqNo) ∧
      ∀ e, e ∈ mergeBySeq existing incoming ↔ e ∈ existing ∨ e ∈ incoming := by
  have nothing : Holds Dict.empty fun _ => False := by
    intro k event
    rw [Dict.get_empty]
    simp
  have first := holds_loop (fun map item => map.put item.seqNo item) existing nothing (fun _ _ => rfl) (by
    intro a b isA isB
    exact immutable a b (.inl (isA.resolve_left id)) (.inl (isB.resolve_left id)))
  have both := holds_loop (fun map item =>
      map.put item.seqNo (spread (map.get? item.seqNo) item)) incoming (holds_congr first fun e => by rw [false_or])
    (fun holds immutable => by rw [spread_known holds immutable]) immutable
  exact sorted_values both

/-- A run of merges has the events delivered so far. -/
theorem merged_run (deliveries : List (List Event)) {merged : List Event} {events : Event → Prop}
    (sorted : merged.Pairwise fun a b => a.seqNo < b.seqNo)
    (isMerged : ∀ e, e ∈ merged ↔ events e)
    (immutable : Immutable fun e => events e ∨ ∃ batch ∈ deliveries, e ∈ batch) :
    (deliveries.foldl mergeBySeq merged).Pairwise (fun a b => a.seqNo < b.seqNo) ∧
      ∀ e, e ∈ deliveries.foldl mergeBySeq merged ↔
        events e ∨ ∃ batch ∈ deliveries, e ∈ batch := by
  induction deliveries generalizing merged events with
  | nil => exact ⟨sorted, fun e => by simp [isMerged]⟩
  | cons batch deliveries ih =>
    have step := @merge_by_seq_spec merged batch (by
      intro a b isA isB
      apply immutable a b
      · exact isA.imp (isMerged a).mp fun isIn => ⟨batch, List.mem_cons_self, isIn⟩
      · exact isB.imp (isMerged b).mp fun isIn => ⟨batch, List.mem_cons_self, isIn⟩)
    have regroup : ∀ e, ((events e ∨ e ∈ batch) ∨ ∃ later ∈ deliveries, e ∈ later) ↔
        events e ∨ ∃ later ∈ batch :: deliveries, e ∈ later := by
      intro e
      rw [or_assoc, List.exists_mem_cons_iff]
    have rest := ih step.1 (fun e => (step.2 e).trans (or_congr (isMerged e) Iff.rfl)) (by
      intro a b isA isB
      exact immutable a b ((regroup a).mp isA) ((regroup b).mp isB))
    exact ⟨rest.1, fun e => (rest.2 e).trans (regroup e)⟩

/-! ### Both views -/

/-- A merged list is to be the one list of the delivered events, by increasing number. -/
structure Merges (deliveries : List (List Event)) : Prop where
  increasing : (mergedAfter deliveries).Pairwise fun a b => a.seqNo < b.seqNo
  numbers : ∀ n, n ∈ (mergedAfter deliveries).map Event.seqNo ↔
    ∃ batch ∈ deliveries, n ∈ batch.map Event.seqNo
  same : ∀ others : List (List Event),
    (∀ e, (∃ batch ∈ others, e ∈ batch) ↔ ∃ batch ∈ deliveries, e ∈ batch) →
      mergedAfter others = mergedAfter deliveries

theorem merged_events {deliveries : List (List Event)}
    (immutable : Immutable fun e => ∃ batch ∈ deliveries, e ∈ batch) : Merges deliveries := by
  have merges : ∀ others : List (List Event),
      (∀ e, (∃ batch ∈ others, e ∈ batch) ↔ ∃ batch ∈ deliveries, e ∈ batch) →
      (mergedAfter others).Pairwise (fun a b => a.seqNo < b.seqNo) ∧
        ∀ e, e ∈ mergedAfter others ↔ ∃ batch ∈ deliveries, e ∈ batch := by
    intro others same
    have run := merged_run others List.Pairwise.nil
      (show ∀ e, e ∈ ([] : List Event) ↔ False from fun e => by simp) (by
        intro a b isA isB
        exact immutable a b ((same a).mp (isA.resolve_left id)) ((same b).mp (isB.resolve_left id)))
    exact ⟨run.1, fun e => by rw [mergedAfter, run.2 e, false_or, same e]⟩
  obtain ⟨increasing, isMerged⟩ := merges deliveries fun _ => Iff.rfl
  refine ⟨increasing, fun n => ?_, fun others same => ?_⟩
  · simp only [List.mem_map, isMerged]
    constructor
    · rintro ⟨e, ⟨batch, isBatch, isIn⟩, rfl⟩
      exact ⟨batch, isBatch, e, isIn, rfl⟩
    · rintro ⟨batch, isBatch, e, isIn, rfl⟩
      exact ⟨e, ⟨batch, isBatch, isIn⟩, rfl⟩
  · obtain ⟨increasing', isMerged'⟩ := merges others same
    have irreflexive : Std.Irrefl fun a b : Event => a.seqNo < b.seqNo := ⟨fun a => Nat.lt_irrefl _⟩
    have asymmetric : Std.Asymm fun a b : Event => a.seqNo < b.seqNo :=
      ⟨fun a b less => Nat.lt_asymm less⟩
    exact increasing'.eq_of_mem_iff increasing fun e => (isMerged' e).trans (isMerged e).symm

/-- **The client's views.** For every order and repetition of deliveries: the status shown is one
with the greatest snapshot number and instant exactly where none without a fraction masks the
latest, and the events are the delivered ones, by increasing number, whatever the order. -/
theorem client_views (runId : String) (responses : List TaskStatusResponse)
    (deliveries : List (List Event)) :
    (OneRun runId responses → responses ≠ [] → (ShowsLatest responses ↔ ¬Masked responses)) ∧
    ((Immutable fun e => ∃ batch ∈ deliveries, e ∈ batch) → Merges deliveries) :=
  ⟨fun oneRun some => shown_latest_iff oneRun some, merged_events⟩

/-- The status of a run of one snapshot, at an instant. -/
def sampleStatus (microsecond : Nat) (fits : microsecond < 1000000) : TaskStatusResponse where
  status :=
    { runId := "run-1", snapshotSeq := 4, runStatus := .running, activityStatus := "running"
      task := { skillKey := "", skillName := "", versionNo := .null, executionGoal := "" }
      completed := 0, total := 0, percent := 0, currentStageId := "", stages := []
      currentCheckpoint := none }
  updatedAt := ⟨2026, 7, 14, 10, 0, 0, microsecond, by decide, by decide, by decide, by decide,
    by decide, by decide, fits⟩

/-- An event of which only the number counts. -/
def sampleEvent (seqNo : Nat) : Event := ⟨seqNo, .empty⟩

/-- A status and two events, each delivered after a later one. -/
theorem client_views_late :
    ¬Masked [sampleStatus 500000 (by decide), sampleStatus 250000 (by decide)] ∧
    ShowsLatest [sampleStatus 500000 (by decide), sampleStatus 250000 (by decide)] ∧
    Merges [[sampleEvent 2], [sampleEvent 1, sampleEvent 2]] := by
  have oneRun : OneRun "run-1" [sampleStatus 500000 (by decide), sampleStatus 250000 (by decide)] :=
    ⟨by decide, by simp [sampleStatus]⟩
  have unmasked : ¬Masked [sampleStatus 500000 (by decide), sampleStatus 250000 (by decide)] := by
    rintro ⟨_, _, _, _, other, isOther, _, _, whole⟩
    rcases List.mem_cons.mp isOther with rfl | isLast
    · cases whole
    · rw [List.mem_singleton.mp isLast] at whole
      cases whole
  have immutable : Immutable fun e =>
      ∃ batch ∈ [[sampleEvent 2], [sampleEvent 1, sampleEvent 2]], e ∈ batch := by
    have numbered : ∀ e, (∃ batch ∈ [[sampleEvent 2], [sampleEvent 1, sampleEvent 2]], e ∈ batch) →
        e = sampleEvent e.seqNo := by
      rintro e ⟨batch, isBatch, isIn⟩
      simp only [List.mem_cons, List.not_mem_nil, or_false] at isBatch
      rcases isBatch with rfl | rfl <;> simp only [List.mem_cons, List.not_mem_nil, or_false] at isIn
      · rw [isIn]
        rfl
      · rcases isIn with rfl | rfl <;> rfl
    intro a b isA isB same
    rw [numbered a isA, numbered b isB, same]
  have views := client_views "run-1" [sampleStatus 500000 (by decide), sampleStatus 250000 (by decide)]
    [[sampleEvent 2], [sampleEvent 1, sampleEvent 2]]
  exact ⟨unmasked, (views.1 oneRun (List.cons_ne_nil _ _)).mpr unmasked, views.2 immutable⟩

/-- Half a second later the text is smaller: the earlier status stays. -/
theorem later_status_ignored : ¬∀ (runId : String) (responses : List TaskStatusResponse),
    OneRun runId responses → responses ≠ [] → ShowsLatest responses := by
  intro always
  have oneRun : OneRun "run-1" [sampleStatus 0 (by decide), sampleStatus 500000 (by decide)] :=
    ⟨by decide, by simp [sampleStatus]⟩
  have shows := always _ _ oneRun (List.cons_ne_nil _ _)
  have later : (sampleStatus 0 (by decide)).latest ≤ (sampleStatus 500000 (by decide)).latest := by
    rw [latest_le]
    exact .inr ⟨rfl, .inr ⟨rfl, by decide⟩⟩
  refine (shown_latest_iff oneRun (List.cons_ne_nil _ _)).mp shows
    ⟨sampleStatus 500000 (by decide), by simp, fun other isIn => ?_, by decide,
      sampleStatus 0 (by decide), by simp, rfl, rfl, rfl⟩
  rcases List.mem_cons.mp isIn with rfl | isLast
  · exact later
  · rw [List.mem_singleton.mp isLast]

end Psop.Client
