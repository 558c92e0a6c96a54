import Psop.Client.Events
import Mathlib.Data.List.Nodup

/-!
The events of a run page (`static/js/app/runtime.js`): those the server stored, and the echo of an input
that is being sent.

`mergeTerminalEvents` takes a delivery of stored events into the page. `merge_stored` says what it leaves:
the delivered ones, and of those before the ones under other numbers, less the echoes that the delivery
answers. `nextTerminalReconcileFromSeq` is the first number that is missing (`reconcile_from_spec`).
-/
namespace Psop.Client

/-! ### Reading an event -/

/-- `event._optimistic`: the echo of an input that is being sent. -/
def Event.isOptimistic (event : Event) : Bool := (event.body.get? "_optimistic").any Json.truthy

/-- A field with a text. -/
def Event.text? (key : String) (event : Event) : Option String :=
  ((event.body.get? key).bind Json.str?).filter (· ≠ "")

def Event.id? : Event → Option String := Event.text? "id"

def Event.externalId? : Event → Option String := Event.text? "external_event_id"

/-! ### Merging -/

/-- The numbers that stored events of a delivery have. -/
def realSeqs (incoming : List Event) : List Nat :=
  (incoming.filter fun event => !event.isOptimistic).map Event.seqNo

def realExternalIds (incoming : List Event) : List String :=
  (incoming.filter fun event => !event.isOptimistic).filterMap Event.externalId?

/-- An echo whose number is taken, or whose input was stored. -/
def isReplaced (incoming : List Event) (event : Event) : Bool :=
  event.isOptimistic && (decide (event.seqNo ∈ realSeqs incoming) ||
    event.externalId?.any fun id => decide (id ∈ realExternalIds incoming))

def mergeTerminalEvents (shown incoming : List Event) : List Event :=
  let replacedIds := (shown.filter (isReplaced incoming)).map Event.id?
  mergeBySeq (shown.filter fun event =>
    !decide (event.seqNo ∈ realSeqs incoming) && !decide (event.id? ∈ replacedIds)) incoming

/-- `while (realSeqs.has(expectedSeq)) expectedSeq += 1`: no more often than there are numbers. -/
def firstMissing (seqs : List Nat) : Nat → Nat → Nat
  | 0, expected => expected
  | fuel + 1, expected => if expected ∈ seqs then firstMissing seqs fuel (expected + 1) else expected

def nextTerminalReconcileFromSeq (shown : List Event) : Nat :=
  firstMissing (realSeqs shown) (realSeqs shown).length 1

/-- `Math.max(latest_terminal_seq, ...) + 1` -/
def nextOptimisticTerminalSeq (latest : Nat) (shown : List Event) : Nat :=
  (shown.map Event.seqNo).foldl max latest + 1

/-- `local-terminal-…`: an id that the page gives. -/
def isLocalId (id : String) : Bool := Text.startsWith "local-terminal-" id

/-- `buildOptimisticTerminalInputEvent` -/
def buildOptimisticTerminalInputEvent (id : String) (latest : Nat) (fields : Dict String Json)
    (shown : List Event) : Event where
  seqNo := nextOptimisticTerminalSeq latest shown
  body := ((fields.put "id" (.str id)).put "external_event_id" (.str id)).put "_optimistic" (.bool true)

def removeOptimisticTerminalEvent (eventId : String) (shown : List Event) : List Event :=
  shown.filter fun event => event.id? != some eventId

/-! ### The first missing number -/

theorem first_missing_spec (seqs : List Nat) (fuel expected : Nat) :
    (∀ k, expected ≤ k → k < firstMissing seqs fuel expected → k ∈ seqs) ∧
      (firstMissing seqs fuel expected ∈ seqs → firstMissing seqs fuel expected = expected + fuel) ∧
      expected ≤ firstMissing seqs fuel expected := by
  induction fuel generalizing expected with
  | zero => exact ⟨fun k ge less => absurd less (Nat.not_lt.mpr ge), fun _ => rfl, Nat.le_refl _⟩
  | succ fuel ih =>
    obtain ⟨below, full, above⟩ := ih (expected + 1)
    rw [firstMissing]
    split
    · rename_i isIn
      refine ⟨fun k ge less => ?_, fun taken => (full taken).trans (by omega), by omega⟩
      rcases Nat.eq_or_lt_of_le ge with rfl | more
      · exact isIn
      · exact below k more less
    · rename_i missing
      exact ⟨fun k ge less => absurd less (Nat.not_lt.mpr ge), fun taken => absurd taken missing,
        Nat.le_refl _⟩

/-- **The first missing number**: the page has every number below it, and not it. -/
theorem reconcile_from_spec (shown : List Event) :
    (∀ k, 1 ≤ k → k < nextTerminalReconcileFromSeq shown → k ∈ realSeqs shown) ∧
      nextTerminalReconcileFromSeq shown ∉ realSeqs shown ∧ 1 ≤ nextTerminalReconcileFromSeq shown := by
  obtain ⟨below, full, above⟩ := first_missing_spec (realSeqs shown) (realSeqs shown).length 1
  refine ⟨below, fun taken => ?_, above⟩
  -- one number more than there are would be taken
  have all : List.range' 1 ((realSeqs shown).length + 1) ⊆ realSeqs shown := by
    intro k isIn
    obtain ⟨ge, less⟩ := List.mem_range'_1.mp isIn
    have last : nextTerminalReconcileFromSeq shown = 1 + (realSeqs shown).length := full taken
    rcases Nat.lt_or_ge k (nextTerminalReconcileFromSeq shown) with smaller | _
    · exact below k ge smaller
    · have same : k = nextTerminalReconcileFromSeq shown := by omega
      exact same ▸ taken
  have long := (List.subperm_of_subset List.nodup_range' all).length_le
  rw [List.length_range'] at long
  omega

/-! ### What a merge leaves -/

/-- By increasing number. -/
def Increasing (events : List Event) : Prop := events.Pairwise fun a b => a.seqNo < b.seqNo

theorem Increasing.one {events : List Event} (increasing : Increasing events) {a b : Event}
    (isA : a ∈ events) (isB : b ∈ events) (same : a.seqNo = b.seqNo) : a = b := by
  have numbers : (events.map Event.seqNo).Nodup :=
    (List.pairwise_map.mpr increasing).imp fun less => Nat.ne_of_lt less
  exact List.inj_on_of_nodup_map numbers isA isB same

theorem mem_real_seqs {events : List Event} {k : Nat} :
    k ∈ realSeqs events ↔ ∃ e ∈ events, e.isOptimistic = false ∧ e.seqNo = k := by
  simp [realSeqs, and_assoc]

section Merge

variable {shown incoming : List Event}

/-- A delivery of stored events replaces what has their numbers and the echoes it answers. -/
theorem merge_stored (increasing : Increasing shown) (delivery : Increasing incoming)
    (stored : ∀ e ∈ incoming, e.isOptimistic = false) :
    Increasing (mergeTerminalEvents shown incoming) ∧ ∀ e, e ∈ mergeTerminalEvents shown incoming ↔
      (e ∈ shown ∧ e.seqNo ∉ realSeqs incoming ∧
        ∀ echo ∈ shown, isReplaced incoming echo = true → echo.id? ≠ e.id?) ∨ e ∈ incoming := by
  have own : ∀ e ∈ incoming, e.seqNo ∈ realSeqs incoming := fun e isIn =>
    mem_real_seqs.mpr ⟨e, isIn, stored e isIn, rfl⟩
  have kept : ∀ e, e ∈ shown.filter (fun event => !decide (event.seqNo ∈ realSeqs incoming) &&
      !decide (event.id? ∈ (shown.filter (isReplaced incoming)).map Event.id?)) ↔
      e ∈ shown ∧ e.seqNo ∉ realSeqs incoming ∧
        ∀ echo ∈ shown, isReplaced incoming echo = true → echo.id? ≠ e.id? := by
    intro e
    simp only [List.mem_filter, Bool.and_eq_true, Bool.not_eq_true', decide_eq_false_iff_not,
      List.mem_map, not_exists, not_and, ne_eq, and_imp]
  obtain ⟨sorted, isMerged⟩ := @merge_by_seq_spec _ incoming (by
    intro a b isA isB same
    rcases isA with isA | isA <;> rcases isB with isB | isB
    · exact increasing.one ((kept a).mp isA).1 ((kept b).mp isB).1 same
    · exact absurd (same ▸ own b isB) ((kept a).mp isA).2.1
    · exact absurd (same ▸ own a isA) ((kept b).mp isB).2.1
    · exact delivery.one isA isB same)
  exact ⟨sorted, fun e => (isMerged e).trans (or_congr (kept e) Iff.rfl)⟩

theorem le_foldl_max (seqs : List Nat) (latest : Nat) :
    latest ≤ seqs.foldl max latest ∧ ∀ k ∈ seqs, k ≤ seqs.foldl max latest := by
  induction seqs generalizing latest with
  | nil => exact ⟨Nat.le_refl _, fun k isIn => absurd isIn List.not_mem_nil⟩
  | cons seq seqs ih =>
    obtain ⟨first, others⟩ := ih (max latest seq)
    refine ⟨Nat.le_trans (Nat.le_max_left _ _) first, fun k isIn => ?_⟩
    rcases List.mem_cons.mp isIn with rfl | isIn
    · exact Nat.le_trans (Nat.le_max_right _ _) first
    · exact others k isIn

variable {id : String} {latest : Nat} {fields : Dict String Json}

theorem echo_reads : (buildOptimisticTerminalInputEvent id latest fields shown).isOptimistic = true ∧
    (id ≠ "" → (buildOptimisticTerminalInputEvent id latest fields shown).id? = some id ∧
      (buildOptimisticTerminalInputEvent id latest fields shown).externalId? = some id) := by
  have apart : "_optimistic" ≠ "id" ∧ "_optimistic" ≠ "external_event_id" ∧
      "external_event_id" ≠ "id" := by decide
  refine ⟨?_, fun known => ⟨?_, ?_⟩⟩
  · simp [Event.isOptimistic, buildOptimisticTerminalInputEvent, Json.truthy]
  · rw [Event.id?, Event.text?, buildOptimisticTerminalInputEvent, Dict.get_put_other apart.1,
      Dict.get_put_other apart.2.2, Dict.get_put_same]
    simp [Json.str?, known]
  · rw [Event.externalId?, Event.text?, buildOptimisticTerminalInputEvent, Dict.get_put_other apart.2.1,
      Dict.get_put_same]
    simp [Json.str?, known]

/-- An echo takes a number that nothing has. -/
theorem merge_echo (increasing : Increasing shown) :
    Increasing (mergeTerminalEvents shown
        [buildOptimisticTerminalInputEvent id latest fields shown]) ∧
      ∀ e, e ∈ mergeTerminalEvents shown [buildOptimisticTerminalInputEvent id latest fields shown] ↔
        e ∈ shown ∨ e = buildOptimisticTerminalInputEvent id latest fields shown := by
  have isEcho := (@echo_reads shown id latest fields).1
  have above : ∀ e ∈ shown, e.seqNo < (buildOptimisticTerminalInputEvent id latest fields shown).seqNo :=
    fun e isIn => Nat.lt_succ_of_le ((le_foldl_max _ latest).2 _ (List.mem_map_of_mem isIn))
  generalize buildOptimisticTerminalInputEvent id latest fields shown = echo at isEcho above ⊢
  have none : realSeqs [echo] = [] := by simp [realSeqs, isEcho]
  have noneReplaced : shown.filter (isReplaced [echo]) = [] := by
    simp [List.filter_eq_nil_iff, isReplaced, none, realExternalIds, isEcho]
  have kept : mergeTerminalEvents shown [echo] = mergeBySeq shown [echo] := by
    simp [mergeTerminalEvents, none, noneReplaced]
  rw [kept]
  obtain ⟨sorted, isMerged⟩ := @merge_by_seq_spec shown [echo] (by
    intro a b isA isB same
    rcases isA with isA | isA <;> rcases isB with isB | isB
    · exact increasing.one isA isB same
    · have less := List.mem_singleton.mp isB ▸ above a isA
      omega
    · have less := List.mem_singleton.mp isA ▸ above b isB
      omega
    · exact (List.mem_singleton.mp isA).trans (List.mem_singleton.mp isB).symm)
  exact ⟨sorted, fun e => (isMerged e).trans (or_congr Iff.rfl List.mem_singleton)⟩

end Merge

/-! ### What a page shows -/

/-- The events of a run as they are served: numbered from one, and none of them the page's own. -/
structure Served (stream : List Event) : Prop where
  numbered : stream.map Event.seqNo = List.range' 1 stream.length
  stored : ∀ e ∈ stream, e.isOptimistic = false ∧ ∀ id, e.id? = some id → isLocalId id = false

/-- A served body: the id is the server's, and no field is the page's own. -/
def isServed (body : Dict String Json) : Bool :=
  !(body.get? "_optimistic").isSome && !(Event.id? ⟨0, body⟩).any isLocalId

/-- Stored events, and the echo of the input that is being sent. -/
structure Shows (stream : List Event) (sending : Option String) (shown : List Event) : Prop where
  increasing : Increasing shown
  stored : ∀ e ∈ shown, e.isOptimistic = false → e ∈ stream
  echo : ∀ e ∈ shown, e.isOptimistic = true → ∃ id, sending = some id ∧ isLocalId id = true ∧
    e.id? = some id ∧ e.externalId? = some id
  one : ∀ a ∈ shown, ∀ b ∈ shown, a.isOptimistic = true → b.isOptimistic = true → a = b

section Page

variable {stream shown incoming : List Event} {sending : Option String}

theorem Served.increasing (served : Served stream) : Increasing stream := by
  have numbers : (stream.map Event.seqNo).Pairwise (· < ·) := by
    rw [served.numbered]
    exact List.pairwise_lt_range'
  exact List.pairwise_map.mp numbers

theorem served_reads {seqNo : Nat} {body : Dict String Json} (own : isServed body = true) :
    Event.isOptimistic ⟨seqNo, body⟩ = false ∧
      ∀ id, Event.id? ⟨seqNo, body⟩ = some id → isLocalId id = false := by
  unfold isServed at own
  simp only [Bool.and_eq_true, Bool.not_eq_true', Option.isSome_eq_false_iff,
    Option.isNone_iff_eq_none] at own
  refine ⟨by simp [Event.isOptimistic, own.1], fun id named => ?_⟩
  have other := own.2
  rw [show Event.id? ⟨0, body⟩ = some id from named] at other
  exact other

theorem Served.store {body : Dict String Json} (served : Served stream)
    (own : isServed body = true) : Served (stream ++ [⟨stream.length + 1, body⟩]) := by
  refine ⟨?_, fun e isIn => ?_⟩
  · rw [List.map_append, served.numbered, List.length_append, List.length_singleton, List.range'_concat]
    simp [Nat.add_comm]
  · rcases List.mem_append.mp isIn with old | new
    · exact served.stored e old
    · exact List.mem_singleton.mp new ▸ served_reads own

theorem Shows.more {later : List Event} (shows : Shows stream sending shown) (more : stream ⊆ later) :
    Shows later sending shown :=
  ⟨shows.increasing, fun e isIn stored => more (shows.stored e isIn stored), shows.echo, shows.one⟩

/-- What the server lists from a number on. -/
def servedFrom (fromSeq : Nat) (stream : List Event) : List Event :=
  stream.filter fun e => decide (fromSeq ≤ e.seqNo)

/-- An input that is sent has its echo. -/
theorem Shows.sent {id : String} {latest : Nat} {fields : Dict String Json}
    (shows : Shows stream none shown) (isLocal : isLocalId id = true) :
    Shows stream (some id)
        (mergeTerminalEvents shown [buildOptimisticTerminalInputEvent id latest fields shown]) ∧
      ∀ k, k ∈ realSeqs (mergeTerminalEvents shown
        [buildOptimisticTerminalInputEvent id latest fields shown]) ↔ k ∈ realSeqs shown := by
  obtain ⟨sorted, isMerged⟩ := @merge_echo shown id latest fields shows.increasing
  have known : id ≠ "" := by
    rintro rfl
    exact absurd isLocal (by decide)
  obtain ⟨isEcho, reads⟩ := @echo_reads shown id latest fields
  have old : ∀ e, e ∈ mergeTerminalEvents shown [buildOptimisticTerminalInputEvent id latest fields shown] →
      e.isOptimistic = false → e ∈ shown := by
    intro e isIn stored
    refine ((isMerged e).mp isIn).resolve_right fun same => ?_
    rw [same, isEcho] at stored
    cases stored
  have own : ∀ e, e ∈ mergeTerminalEvents shown [buildOptimisticTerminalInputEvent id latest fields shown] →
      e.isOptimistic = true → e = buildOptimisticTerminalInputEvent id latest fields shown := by
    intro e isIn optimistic
    refine ((isMerged e).mp isIn).resolve_left fun before => ?_
    obtain ⟨_, none, -⟩ := shows.echo e before optimistic
    cases none
  refine ⟨⟨sorted, fun e isIn stored => shows.stored e (old e isIn stored) stored,
    fun e isIn optimistic => ?_, fun a isA b isB first second => ?_⟩,
    fun k => ⟨fun isReal => ?_, fun isReal => ?_⟩⟩
  · rw [own e isIn optimistic]
    exact ⟨id, rfl, isLocal, reads known⟩
  · rw [own a isA first, own b isB second]
  · obtain ⟨e, isIn, stored, rfl⟩ := mem_real_seqs.mp isReal
    exact mem_real_seqs.mpr ⟨e, old e isIn stored, stored, rfl⟩
  · obtain ⟨e, isIn, stored, rfl⟩ := mem_real_seqs.mp isReal
    exact mem_real_seqs.mpr ⟨e, (isMerged e).mpr (.inl isIn), stored, rfl⟩

/-- A stored event has another id than an echo. -/
theorem Shows.apart {e echo : Event} (served : Served stream) (shows : Shows stream sending shown)
    (isStored : e ∈ stream) (isIn : echo ∈ shown) (optimistic : echo.isOptimistic = true) :
    echo.id? ≠ e.id? := by
  obtain ⟨id, -, isLocal, named, -⟩ := shows.echo echo isIn optimistic
  intro same
  rw [(served.stored e isStored).2 id (same.symm.trans named)] at isLocal
  cases isLocal

/-- **A delivery** of stored events. -/
theorem Shows.merge (served : Served stream) (shows : Shows stream sending shown)
    (delivery : Increasing incoming) (known : incoming ⊆ stream) :
    Shows stream sending (mergeTerminalEvents shown incoming) ∧
      ∀ k, k ∈ realSeqs (mergeTerminalEvents shown incoming) ↔
        k ∈ realSeqs shown ∨ k ∈ incoming.map Event.seqNo := by
  have real : ∀ e ∈ incoming, e.isOptimistic = false := fun e isIn => (served.stored e (known isIn)).1
  obtain ⟨sorted, isMerged⟩ := merge_stored shows.increasing delivery real
  have before : ∀ e ∈ mergeTerminalEvents shown incoming, e.isOptimistic = true → e ∈ shown := by
    intro e isIn optimistic
    rcases (isMerged e).mp isIn with ⟨old, -⟩ | new
    · exact old
    · rw [real e new] at optimistic
      cases optimistic
  refine ⟨⟨sorted, fun e isIn stored => ?_,
    fun e isIn optimistic => shows.echo e (before e isIn optimistic) optimistic,
    fun a isA b isB first second => shows.one a (before a isA first) b (before b isB second) first second⟩,
    fun k => ⟨fun isReal => ?_, ?_⟩⟩
  · rcases (isMerged e).mp isIn with ⟨old, -⟩ | new
    · exact shows.stored e old stored
    · exact known new
  · obtain ⟨e, isIn, stored, rfl⟩ := mem_real_seqs.mp isReal
    rcases (isMerged e).mp isIn with ⟨old, -⟩ | new
    · exact .inl (mem_real_seqs.mpr ⟨e, old, stored, rfl⟩)
    · exact .inr (List.mem_map_of_mem new)
  · have new : ∀ e ∈ incoming, e.seqNo ∈ realSeqs (mergeTerminalEvents shown incoming) :=
      fun e isIn => mem_real_seqs.mpr ⟨e, (isMerged e).mpr (.inr isIn), real e isIn, rfl⟩
    rintro (old | delivered)
    · by_cases taken : k ∈ realSeqs incoming
      · obtain ⟨e, isIn, -, rfl⟩ := mem_real_seqs.mp taken
        exact new e isIn
      · obtain ⟨e, isIn, stored, rfl⟩ := mem_real_seqs.mp old
        refine mem_real_seqs.mpr ⟨e, (isMerged e).mpr (.inl ⟨isIn, taken, fun echo isEcho replaced => ?_⟩),
          stored, rfl⟩
        exact shows.apart served (shows.stored e isIn stored) isEcho (Bool.and_eq_true_iff.mp replaced).1
    · obtain ⟨e, isIn, rfl⟩ := List.mem_map.mp delivered
      exact new e isIn

/-- The delivery that has the input itself leaves no echo. -/
theorem Shows.answered {id : String} {e : Event} (served : Served stream)
    (shows : Shows stream (some id) shown) (isStored : e ∈ stream) (answers : e.externalId? = some id) :
    Shows stream none (mergeTerminalEvents shown [e]) := by
  have real := (served.stored e isStored).1
  have delivered : ∀ other ∈ [e], other.isOptimistic = false := by
    intro other isIn
    exact List.mem_singleton.mp isIn ▸ real
  obtain ⟨merged, -⟩ := shows.merge served (List.pairwise_singleton _ e)
    (List.cons_subset.mpr ⟨isStored, List.nil_subset _⟩)
  obtain ⟨-, isMerged⟩ := merge_stored shows.increasing (List.pairwise_singleton _ e) delivered
  refine ⟨merged.increasing, merged.stored, fun echo isIn optimistic => ?_, merged.one⟩
  rcases (isMerged echo).mp isIn with ⟨old, -, apart⟩ | new
  · obtain ⟨_, same, -, -, named⟩ := shows.echo echo old optimistic
    obtain rfl := Option.some.inj same
    have replaced : isReplaced [e] echo = true := by
      simp [isReplaced, realExternalIds, optimistic, named, real, answers]
    exact absurd rfl (apart echo old replaced)
  · rw [delivered echo new] at optimistic
    cases optimistic

/-- Removing the echo. -/
theorem Shows.removed {id : String} (served : Served stream) (shows : Shows stream (some id) shown)
    (isLocal : isLocalId id = true) : Shows stream none (removeOptimisticTerminalEvent id shown) ∧
      ∀ k, k ∈ realSeqs (removeOptimisticTerminalEvent id shown) ↔ k ∈ realSeqs shown := by
  have isKept : ∀ e, e ∈ removeOptimisticTerminalEvent id shown ↔ e ∈ shown ∧ e.id? ≠ some id :=
    fun e => List.mem_filter.trans (and_congr Iff.rfl bne_iff_ne)
  refine ⟨⟨shows.increasing.sublist List.filter_sublist, fun e isIn stored => ?_,
    fun e isIn optimistic => ?_,
    fun a isA b isB => shows.one a ((isKept a).mp isA).1 b ((isKept b).mp isB).1⟩,
    fun k => ⟨fun isReal => ?_, fun isReal => ?_⟩⟩
  · exact shows.stored e ((isKept e).mp isIn).1 stored
  · obtain ⟨old, other⟩ := (isKept e).mp isIn
    obtain ⟨_, same, -, named, -⟩ := shows.echo e old optimistic
    exact absurd (named.trans same.symm) other
  · obtain ⟨e, isIn, stored, rfl⟩ := mem_real_seqs.mp isReal
    exact mem_real_seqs.mpr ⟨e, ((isKept e).mp isIn).1, stored, rfl⟩
  · obtain ⟨e, isIn, stored, rfl⟩ := mem_real_seqs.mp isReal
    refine mem_real_seqs.mpr ⟨e, (isKept e).mpr ⟨isIn, fun named => ?_⟩, stored, rfl⟩
    rw [(served.stored e (shows.stored e isIn stored)).2 id named] at isLocal
    cases isLocal

end Page

end Psop.Client
