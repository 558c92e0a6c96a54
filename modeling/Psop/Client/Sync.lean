import Psop.Client.Page
import Psop.Runs

/-!
A run page and the server, in any interleaving.

The server stores events and owes a broadcast of each, of some more than one; broadcasts are made in any
order, and some are lost. A broadcast goes to the hub, which sends it on the page's socket if that is
registered. The page takes in what comes on its socket (`handleRunWsEvent`) and asks for the stream from
its first missing number when its socket opens and when an event comes ahead of that number
(`reconcileLiveRunTerminalEvents`); a request for a number that is already being asked for is joined.

**`shown_true`**: a page shows stored events, by increasing number, and beside them only the echo of the
input that is being sent. **`gap_closed`**: an event that came on the socket leaves no gap below it once
the requests are through. **`InStep.synced`**: a page at rest shows the whole stream if nothing was lost on
its open socket. These two are about runs in which no request fails and none is joined whose answer is
already on its way; `joined_too_late` is a run with a gap at rest in which nothing else went wrong.
-/
namespace Psop.Client

/-! ### The page and the server -/

/-- A request for the stream from a number on, with its answer once the server read the stream. -/
structure Request where
  id : Nat
  fromSeq : Nat
  answer : Option (List Event) := none

inductive Socket
  | closed | connecting | accepted | opened
deriving DecidableEq

/-- `slot` is `_liveRunTerminalReconcileRequest`: the request that can be joined, by its number. -/
structure Sync where
  stream : List Event
  owed : List Nat
  subscribed : Bool
  frames : List Event
  socket : Socket
  mounted : Bool
  shown : List Event
  requests : List Request
  slot : Option Nat
  made : Nat
  sending : Option String

inductive Label
  | store (body : Dict String Json)
  | broadcast (seqNo : Nat)
  | republish (seqNo : Nat)
  | lose (seqNo : Nat)
  | connect | accept | opens | receive | cut | closes
  | mount
  | answer (id : Nat)
  | arrive (id : Nat)
  | fail (id : Nat)
  | send (id : String) (latest : Nat) (fields : Dict String Json)
  | posted (seqNo : Nat)
  | unsent

namespace Sync

/-- A page that is not open yet. -/
def start (stream : List Event) : Sync :=
  ⟨stream, [], false, [], .closed, false, [], [], none, 0, none⟩

/-- `_append_terminal_event`, with the broadcast that its transaction owes. -/
def store (body : Dict String Json) (s : Sync) : Sync :=
  { s with stream := s.stream ++ [⟨s.stream.length + 1, body⟩], owed := s.owed ++ [s.stream.length + 1] }

/-- `RunWebSocketHub.broadcast` -/
def broadcast (event : Event) (s : Sync) : Sync :=
  if s.subscribed then { s with frames := s.frames ++ [event] } else s

def stored? (seqNo : Nat) (s : Sync) : Option Event := s.stream.find? fun event => event.seqNo == seqNo

def request (fromSeq : Nat) (s : Sync) : Sync :=
  { s with requests := s.requests ++ [⟨s.made, fromSeq, none⟩], made := s.made + 1 }

/-- The request that a reconciliation from a number joins. -/
def joined? (fromSeq : Nat) (s : Sync) : Option Request :=
  s.slot.bind fun id => s.requests.find? fun r => r.id == id && r.fromSeq == fromSeq

/-- `reconcileLiveRunTerminalEvents` -/
def reconcile (fromSeq : Nat) (s : Sync) : Sync :=
  if (s.joined? fromSeq).isSome then s else { s.request fromSeq with slot := some s.made }

def merge (incoming : List Event) (s : Sync) : Sync :=
  { s with shown := mergeTerminalEvents s.shown incoming }

/-- The `open` listener of a socket. -/
def opens (s : Sync) : Sync :=
  let s := { s with socket := .opened }
  if s.mounted then s.reconcile (nextTerminalReconcileFromSeq s.shown) else s

/-- `handleRunWsEvent` for `terminal.event.appended`. -/
def handle (event : Event) (s : Sync) : Sync :=
  let expected := nextTerminalReconcileFromSeq s.shown
  let s := if expected < event.seqNo ∧ s.mounted = true then s.reconcile expected else s
  s.merge [event]

/-- A request is through, and can no longer be joined. -/
def finish (id : Nat) (s : Sync) : Sync :=
  { s with
    requests := s.requests.filter fun r => r.id != id
    slot := s.slot.filter (· ≠ id) }

def step (s : Sync) : Label → Option Sync
  | .store body => if isServed body then some (s.store body) else none
  | .broadcast k => if k ∈ s.owed then
      (s.stored? k).map fun event => { s.broadcast event with owed := s.owed.erase k } else none
  | .republish k => (s.stored? k).map fun _ => { s with owed := s.owed ++ [k] }
  | .lose k => if k ∈ s.owed then some { s with owed := s.owed.erase k } else none
  | .connect => if s.socket = .closed then some { s with socket := .connecting } else none
  | .accept =>
    if s.socket = .connecting then some { s with socket := .accepted, subscribed := true } else none
  | .opens => if s.socket = .accepted then some s.opens else none
  | .receive =>
    match s.frames with
    | event :: frames =>
      if s.socket = .opened then some (({ s with frames := frames }).handle event) else none
    | [] => none
  | .cut => some { s with subscribed := false }
  | .closes => some { s with socket := .closed, subscribed := false, frames := [] }
  | .mount => if s.mounted then none else some { s.request 1 with mounted := true }
  | .answer id => if s.requests.any fun r => r.id == id && r.answer.isNone then some { s with
      requests := s.requests.map fun r =>
        if r.id = id then { r with answer := some (servedFrom r.fromSeq s.stream) } else r } else none
  | .arrive id => (s.requests.find? fun r => r.id == id).bind fun r =>
      r.answer.map fun events => (s.merge events).finish id
  | .fail id => some (s.finish id)
  | .send id latest fields => if s.sending = none ∧ isLocalId id = true then some { s with
      shown := mergeTerminalEvents s.shown
        [buildOptimisticTerminalInputEvent id latest fields s.shown], sending := some id } else none
  | .posted k => (s.stored? k).bind fun event =>
      if s.sending.isSome ∧ event.externalId? = s.sending
      then some { s.merge [event] with sending := none } else none
  | .unsent => s.sending.map fun id =>
      { s with shown := removeOptimisticTerminalEvent id s.shown, sending := none }

/-! ### Taking steps apart -/

section Steps

variable {s t : Sync}

/-- What a label does. -/
inductive Move (s : Sync) : Label → Sync → Prop
  | store {body : Dict String Json} (served : isServed body = true) : Move s (.store body) (s.store body)
  | broadcast {k : Nat} {event : Event} (found : s.stored? k = some event) :
      Move s (.broadcast k) { s.broadcast event with owed := s.owed.erase k }
  | republish {k : Nat} : Move s (.republish k) { s with owed := s.owed ++ [k] }
  | lose {k : Nat} : Move s (.lose k) { s with owed := s.owed.erase k }
  | connect : Move s .connect { s with socket := .connecting }
  | accept : Move s .accept { s with socket := .accepted, subscribed := true }
  | opens : Move s .opens s.opens
  | receive {event : Event} {frames : List Event} (first : s.frames = event :: frames)
      (opened : s.socket = .opened) : Move s .receive (({ s with frames := frames }).handle event)
  | cut : Move s .cut { s with subscribed := false }
  | closes : Move s .closes { s with socket := .closed, subscribed := false, frames := [] }
  | mount : Move s .mount { s.request 1 with mounted := true }
  | answer {id : Nat} : Move s (.answer id) { s with requests := s.requests.map fun r =>
      if r.id = id then { r with answer := some (servedFrom r.fromSeq s.stream) } else r }
  | arrive {id : Nat} {r : Request} {events : List Event} (isR : r ∈ s.requests) (named : r.id = id)
      (answer : r.answer = some events) : Move s (.arrive id) ((s.merge events).finish id)
  | fail {id : Nat} : Move s (.fail id) (s.finish id)
  | send {id : String} {latest : Nat} {fields : Dict String Json} (idle : s.sending = none)
      (isLocal : isLocalId id = true) : Move s (.send id latest fields) { s with
        shown := mergeTerminalEvents s.shown
          [buildOptimisticTerminalInputEvent id latest fields s.shown], sending := some id }
  | posted {k : Nat} {event : Event} {id : String} (found : s.stored? k = some event)
      (isSending : s.sending = some id) (own : event.externalId? = some id) :
      Move s (.posted k) { s.merge [event] with sending := none }
  | unsent {id : String} (isSending : s.sending = some id) : Move s .unsent
      { s with shown := removeOptimisticTerminalEvent id s.shown, sending := none }

theorem step_move {label : Label} (stepped : step s label = some t) : Move s label t := by
  cases label with
  | store body =>
    simp only [step, Option.ite_none_right_eq_some, Option.some.injEq] at stepped
    obtain ⟨served, rfl⟩ := stepped
    exact .store served
  | broadcast k =>
    simp only [step, Option.ite_none_right_eq_some] at stepped
    obtain ⟨event, found, rfl⟩ := Option.map_eq_some_iff.mp stepped.2
    exact .broadcast found
  | republish k =>
    obtain ⟨event, -, rfl⟩ := Option.map_eq_some_iff.mp stepped
    exact .republish
  | lose k =>
    simp only [step, Option.ite_none_right_eq_some, Option.some.injEq] at stepped
    exact stepped.2 ▸ .lose
  | connect =>
    simp only [step, Option.ite_none_right_eq_some, Option.some.injEq] at stepped
    exact stepped.2 ▸ .connect
  | accept =>
    simp only [step, Option.ite_none_right_eq_some, Option.some.injEq] at stepped
    exact stepped.2 ▸ .accept
  | opens =>
    simp only [step, Option.ite_none_right_eq_some, Option.some.injEq] at stepped
    exact stepped.2 ▸ .opens
  | receive =>
    simp only [step] at stepped
    split at stepped
    · rename_i event frames first
      simp only [Option.ite_none_right_eq_some, Option.some.injEq] at stepped
      exact stepped.2 ▸ .receive first stepped.1
    · cases stepped
  | cut => exact Option.some.inj stepped ▸ .cut
  | closes => exact Option.some.inj stepped ▸ .closes
  | mount =>
    simp only [step, Option.ite_none_left_eq_some, Option.some.injEq] at stepped
    exact stepped.2 ▸ .mount
  | answer id =>
    simp only [step, Option.ite_none_right_eq_some, Option.some.injEq] at stepped
    exact stepped.2 ▸ .answer
  | arrive id =>
    obtain ⟨r, found, answered⟩ := Option.bind_eq_some_iff.mp stepped
    obtain ⟨events, answer, rfl⟩ := Option.map_eq_some_iff.mp answered
    exact .arrive (List.mem_of_find?_eq_some found) (by simpa using List.find?_some found) answer
  | fail id => exact Option.some.inj stepped ▸ .fail
  | send id latest fields =>
    simp only [step, Option.ite_none_right_eq_some, Option.some.injEq] at stepped
    exact stepped.2 ▸ .send stepped.1.1 stepped.1.2
  | posted k =>
    obtain ⟨event, found, posted⟩ := Option.bind_eq_some_iff.mp stepped
    simp only [Option.ite_none_right_eq_some, Option.some.injEq] at posted
    obtain ⟨⟨isSome, own⟩, rfl⟩ := posted
    obtain ⟨id, isSending⟩ := Option.isSome_iff_exists.mp isSome
    exact .posted found isSending (own.trans isSending)
  | unsent =>
    obtain ⟨id, isSending, rfl⟩ := Option.map_eq_some_iff.mp stepped
    exact .unsent isSending

theorem stored_spec {k : Nat} {event : Event} (found : s.stored? k = some event) :
    event ∈ s.stream ∧ event.seqNo = k := by
  unfold stored? at found
  exact ⟨List.mem_of_find?_eq_some found, by simpa using List.find?_some found⟩

/-- The requests after a reconciliation: the ones before, and one from the number unless it is joined. -/
theorem reconcile_requests (fromSeq : Nat) (s : Sync) :
    (∃ r, s.joined? fromSeq = some r ∧ s.reconcile fromSeq = s) ∨
    (s.joined? fromSeq = none ∧ s.reconcile fromSeq = { s.request fromSeq with slot := some s.made }) := by
  unfold reconcile
  split
  · rename_i has
    obtain ⟨r, isR⟩ := Option.isSome_iff_exists.mp has
    exact .inl ⟨r, isR, rfl⟩
  · rename_i none
    exact .inr ⟨by simpa using none, rfl⟩

theorem joined_spec {fromSeq : Nat} {r : Request} (joins : s.joined? fromSeq = some r) :
    r ∈ s.requests ∧ r.fromSeq = fromSeq := by
  obtain ⟨id, -, found⟩ := Option.bind_eq_some_iff.mp joins
  have is := List.find?_some found
  simp only [Bool.and_eq_true, beq_iff_eq] at is
  exact ⟨List.mem_of_find?_eq_some found, is.2⟩

end Steps

/-! ### What holds in every run -/

/-- The events a state holds are stored ones, apart from the echo. -/
structure HoldsStored (s : Sync) : Prop where
  served : Served s.stream
  shows : Shows s.stream s.sending s.shown
  isLocal : ∀ id, s.sending = some id → isLocalId id = true
  frames : s.frames ⊆ s.stream
  answers : ∀ r ∈ s.requests, ∀ events, r.answer = some events → events ⊆ s.stream ∧ Increasing events
  ids : ∀ r ∈ s.requests, r.id < s.made
  distinct : (s.requests.map Request.id).Nodup

section Keeping

variable {s t : Sync}

theorem HoldsStored.of_same (sound : HoldsStored s) (stream : t.stream = s.stream) (shown : t.shown = s.shown)
    (sending : t.sending = s.sending) (frames : t.frames = s.frames) (requests : t.requests = s.requests)
    (made : t.made = s.made) : HoldsStored t := by
  refine ⟨?_, ?_, ?_, ?_, ?_, ?_, ?_⟩
  · rw [stream]
    exact sound.served
  · rw [stream, sending, shown]
    exact sound.shows
  · rw [sending]
    exact sound.isLocal
  · rw [frames, stream]
    exact sound.frames
  · rw [requests, stream]
    exact sound.answers
  · rw [requests, made]
    exact sound.ids
  · rw [requests]
    exact sound.distinct

theorem HoldsStored.store {body : Dict String Json} (sound : HoldsStored s) (served : isServed body = true) :
    HoldsStored (s.store body) := by
  have more : s.stream ⊆ (s.store body).stream := List.subset_append_left _ _
  exact ⟨sound.served.store served, sound.shows.more more, sound.isLocal,
    fun e isIn => more (sound.frames isIn),
    fun r isIn events answer =>
      (sound.answers r isIn events answer).imp_left fun known e isIn => more (known isIn),
    sound.ids, sound.distinct⟩

theorem HoldsStored.request (sound : HoldsStored s) (fromSeq : Nat) : HoldsStored (s.request fromSeq) := by
  refine ⟨sound.served, sound.shows, sound.isLocal, sound.frames, fun r isIn events answer => ?_,
    fun r isIn => ?_, ?_⟩
  · rcases List.mem_append.mp isIn with old | new
    · exact sound.answers r old events answer
    · rw [List.mem_singleton.mp new] at answer
      cases answer
  · rcases List.mem_append.mp isIn with old | new
    · exact Nat.lt_succ_of_lt (sound.ids r old)
    · rw [List.mem_singleton.mp new]
      exact Nat.lt_succ_self _
  · have isMade : s.made ∉ s.requests.map Request.id := by
      intro isIn
      obtain ⟨r, isR, same⟩ := List.mem_map.mp isIn
      exact absurd (sound.ids r isR) (by omega)
    show ((s.requests ++ [_]).map Request.id).Nodup
    rw [List.map_append, List.map_singleton]
    exact List.concat_eq_append ▸ sound.distinct.concat isMade

theorem HoldsStored.reconcile (sound : HoldsStored s) (fromSeq : Nat) :
    HoldsStored (s.reconcile fromSeq) := by
  rcases reconcile_requests fromSeq s with ⟨r, -, same⟩ | ⟨-, same⟩
  · rw [same]
    exact sound
  · rw [same]
    exact (sound.request fromSeq).of_same rfl rfl rfl rfl rfl rfl

theorem HoldsStored.merge {incoming : List Event} (sound : HoldsStored s) (delivery : Increasing incoming)
    (known : incoming ⊆ s.stream) : HoldsStored (s.merge incoming) :=
  ⟨sound.served, (sound.shows.merge sound.served delivery known).1, sound.isLocal, sound.frames,
    sound.answers, sound.ids, sound.distinct⟩

theorem one_known {event : Event} {stream : List Event} (known : event ∈ stream) :
    Increasing [event] ∧ [event] ⊆ stream :=
  ⟨List.pairwise_singleton _ _, List.cons_subset.mpr ⟨known, List.nil_subset _⟩⟩

theorem reconcile_stream (fromSeq : Nat) (s : Sync) : (s.reconcile fromSeq).stream = s.stream := by
  unfold reconcile
  split <;> rfl

theorem HoldsStored.handle {event : Event} (sound : HoldsStored s) (known : event ∈ s.stream) :
    HoldsStored (s.handle event) := by
  obtain ⟨delivery, from_⟩ := one_known known
  unfold Sync.handle
  simp only
  split
  · refine (sound.reconcile _).merge delivery ?_
    rw [reconcile_stream]
    exact from_
  · exact sound.merge delivery from_

/-- A frame is taken off the socket. -/
theorem HoldsStored.dropped {event : Event} {frames : List Event} (sound : HoldsStored s)
    (first : s.frames = event :: frames) : HoldsStored { s with frames := frames } :=
  ⟨sound.served, sound.shows, sound.isLocal, (List.cons_subset.mp (first ▸ sound.frames)).2, sound.answers,
    sound.ids, sound.distinct⟩

theorem HoldsStored.broadcast {event : Event} (sound : HoldsStored s) (known : event ∈ s.stream) :
    HoldsStored (s.broadcast event) := by
  unfold Sync.broadcast
  split
  · refine ⟨sound.served, sound.shows, sound.isLocal, ?_, sound.answers, sound.ids, sound.distinct⟩
    exact List.append_subset.mpr ⟨sound.frames, (one_known known).2⟩
  · exact sound

theorem HoldsStored.finish (sound : HoldsStored s) (id : Nat) : HoldsStored (s.finish id) :=
  ⟨sound.served, sound.shows, sound.isLocal, sound.frames,
    fun r isIn => sound.answers r (List.mem_filter.mp isIn).1,
    fun r isIn => sound.ids r (List.mem_filter.mp isIn).1,
    sound.distinct.sublist (List.filter_sublist.map _)⟩

/-- **A step keeps what a state holds.** -/
theorem Move.sound {label : Label} (move : Move s label t) (sound : HoldsStored s) : HoldsStored t := by
  cases move with
  | store served => exact sound.store served
  | broadcast found =>
    exact (sound.broadcast (stored_spec found).1).of_same rfl rfl rfl rfl rfl rfl
  | republish | lose | connect | accept | cut => exact sound.of_same rfl rfl rfl rfl rfl rfl
  | opens =>
    have opened : HoldsStored { s with socket := .opened } := sound.of_same rfl rfl rfl rfl rfl rfl
    unfold Sync.opens
    simp only
    split
    · exact opened.reconcile _
    · exact opened
  | receive first =>
    obtain ⟨isFirst, -⟩ := List.cons_subset.mp (first ▸ sound.frames)
    exact (sound.dropped first).handle isFirst
  | closes =>
    exact ⟨sound.served, sound.shows, sound.isLocal, List.nil_subset _, sound.answers, sound.ids,
      sound.distinct⟩
  | mount => exact (sound.request 1).of_same rfl rfl rfl rfl rfl rfl
  | answer =>
    refine ⟨sound.served, sound.shows, sound.isLocal, sound.frames, fun r isIn events answer => ?_,
      fun r isIn => ?_, ?_⟩
    · obtain ⟨old, isOld, rfl⟩ := List.mem_map.mp isIn
      split at answer
      · cases answer
        exact ⟨List.filter_sublist.subset, sound.served.increasing.sublist List.filter_sublist⟩
      · exact sound.answers old isOld events answer
    · obtain ⟨old, isOld, rfl⟩ := List.mem_map.mp isIn
      split <;> exact sound.ids old isOld
    · rw [List.map_map]
      refine (List.map_congr_left fun r _ => ?_) ▸ sound.distinct
      simp only [Function.comp]
      split <;> rfl
  | arrive isR _ answer =>
    obtain ⟨known, delivery⟩ := sound.answers _ isR _ answer
    exact (sound.merge delivery known).finish _
  | fail => exact sound.finish _
  | send idle isLocal =>
    exact ⟨sound.served, (Shows.sent (idle ▸ sound.shows) isLocal).1,
      fun other isOther => Option.some.inj isOther ▸ isLocal, sound.frames, sound.answers, sound.ids,
      sound.distinct⟩
  | posted found isSending own =>
    have answered := (isSending ▸ sound.shows).answered sound.served (stored_spec found).1 own
    exact ⟨sound.served, answered, by simp, sound.frames, sound.answers, sound.ids, sound.distinct⟩
  | unsent isSending =>
    have removed := (isSending ▸ sound.shows).removed sound.served (sound.isLocal _ isSending)
    exact ⟨sound.served, removed.1, by simp, sound.frames, sound.answers, sound.ids, sound.distinct⟩

end Keeping

theorem start_sound {stream : List Event} (served : Served stream) : HoldsStored (start stream) := by
  refine ⟨served, ⟨List.Pairwise.nil, ?_, ?_, ?_⟩, ?_, List.nil_subset _, ?_, ?_, List.nodup_nil⟩ <;>
    simp [start]

theorem served_nil : Served [] := ⟨rfl, by simp⟩

theorem run_sound {s t : Sync} (sound : HoldsStored s) (run : Run step anyStep s t) : HoldsStored t :=
  run.invariant (fun _ _ _ sound _ stepped => (step_move stepped).sound sound) sound

/-- Increasing events that are all stored are some of the stored ones, in their order. -/
theorem sublist_of_increasing {shown stream : List Event} (increasing : Increasing shown)
    (sorted : Increasing stream) (stored : shown ⊆ stream) : shown.Sublist stream := by
  have asymmetric : Std.Antisymm fun a b : Event => a.seqNo < b.seqNo :=
    ⟨fun a b less more => absurd less (Nat.lt_asymm more)⟩
  have distinct : shown.Nodup := increasing.imp fun less same => absurd (same ▸ less) (Nat.lt_irrefl _)
  exact List.sublist_of_subperm_of_pairwise (List.subperm_of_subset distinct stored) increasing sorted

/-- **A page shows what is stored**: its events are stored ones, each once and in their order, and beside
them at most the echo of the input that is being sent. -/
theorem shown_true {stream : List Event} {s : Sync} (served : Served stream)
    (run : Run step anyStep (start stream) s) :
    (s.shown.filter fun e => !e.isOptimistic).Sublist s.stream ∧ Increasing s.shown ∧
      (∀ a ∈ s.shown, ∀ b ∈ s.shown, a.isOptimistic = true → b.isOptimistic = true → a = b) ∧
      (∀ e ∈ s.shown, e.isOptimistic = true → ∃ id, s.sending = some id ∧ e.externalId? = some id) := by
  obtain ⟨served, shows, -⟩ := run_sound (start_sound served) run
  refine ⟨sublist_of_increasing (shows.increasing.sublist List.filter_sublist) served.increasing ?_,
    shows.increasing, shows.one, fun e isIn optimistic => ?_⟩
  · intro e isIn
    obtain ⟨isShown, stored⟩ := List.mem_filter.mp isIn
    exact shows.stored e isShown (by simpa using stored)
  · obtain ⟨id, isSending, -, -, named⟩ := shows.echo e isIn optimistic
    exact ⟨id, isSending, named⟩

/-! ### What a page has or has asked for -/

/-- A number that the answer of a request will bring. -/
def Awaited (s : Sync) (k : Nat) : Prop :=
  ∃ r ∈ s.requests, r.fromSeq ≤ k ∧ ∀ events, r.answer = some events → k ∈ events.map Event.seqNo

/-- A number that is shown or awaited. -/
def Covered (s : Sync) (k : Nat) : Prop := k ∈ realSeqs s.shown ∨ s.Awaited k

/-- A reconciliation does not join a request that the server has answered. -/
def Fresh (fromSeq : Nat) (s : Sync) : Prop := ∀ r, s.joined? fromSeq = some r → r.answer = none

instance (fromSeq : Nat) (s : Sync) : Decidable (Fresh fromSeq s) :=
  decidable_of_iff ((s.joined? fromSeq).all fun r => r.answer.isNone) (by
    simp [Fresh, Option.all_eq_true])

/-- A label that fails no request. -/
def AnswersRequests : Label → Prop
  | .fail _ => False
  | _ => True

section Covering

variable {s t : Sync} {k fromSeq : Nat} {event : Event}

theorem Covered.of_requests (covered : Covered s k) (shown : t.shown = s.shown)
    (requests : s.requests ⊆ t.requests) : Covered t k := by
  refine covered.imp (fun isShown => ?_) fun awaited => ?_
  · rw [shown]
    exact isShown
  · obtain ⟨r, isR, is⟩ := awaited
    exact ⟨r, requests isR, is⟩

theorem reconcile_shown (fromSeq : Nat) (s : Sync) : (s.reconcile fromSeq).shown = s.shown := by
  unfold reconcile
  split <;> rfl

theorem reconcile_more (fromSeq : Nat) (s : Sync) : s.requests ⊆ (s.reconcile fromSeq).requests := by
  rcases reconcile_requests fromSeq s with ⟨r, -, same⟩ | ⟨-, same⟩
  · rw [same]
    exact List.Subset.refl _
  · rw [same]
    exact List.subset_append_left _ _

theorem Covered.reconcile (covered : Covered s k) : Covered (s.reconcile fromSeq) k :=
  covered.of_requests (reconcile_shown fromSeq s) (reconcile_more fromSeq s)

/-- A fresh reconciliation awaits every number from its own on. -/
theorem reconcile_awaits (fresh : Fresh fromSeq s) (le : fromSeq ≤ k) :
    Awaited (s.reconcile fromSeq) k := by
  rcases reconcile_requests fromSeq s with ⟨r, joins, same⟩ | ⟨-, same⟩
  · rw [same]
    obtain ⟨isIn, isFrom⟩ := joined_spec joins
    refine ⟨r, isIn, isFrom ▸ le, fun events answer => ?_⟩
    rw [fresh r joins] at answer
    cases answer
  · rw [same]
    refine ⟨_, List.mem_append_right _ (List.mem_singleton_self _), le, fun events answer => ?_⟩
    cases answer

theorem merge_covers {incoming : List Event} (sound : HoldsStored s) (delivery : Increasing incoming)
    (known : incoming ⊆ s.stream) (covered : Covered s k ∨ k ∈ incoming.map Event.seqNo) :
    Covered (s.merge incoming) k := by
  have isMerged := (sound.shows.merge sound.served delivery known).2 k
  rcases covered with (isShown | awaited) | delivered
  · exact .inl (isMerged.mpr (.inl isShown))
  · exact .inr awaited
  · exact .inl (isMerged.mpr (.inr delivered))

/-- An event that came is covered, and keeps what was. -/
theorem handle_covers (sound : HoldsStored s) (known : event ∈ s.stream)
    (covered : Covered s k ∨ k = event.seqNo) : Covered (s.handle event) k := by
  obtain ⟨delivery, from_⟩ := one_known known
  have arrives : k = event.seqNo → k ∈ [event].map Event.seqNo := fun same => by simp [same]
  unfold handle
  simp only
  split
  · refine merge_covers (sound.reconcile _) delivery ?_ (covered.imp Covered.reconcile arrives)
    rw [reconcile_stream]
    exact from_
  · exact merge_covers sound delivery from_ (covered.imp id arrives)

/-- **One event** that came leaves no gap below it. -/
theorem handle_closes (sound : HoldsStored s) (known : event ∈ s.stream) (mounted : s.mounted = true)
    (fresh : nextTerminalReconcileFromSeq s.shown < event.seqNo →
      Fresh (nextTerminalReconcileFromSeq s.shown) s)
    (positive : 1 ≤ k) (le : k ≤ event.seqNo) : Covered (s.handle event) k := by
  obtain ⟨below, -, -⟩ := reconcile_from_spec s.shown
  rcases Nat.lt_or_ge k (nextTerminalReconcileFromSeq s.shown) with less | ge
  · exact handle_covers sound known (.inl (.inl (below k positive less)))
  rcases Nat.lt_or_ge k event.seqNo with under | same
  · have ahead : nextTerminalReconcileFromSeq s.shown < event.seqNo := Nat.lt_of_le_of_lt ge under
    unfold handle
    simp only [if_pos (And.intro ahead mounted)]
    exact .inr (reconcile_awaits (fresh ahead) ge)
  · exact handle_covers sound known (.inr (Nat.le_antisymm le same))

/-- A number that the server has is in the stream from it on. -/
theorem served_from {stream : List Event} (served : Served stream) (le : fromSeq ≤ k) (positive : 1 ≤ k)
    (within : k ≤ stream.length) : k ∈ (servedFrom fromSeq stream).map Event.seqNo := by
  have isIn : k ∈ stream.map Event.seqNo := by
    rw [served.numbered, List.mem_range'_1]
    omega
  obtain ⟨e, isStored, rfl⟩ := List.mem_map.mp isIn
  exact List.mem_map_of_mem (List.mem_filter.mpr ⟨isStored, by simpa using le⟩)

/-- **A step** keeps what the page has, and awaits what it awaited. -/
theorem Move.covers {label : Label} (move : Move s label t) (sound : HoldsStored s)
    (answers : AnswersRequests label)
    (positive : 1 ≤ k) (within : k ≤ s.stream.length) (covered : Covered s k) : Covered t k := by
  cases move with
  | store | republish | lose | connect | accept | cut | closes =>
    exact covered.of_requests rfl (List.Subset.refl _)
  | broadcast =>
    unfold Sync.broadcast
    split <;> exact covered.of_requests rfl (List.Subset.refl _)
  | opens =>
    have opened : Covered { s with socket := .opened } k := covered.of_requests rfl (List.Subset.refl _)
    unfold Sync.opens
    simp only
    split
    · exact opened.reconcile
    · exact opened
  | receive first =>
    obtain ⟨isFirst, -⟩ := List.cons_subset.mp (first ▸ sound.frames)
    exact handle_covers (sound.dropped first) isFirst (.inl (covered.of_requests rfl (List.Subset.refl _)))
  | mount => exact covered.of_requests rfl (List.subset_append_left _ _)
  | answer =>
    refine covered.imp_right fun awaited => ?_
    obtain ⟨r, isR, le, brings⟩ := awaited
    refine ⟨_, List.mem_map_of_mem isR, ?_⟩
    split
    · refine ⟨le, fun events answer => ?_⟩
      cases answer
      exact served_from sound.served le positive within
    · exact ⟨le, brings⟩
  | @arrive id r events isR named answer =>
    obtain ⟨known, delivery⟩ := sound.answers r isR events answer
    have isMerged := (sound.shows.merge sound.served delivery known).2 k
    rcases covered with isShown | ⟨other, isOther, le, brings⟩
    · exact .inl (isMerged.mpr (.inl isShown))
    · by_cases same : other.id = id
      · obtain rfl := List.inj_on_of_nodup_map sound.distinct isOther isR (same.trans named.symm)
        exact .inl (isMerged.mpr (.inr (brings events answer)))
      · exact .inr ⟨other, List.mem_filter.mpr ⟨isOther, by simpa using same⟩, le, brings⟩
  | fail => exact answers.elim
  | send idle isLocal =>
    exact covered.imp_left fun isShown => ((Shows.sent (idle ▸ sound.shows) isLocal).2 k).mpr isShown
  | posted found =>
    obtain ⟨delivery, known⟩ := one_known (stored_spec found).1
    exact (merge_covers sound delivery known (.inl covered)).of_requests rfl (List.Subset.refl _)
  | unsent isSending =>
    have removed := (isSending ▸ sound.shows).removed sound.served (sound.isLocal _ isSending)
    exact covered.imp_left fun isShown => (removed.2 k).mpr isShown

/-- The stream only grows. -/
theorem Move.grows {label : Label} (move : Move s label t) : s.stream <+: t.stream := by
  cases move with
  | store => exact List.prefix_append _ _
  | broadcast =>
    unfold Sync.broadcast
    split <;> exact List.prefix_rfl
  | opens =>
    unfold Sync.opens
    simp only
    split
    · rw [reconcile_stream]
    · exact List.prefix_rfl
  | receive =>
    unfold Sync.handle
    simp only
    split
    · rw [Sync.merge, reconcile_stream]
    · exact List.prefix_rfl
  | republish | lose | connect | accept | cut | closes | mount | answer | arrive | fail | send | posted
  | unsent => exact List.prefix_rfl

/-! ### Over a run -/

theorem run_covers (sound : HoldsStored s) (positive : 1 ≤ k) (within : k ≤ s.stream.length)
    (covered : Covered s k) (run : Run step (fun _ => AnswersRequests) s t) : Covered t k := by
  suffices all : HoldsStored t ∧ k ≤ t.stream.length ∧ Covered t k from all.2.2
  refine @Run.invariant _ _ _ _ (fun s => HoldsStored s ∧ k ≤ s.stream.length ∧ Covered s k) ?_ _ _ run
    ⟨sound, within, covered⟩
  rintro s label t ⟨sound, within, covered⟩ answers stepped
  have move := step_move stepped
  exact ⟨move.sound sound, Nat.le_trans within move.grows.length_le,
    move.covers sound answers positive within covered⟩

/-- With its requests through, a page has what it was covered for. -/
theorem shown_of_covered (through : s.requests = []) (covered : Covered s k) : k ∈ realSeqs s.shown := by
  rcases covered with isShown | ⟨r, isR, -⟩
  · exact isShown
  · rw [through] at isR
    cases isR

/-- **No gap below what came**: once an event came on the socket of a page, with or without losses, the page
shows every event below it when its requests are through, unless the request it made then joined one that
was already answered, or a request failed. -/
theorem gap_closed {stream : List Event} {u : Sync} {frames : List Event} (served : Served stream)
    (reached : Run step anyStep (start stream) s) (first : s.frames = event :: frames)
    (mounted : s.mounted = true) (fresh : nextTerminalReconcileFromSeq s.shown < event.seqNo →
      Fresh (nextTerminalReconcileFromSeq s.shown) s)
    (received : step s .receive = some t) (run : Run step (fun _ => AnswersRequests) t u)
    (through : u.requests = []) : ∀ k, 1 ≤ k → k ≤ event.seqNo → k ∈ realSeqs u.shown := by
  intro k positive le
  have sound := run_sound (start_sound served) reached
  have isFirst := (List.cons_subset.mp (first ▸ sound.frames)).1
  have move := step_move received
  have within : event.seqNo ≤ s.stream.length := by
    have isIn := @List.mem_map_of_mem _ _ _ _ Event.seqNo isFirst
    rw [sound.served.numbered, List.mem_range'_1] at isIn
    omega
  have covered : Covered t k := by
    cases move with
    | receive first' =>
      obtain ⟨rfl, rfl⟩ := List.cons.inj (first.symm.trans first')
      exact handle_closes (sound.dropped first) isFirst mounted fresh positive le
  exact shown_of_covered through (run_covers (move.sound sound) positive
    (Nat.le_trans le (Nat.le_trans within move.grows.length_le)) covered run)

/-- A label that loses nothing: no request fails, none is joined too late by a socket that opens, and no
broadcast is lost while the socket is open. -/
def Lossless (s : Sync) : Label → Prop
  | .fail _ => False
  | .lose _ => ¬(s.socket = .opened ∧ s.subscribed = true)
  | .opens => Fresh (nextTerminalReconcileFromSeq s.shown) s
  | _ => True

instance : ∀ label, Decidable (AnswersRequests label)
  | .fail _ => inferInstanceAs (Decidable False)
  | .store _ | .broadcast _ | .republish _ | .lose _ | .connect | .accept | .opens | .receive | .cut
  | .closes | .mount | .answer _ | .arrive _ | .send .. | .posted _ | .unsent =>
    inferInstanceAs (Decidable True)

instance (s : Sync) : ∀ label, Decidable (Lossless s label)
  | .fail _ => inferInstanceAs (Decidable False)
  | .lose _ => inferInstanceAs (Decidable ¬(s.socket = .opened ∧ s.subscribed = true))
  | .opens => inferInstanceAs (Decidable (Fresh _ s))
  | .store _ | .broadcast _ | .republish _ | .connect | .accept | .receive | .cut | .closes | .mount
  | .answer _ | .arrive _ | .send .. | .posted _ | .unsent => inferInstanceAs (Decidable True)

/-- A stored number is covered, on the socket, or yet to be broadcast. -/
def Coming (s : Sync) (k : Nat) : Prop := Covered s k ∨ k ∈ s.frames.map Event.seqNo ∨ k ∈ s.owed

/-- An open page is to have the whole stream. -/
structure InStep (s : Sync) : Prop where
  sound : HoldsStored s
  coming : s.socket = .opened → s.subscribed = true → s.mounted = true →
    ∀ k, 1 ≤ k → k ≤ s.stream.length → Coming s k

theorem reconcile_only (fromSeq : Nat) (s : Sync) : ∃ requests slot made,
    s.reconcile fromSeq = { s with requests := requests, slot := slot, made := made } := by
  rcases reconcile_requests fromSeq s with ⟨r, -, same⟩ | ⟨-, same⟩
  · exact ⟨s.requests, s.slot, s.made, same⟩
  · exact ⟨_, _, _, same⟩

theorem handle_only (event : Event) (s : Sync) : ∃ shown requests slot made, s.handle event =
    { s with shown := shown, requests := requests, slot := slot, made := made } := by
  unfold handle
  simp only
  split
  · obtain ⟨requests, slot, made, same⟩ := reconcile_only (nextTerminalReconcileFromSeq s.shown) s
    rw [same]
    exact ⟨_, _, _, _, rfl⟩
  · exact ⟨_, _, _, _, rfl⟩

theorem broadcast_subscribed (event : Event) (s : Sync) :
    (s.broadcast event).subscribed = s.subscribed := by
  unfold broadcast
  split <;> rfl

theorem broadcast_heard (event : Event) (hears : s.subscribed = true) :
    s.broadcast event = { s with frames := s.frames ++ [event] } := if_pos hears

theorem AnswersRequests.of_kept {label : Label} (kept : Lossless s label) : AnswersRequests label := by
  cases label with
  | fail => exact kept
  | _ => trivial

/-- **A step that loses nothing** keeps an open page in step. -/
theorem Move.inStep {label : Label} (move : Move s label t) (kept : Lossless s label) (inStep : InStep s) :
    InStep t := by
  have sound := move.sound inStep.sound
  refine ⟨sound, fun opened subscribed mounted k positive within => ?_⟩
  have answers := AnswersRequests.of_kept kept
  -- what was covered is, and what was on its way is looked at below
  have still : k ≤ s.stream.length → Covered s k → Coming t k := fun old covered =>
    .inl (move.covers inStep.sound answers positive old covered)
  cases move with
  | store =>
    rcases Nat.lt_or_ge s.stream.length k with new | old
    · have same : k = s.stream.length + 1 := by
        have long : k ≤ s.stream.length + 1 := by simpa [Sync.store] using within
        omega
      exact .inr (.inr (List.mem_append_right _ (by simp [same])))
    · rcases inStep.coming opened subscribed mounted k positive old with covered | framed | owed
      · exact still old covered
      · exact .inr (.inl framed)
      · exact .inr (.inr (List.mem_append_left _ owed))
  | @broadcast other event found =>
    have hears : s.subscribed = true := (broadcast_subscribed event s).symm.trans subscribed
    rw [broadcast_heard event hears] at opened mounted within still ⊢
    rcases inStep.coming opened hears mounted k positive within with covered | framed | owed
    · exact still within covered
    · exact .inr (.inl (List.map_append ▸ List.mem_append_left _ framed))
    · by_cases same : k = other
      · exact .inr (.inl (by simp [same, (stored_spec found).2]))
      · exact .inr (.inr ((List.mem_erase_of_ne same).mpr owed))
  | republish =>
    rcases inStep.coming opened subscribed mounted k positive within with covered | framed | owed
    · exact still within covered
    · exact .inr (.inl framed)
    · exact .inr (.inr (List.mem_append_left _ owed))
  | lose => exact absurd ⟨opened, subscribed⟩ kept
  | connect | accept => cases opened
  | cut => cases subscribed
  | closes => cases opened
  | opens =>
    obtain ⟨below, -, -⟩ := reconcile_from_spec s.shown
    unfold Sync.opens at mounted within ⊢
    simp only at mounted within ⊢
    split at mounted
    · rename_i isMounted
      rw [if_pos isMounted] at within ⊢
      rcases Nat.lt_or_ge k (nextTerminalReconcileFromSeq s.shown) with less | ge
      · refine .inl (.inl ?_)
        rw [reconcile_shown]
        exact below k positive less
      · exact .inl (.inr (reconcile_awaits kept ge))
    · rename_i unmounted
      exact absurd mounted unmounted
  | @receive event frames first isOpen =>
    have isFirst := (List.cons_subset.mp (first ▸ inStep.sound.frames)).1
    obtain ⟨shown, requests, slot, made, same⟩ := handle_only event { s with frames := frames }
    have old : k ≤ s.stream.length := by
      rw [same] at within
      exact within
    rw [same] at subscribed mounted
    rcases inStep.coming isOpen subscribed mounted k positive old with covered | framed | owed
    · exact still old covered
    · rw [first, List.map_cons, List.mem_cons] at framed
      rcases framed with isEvent | later
      · exact .inl (handle_covers (inStep.sound.dropped first) isFirst (.inr isEvent))
      · rw [same]
        exact .inr (.inl later)
    · rw [same]
      exact .inr (.inr owed)
  | mount =>
    exact .inl (.inr ⟨_, List.mem_append_right _ (List.mem_singleton_self _), positive, by simp⟩)
  | answer | arrive | send | posted | unsent =>
    rcases inStep.coming opened subscribed mounted k positive within with covered | coming
    · exact still within covered
    · exact .inr coming
  | fail => exact kept.elim

theorem run_inStep {stream : List Event} (served : Served stream) (run : Run step Lossless (start stream) s) :
    InStep s := by
  refine run.invariant (fun _ _ _ inStep kept stepped => (step_move stepped).inStep kept inStep) ?_
  exact ⟨start_sound served, fun opened => by cases opened⟩

/-- Nothing is under way: no broadcast, no frame, no request. -/
structure AtRest (s : Sync) : Prop where
  broadcast : s.owed = []
  delivered : s.frames = []
  through : s.requests = []

/-- A page on an open socket. -/
structure Attends (s : Sync) : Prop where
  opened : s.socket = .opened
  subscribed : s.subscribed = true
  mounted : s.mounted = true

theorem InStep.synced (inStep : InStep s) (attends : Attends s) (rest : AtRest s) :
    (s.shown.filter fun e => !e.isOptimistic) = s.stream := by
  have has : ∀ k, 1 ≤ k → k ≤ s.stream.length → k ∈ realSeqs s.shown := by
    intro k positive within
    rcases inStep.coming attends.opened attends.subscribed attends.mounted k positive within with
      covered | framed | owed
    · exact shown_of_covered rest.through covered
    · rw [rest.delivered] at framed
      cases framed
    · rw [rest.broadcast] at owed
      cases owed
  have served := inStep.sound.served
  have shows := inStep.sound.shows
  have irreflexive : Std.Irrefl fun a b : Event => a.seqNo < b.seqNo := ⟨fun a => Nat.lt_irrefl _⟩
  have asymmetric : Std.Asymm fun a b : Event => a.seqNo < b.seqNo := ⟨fun a b less => Nat.lt_asymm less⟩
  refine (shows.increasing.sublist List.filter_sublist).eq_of_mem_iff served.increasing fun e => ?_
  rw [List.mem_filter]
  refine ⟨fun isIn => shows.stored e isIn.1 (by simpa using isIn.2), fun isIn => ?_⟩
  have number := List.mem_range'_1.mp (served.numbered ▸ @List.mem_map_of_mem _ _ _ _ Event.seqNo isIn)
  obtain ⟨other, isShown, stored, same⟩ := mem_real_seqs.mp (has e.seqNo number.1 (by omega))
  obtain rfl := served.increasing.one (shows.stored other isShown stored) isIn same
  exact ⟨isShown, by simp [stored]⟩

end Covering

/-! ### A request that was joined too late -/

/-- The body of a stored output. -/
def plainBody (id text : String) : Dict String Json :=
  (Dict.empty.put "id" (.str id)).put "payload_inline" (.str text)

/-- The page is loaded while nothing is stored, and its socket opens. -/
def opening : List Label := [.mount, .answer 0, .arrive 0, .connect, .accept, .opens, .answer 1]

/-- An input is being sent beside a stored output. -/
theorem shown_true_sending : ∃ s, Run step anyStep (start []) s ∧ s.sending = some "local-terminal-1" ∧
    s.stream.length = 1 ∧ (s.shown.filter fun e => !e.isOptimistic).Sublist s.stream ∧
    ∀ e ∈ s.shown, e.isOptimistic = true → ∃ id, s.sending = some id ∧ e.externalId? = some id := by
  obtain ⟨s, _, ran, same, passes⟩ := checked_run (show
    ((follow step anyStep (start []) (opening ++ [Label.arrive 1, .store (plainBody "event-1" "Hello."),
        .broadcast 1, .receive, .send "local-terminal-1" 1 Dict.empty])).bind some).any
      (fun s => decide (s.sending = some "local-terminal-1") && decide (s.stream.length = 1)) = true by
    decide +kernel)
  obtain rfl := Option.some.inj same
  simp only [Bool.and_eq_true, decide_eq_true_eq] at passes
  have run := run_of_follow ran
  obtain ⟨stored, -, -, echo⟩ := shown_true served_nil run
  exact ⟨s, run, passes.1, passes.2, stored, echo⟩

/-- The page closes the gap that a lost broadcast left. -/
theorem gap_closed_losing : ∃ s t u event, Run step anyStep (start []) s ∧ s.frames = [event] ∧
    event.seqNo = 2 ∧ step s .receive = some t ∧ 1 ∉ realSeqs t.shown ∧
      Run step (fun _ => AnswersRequests) t u ∧
    ∀ k, 1 ≤ k → k ≤ event.seqNo → k ∈ realSeqs u.shown := by
  obtain ⟨s, ⟨t, u⟩, first, ran, passes⟩ := checked_run (show
    (((follow step anyStep (start []) (opening ++ [Label.arrive 1, .store (plainBody "event-1" "Hello."), .lose 1,
        .store (plainBody "event-2" "Ready."), .broadcast 2])).filter fun s =>
          decide (s.frames.map Event.seqNo = [2]) && s.mounted &&
            decide (Fresh (nextTerminalReconcileFromSeq s.shown) s)).bind fun s =>
      (step s .receive).bind fun t =>
      (follow step (fun _ => AnswersRequests) t [.answer 2, .arrive 2]).map fun u => (t, u)).any
      (fun states => decide (1 ∉ realSeqs states.1.shown) && states.2.requests.isEmpty) = true by
    decide +kernel)
  obtain ⟨ran', holds⟩ := Option.filter_eq_some_iff.mp first
  obtain ⟨_, received, ran⟩ := Option.bind_eq_some_iff.mp ran
  obtain ⟨_, answered, same⟩ := Option.map_eq_some_iff.mp ran
  obtain ⟨rfl, rfl⟩ := Prod.mk.inj same
  simp only [Bool.and_eq_true, decide_eq_true_eq, List.isEmpty_iff] at passes holds
  obtain ⟨⟨frames, mounted⟩, fresh⟩ := holds
  obtain ⟨event, isFrames, seqNo⟩ := List.map_eq_singleton_iff.mp frames
  exact ⟨s, _, _, event, run_of_follow ran', isFrames, seqNo, received, passes.1, run_of_follow answered,
    gap_closed served_nil (run_of_follow ran') isFrames mounted (fun _ => fresh) received
      (run_of_follow answered) passes.2⟩

/-- **A gap at rest**: a socket that opens again joins the request of the one before, whose answer is on
its way, and the page has no event that was broadcast in between. Nothing else went wrong. -/
theorem joined_too_late : ∃ s t u, Run step Lossless (start []) s ∧ step s .opens = some t ∧
    Run step Lossless t u ∧ Attends u ∧ AtRest u ∧ u.shown.length < u.stream.length := by
  obtain ⟨s, ⟨t, u⟩, first, ran, passes⟩ := checked_run (show
    ((follow step Lossless (start []) (opening ++ [Label.closes, .store (plainBody "event-1" "Hello."), .broadcast 1,
        .connect, .accept])).bind fun s => (step s .opens).bind fun t =>
      (follow step Lossless t [.arrive 1]).map fun u => (t, u)).any
      (fun states => decide (states.2.socket = .opened) && states.2.subscribed && states.2.mounted &&
        states.2.owed.isEmpty && states.2.frames.isEmpty && states.2.requests.isEmpty &&
        decide (states.2.shown.length < states.2.stream.length)) = true by decide +kernel)
  obtain ⟨_, opens, ran⟩ := Option.bind_eq_some_iff.mp ran
  obtain ⟨_, arrives, same⟩ := Option.map_eq_some_iff.mp ran
  obtain ⟨rfl, rfl⟩ := Prod.mk.inj same
  simp only [Bool.and_eq_true, decide_eq_true_eq, List.isEmpty_iff] at passes
  obtain ⟨⟨⟨⟨⟨⟨opened, subscribed⟩, mounted⟩, owed⟩, frames⟩, requests⟩, behind⟩ := passes
  exact ⟨s, _, _, run_of_follow first, opens, run_of_follow arrives, ⟨opened, subscribed, mounted⟩,
    ⟨owed, frames, requests⟩, behind⟩

end Sync

end Psop.Client
