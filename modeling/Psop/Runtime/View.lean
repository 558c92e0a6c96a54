import Psop.Footprint
import Psop.Runtime.System

/-!
The terminal as a token sees it.

`view` forgets everything about a token but five things: how far the event stream has been copied,
the copies, the input window of the current wait, the consumption records, and how many waits were
entered. Everything a turn does to a token is on the view one of a few moves (copy an event, take an
input as evidence, open a window, drop the wait), and most of it is no move at all: it writes along
other paths (`view_of_writes`). The theorems of this module say so for each function of the runtime.
-/
namespace Psop.Runtime

open Json Rows Psop.Runtime.System

/-! ### The view -/

/-- A copied event as far as it is compared: its id and its number. -/
abbrev Copy := String × Json

structure View where
  cursor : Option Int
  copies : List Copy
  /-- `none` without a wait; the value under `accept_after_seq` with one. -/
  window : Option (Option Json)
  records : List (Option Int)
  checkpoints : Nat

def copyOf (entry : Json) : Copy := ((entry.field "id").strOr, entry.field "seq_no")

def view (token : Json) : View :=
  { cursor := cursor? token
    copies := (tokenEvents token).map copyOf
    window := (wait? token).map fun wait => wait.at? ["input_window", "accept_after_seq"]
    records := (consumption token).map recordSeq
    checkpoints := (waitCheckpoints token).length }

namespace View

/-- The number the window opens after. -/
def accept? (v : View) : Option Int :=
  v.window.map fun value => ((value.getD null).toIntOr0?).getD 0

/-- An input of this number would be evidence of the wait. -/
def consumable (v : View) (seqNo : Nat) : Bool :=
  match v.accept? with
  | some accept => decide (accept < seqNo) && !v.records.contains (some (seqNo : Int))
  | none => false

/-- A wait was entered or an input consumed before. -/
def prior (v : View) : Bool := v.window.isSome || v.checkpoints != 0 || !v.records.isEmpty

/-- The copy of an event. -/
def entry (event : TerminalEvent) : Copy := (event.id, num event.seqNo)

/-- An event is copied and the cursor moves onto it. -/
def copy (event : TerminalEvent) (v : View) : View :=
  { v with cursor := some event.seqNo, copies := v.copies ++ [entry event] }

/-- An input is recorded as consumed. -/
def take (event : TerminalEvent) (v : View) : View :=
  { v with records := v.records ++ [some (event.seqNo : Int)] }

/-- What synchronisation does with an event. -/
def sync (v : View) (event : TerminalEvent) : View :=
  match event.direction with
  | .output => v.copy event
  | .input => if (v.copy event).consumable event.seqNo then (v.copy event).take event else v.copy event

/-- What the entry of a wait does with an event that is already there. -/
def pull (v : View) (event : TerminalEvent) : View :=
  match event.direction with
  | .output => v
  | .input =>
    if !v.consumable event.seqNo then v
    else take event { v with
      cursor := v.cursor.map fun cursor => max cursor event.seqNo
      copies := if event.id ≠ "" ∧ event.id ∈ v.copies.map Prod.fst then v.copies
        else v.copies ++ [entry event] }

/-- A wait is entered. -/
def enter (accept : Int) (v : View) : View :=
  { v with window := some (some (num accept)), checkpoints := v.checkpoints + 1 }

end View

/-! ### Reading the view -/

/-- The paths the view is read along. -/
def viewPaths : List (List String) :=
  [["metadata", "terminal_cursor"], ["terminal", "events"], ["control", "wait"],
    ["control", "terminal_consumption"], ["control", "wait_checkpoints"]]

theorem view_of_reads {a b : Json} (same : ∀ p ∈ viewPaths, at? p b = at? p a) : view b = view a := by
  simp only [viewPaths, List.mem_cons, List.not_mem_nil, or_false, forall_eq_or_imp, forall_eq]
    at same
  obtain ⟨cursor, events, wait, consumed, checkpoints⟩ := same
  simp only [view, cursor?, tokenEvents, wait?, consumption, waitCheckpoints, cursor, events, wait, consumed,
    checkpoints]

/-- Writes along other paths are no move. -/
theorem view_of_writes {paths : List (List String)} {a b : Json} (writes : Writes paths a b)
    (free : ∀ p ∈ viewPaths, ∀ q ∈ paths, Apart q p) : view b = view a :=
  view_of_reads fun p isPath => writes p (free p isPath)

theorem accept_of_wait {token wait : Json} (has : wait? token = some wait) :
    (view token).accept? = some (acceptAfter wait) := by
  simp [View.accept?, view, has, acceptAfter]

theorem window_isSome (token : Json) : (view token).window.isSome = (wait? token).isSome := by
  simp [view]

theorem has_consumed (token : Json) (seqNo : Int) :
    hasConsumed token seqNo = (view token).records.contains (some seqNo) := by
  rw [hasConsumed, view, List.contains_eq_any_beq, List.any_map]
  refine congrArg (fun f => (consumption token).any f) (funext fun record => ?_)
  exact Bool.beq_comm

theorem can_consume (event : TerminalEvent) (token : Json) :
    canConsume event token = (view token).consumable event.seqNo := by
  unfold canConsume View.consumable
  cases has : wait? token with
  | none => simp [View.accept?, view, has]
  | some wait => simp only [accept_of_wait has, has_consumed]

theorem has_prior_wait (token : Json) : hasPriorWait token = (view token).prior := by
  have nonempty : ∀ items : List Json, (!items.isEmpty) = (items.length != 0) := fun items => by
    cases items <;> rfl
  simp [hasPriorWait, View.prior, view, nonempty]

theorem token_event_ids (token : Json) (id : String) :
    id ∈ tokenEventIds token ↔ id ≠ "" ∧ id ∈ (view token).copies.map Prod.fst := by
  simp only [tokenEventIds, view, List.mem_filterMap, List.map_map, List.mem_map, copyOf,
    Function.comp]
  constructor
  · rintro ⟨item, isItem, kept⟩
    simp only [Bool.and_eq_true, bne_iff_ne, ne_eq, Option.ite_none_right_eq_some,
      Option.some.injEq] at kept
    obtain ⟨⟨-, nonempty⟩, rfl⟩ := kept
    exact ⟨nonempty, item, isItem, rfl⟩
  · rintro ⟨nonempty, item, isItem, rfl⟩
    refine ⟨item, isItem, ?_⟩
    have isObj : item.isObj = true := by
      cases item with
      | obj => rfl
      | _ => exact absurd rfl nonempty
    simp [isObj, nonempty]

theorem wait_spec {token wait : Json} (has : wait? token = some wait) :
    ∃ fs, wait = obj fs ∧ token.at? ["control", "wait"] = some (obj fs) := by
  unfold wait? at has
  split at has
  · rename_i fs found
    exact ⟨fs, (Option.some.inj has).symm, found⟩
  · cases has

theorem wait_of_at {token : Json} {fs : Fields}
    (found : token.at? ["control", "wait"] = some (obj fs)) : wait? token = some (obj fs) := by
  simp [wait?, found]

/-- The window as a read of the token. -/
theorem window_of_wait {token wait : Json} (has : wait? token = some wait) :
    (view token).window =
      some (token.at? ["control", "wait", "input_window", "accept_after_seq"]) := by
  obtain ⟨fs, rfl, found⟩ := wait_spec has
  have read := at?_below found ["input_window", "accept_after_seq"]
  simp only [List.cons_append, List.nil_append] at read
  simp [view, has, read]

theorem window_read {token : Json} {k : Int} (was : (view token).window = some (some (num k))) :
    token.at? ["control", "wait", "input_window", "accept_after_seq"] = some (num k) := by
  cases has : wait? token with
  | none => rw [view, has] at was; cases was
  | some wait => rw [window_of_wait has] at was; exact Option.some.inj was

/-- What a write below the wait leaves of the view: all but the window. -/
theorem view_below_wait {key : String} {rest : List String} {update : Option Json → Option Json}
    {a b : Json} (altered : alter? ("control" :: "wait" :: key :: rest) update (some a) = some b) :
    (wait? b).isSome = true ∧ view b = { view a with
      window := some (b.at? ["control", "wait", "input_window", "accept_after_seq"]) } := by
  have writes : Writes [["control", "wait", key] ++ rest] a b := .alter altered
  obtain ⟨fs, found⟩ : ∃ fs, at? ["control", "wait"] b = some (obj fs) := alter?_through altered
  have free : ∀ p, Apart ["control", "wait", key] p → at? p b = at? p a := fun p apart =>
    writes p fun q isQ => by
      obtain rfl := List.mem_singleton.mp isQ
      exact (apart.symm.append rest).symm
  have has := wait_of_at found
  refine ⟨by rw [has]; rfl, ?_⟩
  rw [← window_of_wait has]
  simp only [view, cursor?, tokenEvents, consumption, waitCheckpoints,
    free ["metadata", "terminal_cursor"] (apart_of_head (by decide) _ _),
    free ["terminal", "events"] (apart_of_head (by decide) _ _),
    free ["control", "terminal_consumption"] (by simp [Apart, apart]),
    free ["control", "wait_checkpoints"] (by simp [Apart, apart])]

/-- Writes to the wait beside its window are no move. -/
theorem view_beside_window {key : String} {rest : List String}
    {update : Option Json → Option Json} {a b : Json} (beside : key ≠ "input_window")
    (has : (wait? a).isSome = true)
    (altered : alter? ("control" :: "wait" :: key :: rest) update (some a) = some b) :
    view b = view a ∧ (wait? b).isSome = true := by
  obtain ⟨wait, isWait⟩ := Option.isSome_iff_exists.mp has
  obtain ⟨still, moved⟩ := view_below_wait altered
  have apart : Apart ("control" :: "wait" :: key :: rest)
      ["control", "wait", "input_window", "accept_after_seq"] := by
    simp [Apart, Json.apart, beside]
  refine ⟨?_, still⟩
  rw [moved, at?_alter?_apart apart altered, ← window_of_wait isWait]

/-! ### Taking events in -/

theorem view_events {token : Json} {items : List Json}
    (found : token.at? ["terminal", "events"] = some (arr items)) : tokenEvents token = items := by
  simp [tokenEvents, found, Json.items]

/-- The items of what `append` found. -/
theorem items_of_list {value : Option Json} {xs : List Json} (list : value.getD (arr []) = arr xs) :
    (value.getD null).items = xs := by
  cases value with
  | none =>
    obtain rfl : [] = xs := by simpa using list
    rfl
  | some items =>
    obtain rfl : items = arr xs := list
    rfl

/-- Appending a copy. -/
theorem view_push_event {value token token' : Json}
    (pushed : token.push? ["terminal", "events"] value = some token') :
    view token' = { view token with copies := (view token).copies ++ [copyOf value] } := by
  obtain ⟨xs, before, after⟩ := at?_push?_same pushed
  have was : tokenEvents token = xs := items_of_list before
  have writes := Writes.push pushed
  have free : ∀ p, Apart ["terminal", "events"] p → at? p token' = at? p token := fun p apart =>
    writes p fun q isQ => List.mem_singleton.mp isQ ▸ apart
  simp only [view, view_events after, was, List.map_append, List.map_cons, List.map_nil]
  simp only [cursor?, wait?, consumption, waitCheckpoints,
    free ["metadata", "terminal_cursor"] (by decide), free ["control", "wait"] (by decide),
    free ["control", "terminal_consumption"] (by decide),
    free ["control", "wait_checkpoints"] (by decide)]

theorem toIntOr0?_num (n : Int) : (num n).toIntOr0? = some n := by
  by_cases zero : n = 0
  · subst zero; rfl
  · simp [toIntOr0?, truthy, zero, toInt?]

/-- Moving the cursor. -/
theorem view_put_cursor {n : Int} {token token' : Json}
    (put : token.put? ["metadata", "terminal_cursor"] (num n) = some token') :
    view token' = { view token with cursor := some n } := by
  have writes := Writes.put put
  have free : ∀ p, Apart ["metadata", "terminal_cursor"] p → at? p token' = at? p token :=
    fun p apart => writes p fun q isQ => List.mem_singleton.mp isQ ▸ apart
  simp only [view, cursor?, at?_put?_same put, Option.getD_some, toIntOr0?_num, tokenEvents, wait?,
    consumption, waitCheckpoints, free ["terminal", "events"] (by decide), free ["control", "wait"] (by decide),
    free ["control", "terminal_consumption"] (by decide),
    free ["control", "wait_checkpoints"] (by decide)]

theorem copyOf_payload (event : TerminalEvent) : copyOf event.tokenPayload = View.entry event := by
  simp [copyOf, View.entry, field, strOr, toStr]

theorem copyOf_evidence (event : TerminalEvent) : copyOf event.evidence = View.entry event := by
  simp [copyOf, View.entry, field, strOr, toStr]

theorem copy_event_view {event : TerminalEvent} {token token' : Json}
    (copied : copyEvent event token = some token') : view token' = (view token).copy event := by
  unfold copyEvent at copied
  obtain ⟨pushed, push, copied⟩ := Option.bind_eq_some_iff.mp copied
  obtain ⟨numbered, number, put⟩ := Option.bind_eq_some_iff.mp copied
  rw [view_put_cursor put, view_of_writes (.put number) (by decide), view_push_event push,
    copyOf_payload]
  rfl

theorem note_input_view {text : String} {token token' : Json}
    (noted : noteUserInput text token = some token') :
    view token' = view token ∧ (wait? token').isSome = (wait? token).isSome := by
  have same : view token' = view token := by
    unfold noteUserInput at noted
    split at noted
    · cases noted; rfl
    · obtain ⟨named, put, kept⟩ := Option.bind_eq_some_iff.mp noted
      rw [view_of_writes (.setDefault kept) (by decide), view_of_writes (.put put) (by decide)]
  exact ⟨same, by rw [← window_isSome, same, window_isSome]⟩

/-- A number that was not recorded before is. -/
theorem record_consumption_items {now : String} {event : TerminalEvent} {token token' : Json}
    (fresh : hasConsumed token event.seqNo = false)
    (recorded : recordTerminalConsumption now event token = some token') :
    consumption token' =
        consumption token ++ [consumptionRecord now event ((wait? token).getD null)] ∧
      Writes [["control", "terminal_consumption"]] token token' := by
  unfold recordTerminalConsumption at recorded
  rw [fresh] at recorded
  simp only [Bool.false_eq_true, if_false] at recorded
  refine ⟨?_, .alter recorded⟩
  obtain ⟨value, written, read⟩ := at?_alter?_same recorded
  rw [consumption, read, consumption]
  split at written
  · rename_i old found
    obtain rfl := Option.some.inj written
    rw [found]
    rfl
  · rename_i other
    obtain rfl := Option.some.inj written
    cases found : token.at? ["control", "terminal_consumption"] with
    | none => rfl
    | some value =>
      cases value with
      | arr items => exact absurd found (other items)
      | _ => rfl

theorem has_wait_of_can {event : TerminalEvent} {token : Json} (may : canConsume event token = true) :
    (wait? token).isSome = true := by
  unfold canConsume at may
  cases found : wait? token with
  | none => rw [found] at may; cases may
  | some => rfl

/-- What a wait may consume was not recorded before. -/
theorem can_consume_fresh {event : TerminalEvent} {token : Json}
    (may : canConsume event token = true) : hasConsumed token event.seqNo = false := by
  unfold canConsume at may
  cases found : wait? token with
  | none => rw [found] at may; cases may
  | some wait => rw [found] at may; simpa using (Bool.and_eq_true_iff.mp may).2

/-- An input taken as evidence for the first time is recorded. -/
theorem take_evidence_view {now : String} {event : TerminalEvent} {token token' : Json}
    (may : canConsume event token = true) (taken : takeEvidence now event token = some token') :
    view token' = (view token).take event := by
  obtain ⟨pushed, push, recorded⟩ := Option.bind_eq_some_iff.mp taken
  obtain ⟨same, still⟩ := view_beside_window (by decide) (has_wait_of_can may) push
  have fresh : hasConsumed pushed event.seqNo = false := by
    rw [has_consumed, same, ← has_consumed]
    exact can_consume_fresh may
  obtain ⟨records, writes⟩ := record_consumption_items fresh recorded
  have free : ∀ p, Apart ["control", "terminal_consumption"] p → at? p token' = at? p pushed :=
    fun p apart => writes p fun q isQ => List.mem_singleton.mp isQ ▸ apart
  have seq : recordSeq (consumptionRecord now event ((wait? pushed).getD null)) =
      some (event.seqNo : Int) := rfl
  rw [View.take, ← same]
  simp only [view, records, List.map_append, List.map_cons, List.map_nil, seq]
  simp only [cursor?, wait?, tokenEvents, waitCheckpoints,
    free ["metadata", "terminal_cursor"] (by decide), free ["control", "wait"] (by decide),
    free ["terminal", "events"] (by decide), free ["control", "wait_checkpoints"] (by decide)]

theorem receive_view {latest token token' : Json} (has : (wait? token).isSome = true)
    (received : receiveEvidence latest token = some token') :
    view token' = view token ∧ hasStatus token' "waiting" = false := by
  unfold receiveEvidence at received
  obtain ⟨a, latestSeq, received⟩ := Option.bind_eq_some_iff.mp received
  obtain ⟨b, status, received⟩ := Option.bind_eq_some_iff.mp received
  obtain ⟨c, evidence, received⟩ := Option.bind_eq_some_iff.mp received
  obtain ⟨d, running, phase⟩ := Option.bind_eq_some_iff.mp received
  obtain ⟨sameA, hasA⟩ := view_beside_window (by decide) has latestSeq
  obtain ⟨sameB, -⟩ := view_beside_window (by decide) hasA status
  refine ⟨?_, ?_⟩
  · rw [view_of_writes (.put phase) (by decide), view_of_writes (.put running) (by decide),
      view_of_writes (.put evidence) (by decide), sameB, sameA]
  · have isRunning : token'.at? ["status"] = some (str "running") :=
      (at?_put?_apart (by decide) phase).trans (at?_put?_same running)
    have field : token'.field "status" = str "running" := by
      have read := isRunning
      simp only [at?_cons, Option.bind_eq_some_iff, at?_nil, Option.some.injEq] at read
      obtain ⟨_, found, rfl⟩ := read
      rw [Json.field, found, Option.getD_some]
    rw [hasStatus, field]
    rfl

theorem open_terminal_view {token token' : Json} (opened : openTerminal token = some token') :
    view token' = view token := by
  unfold openTerminal at opened
  obtain ⟨listed, list, filled⟩ := Option.bind_eq_some_iff.mp opened
  rw [view_of_writes (.setDefault filled) (by decide)]
  have writes := Writes.setDefault list
  have free : ∀ p, Apart ["terminal", "events"] p → at? p listed = at? p token := fun p apart =>
    writes p fun q isQ => List.mem_singleton.mp isQ ▸ apart
  have events : tokenEvents listed = tokenEvents token := by
    rw [tokenEvents, at?_setDefault?_same list, tokenEvents]
    cases token.at? ["terminal", "events"] <;> rfl
  simp only [view, events, cursor?, wait?, consumption, waitCheckpoints,
    free ["metadata", "terminal_cursor"] (by decide), free ["control", "wait"] (by decide),
    free ["control", "terminal_consumption"] (by decide),
    free ["control", "wait_checkpoints"] (by decide)]

/-! ### Synchronisation -/

/-- The window is a number from then on, and the one it was if it was one before. -/
theorem ensure_window_view {cursor : Int} {token token' : Json}
    (ensured : ensureWaitInputWindow cursor token = some token') :
    ∃ accept, (∀ k, (view token).window = some (some (num k)) → accept = k) ∧
      view token' = { view token with window := some (some (num accept)) } := by
  unfold ensureWaitInputWindow at ensured
  split at ensured
  · rename_i window found
    obtain ⟨policed, policy, put⟩ := Option.bind_eq_some_iff.mp ensured
    obtain ⟨-, moved⟩ := view_below_wait policy
    obtain ⟨-, moved'⟩ := view_below_wait put
    refine ⟨(((lookup "accept_after_seq" window).getD null).toIntOr0?).getD cursor,
      fun k was => ?_, ?_⟩
    · have at_ := window_read was
      have inner := at?_below found ["accept_after_seq"]
      simp only [List.cons_append, List.nil_append] at inner
      rw [at_] at inner
      have stored : lookup "accept_after_seq" window = some (num k) := by
        rw [at?_cons, field?_obj] at inner
        obtain ⟨value, has, same⟩ := Option.bind_eq_some_iff.mp inner.symm
        rw [has, ← same, at?_nil]
      simp only [stored, Option.getD_some, toIntOr0?_num]
    · rw [moved', moved, at?_put?_same put]
  · rename_i none
    obtain ⟨-, moved⟩ := view_below_wait ensured
    have read := at?_below (at?_put?_same ensured) ["accept_after_seq"]
    simp only [List.cons_append, List.nil_append] at read
    refine ⟨cursor, fun k was => ?_, ?_⟩
    · exfalso
      have at_ := window_read was
      have split := at?_append ["control", "wait", "input_window"] ["accept_after_seq"] token
      simp only [List.cons_append, List.nil_append, at_] at split
      obtain ⟨window, found, inner⟩ := Option.bind_eq_some_iff.mp split.symm
      cases window with
      | obj fs => exact none fs found
      | _ => simp [at?_cons, field?, fields] at inner
    · rw [moved, read]
      rfl

theorem sync_event_view {now : String} {event : TerminalEvent} {taken taken' : Json × List Json}
    (did : syncEvent now taken event = some taken') :
    view taken'.1 = (view taken.1).sync event ∧
    (view taken'.1).records.length + taken.2.length =
      (view taken.1).records.length + taken'.2.length := by
  unfold syncEvent at did
  obtain ⟨copied, copy, did⟩ := Option.bind_eq_some_iff.mp did
  have copiedView := copy_event_view copy
  unfold View.sync
  cases toward : event.direction with
  | output =>
    rw [toward] at did
    obtain rfl := Option.some.inj did
    exact ⟨copiedView, by rw [copiedView]; rfl⟩
  | input =>
    rw [toward] at did
    obtain ⟨noted, note, did⟩ := Option.bind_eq_some_iff.mp did
    obtain ⟨same, -⟩ := note_input_view note
    simp only
    rw [← copiedView, ← same, ← can_consume]
    split at did
    · rename_i may
      obtain ⟨evident, take, did⟩ := Option.bind_eq_some_iff.mp did
      obtain rfl := Option.some.inj did
      have tookView := take_evidence_view may take
      rw [if_pos may]
      refine ⟨tookView, ?_⟩
      rw [tookView, same, copiedView]
      simp only [View.take, View.copy, List.length_append, List.length_singleton]
      omega
    · rename_i not
      obtain rfl := Option.some.inj did
      rw [if_neg not]
      exact ⟨rfl, by rw [same, copiedView]; rfl⟩

theorem sync_events_view {now : String} {events : List TerminalEvent} {taken taken' : Json × List Json}
    (did : events.foldlM (syncEvent now) taken = some taken') :
    view taken'.1 = events.foldl View.sync (view taken.1) ∧
    (view taken'.1).records.length + taken.2.length =
      (view taken.1).records.length + taken'.2.length := by
  induction events generalizing taken with
  | nil => cases did; exact ⟨rfl, rfl⟩
  | cons event rest ih =>
    rw [List.foldlM_cons] at did
    obtain ⟨next, first, later⟩ := Option.bind_eq_some_iff.mp did
    obtain ⟨firstView, firstCount⟩ := sync_event_view first
    obtain ⟨laterView, laterCount⟩ := ih later
    exact ⟨by rw [laterView, firstView, List.foldl_cons], by omega⟩

theorem View.sync_window (v : View) (event : TerminalEvent) : (v.sync event).window = v.window := by
  unfold View.sync
  split
  · rfl
  · split <;> rfl

theorem View.sync_all_window (events : List TerminalEvent) (v : View) :
    (events.foldl View.sync v).window = v.window := by
  induction events generalizing v with
  | nil => rfl
  | cons event rest ih => rw [List.foldl_cons, ih, View.sync_window]

theorem finish_taking_view {taken : Json × List Json} {result : Json × Bool}
    (has : (wait? taken.1).isSome = true) (finished : finishTaking taken = some result) :
    view result.1 = view taken.1 ∧
    (hasStatus result.1 "waiting" = true → taken.2 = [] ∧ result.1 = taken.1) := by
  unfold finishTaking at finished
  split at finished
  · rename_i none
    obtain rfl := Option.some.inj finished
    exact ⟨rfl, fun _ => ⟨List.getLast?_eq_none_iff.mp none, rfl⟩⟩
  · obtain ⟨token, received, rfl⟩ := Option.map_eq_some_iff.mp finished
    obtain ⟨same, running⟩ := receive_view has received
    refine ⟨same, fun waiting => ?_⟩
    rw [running] at waiting
    cases waiting

/-- What a synchronisation with something to copy did. -/
structure Synced (events : List TerminalEvent) (before after : Json) : Prop where
  moved : ∃ cursor accept, (view before).cursor = some cursor ∧
    (∀ k, (view before).window = some (some (num k)) → accept = k) ∧
    view after = (eventsFrom (cursor + 1) events).foldl View.sync
      { view before with window := some (some (num accept)) }
  waiting : hasStatus after "waiting" = true →
    (view after).records.length = (view before).records.length

/-- **Synchronisation.** Without a wait, or with nothing new, nothing happens; otherwise every event
after the cursor is copied and the consumable inputs are taken. -/
theorem sync_view {now : String} {events : List TerminalEvent} {token token' : Json}
    (synced : syncTerminalEvents now events token = some token') :
    token' = token ∧ (isWaiting token = true →
      ∃ cursor, (view token).cursor = some cursor ∧ eventsFrom (cursor + 1) events = []) ∨
    isWaiting token = true ∧ Synced events token token' := by
  unfold syncTerminalEvents at synced
  split at synced
  · rename_i asleep
    obtain rfl := Option.some.inj synced
    exact .inl ⟨rfl, fun waiting => by rw [waiting] at asleep; cases asleep⟩
  · rename_i awake
    have waiting : isWaiting token = true := by simpa using awake
    obtain ⟨cursor, isCursor, synced⟩ := Option.bind_eq_some_iff.mp synced
    split at synced
    · rename_i none
      obtain rfl := Option.some.inj synced
      exact .inl ⟨rfl, fun _ => ⟨cursor, isCursor, none⟩⟩
    · obtain ⟨opened, open_, synced⟩ := Option.bind_eq_some_iff.mp synced
      obtain ⟨windowed, ensured, synced⟩ := Option.bind_eq_some_iff.mp synced
      obtain ⟨taken, copied, finished⟩ := Option.bind_eq_some_iff.mp synced
      obtain ⟨result, finish, rfl⟩ := Option.map_eq_some_iff.mp finished
      have openView := open_terminal_view open_
      obtain ⟨accept, same, windowView⟩ := ensure_window_view ensured
      obtain ⟨takenView, count⟩ := sync_events_view copied
      rw [openView] at same windowView
      have has : (wait? taken.1).isSome = true := by
        rw [← window_isSome, takenView, View.sync_all_window, windowView]
        rfl
      obtain ⟨finishView, rests⟩ := finish_taking_view has finish
      refine .inr ⟨waiting, ⟨cursor, accept, isCursor, same, ?_⟩, fun still => ?_⟩
      · rw [finishView, takenView, windowView]
      · obtain ⟨nothing, -⟩ := rests still
        rw [finishView]
        simp only [windowView, nothing, List.length_nil, Nat.add_zero] at count
        exact count

/-! ### Entering a wait -/

theorem copy_input_view {event : TerminalEvent} {token token' : Json}
    (copied : copyInput event token = some token') :
    view token' = { view token with
      cursor := (view token).cursor.map fun cursor => max cursor event.seqNo
      copies := if event.id ≠ "" ∧ event.id ∈ (view token).copies.map Prod.fst
        then (view token).copies else (view token).copies ++ [View.entry event] } := by
  unfold copyInput at copied
  obtain ⟨pushed, push, copied⟩ := Option.bind_eq_some_iff.mp copied
  obtain ⟨latest, -, copied⟩ := Option.bind_eq_some_iff.mp copied
  obtain ⟨numbered, number, copied⟩ := Option.bind_eq_some_iff.mp copied
  obtain ⟨cursor, isCursor, put⟩ := Option.bind_eq_some_iff.mp copied
  have numberedView : view numbered = view pushed := view_of_writes (.put number) (by decide)
  have pushedView : view pushed = { view token with
      copies := if event.id ≠ "" ∧ event.id ∈ (view token).copies.map Prod.fst
        then (view token).copies else (view token).copies ++ [View.entry event] } := by
    unfold addCopy at push
    by_cases there : event.id ∈ tokenEventIds token
    · rw [if_pos there] at push
      obtain rfl := Option.some.inj push
      rw [if_pos ((token_event_ids token event.id).mp there)]
    · rw [if_neg there] at push
      rw [if_neg (mt (token_event_ids token event.id).mpr there), view_push_event push,
        copyOf_evidence]
  have was : (view token).cursor = some cursor := by
    have same : (view numbered).cursor = (view token).cursor := by rw [numberedView, pushedView]
    exact same.symm.trans isCursor
  rw [view_put_cursor put, numberedView, pushedView, was]
  rfl

theorem consume_event_view {now : String} {event : TerminalEvent} {taken taken' : Json × List Json}
    (did : consumeEvent now taken event = some taken') :
    view taken'.1 = (view taken.1).pull event := by
  unfold consumeEvent at did
  unfold View.pull
  cases toward : event.direction with
  | output =>
    rw [toward] at did
    obtain rfl := Option.some.inj did
    rfl
  | input =>
    rw [toward] at did
    simp only at did ⊢
    rw [← can_consume]
    split at did
    · rename_i not
      obtain rfl := Option.some.inj did
      rw [if_pos not]
    · rename_i may
      have consumable : canConsume event taken.1 = true := by simpa using may
      obtain ⟨noted, note, did⟩ := Option.bind_eq_some_iff.mp did
      obtain ⟨copied, copy, did⟩ := Option.bind_eq_some_iff.mp did
      obtain ⟨evident, take, did⟩ := Option.bind_eq_some_iff.mp did
      obtain rfl := Option.some.inj did
      obtain ⟨same, -⟩ := note_input_view note
      have copyView := copy_input_view copy
      have still : canConsume event copied = true := by
        rw [can_consume, copyView, same]
        rw [can_consume] at consumable
        exact consumable
      rw [if_neg may, take_evidence_view still take, copyView, same]

theorem consume_events_view {now : String} {events : List TerminalEvent}
    {taken taken' : Json × List Json}
    (did : events.foldlM (consumeEvent now) taken = some taken') :
    view taken'.1 = events.foldl View.pull (view taken.1) := by
  induction events generalizing taken with
  | nil => cases did; rfl
  | cons event rest ih =>
    rw [List.foldlM_cons] at did
    obtain ⟨next, first, later⟩ := Option.bind_eq_some_iff.mp did
    rw [ih later, consume_event_view first, List.foldl_cons]

theorem View.pull_window (v : View) (event : TerminalEvent) : (v.pull event).window = v.window := by
  unfold View.pull
  split
  · rfl
  · split <;> rfl

theorem View.pull_all_window (events : List TerminalEvent) (v : View) :
    (events.foldl View.pull v).window = v.window := by
  induction events generalizing v with
  | nil => rfl
  | cons event rest ih => rw [List.foldl_cons, ih, View.pull_window]

/-- Inputs after the window that are already there are pulled in. -/
theorem consume_pending_view {now : String} {latest : Int} {events : List TerminalEvent}
    {token token' : Json} {resumed : Bool} {accept : Int}
    (window : (view token).accept? = some accept)
    (did : consumePendingTerminalInputs now latest events token = some (token', resumed)) :
    view token' = view token ∨
    accept < latest ∧
      view token' = (eventsBetween (accept + 1) latest events).foldl View.pull (view token) := by
  unfold consumePendingTerminalInputs at did
  split at did
  · obtain ⟨rfl, -⟩ : token = token' ∧ false = resumed := by simpa using did
    exact .inl rfl
  · rename_i wait has
    have isAccept : acceptAfter wait = accept := by
      rw [accept_of_wait has] at window
      exact Option.some.inj window
    rw [isAccept] at did
    split at did
    · obtain ⟨rfl, -⟩ : token = token' ∧ false = resumed := by simpa using did
      exact .inl rfl
    · rename_i open_
      have below : accept < latest := by
        simp only [Bool.or_eq_true, decide_eq_true_eq, not_or] at open_
        omega
      obtain ⟨opened, opens, did⟩ := Option.bind_eq_some_iff.mp did
      obtain ⟨taken, took, finish⟩ := Option.bind_eq_some_iff.mp did
      have openView := open_terminal_view opens
      have takenView := consume_events_view took
      rw [openView] at takenView
      have still : (wait? taken.1).isSome = true := by
        rw [← window_isSome, takenView, View.pull_all_window, window_isSome, has]
        rfl
      obtain ⟨finishView, -⟩ := finish_taking_view still finish
      exact .inr ⟨below, finishView.trans takenView⟩

theorem enter_wait_view {now runId : String} {node observation artifact : Json} {accept : Int}
    {token token' : Json}
    (entered : enterWaitCheckpoint now runId node observation artifact accept token = some token') :
    view token' = (view token).enter accept := by
  unfold enterWaitCheckpoint at entered
  obtain ⟨a, wait, entered⟩ := Option.bind_eq_some_iff.mp entered
  obtain ⟨b, ledger, entered⟩ := Option.bind_eq_some_iff.mp entered
  obtain ⟨c, listed, entered⟩ := Option.bind_eq_some_iff.mp entered
  obtain ⟨d, status, phase⟩ := Option.bind_eq_some_iff.mp entered
  have waitView : view a = { view token with window := some (some (num accept)) } := by
    have isWait := at?_put?_same wait
    have free : ∀ p, Apart ["control", "wait"] p → at? p a = at? p token := fun p apart =>
      at?_put?_apart apart wait
    simp only [view, cursor?, tokenEvents, consumption, waitCheckpoints, wait?, isWait, newWait,
      free ["metadata", "terminal_cursor"] (by decide), free ["terminal", "events"] (by decide),
      free ["control", "terminal_consumption"] (by decide),
      free ["control", "wait_checkpoints"] (by decide)]
    rfl
  have listView : view c = { view b with checkpoints := (view b).checkpoints + 1 } := by
    obtain ⟨xs, before, after⟩ := at?_push?_same listed
    have free : ∀ p, Apart ["control", "wait_checkpoints"] p → at? p c = at? p b := fun p apart =>
      at?_push?_apart apart listed
    have was : waitCheckpoints b = xs := items_of_list before
    simp only [view, was]
    simp only [cursor?, tokenEvents, consumption, wait?, waitCheckpoints, after,
      free ["metadata", "terminal_cursor"] (by decide), free ["terminal", "events"] (by decide),
      free ["control", "terminal_consumption"] (by decide), free ["control", "wait"] (by decide)]
    simp [Json.items]
  rw [view_of_writes (.put phase) (by decide), view_of_writes (.put status) (by decide), listView,
    view_of_writes (.put ledger) (by decide), waitView]
  rfl

end Psop.Runtime
