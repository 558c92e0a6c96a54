import Mathlib.Data.List.Nodup
import Psop.Compiler.Scaffold
import Psop.Runtime.Protocol

/-!
At-most-once, checkpoint-scoped evidence.

`Booked` relates the consumption records of a view to the history of its waits: every record stands in
the history of exactly one wait, consumed by it above its window, and above what was there when it was
entered unless it is the first. Synchronisation and the entry of a wait add records in the same way
(`Takes`), so one fold lemma serves both. `evidence_run` reads the result off every token of a run.
-/
namespace Psop.Runtime

open Json Rows Psop.Runtime.System

/-! ### Taking inputs -/

/-- One event either leaves the records alone or is an input the view may consume. -/
structure Takes (v : View) (event : TerminalEvent) (v' : View) : Prop where
  window : v'.window = v.window
  records : v'.records = v.records ∨ event.direction = .input ∧ v.consumable event.seqNo = true ∧
    v'.records = v.records ++ [some (event.seqNo : Int)]

theorem consumable_spec {v : View} {seqNo : Nat} (consumable : v.consumable seqNo = true) :
    ∃ accept, v.accept? = some accept ∧ accept < seqNo ∧ some (seqNo : Int) ∉ v.records := by
  unfold View.consumable at consumable
  split at consumable
  · rename_i accept window
    simp only [Bool.and_eq_true, decide_eq_true_eq, Bool.not_eq_true', List.contains_eq_mem,
      decide_eq_false_iff_not] at consumable
    exact ⟨accept, window, consumable.1, consumable.2⟩
  · cases consumable

theorem sync_takes (v : View) (event : TerminalEvent) : Takes v event (v.sync event) := by
  unfold View.sync
  split
  · exact ⟨rfl, .inl rfl⟩
  · rename_i toward
    split
    · rename_i consumable
      exact ⟨rfl, .inr ⟨toward, consumable, rfl⟩⟩
    · exact ⟨rfl, .inl rfl⟩

theorem pull_takes (v : View) (event : TerminalEvent) : Takes v event (v.pull event) := by
  unfold View.pull
  split
  · exact ⟨rfl, .inl rfl⟩
  · rename_i toward
    split
    · exact ⟨rfl, .inl rfl⟩
    · rename_i consumable
      exact ⟨rfl, .inr ⟨toward, by simpa using consumable, rfl⟩⟩

/-- What a wait with this window may add to records that hold `old`. -/
structure Fresh (events : List TerminalEvent) (accept : Int) (old new : List Int) : Prop where
  nodup : (old ++ new).Nodup
  above : ∀ n ∈ new, accept < n
  inputs : ∀ n ∈ new, ∃ event ∈ events, event.direction = .input ∧ (event.seqNo : Int) = n

/-- Taking events in one after the other adds fresh records. -/
theorem takes_all {f : View → TerminalEvent → View} (takes : ∀ v event, Takes v event (f v event))
    {events rest : List TerminalEvent} (sub : rest ⊆ events) {v : View} {accept : Int}
    {old : List Int} (window : v.accept? = some accept) (records : v.records = old.map some)
    (nodup : old.Nodup) :
    ∃ new, (rest.foldl f v).records = (old ++ new).map some ∧ Fresh events accept old new := by
  induction rest generalizing v old with
  | nil =>
    exact ⟨[], by rw [List.append_nil]; exact records, by rw [List.append_nil]; exact nodup,
      fun _ none => absurd none List.not_mem_nil, fun _ none => absurd none List.not_mem_nil⟩
  | cons event rest ih =>
    have isEvent : event ∈ events := sub List.mem_cons_self
    have subRest : rest ⊆ events := fun later isLater => sub (List.mem_cons_of_mem _ isLater)
    obtain ⟨sameWindow, took⟩ := takes v event
    have window' : (f v event).accept? = some accept := by
      rw [View.accept?, sameWindow, ← View.accept?]
      exact window
    rw [List.foldl_cons]
    rcases took with same | ⟨toward, consumable, added⟩
    · exact ih subRest window' (same.trans records) nodup
    · obtain ⟨accept', isAccept, above, unknown⟩ := consumable_spec consumable
      obtain rfl := Option.some.inj (window.symm.trans isAccept)
      have notOld : (event.seqNo : Int) ∉ old := fun isOld => unknown (by
        rw [records]
        exact List.mem_map_of_mem isOld)
      have nodup' : (old ++ [(event.seqNo : Int)]).Nodup :=
        List.nodup_append.mpr ⟨nodup, by simp, fun a isOld b isNew same =>
          notOld (List.mem_singleton.mp isNew ▸ same ▸ isOld)⟩
      have records' : (f v event).records = (old ++ [(event.seqNo : Int)]).map some := by
        rw [added, records, List.map_append]
        rfl
      obtain ⟨new, result, fresh⟩ := ih subRest window' records' nodup'
      refine ⟨(event.seqNo : Int) :: new, by rw [result, List.append_assoc]; rfl, ?_, ?_, ?_⟩
      · have nodupAll := fresh.nodup
        rw [List.append_assoc] at nodupAll
        exact nodupAll
      · intro n isNew
        rcases List.mem_cons.mp isNew with rfl | later
        · exact above
        · exact fresh.above n later
      · intro n isNew
        rcases List.mem_cons.mp isNew with rfl | later
        · exact ⟨event, isEvent, toward, rfl⟩
        · exact fresh.inputs n later

theorem newly_append {v v' : View} {old new : List Int} (before : v.records = old.map some)
    (after : v'.records = (old ++ new).map some) : v.newly v' = new := by
  rw [View.newly, before, after, List.length_map, List.map_append, List.drop_left' (by simp)]
  simp [List.filterMap_map]

theorem sync_all_checkpoints (events : List TerminalEvent) (v : View) :
    (events.foldl View.sync v).checkpoints = v.checkpoints := by
  induction events generalizing v with
  | nil => rfl
  | cons event rest ih =>
    rw [List.foldl_cons, ih]
    unfold View.sync
    split
    · rfl
    · split <;> rfl

theorem events_from_subset (fromSeq : Int) (events : List TerminalEvent) :
    eventsFrom fromSeq events ⊆ events := List.filter_sublist.subset

theorem events_between_subset (fromSeq toSeq : Int) (events : List TerminalEvent) :
    eventsBetween fromSeq toSeq events ⊆ events :=
  fun _ between => events_from_subset fromSeq events (List.mem_of_mem_filter between)

/-! ### The books -/

/-- All that the waits of a history consumed, in order. -/
def consumedBy (waits : List WaitMark) : List Int := waits.flatMap WaitMark.consumed

/-- What a wait consumed: inputs of the stream above its window. -/
structure InScope (events : List TerminalEvent) (mark : WaitMark) : Prop where
  above : ∀ n ∈ mark.consumed, mark.acceptAfter < n
  inputs : ∀ n ∈ mark.consumed, ∃ event ∈ events, event.direction = .input ∧ (event.seqNo : Int) = n

structure Booked (events : List TerminalEvent) (v : View) (waits : List WaitMark) : Prop where
  records : v.records = (consumedBy waits).map some
  nodup : (consumedBy waits).Nodup
  inScope : ∀ mark ∈ waits, InScope events mark
  later : ∀ mark ∈ waits.tail, (mark.enteredAt : Int) ≤ mark.acceptAfter
  window : v.window = none ∨
    ∃ earlier mark, waits = earlier ++ [mark] ∧ v.window = some (some (num mark.acceptAfter))
  count : v.checkpoints = waits.length

theorem InScope.grow {events later : List TerminalEvent} {mark : WaitMark}
    (inScope : InScope events mark) (more : events ⊆ later) : InScope later mark :=
  ⟨inScope.above, fun n isTaken => (inScope.inputs n isTaken).imp fun _ found => ⟨more found.1, found.2⟩⟩

theorem consumed_append (earlier : List WaitMark) (mark : WaitMark) :
    consumedBy (earlier ++ [mark]) = consumedBy earlier ++ mark.consumed := by
  simp [consumedBy]

theorem sync_marks_append (v v' : View) (earlier : List WaitMark) (mark : WaitMark) :
    v.syncMarks v' (earlier ++ [mark]) =
      earlier ++ [{ mark with consumed := mark.consumed ++ v.newly v' }] := by
  simp [View.syncMarks]

theorem synced_booked {events : List TerminalEvent} {v v' : View} {waits : List WaitMark}
    {cursor accept : Int} (booked : Booked events v waits) (waiting : v.window.isSome = true)
    (same : ∀ k, v.window = some (some (num k)) → accept = k)
    (synced : v' = (eventsFrom (cursor + 1) events).foldl View.sync
      { v with window := some (some (num accept)) }) :
    Booked events v' (v.syncMarks v' waits) := by
  rcases booked.window with none | ⟨earlier, mark, rfl, window⟩
  · rw [none] at waiting
    cases waiting
  obtain rfl := same _ window
  have unchanged : { v with window := some (some (num mark.acceptAfter)) } = v := by
    rw [← window]
  rw [unchanged] at synced
  have isAccept : v.accept? = some mark.acceptAfter := by
    simp [View.accept?, window, toIntOr0?_num]
  obtain ⟨new, records, fresh⟩ := takes_all sync_takes (events_from_subset (cursor + 1) events)
    isAccept booked.records booked.nodup
  rw [← synced] at records
  rw [sync_marks_append, newly_append booked.records records]
  have all : consumedBy (earlier ++ [mark]) ++ new =
      consumedBy (earlier ++ [{ mark with consumed := mark.consumed ++ new }]) := by
    rw [consumed_append, consumed_append, List.append_assoc]
  refine ⟨all ▸ records, all ▸ fresh.nodup, fun other isMark => ?_, fun other isLater => ?_,
    .inr ⟨earlier, _, rfl, ?_⟩, ?_⟩
  · rcases List.mem_append.mp isMark with old | last
    · exact booked.inScope other (List.mem_append_left _ old)
    · obtain rfl := List.mem_singleton.mp last
      have inScope := booked.inScope mark (List.mem_append_right _ (List.mem_singleton_self _))
      refine ⟨fun n isTaken => ?_, fun n isTaken => ?_⟩
      · exact (List.mem_append.mp isTaken).elim (inScope.above n) (fresh.above n)
      · exact (List.mem_append.mp isTaken).elim (inScope.inputs n) (fresh.inputs n)
  · cases earlier with
    | nil => exact absurd isLater List.not_mem_nil
    | cons first earlier =>
      rcases List.mem_append.mp isLater with old | last
      · exact booked.later other (List.mem_append_left _ old)
      · obtain rfl := List.mem_singleton.mp last
        exact booked.later mark (List.mem_append_right _ (List.mem_singleton_self _))
  · rw [synced, View.sync_all_window, window]
  · rw [synced, sync_all_checkpoints, booked.count]
    simp

theorem entered_booked {events : List TerminalEvent} {v v' : View} {waits : List WaitMark}
    {turnAccept : Int} (booked : Booked events v waits)
    (entered : Entered events.length events turnAccept v v') :
    Booked events v' (v.entryMarks events.length v' waits) := by
  have count := entered.spec.1
  obtain ⟨accept, prior, -, -, moved⟩ := entered.entry
  have window : (v.enter accept).accept? = some accept := by
    simp [View.accept?, View.enter, toIntOr0?_num]
  obtain ⟨new, records, fresh, isWindow⟩ : ∃ new,
      v'.records = (consumedBy waits ++ new).map some ∧
      Fresh events accept (consumedBy waits) new ∧ v'.window = some (some (num accept)) := by
    rcases moved with rfl | ⟨-, rfl⟩
    · have none : ∀ {P : Prop} {n : Int}, n ∈ ([] : List Int) → P := fun mem => absurd mem List.not_mem_nil
      refine ⟨[], by rw [List.append_nil]; exact booked.records, ⟨?_, fun _ => none, fun _ => none⟩, rfl⟩
      rw [List.append_nil]
      exact booked.nodup
    · obtain ⟨new, records, fresh⟩ := takes_all pull_takes
        (events_between_subset (accept + 1) events.length events) window booked.records booked.nodup
      exact ⟨new, records, fresh, View.pull_all_window _ _⟩
  have isMark : v.entryMarks events.length v' waits = waits ++ [⟨accept, events.length, new⟩] := by
    rw [View.entryMarks, newly_append booked.records records]
    simp [View.accept?, isWindow, toIntOr0?_num]
  rw [isMark]
  have all : consumedBy (waits ++ [⟨accept, events.length, new⟩]) = consumedBy waits ++ new :=
    consumed_append ..
  refine ⟨all ▸ records, all ▸ fresh.nodup, fun mark isMark => ?_, fun mark isLater => ?_,
    .inr ⟨waits, _, rfl, isWindow⟩, ?_⟩
  · rcases List.mem_append.mp isMark with old | last
    · exact booked.inScope mark old
    · obtain rfl := List.mem_singleton.mp last
      exact ⟨fresh.above, fresh.inputs⟩
  · cases waits with
    | nil => exact absurd isLater List.not_mem_nil
    | cons first waits =>
      rcases List.mem_append.mp isLater with old | last
      · exact booked.later mark old
      · obtain rfl := List.mem_singleton.mp last
        refine prior ?_
        simp [View.prior, booked.count]
  · rw [count, booked.count, List.length_append, List.length_singleton]

/-- **The protocol keeps the books.** -/
theorem reached_booked {may : List TerminalEvent → View → Prop} {events : List TerminalEvent}
    {v : View} {waits : List WaitMark} (reached : Reached Blank may events v waits) :
    Booked events v waits := by
  induction reached with
  | start isBase =>
    obtain ⟨-, rfl⟩ := isBase
    exact ⟨rfl, .nil, nofun, nofun, .inl rfl, rfl⟩
  | grow _ more _ ih =>
    exact ⟨ih.records, ih.nodup, fun mark isMark => (ih.inScope mark isMark).grow more.subset,
      ih.later, ih.window, ih.count⟩
  | sync _ _ waiting same synced ih => exact synced_booked ih waiting same synced
  | enter _ _ _ entered ih => exact entered_booked ih entered
  | next _ _ _ _ _ ih => exact ⟨ih.records, ih.nodup, ih.inScope, ih.later, ih.window, ih.count⟩
  | drop _ ih => exact ⟨ih.records, ih.nodup, ih.inScope, ih.later, .inl rfl, ih.count⟩

/-! ### Runs -/

/-- The consumption records of a token against the history of its waits: the numbers are distinct and
those the waits consumed, no number is evidence of two waits, each names an input of the run above the
window of its wait, and above all that was there when the wait was entered unless it is the first. -/
structure EvidenceOnce (events : List TerminalEvent) (token : Json) (waits : List WaitMark) : Prop where
  recorded : (consumption token).map recordSeq = (waits.flatMap WaitMark.consumed).map some
  distinct : ((consumption token).map recordSeq).Nodup
  disjoint : waits.Pairwise fun a b => ∀ n ∈ a.consumed, n ∉ b.consumed
  inputs : ∀ mark ∈ waits, ∀ n ∈ mark.consumed, mark.acceptAfter < n ∧
    ∃ event ∈ events, event.direction = .input ∧ (event.seqNo : Int) = n
  later : ∀ mark ∈ waits.tail, ∀ n ∈ mark.consumed, (mark.enteredAt : Int) < n

theorem Booked.evidence {events : List TerminalEvent} {token : Json} {waits : List WaitMark}
    (booked : Booked events (view token) waits) : EvidenceOnce events token waits := by
  refine ⟨booked.records, ?_, ?_, fun mark isMark n isTaken => ?_, fun mark isLater n isTaken => ?_⟩
  · have nodup := booked.nodup.map fun _ _ same => Option.some.inj same
    rw [← booked.records] at nodup
    exact nodup
  · exact (List.nodup_flatMap.mp booked.nodup).2.imp fun disjoint n left right => disjoint left right
  · exact ⟨(booked.inScope mark isMark).above n isTaken, (booked.inScope mark isMark).inputs n isTaken⟩
  · have above := (booked.inScope mark (List.mem_of_mem_tail isLater)).above n isTaken
    have entered := booked.later mark isLater
    omega

/-- **Evidence at most once, and of its own checkpoint**, in every run that was created for an artifact
whose merges keep off the runtime's own paths: in every stored snapshot and every token of a turn. -/
theorem evidence_run {platform : Platform} {artifact : Json} {runId : String} {maxAttempts now : Nat}
    {t : System} (apart : MergesApart artifact)
    (run : Run (step platform) anyStep (created artifact runId maxAttempts now) t) :
    (∀ snapshot ∈ t.rows.snapshots, EvidenceOnce t.rows.events snapshot.token snapshot.waits) ∧
    ∀ attempt turn, t.attempts attempt = .looping turn →
      EvidenceOnce t.rows.events turn.token turn.waits := by
  have blank : Tracked Blank (fun _ _ => True) (created artifact runId maxAttempts now) :=
    created_tracked apart
  have tracked := tracked_run (fun _ _ _ => ⟨fun _ _ _ => trivial⟩) blank run
  exact ⟨fun snapshot stored => (reached_booked (tracked.snapshots snapshot stored)).evidence,
    fun attempt turn looping => (reached_booked (tracked.turns attempt turn looping).reached).evidence⟩

/-- The scaffold's first wait consumes the input that was sent to it. -/
theorem evidence_run_brewing :
    ∃ artifact t turn, Compiler.accepted (Compiler.brewCandidate (Compiler.scaffoldNodes "brew"
        [Compiler.brewStep]) []) = some artifact ∧
      follow (step plainPlatform) anyStep (created artifact "run-1" 3 0)
        (brewTurns ++ [Event.claim 2 100, .begin 2 true (plainSupply "4")]) = some t ∧
      t.attempts 2 = .looping turn ∧ turn.waits.flatMap WaitMark.consumed = [2] ∧
      EvidenceOnce t.rows.events turn.token turn.waits := by
  have checked : ((Compiler.accepted (Compiler.brewCandidate (Compiler.scaffoldNodes "brew"
      [Compiler.brewStep]) [])).bind fun artifact =>
      (follow (step plainPlatform) anyStep (created artifact "run-1" 3 0)
        (brewTurns ++ [Event.claim 2 100, .begin 2 true (plainSupply "4")])).map
        fun t => (artifact, t)).any
      (fun found => decide (MergesApart found.1) && (found.2.attempts 2).turn?.any
        fun turn => turn.waits.flatMap WaitMark.consumed == [2]) = true := by
    decide +kernel
  obtain ⟨artifact, ⟨_, t⟩, isArtifact, ran, passes⟩ := checked_run checked
  obtain ⟨_, followed, same⟩ := Option.map_eq_some_iff.mp ran
  obtain ⟨rfl, rfl⟩ := Prod.mk.inj same
  rw [Bool.and_eq_true, decide_eq_true_eq] at passes
  obtain ⟨apart, begun⟩ := passes
  obtain ⟨turn, isTurn, consumed⟩ := Option.any_eq_true .. |>.mp begun
  have looping := Attempt.looping_of_turn isTurn
  exact ⟨_, _, turn, isArtifact, followed, looping, beq_iff_eq.mp consumed,
    (evidence_run apart (run_of_follow followed)).2 _ _ looping⟩

/-- A start node that writes consumption records of its own, along the given path. -/
def forgingNodes (before : List Json) (path : String) : List Json :=
  [Compiler.withField "merge" (arr (Compiler.setValue "phase" "instruct_brew" :: before ++
      [obj [("op", str "set"), ("path", str path),
        ("value", arr [obj [("seq_no", num 1)], obj [("seq_no", num 1)]])]]))
      (Compiler.startNode "brew"),
    Compiler.instructNode Compiler.brewStep true,
    Compiler.evaluateNode Compiler.brewStep "final_verify", Compiler.finalVerifyNode,
    Compiler.terminalNode]

/-- The artifact is accepted, and one turn of its run stores the same number twice, of an event that is not
there. -/
def ForgesEvidence (nodes : List Json) : Prop :=
  ∃ artifact t, Compiler.accepted (Compiler.brewCandidate nodes []) = some artifact ∧
    follow (step plainPlatform) anyStep (created artifact "run-1" 3 0)
      [.claim 1 100, .begin 1 true (plainSupply "1"), .turn 1 .timedOut (plainSupply "2")] = some t ∧
    ∃ snapshot, t.rows.lastSnapshot? = some snapshot ∧ t.rows.events = [] ∧
      (consumption snapshot.token).map recordSeq = [some 1, some 1]

theorem forges_evidence {nodes : List Json} (checked :
    ((Compiler.accepted (Compiler.brewCandidate nodes [])).bind fun artifact =>
      follow (step plainPlatform) anyStep (created artifact "run-1" 3 0)
        [.claim 1 100, .begin 1 true (plainSupply "1"), .turn 1 .timedOut (plainSupply "2")]).any
      (fun t => t.rows.events.isEmpty && t.rows.lastSnapshot?.any fun snapshot =>
        (consumption snapshot.token).map recordSeq == [some 1, some 1]) = true) :
    ForgesEvidence nodes := by
  obtain ⟨artifact, t, isArtifact, ran, passes⟩ := checked_run checked
  rw [Bool.and_eq_true, List.isEmpty_iff] at passes
  obtain ⟨snapshot, last, twice⟩ := (Option.any_eq_true ..).mp passes.2
  exact ⟨artifact, t, isArtifact, ran, snapshot, last, passes.1, beq_iff_eq.mp twice⟩

/-- Records are forged by a write along their own path, and by one through an object that an operation
before has taken from the token. -/
theorem evidence_forged : ForgesEvidence (forgingNodes [] "control.terminal_consumption") ∧
    ForgesEvidence (forgingNodes [Compiler.setFrom "facts.held" "token.control"]
      "facts.held.terminal_consumption") :=
  ⟨forges_evidence (by decide +kernel), forges_evidence (by decide +kernel)⟩

end Psop.Runtime
