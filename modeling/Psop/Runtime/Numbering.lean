import Mathlib.Logic.Function.Basic
import Psop.Runs

/-!
The numbers of a run's snapshots and traces.

Both counters are columns of the run's row. A writer increments its own copy of the row in memory and
adds the numbered objects to its session; a flush writes them, a commit publishes them, and
`get_run_for_update` locks the row and reads the copy anew. A turn also numbers traces while it does
not hold the lock: the warnings of an attachment and the trace of a failure. `step` interleaves any
number of writers, each with the operations left in its routine.

**`numbering_dense`**: while no copy is overtaken (`Careful`), the committed numbers are dense and no
writer has a number to insert that is stored or pending already.
-/
namespace Psop.Runtime.Numbering

/-! ### Sessions -/

inductive Series
  | snapshots
  | traces
deriving Repr, DecidableEq

/-- The number of the first object of a run. -/
def Series.first : Series → Nat
  | .snapshots => 0
  | .traces => 1

inductive Op
  /-- The next number of a series: the counter is incremented and the object added. -/
  | append (series : Series)
  | flush
  /-- `get_run_for_update`, which reads the row anew. -/
  | lock
  /-- The snapshot number that `_lock_runtime_write` expects. -/
  | expect
  | commit
deriving Repr, DecidableEq

/-- The run in memory: its counters, and the values they were last read or written with. -/
structure Copy where
  now : Series → Nat
  loaded : Series → Nat

inductive Phase
  /-- A turn that collects the attachments of an agent. -/
  | attaching
  /-- A turn around the execution of a node. -/
  | executing
  /-- A turn whose commit has failed. -/
  | raised
  /-- A turn that handles an error. -/
  | handling
  /-- A request that writes under the lock. -/
  | serving
  | closed
deriving Repr, DecidableEq

/-- A session on the run: the objects added and those inserted by its transaction, and the columns of
the row that its transaction has written. -/
structure Writer where
  phase : Phase
  todo : List Op
  expected : Nat
  copy : Option Copy
  added : Series → List Nat
  inserted : Series → List Nat
  row : Series → Option Nat

def Writer.opened (phase : Phase) (todo : List Op) (copy : Option Copy) : Writer :=
  ⟨phase, todo, 0, copy, fun _ => [], fun _ => [], fun _ => none⟩

/-- A session whose transaction is rolled back; its copy is read again when it is needed. -/
def Writer.rolledBack (phase : Phase) : Writer := .opened phase [] none

/-- The committed counters and numbers, who holds the lock of the row, and all sessions. -/
structure State where
  counter : Series → Nat
  stored : Series → List Nat
  holder : Option Nat
  writers : List Writer

/-- The row as a session's transaction sees it. -/
def State.view (s : State) (w : Writer) (series : Series) : Nat := (w.row series).getD (s.counter series)

def State.read (s : State) (w : Writer) : Copy := ⟨s.view w, s.view w⟩

def State.set (s : State) (i : Nat) (w : Writer) : State := { s with writers := s.writers.set i w }

def State.release (s : State) (i : Nat) : State := { s with holder := s.holder.filter (· ≠ i) }

/-- The lock of the row is free or a writer's own. -/
def State.free (s : State) (i : Nat) : Bool := s.holder.all (· = i)

/-! ### Routines -/

/-- `_append_terminal_event`, as far as the row is concerned. -/
def appendTerminalEvent : List Op := [.flush, .lock, .flush, .flush]

def commitAndPublish : List Op := [.flush, .commit]

/-- `_apply_node_interaction` -/
def applyNodeInteraction (waits outputs : Bool) : List Op :=
  (if waits then [Op.append .traces] else []) ++ if outputs then appendTerminalEvent else []

/-- `_append_runtime_step` -/
def appendRuntimeStep (outputs : Bool) : List Op :=
  [Op.append .snapshots, .append .traces] ++ (if outputs then appendTerminalEvent else []) ++ [Op.flush]

/-- `_lock_runtime_write` -/
def lockRuntimeWrite : List Op := [.lock, .expect]

/-- A node's results: the write phase of a turn. -/
def writeNode (waits outputs final : Bool) : List Op :=
  lockRuntimeWrite ++ applyNodeInteraction waits outputs ++ appendRuntimeStep final ++ commitAndPublish

/-- `_recover_terminal_turn_failure`; the event for the user may fail after any of its operations. -/
def recoverTerminalTurnFailure (event : Nat) : List Op :=
  lockRuntimeWrite ++ [Op.append .traces, .flush] ++ appendTerminalEvent.take event ++
    [Op.append .snapshots] ++ commitAndPublish

/-- The failure of a turn, which does not lock the row. -/
def failRun (event : Nat) : List Op :=
  [Op.append .traces, .flush] ++ appendTerminalEvent.take event ++ commitAndPublish

/-- `cancel_run` -/
def cancelRun : List Op := [Op.lock, .append .snapshots, .append .traces] ++ commitAndPublish

/-- `resolve_run_bindings` -/
def resolveRunBindings : List Op := [Op.lock, .flush, .append .traces] ++ commitAndPublish

/-- `append_terminal_event` -/
def appendInput : List Op := [Op.lock] ++ appendTerminalEvent ++ commitAndPublish

/-- `finalize_exhausted_job` -/
def finalizeExhaustedJob (event : Nat) : List Op :=
  [Op.lock, .append .traces, .flush] ++ appendTerminalEvent.take event ++ commitAndPublish

inductive Request
  | cancel
  | bindings
  | input
  | exhausted (event : Nat)
deriving Repr, DecidableEq

def Request.routine : Request → List Op
  | .cancel => cancelRun
  | .bindings => resolveRunBindings
  | .input => appendInput
  | .exhausted event => finalizeExhaustedJob event

/-! ### Operations -/

def Writer.append (s : State) (series : Series) (w : Writer) : Writer :=
  let copy := w.copy.getD (s.read w)
  let number := copy.now series + 1
  { w with
    copy := some { copy with now := Function.update copy.now series number }
    added := Function.update w.added series (w.added series ++ [number]) }

def allSeries : List Series := [.snapshots, .traces]

/-- There is something to write. -/
def Writer.dirty (w : Writer) : Bool :=
  allSeries.any fun series => w.added series ≠ [] || w.copy.any fun copy => copy.now series ≠ copy.loaded series

/-- The numbers to insert are neither stored nor pending twice. -/
def Fits (s : State) (w : Writer) (series : Series) : Prop :=
  (w.inserted series ++ w.added series).Nodup ∧ ∀ n ∈ w.inserted series ++ w.added series, n ∉ s.stored series

instance (s : State) (w : Writer) (series : Series) : Decidable (Fits s w series) :=
  inferInstanceAs (Decidable (_ ∧ _))

/-- The session after its objects are inserted and the changed columns written. -/
def Writer.flushed (w : Writer) : Writer :=
  { w with
    copy := w.copy.map fun copy => ⟨copy.now, copy.now⟩
    added := fun _ => []
    inserted := fun series => w.inserted series ++ w.added series
    row := fun series => match w.copy with
      | some copy => if copy.now series = copy.loaded series then w.row series else some (copy.now series)
      | none => w.row series }

/-- The session after its transaction is over. -/
def Writer.committed (w : Writer) : Writer :=
  { w with inserted := fun _ => [], row := fun _ => none }

/-- What a unique constraint that is violated does to a session: in the handler of an error and under
the lock the error ends it; a turn that collects attachments handles it. -/
def Writer.refused (w : Writer) : Writer :=
  .rolledBack (if w.phase = .attaching then .raised else .closed)

def State.flush (s : State) (i : Nat) (w : Writer) : Option State :=
  if w.dirty then
    if !s.free i then none
    else if allSeries.all fun series => Fits s w series then
      some { s.set i w.flushed with holder := some i }
    else some ((s.release i).set i w.refused)
  else some (s.set i w)

/-- A commit flushes first, then publishes what the transaction has written. -/
def State.commit (s : State) (i : Nat) (w : Writer) : Option State :=
  if w.dirty && !s.free i then none
  else if allSeries.all fun series => Fits s w series then
    some { (s.release i).set i w.flushed.committed with
      counter := s.view w.flushed
      stored := fun series => s.stored series ++ w.flushed.inserted series }
  else some ((s.release i).set i w.refused)

def State.perform (s : State) (i : Nat) (w : Writer) : Op → Option State
  | .append series => some (s.set i (w.append s series))
  | .flush => s.flush i w
  | .lock => if s.free i then some { s.set i { w with copy := some (s.read w) } with holder := some i } else none
  | .expect =>
    if w.copy.any fun copy => copy.now .snapshots = w.expected then some (s.set i w)
    else some ((s.release i).set i (.rolledBack .closed))
  | .commit => s.commit i w

/-! ### Steps -/

inductive Action
  /-- `process_run` begins, perhaps while an earlier worker still runs. -/
  | turn
  | request (request : Request)
  /-- The next operation of a routine. -/
  | next (i : Nat)
  /-- An attachment that is missing or cannot be loaded. -/
  | warn (i : Nat)
  /-- `_commit_before_runtime_external_io` between two attachments, and after the last one. -/
  | save (i : Nat)
  | attached (i : Nat)
  /-- A node is selected, at the snapshot that its results are expected to follow. -/
  | select (i : Nat)
  | write (i : Nat) (waits outputs final : Bool)
  /-- An error of a turn, at any operation of it. -/
  | recover (i : Nat) (event : Nat)
  | fail (i : Nat) (event : Nat)
  /-- The session is closed: at its end, after an error, where the lease is lost or the worker dies. -/
  | leave (i : Nat)
deriving Repr, DecidableEq

def State.start (s : State) (w : Writer) : State := { s with writers := s.writers ++ [w] }

/-- The phases in which an error of a turn is handled. -/
def Phase.inTurn : Phase → Bool
  | .attaching | .executing | .raised => true
  | .handling | .serving | .closed => false

def step (s : State) : Action → Option State
  | .turn => some (s.start { Writer.opened .executing [] (some ⟨s.counter, s.counter⟩) with
      expected := s.counter .snapshots })
  | .request request => some (s.start (.opened .serving request.routine none))
  | .next i => do
    let w ← s.writers[i]?
    match w.todo with
    | op :: todo => s.perform i { w with todo := todo } op
    | [] => none
  | .warn i => do
    let w ← s.writers[i]?
    guard (w.todo = [] ∧ (w.phase = .executing ∨ w.phase = .attaching))
    return s.set i { w with phase := .attaching, todo := [.append .traces] }
  | .save i => do
    let w ← s.writers[i]?
    guard (w.todo = [] ∧ w.phase = .attaching)
    return s.set i { w with todo := [.commit] }
  | .attached i => do
    let w ← s.writers[i]?
    guard (w.todo = [] ∧ w.phase = .attaching ∧ allSeries.all fun series => w.added series = [])
    return s.set i { w with phase := .executing }
  | .select i => do
    let w ← s.writers[i]?
    guard (w.todo = [] ∧ w.phase = .executing)
    let copy ← w.copy
    return s.set i { w with expected := copy.now .snapshots }
  | .write i waits outputs final => do
    let w ← s.writers[i]?
    guard (w.todo = [] ∧ w.phase = .executing)
    return s.set i { w with todo := writeNode waits outputs final }
  | .recover i event => do
    let w ← s.writers[i]?
    guard (w.phase.inTurn = true)
    return s.set i { w with phase := .handling, todo := recoverTerminalTurnFailure event }
  | .fail i event => do
    let w ← s.writers[i]?
    guard (w.phase.inTurn = true)
    return s.set i { w with phase := .handling, todo := failRun event }
  | .leave i => do
    let _ ← s.writers[i]?
    return (s.release i).set i (.rolledBack .closed)

/-- A run that has just been created, or forked from another one. -/
def created (forked : Bool) : State where
  counter
    | .snapshots => 0
    | .traces => if forked then 2 else 1
  stored
    | .snapshots => [0]
    | .traces => if forked then [1, 2] else [1]
  holder := none
  writers := []

/-! ### What is to hold -/

/-- The committed numbers are dense, and no session has a number to insert that is stored or pending. -/
structure Numbered (s : State) : Prop where
  dense : ∀ series, s.stored series = List.range' series.first (s.counter series + 1 - series.first)
  fits : ∀ i : Nat, ∀ w ∈ s.writers[i]?, ∀ series, Fits s w series

/-- A session whose transaction has ended without a commit. -/
def Writer.failed (w : Writer) : Prop := w.phase = .closed ∨ w.phase = .raised

/-- A transaction that fails leaves the counters and the numbers as they were. -/
def RollsBack (s t : State) : Prop :=
  ∀ i : Nat, ∀ w ∈ s.writers[i]?, ∀ later ∈ t.writers[i]?, ¬ w.failed → later.failed →
    t.counter = s.counter ∧ t.stored = s.stored

instance {p : Series → Prop} [DecidablePred p] : Decidable (∀ series, p series) :=
  decidable_of_iff (p .snapshots ∧ p .traces) ⟨fun both series => by cases series; exacts [both.1, both.2],
    fun all => ⟨all _, all _⟩⟩

def CarefulOp (s : State) (i : Nat) (w : Writer) : Op → Prop
  | .append series => ∀ copy ∈ w.copy, copy.loaded series = s.view w series
  | .lock => ∀ series, w.added series = []
  | .commit => ∀ j < s.writers.length, j ≠ i → ∀ other ∈ s.writers[j]?, ∀ series,
      w.inserted series ++ w.added series ≠ [] → other.added series = []
  | .flush | .expect => True

instance (s : State) (i : Nat) (w : Writer) (op : Op) : Decidable (CarefulOp s i w op) := by
  cases op <;> unfold CarefulOp <;> infer_instance

/-- No copy of a counter is overtaken: a number is drawn from a copy that is current, no transaction
publishes numbers of a series while another session has added some of it, and the row is not read anew
over numbers that have not been written. -/
def Careful (s : State) : Action → Prop
  | .next i => ∀ w ∈ s.writers[i]?, ∀ op ∈ w.todo.head?, CarefulOp s i w op
  | _ => True

instance (s : State) (action : Action) : Decidable (Careful s action) := by
  cases action <;> unfold Careful <;> infer_instance

/-! ### Sessions in line with the row -/

/-- The numbers of a series after one up to another. -/
def between (low high : Nat) : List Nat := List.range' (low + 1) (high - low)

theorem between_append {a b c : Nat} (first : a ≤ b) (second : b ≤ c) :
    between a b ++ between b c = between a c := by
  unfold between
  rw [show b + 1 = a + 1 + 1 * (b - a) by omega, List.range'_append]
  congr 1
  omega

/-- The numbers from the first one on, with those that follow them. -/
theorem dense_append {first a b : Nat} (begun : first ≤ a + 1) (le : a ≤ b) :
    List.range' first (a + 1 - first) ++ between a b = List.range' first (b + 1 - first) := by
  obtain ⟨k, start⟩ := Nat.exists_eq_add_of_le begun
  rw [between, start, Nat.add_sub_cancel_left, List.range'_append_1]
  congr 1
  omega

theorem between_self (a : Nat) : between a a = [] := by
  rw [between, Nat.sub_self, List.range'_zero]

theorem between_succ {a b : Nat} (le : a ≤ b) : between a (b + 1) = between a b ++ [b + 1] := by
  rw [← between_append le (Nat.le_succ b)]
  simp [between]

theorem mem_between {a b n : Nat} (isIn : n ∈ between a b) : a < n ∧ n ≤ b := by
  obtain ⟨low, high⟩ := List.mem_range'_1.mp isIn
  omega

/-- A session's numbers continue those of the row, its copy is current where it has added some, and
only the holder of the lock has written. -/
structure Aligned (counter : Series → Nat) (holds : Prop) (w : Writer) : Prop where
  later : ∀ series, counter series ≤ (w.row series).getD (counter series)
  inserted : ∀ series, w.inserted series = between (counter series) ((w.row series).getD (counter series))
  counted : ∀ copy ∈ w.copy, ∀ series, copy.loaded series ≤ copy.now series ∧
    w.added series = between (copy.loaded series) (copy.now series)
  uncopied : w.copy = none → ∀ series, w.added series = []
  current : ∀ copy ∈ w.copy, ∀ series, w.added series ≠ [] →
    copy.loaded series = (w.row series).getD (counter series)
  unheld : ¬ holds → ∀ series, w.row series = none

structure NumbersInvariant (s : State) : Prop where
  dense : ∀ series, s.stored series = List.range' series.first (s.counter series + 1 - series.first)
  begun : ∀ series, series.first ≤ s.counter series + 1
  aligned : ∀ i : Nat, ∀ w ∈ s.writers[i]?, Aligned s.counter (s.holder = some i) w

/-- What a session has to insert follows what is stored. -/
theorem Aligned.pending {counter : Series → Nat} {holds : Prop} {w : Writer} (aligned : Aligned counter holds w)
    (series : Series) : ∃ high, counter series ≤ high ∧
      w.inserted series ++ w.added series = between (counter series) high := by
  rw [aligned.inserted series]
  by_cases none : w.added series = []
  · exact ⟨_, aligned.later series, by rw [none, List.append_nil]⟩
  · cases isCopy : w.copy with
    | none => exact absurd (aligned.uncopied isCopy series) none
    | some copy =>
      obtain ⟨le, added⟩ := aligned.counted copy isCopy series
      have loaded := aligned.current copy isCopy series none
      rw [loaded] at le added
      exact ⟨_, Nat.le_trans (aligned.later series) le, by rw [added, between_append (aligned.later series) le]⟩

theorem NumbersInvariant.fits {s : State} (sound : NumbersInvariant s) {i : Nat} {w : Writer}
    (isWriter : w ∈ s.writers[i]?)
    (series : Series) : Fits s w series := by
  obtain ⟨high, -, pending⟩ := (sound.aligned i w isWriter).pending series
  unfold Fits
  rw [pending]
  refine ⟨List.nodup_range', fun n isPending isStored => ?_⟩
  rw [sound.dense, List.mem_range'_1] at isStored
  have := mem_between isPending
  have := sound.begun series
  omega

theorem NumbersInvariant.numbered {s : State} (sound : NumbersInvariant s) : Numbered s :=
  ⟨sound.dense, fun _ _ isWriter series => sound.fits isWriter series⟩

theorem created_sound (forked : Bool) : NumbersInvariant (created forked) := by
  refine ⟨?_, ?_, fun i w isWriter => by cases isWriter⟩
  · rintro (_ | _) <;> cases forked <;> rfl
  · rintro (_ | _) <;> cases forked <;> decide

/-- A session without changes is in line with any row. -/
theorem aligned_clean {counter : Series → Nat} {holds : Prop} {w : Writer} (added : w.added = fun _ => [])
    (inserted : w.inserted = fun _ => []) (row : w.row = fun _ => none)
    (copied : ∀ copy ∈ w.copy, copy.now = copy.loaded) : Aligned counter holds w where
  later series := by rw [row]; exact Nat.le_refl _
  inserted series := by rw [row, inserted]; exact (between_self _).symm
  counted copy isCopy series := by
    rw [copied copy isCopy, added]
    exact ⟨Nat.le_refl _, (between_self _).symm⟩
  uncopied _ series := by rw [added]
  current _ _ series some := absurd (by rw [added]) some
  unheld _ series := by rw [row]

theorem aligned_opened (counter : Series → Nat) (holds : Prop) (phase : Phase) (todo : List Op) :
    Aligned counter holds (.opened phase todo none) :=
  aligned_clean rfl rfl rfl fun _ none => by cases none

/-- Where the routine of a session changes alone. -/
theorem Aligned.turn {counter : Series → Nat} {holds : Prop} {w : Writer} (aligned : Aligned counter holds w)
    (phase : Phase) (todo : List Op) (expected : Nat) :
    Aligned counter holds { w with phase := phase, todo := todo, expected := expected } :=
  ⟨aligned.later, aligned.inserted, aligned.counted, aligned.uncopied, aligned.current, aligned.unheld⟩

theorem Aligned.mono {counter : Series → Nat} {holds holds' : Prop} {w : Writer}
    (aligned : Aligned counter holds w) (keeps : holds → holds') : Aligned counter holds' w :=
  { aligned with unheld := fun none => aligned.unheld (mt keeps none) }

/-! ### One operation -/

/-- The copy that a number is drawn from. -/
theorem drawn_from {s : State} {holds : Prop} {w : Writer} (aligned : Aligned s.counter holds w)
    (series : Series) : (w.copy.getD (s.read w)).loaded series ≤ (w.copy.getD (s.read w)).now series ∧
      w.added series = between ((w.copy.getD (s.read w)).loaded series) ((w.copy.getD (s.read w)).now series) ∧
      (w.added series ≠ [] → (w.copy.getD (s.read w)).loaded series = s.view w series) := by
  cases isCopy : w.copy with
  | none =>
    refine ⟨Nat.le_refl _, ?_, fun _ => rfl⟩
    exact (aligned.uncopied isCopy series).trans (between_self _).symm
  | some copy =>
    obtain ⟨le, added⟩ := aligned.counted copy isCopy series
    exact ⟨le, added, aligned.current copy isCopy series⟩

theorem aligned_append {s : State} {holds : Prop} {w : Writer} {series : Series}
    (aligned : Aligned s.counter holds w)
    (current : ∀ copy ∈ w.copy, copy.loaded series = s.view w series) :
    Aligned s.counter holds (w.append s series) := by
  have fresh : (w.copy.getD (s.read w)).loaded series = s.view w series := by
    cases isCopy : w.copy with
    | none => rfl
    | some copy => exact current copy isCopy
  refine ⟨aligned.later, aligned.inserted, ?_, nofun, ?_, aligned.unheld⟩
  · rintro copy isCopy other
    obtain rfl := Option.some.inj isCopy
    obtain ⟨le, added, -⟩ := drawn_from aligned other
    by_cases same : other = series
    · subst same
      simp only [Writer.append, Function.update_self]
      exact ⟨Nat.le_succ_of_le le, by rw [between_succ le, added]⟩
    · simp only [Writer.append, Function.update_of_ne same]
      exact ⟨le, added⟩
  · rintro copy isCopy other some
    obtain rfl := Option.some.inj isCopy
    by_cases same : other = series
    · subst same
      exact fresh
    · simp only [Writer.append, Function.update_of_ne same] at some
      exact (drawn_from aligned other).2.2 some

theorem aligned_read {s : State} {holds : Prop} {w : Writer} (aligned : Aligned s.counter holds w)
    (written : ∀ series, w.added series = []) :
    Aligned s.counter holds { w with copy := some (s.read w) } where
  later := aligned.later
  inserted := aligned.inserted
  counted := by
    rintro copy isCopy series
    obtain rfl : s.read w = copy := Option.some.inj isCopy
    exact ⟨Nat.le_refl _, (written series).trans (between_self _).symm⟩
  uncopied := fun none => by cases none
  current _ _ series some := absurd (written series) some
  unheld := aligned.unheld

/-- The row of a session after its flush: the columns it has changed are the counters of its copy. -/
theorem flushed_view {counter : Series → Nat} {holds : Prop} {w : Writer} (aligned : Aligned counter holds w)
    (series : Series) : (w.row series).getD (counter series) ≤ (w.flushed.row series).getD (counter series) ∧
      w.added series = between ((w.row series).getD (counter series))
        ((w.flushed.row series).getD (counter series)) := by
  cases isCopy : w.copy with
  | none =>
    have same : w.flushed.row series = w.row series := by simp only [Writer.flushed, isCopy]
    rw [same]
    exact ⟨Nat.le_refl _, (aligned.uncopied isCopy series).trans (between_self _).symm⟩
  | some copy =>
    obtain ⟨le, added⟩ := aligned.counted copy isCopy series
    have current := aligned.current copy isCopy series
    simp only [Writer.flushed, isCopy]
    split
    · rename_i same
      rw [same, between_self] at added
      exact ⟨Nat.le_refl _, added.trans (between_self _).symm⟩
    · rename_i differs
      have some : w.added series ≠ [] := by
        rw [added, between, ne_eq, List.range'_eq_nil_iff]
        omega
      rw [← current some]
      exact ⟨le, added⟩

theorem aligned_flushed {counter : Series → Nat} {holds : Prop} {w : Writer}
    (aligned : Aligned counter holds w) : Aligned counter True w.flushed where
  later series := Nat.le_trans (aligned.later series) (flushed_view aligned series).1
  inserted series := by
    obtain ⟨le, added⟩ := flushed_view aligned series
    show w.inserted series ++ w.added series = _
    rw [aligned.inserted series, added, between_append (aligned.later series) le]
  counted copy isCopy series := by
    obtain ⟨before, -, rfl⟩ := Option.map_eq_some_iff.mp isCopy
    exact ⟨Nat.le_refl _, (between_self _).symm⟩
  uncopied _ _ := rfl
  current _ _ _ some := absurd rfl some
  unheld none := absurd trivial none

theorem aligned_rolled_back (counter : Series → Nat) (holds : Prop) (phase : Phase) :
    Aligned counter holds (.rolledBack phase) :=
  aligned_opened counter holds phase []

/-- One session changes, and the lock passes from it or to it at most. -/
theorem NumbersInvariant.set {s : State} (sound : NumbersInvariant s) {i : Nat} {w : Writer}
    {holder : Option Nat}
    (aligned : Aligned s.counter (holder = some i) w)
    (others : ∀ j, j ≠ i → s.holder = some j → holder = some j) :
    NumbersInvariant { s.set i w with holder := holder } := by
  refine ⟨sound.dense, sound.begun, fun j other isOther => ?_⟩
  replace isOther : (s.writers.set i w)[j]? = some other := isOther
  rw [List.getElem?_set] at isOther
  split at isOther
  · rename_i same
    subst same
    split at isOther
    · rwa [← Option.some.inj isOther]
    · cases isOther
  · rename_i differs
    exact (sound.aligned j other isOther).mono (others j (Ne.symm differs))

theorem release_keeps {s : State} {i j : Nat} (differs : j ≠ i) (holds : s.holder = some j) :
    (s.release i).holder = some j := by
  show s.holder.filter _ = _
  rw [holds, Option.filter_some, if_pos (decide_eq_true differs)]

theorem free_keeps {s : State} {i j : Nat} (free : s.free i = true) (differs : j ≠ i)
    (holds : s.holder = some j) : False := by
  unfold State.free at free
  rw [holds] at free
  exact differs (of_decide_eq_true free)

theorem flush_sound {s t : State} (sound : NumbersInvariant s) {i : Nat} {w : Writer}
    (aligned : Aligned s.counter (s.holder = some i) w) (flushed : s.flush i w = some t) :
    NumbersInvariant t := by
  unfold State.flush at flushed
  split at flushed
  · split at flushed
    · cases flushed
    · rename_i isFree
      have isFree : s.free i = true := by simpa using isFree
      split at flushed
      · cases flushed
        refine @NumbersInvariant.set s sound i w.flushed (some i)
          ((aligned_flushed aligned).mono fun _ => rfl) ?_
        exact fun j differs holds => (free_keeps isFree differs holds).elim
      · cases flushed
        exact sound.set (aligned_rolled_back _ _ _) fun j => release_keeps
  · cases flushed
    exact sound.set aligned fun _ _ => id

/-- What a commit publishes of a series without new numbers is the counter as it was. -/
theorem unpublished {counter : Series → Nat} {holds : Prop} {w : Writer} (aligned : Aligned counter holds w)
    {series : Series} (none : w.inserted series ++ w.added series = []) :
    (w.flushed.row series).getD (counter series) = counter series := by
  have flushed := aligned_flushed aligned
  have inserted : w.inserted series ++ w.added series = _ := flushed.inserted series
  rw [none, between, eq_comm, List.range'_eq_nil_iff] at inserted
  have later := flushed.later series
  omega

/-- Where another session holds the lock, nothing is published. -/
theorem clean_unpublished {counter : Series → Nat} {holds : Prop} {w : Writer} (aligned : Aligned counter holds w)
    (unheld : ¬ holds) (clean : w.dirty = false) (series : Series) :
    (w.flushed.row series).getD (counter series) = counter series := by
  have row := aligned.unheld unheld series
  have inserted := aligned.inserted series
  rw [row] at inserted
  refine unpublished aligned ?_
  rw [inserted, Option.getD_none, between_self, List.nil_append]
  have none := List.any_eq_false.mp clean series (by cases series <;> simp [allSeries])
  by_contra some
  exact none (by simp [some])

/-- A session that another one's commit finds: the numbers it has added are of other series. -/
theorem Aligned.overtaken {counter counter' : Series → Nat} {holds holds' : Prop} {w : Writer}
    (aligned : Aligned counter holds w) (unheld : ¬ holds)
    (others : ∀ series, w.added series ≠ [] → counter' series = counter series) :
    Aligned counter' holds' w where
  later series := by
    rw [aligned.unheld unheld series]
    exact Nat.le_refl _
  inserted series := by
    rw [aligned.inserted series, aligned.unheld unheld series, Option.getD_none, Option.getD_none,
      between_self, between_self]
  counted := aligned.counted
  uncopied := aligned.uncopied
  current copy isCopy series some := by
    rw [aligned.current copy isCopy series some, aligned.unheld unheld series, Option.getD_none,
      Option.getD_none, others series some]
  unheld _ := aligned.unheld unheld

/-- A commit publishes the numbers that follow the stored ones; no other session has drawn any of them. -/
theorem commit_sound {s t : State} (sound : NumbersInvariant s) {i : Nat} {w : Writer}
    (aligned : Aligned s.counter (s.holder = some i) w)
    (careful : ∀ j < s.writers.length, j ≠ i → ∀ other ∈ s.writers[j]?, ∀ series,
      w.inserted series ++ w.added series ≠ [] → other.added series = [])
    (committed : s.commit i w = some t) : NumbersInvariant t := by
  unfold State.commit at committed
  split at committed
  · cases committed
  split at committed
  · rename_i waits fits
    cases committed
    have flushed := aligned_flushed aligned
    refine ⟨fun series => ?_, fun series => ?_, fun j other isOther => ?_⟩
    · have first := sound.begun series
      have later := flushed.later series
      show s.stored series ++ w.flushed.inserted series =
        List.range' series.first ((w.flushed.row series).getD (s.counter series) + 1 - series.first)
      rw [sound.dense, flushed.inserted, dense_append first later]
    · exact Nat.le_trans (sound.begun series) (Nat.succ_le_succ (flushed.later series))
    · replace isOther : (s.writers.set i w.flushed.committed)[j]? = some other := isOther
      rw [List.getElem?_set] at isOther
      split at isOther
      · split at isOther
        · obtain rfl := Option.some.inj isOther
          refine aligned_clean rfl rfl rfl fun copy isCopy => ?_
          obtain ⟨before, -, rfl⟩ := Option.map_eq_some_iff.mp isCopy
          rfl
        · cases isOther
      · rename_i differs
        have before := sound.aligned j other isOther
        by_cases holds : s.holder = some j
        · -- The lock is another session's, so there is nothing to publish.
          have busy : s.free i = false := by
            rw [State.free, holds]
            exact decide_eq_false (Ne.symm differs)
          have clean : w.dirty = false := by simpa [busy] using waits
          have unheld : ¬ s.holder = some i := by
            rw [holds, Option.some.injEq]
            exact Ne.symm differs
          have same : s.view w.flushed = s.counter := funext (clean_unpublished aligned unheld clean)
          rw [same]
          exact before.mono fun _ => release_keeps (Ne.symm differs) holds
        · refine before.overtaken holds fun series some => ?_
          have inRange := (List.getElem?_eq_some_iff.mp isOther).1
          have none : w.inserted series ++ w.added series = [] := by
            by_contra published
            exact some (careful j inRange (Ne.symm differs) other isOther series published)
          exact unpublished aligned none
  · cases committed
    exact sound.set (aligned_rolled_back _ _ _) fun j => release_keeps

theorem perform_sound {s t : State} (sound : NumbersInvariant s) {i : Nat} {w : Writer} {op : Op}
    {todo : List Op}
    (isWriter : w ∈ s.writers[i]?) (isNext : w.todo = op :: todo) (careful : Careful s (.next i))
    (performed : s.perform i { w with todo := todo } op = some t) : NumbersInvariant t := by
  have aligned := (sound.aligned i w isWriter).turn w.phase todo w.expected
  have careful := careful w isWriter op (by rw [isNext]; rfl)
  cases op with
  | append series =>
    cases performed
    exact sound.set (aligned_append aligned careful) fun _ _ => id
  | flush => exact flush_sound sound aligned performed
  | lock =>
    simp only [State.perform] at performed
    split at performed
    · rename_i isFree
      cases performed
      refine @NumbersInvariant.set s sound i _ (some i) ((aligned_read aligned careful).mono fun _ => rfl) ?_
      exact fun j differs holds => (free_keeps isFree differs holds).elim
    · cases performed
  | expect =>
    simp only [State.perform] at performed
    split at performed
    · cases performed
      exact sound.set aligned fun _ _ => id
    · cases performed
      exact sound.set (aligned_rolled_back _ _ _) fun j => release_keeps
  | commit => exact commit_sound sound aligned careful performed

theorem start_sound {s : State} (sound : NumbersInvariant s) {w : Writer}
    (aligned : ∀ holds, Aligned s.counter holds w) :
    NumbersInvariant (s.start w) := by
  refine ⟨sound.dense, sound.begun, fun j other isOther => ?_⟩
  replace isOther : (s.writers ++ [w])[j]? = some other := isOther
  rw [List.getElem?_append] at isOther
  split at isOther
  · exact sound.aligned j other isOther
  · obtain rfl : w = other := List.mem_singleton.mp (List.mem_of_getElem? isOther) |>.symm
    exact aligned _

theorem turn_sound {s : State} (sound : NumbersInvariant s) {i : Nat} {w : Writer}
    (isWriter : s.writers[i]? = some w)
    (phase : Phase) (todo : List Op) (expected : Nat) :
    NumbersInvariant (s.set i { w with phase := phase, todo := todo, expected := expected }) :=
  sound.set ((sound.aligned i w isWriter).turn phase todo expected) fun _ _ => id

/-- **One step** keeps all sessions in line with the row. -/
theorem step_sound {s t : State} (sound : NumbersInvariant s) {action : Action} (careful : Careful s action)
    (stepped : step s action = some t) : NumbersInvariant t := by
  cases action with
  | turn =>
    cases stepped
    refine start_sound sound fun holds => aligned_clean rfl rfl rfl fun copy isCopy => ?_
    obtain rfl := Option.some.inj isCopy
    rfl
  | request request =>
    cases stepped
    exact start_sound sound fun holds => aligned_opened _ _ _ _
  | next i =>
    obtain ⟨w, isWriter, stepped⟩ := Option.bind_eq_some_iff.mp stepped
    split at stepped
    · rename_i op todo isNext
      exact perform_sound sound isWriter isNext careful stepped
    · cases stepped
  | warn i | save i | attached i | write i =>
    obtain ⟨w, isWriter, stepped⟩ := Option.bind_eq_some_iff.mp stepped
    obtain ⟨-, -, stepped⟩ := Option.bind_eq_some_iff.mp stepped
    cases stepped
    exact turn_sound sound isWriter _ _ _
  | select i =>
    obtain ⟨w, isWriter, stepped⟩ := Option.bind_eq_some_iff.mp stepped
    obtain ⟨-, -, stepped⟩ := Option.bind_eq_some_iff.mp stepped
    obtain ⟨copy, -, stepped⟩ := Option.bind_eq_some_iff.mp stepped
    cases stepped
    exact turn_sound sound isWriter _ _ _
  | recover i | fail i =>
    obtain ⟨w, isWriter, stepped⟩ := Option.bind_eq_some_iff.mp stepped
    obtain ⟨-, -, stepped⟩ := Option.bind_eq_some_iff.mp stepped
    cases stepped
    exact turn_sound sound isWriter _ _ _
  | leave i =>
    obtain ⟨w, -, stepped⟩ := Option.bind_eq_some_iff.mp stepped
    cases stepped
    exact sound.set (aligned_rolled_back _ _ _) fun j => release_keeps

/-! ### Failures -/

/-- Where a commit does not go through, nothing is published. -/
theorem perform_rolls_back {s t : State} {i : Nat} {w : Writer} {op : Op} {todo : List Op}
    (isWriter : s.writers[i]? = some w) (performed : s.perform i { w with todo := todo } op = some t) :
    RollsBack s t := by
  intro j before isBefore later isLater holds fails
  cases op with
  | append | expect =>
    simp only [State.perform] at performed
    first
      | cases performed
        exact ⟨rfl, rfl⟩
      | split at performed <;> cases performed <;> exact ⟨rfl, rfl⟩
  | lock =>
    simp only [State.perform] at performed
    split at performed
    · cases performed
      exact ⟨rfl, rfl⟩
    · cases performed
  | flush =>
    simp only [State.perform, State.flush] at performed
    split at performed
    · split at performed
      · cases performed
      · split at performed <;> cases performed <;> exact ⟨rfl, rfl⟩
    · cases performed
      exact ⟨rfl, rfl⟩
  | commit =>
    simp only [State.perform, State.commit] at performed
    split at performed
    · cases performed
    split at performed
    · -- The commit goes through, and no session fails.
      cases performed
      replace isLater : (s.writers.set i (Writer.committed (Writer.flushed { w with todo := todo })))[j]? =
        some later := isLater
      rw [List.getElem?_set] at isLater
      split at isLater
      · rename_i same
        subst same
        split at isLater
        · obtain rfl := Option.some.inj isLater
          obtain rfl : w = before := Option.some.inj (isWriter.symm.trans isBefore)
          exact absurd fails holds
        · cases isLater
      · obtain rfl : before = later := Option.some.inj (isBefore.symm.trans isLater)
        exact absurd fails holds
    · cases performed
      exact ⟨rfl, rfl⟩

theorem step_rolls_back {s t : State} {action : Action} (stepped : step s action = some t) : RollsBack s t := by
  cases action with
  | next i =>
    obtain ⟨w, isWriter, stepped⟩ := Option.bind_eq_some_iff.mp stepped
    split at stepped
    · exact perform_rolls_back isWriter stepped
    · cases stepped
  | turn | request =>
    cases stepped
    exact fun _ _ _ _ _ _ _ => ⟨rfl, rfl⟩
  | leave i =>
    obtain ⟨w, -, stepped⟩ := Option.bind_eq_some_iff.mp stepped
    cases stepped
    exact fun _ _ _ _ _ _ _ => ⟨rfl, rfl⟩
  | select i =>
    obtain ⟨w, -, stepped⟩ := Option.bind_eq_some_iff.mp stepped
    obtain ⟨-, -, stepped⟩ := Option.bind_eq_some_iff.mp stepped
    obtain ⟨copy, -, stepped⟩ := Option.bind_eq_some_iff.mp stepped
    cases stepped
    exact fun _ _ _ _ _ _ _ => ⟨rfl, rfl⟩
  | warn i | save i | attached i | write i | recover i | fail i =>
    obtain ⟨w, -, stepped⟩ := Option.bind_eq_some_iff.mp stepped
    obtain ⟨-, -, stepped⟩ := Option.bind_eq_some_iff.mp stepped
    cases stepped
    exact fun _ _ _ _ _ _ _ => ⟨rfl, rfl⟩

/-! ### Runs -/

/-- A turn that warns of an attachment, writes a node's results and is cancelled. -/
def warnedTurn : List Action :=
  [Action.turn, .select 0, .warn 0, .next 0, .save 0, .next 0, .attached 0, .write 0 true false false] ++
    List.replicate 8 (Action.next 0) ++ [Action.request .cancel] ++ List.replicate 5 (Action.next 1)

/-- The bindings change while a turn executes a node; its warning takes the number of that change. -/
def overtakenTurn : List Action :=
  [Action.turn, .select 0, .request .bindings] ++ List.replicate 5 (Action.next 1) ++
    [Action.warn 0, .next 0, .save 0]

end Psop.Runtime.Numbering
