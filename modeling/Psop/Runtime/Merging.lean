import Psop.Footprint
import Psop.Runtime.Node

/-!
What a merge can reach.

The operations of a node write into one heap that holds the copy of the token and the observation
(`Merge.of`). With the objects of the heap in states, an operation that takes its value from where its
target leads to keeps the states (`Tracks.operation`). Read off for two kinds of state: what stands along
a path of the token stays when every operation keeps apart from the path (`merge_observation_read`), and
what an observation assesses stays when no operation names it (`merge_observation_assessment`). What an
operation stores stands where it was stored, until another writes there (`merge_observation_stores`).
-/
namespace Psop.Runtime

open Json

/-! ### The states of a merge -/

section States

variable {S : Type} {next : S → String → S} {s t : S} {m : Merge} {h : Heap} {states : Nat → S}

/-- The state of what an operation takes from the token, in state `s`, or from the observation, in state
`t`. -/
def sourceState (next : S → String → S) (s t : S) (operation : Json) : Option S :=
  let source := (operation.field "from").toStr
  if (operation.field? "value").isSome then none
  else if Text.startsWith "observation." source then
    some ((pathParts (Text.dropLead "observation." source)).foldl next t)
  else if source = "observation" then some t
  else (mergeSource? operation).map (List.foldl next s)

/-- Where an operation takes its value from has the state of where it stores it. -/
def Suits (next : S → String → S) (s t : S) (operation : Json) : Prop :=
  ∀ path, mergeTarget? operation = some path → ∀ taken, sourceState next s t operation = some taken →
    taken = (pathParts path).foldl next s

/-- The heap of a merge under its states. -/
structure Tracks (next : S → String → S) (s t : S) (m : Merge) (h : Heap) (states : Nat → S) : Prop where
  typed : h.Typed next states
  inHeap : m.token < h.length
  token : states m.token = s
  observed : h.At states t (.ref m.observation)

theorem Tracks.root (tracks : Tracks next s t m h states) : h.At states s (.ref m.token) := by
  intro a isRef
  obtain rfl := Value.ref.inj isRef
  exact ⟨tracks.inHeap, tracks.token⟩

theorem Tracks.grows {h' : Heap} {states' : Nat → S} (tracks : Tracks next s t m h states)
    (grows : h.Grows next states h' states') : Tracks next s t m h' states' :=
  ⟨grows.typed, tracks.inHeap.trans_le grows.cells.length_le,
    (grows.old _ tracks.inHeap).trans tracks.token, grows.at tracks.observed⟩

theorem Tracks.sets {h' : Heap} {states' : Nat → S} {path : List String} {u : S}
    (tracks : Tracks next s t m h states) (sets : Heap.Sets next path u h states h' states') :
    Tracks next s t m h' states' :=
  ⟨sets.typed, tracks.inHeap.trans_le sets.length, (sets.old _ tracks.inHeap).trans tracks.token,
    sets.at tracks.observed⟩

theorem heap_path_at {path : String} {u : S} {v : Value} (typed : h.Typed next states)
    (isAt : h.At states u v) : h.At states ((pathParts path).foldl next u) (heapPath h path v) := by
  unfold heapPath
  split
  · exact Heap.at_plain
  · cases leads : h.walk (pathParts path) v with
    | none => exact Heap.at_plain
    | some w => exact typed.walk isAt leads

/-- What an operation takes has the state of its source. -/
theorem merge_source_at {operation : Json} {u : S} (tracks : Tracks next s t m h states)
    (isValue : operation.field? "value" = none)
    (suits : ∀ taken, sourceState next s t operation = some taken → taken = u) :
    h.At states u (resolveMergeSource (operation.field "from").toStr h (.ref m.token)
      (.ref m.observation)) := by
  unfold sourceState at suits
  unfold resolveMergeSource
  simp only [isValue, Option.isSome_none, Bool.false_eq_true, if_false, mergeSource?] at suits
  split
  · rename_i observed
    rw [if_pos observed] at suits
    obtain rfl := suits _ rfl
    exact heap_path_at tracks.typed tracks.observed
  rename_i other
  rw [if_neg other] at suits
  split
  · rename_i whole
    rw [if_pos whole] at suits
    obtain rfl := suits _ rfl
    exact tracks.observed
  rename_i part
  rw [if_neg part] at suits
  split
  · rename_i named
    rw [if_pos named] at suits
    obtain rfl := suits _ rfl
    exact heap_path_at tracks.typed tracks.root
  rename_i unnamed
  rw [if_neg unnamed] at suits
  split
  · rename_i input
    rw [if_pos input] at suits
    split
    · rename_i envelope leads
      obtain rfl := suits _ rfl
      rw [List.foldl_cons]
      exact heap_path_at tracks.typed (tracks.typed.walk tracks.root leads)
    · exact Heap.at_plain
  · exact Heap.at_plain

/-- **An operation** loads its value, if it has one, and stores a value of its target's state. -/
theorem Tracks.stores {operation : Json} {path : String} (tracks : Tracks next s t m h states)
    (target : mergeTarget? operation = some path) (suits : Suits next s t operation) :
    ∃ w k states', h.Grows next states k states' ∧ k.At states' ((pathParts path).foldl next s) w ∧
      mergeOperation m.token (.ref m.observation) h operation = k.set (pathParts path) w m.token := by
  unfold mergeOperation
  rw [target]
  cases isValue : operation.field? "value" with
  | some value =>
    obtain ⟨states', loads⟩ := Heap.load_spec value tracks.typed ((pathParts path).foldl next s)
    refine ⟨_, _, states', loads.grows, loads.at_, ?_⟩
    simp only [mergeValue, isValue]
  | none =>
    refine ⟨_, h, states, tracks.typed.refl, merge_source_at tracks isValue (suits path target), ?_⟩
    simp only [mergeValue, isValue]

/-- One operation keeps the states, and what else it keeps is for the write to say. -/
theorem Tracks.operation {P : Heap → (Nat → S) → Prop} {operation : Json}
    (tracks : Tracks next s t m h states) (suits : Suits next s t operation) (holds : P h states)
    (grown : ∀ k states', h.Grows next states k states' → P k states')
    (written : ∀ path, mergeTarget? operation = some path → ∀ k statesK w k' states',
      Tracks next s t m k statesK → P k statesK → k.At statesK ((pathParts path).foldl next s) w →
      k' = k.set (pathParts path) w m.token → Heap.Sets next (pathParts path) s k statesK k' states' →
      P k' states') :
    ∃ states', Tracks next s t m (mergeOperation m.token (.ref m.observation) h operation) states' ∧
      P (mergeOperation m.token (.ref m.observation) h operation) states' := by
  cases target : mergeTarget? operation with
  | none =>
    unfold mergeOperation
    rw [target]
    exact ⟨states, tracks, holds⟩
  | some path =>
    obtain ⟨w, k, statesK, grows, isAt, same⟩ := tracks.stores target suits
    have within := tracks.grows grows
    obtain ⟨states', sets⟩ := Heap.set_typed within.typed (pathParts path) within.inHeap
      (within.token.symm ▸ isAt)
    rw [within.token] at sets
    rw [same]
    exact ⟨states', within.sets sets, written path target k statesK w _ states' within
      (grown k statesK grows) isAt rfl sets⟩

/-- The operations of a node, one after the other. -/
theorem Tracks.operations {P : Heap → (Nat → S) → Prop} {operations : List Json}
    (step : ∀ operation ∈ operations, ∀ {h states}, Tracks next s t m h states → P h states →
      ∃ states', Tracks next s t m (mergeOperation m.token (.ref m.observation) h operation) states' ∧
        P (mergeOperation m.token (.ref m.observation) h operation) states')
    (tracks : Tracks next s t m h states) (holds : P h states) :
    ∃ states', Tracks next s t m (operations.foldl (mergeOperation m.token (.ref m.observation)) h) states' ∧
      P (operations.foldl (mergeOperation m.token (.ref m.observation)) h) states' := by
  induction operations generalizing h states with
  | nil => exact ⟨states, tracks, holds⟩
  | cons operation rest ih =>
    obtain ⟨states₁, tracks₁, holds₁⟩ := step operation List.mem_cons_self tracks holds
    exact ih (fun o isLater => step o (List.mem_cons_of_mem _ isLater)) tracks₁ holds₁

/-- What a merge begins with: the token can be read, and the entries of the observation. -/
structure Begins (next : S → String → S) (s t : S) (observation token : Json) (m : Merge)
    (states : Nat → S) : Prop where
  tracks : Tracks next s t m m.heap states
  token : ∃ depth, m.heap.read depth (.ref m.token) = some token
  entries : ∀ entry ∈ m.cell, m.heap.At states (next t entry.1) entry.2
  fields : ∃ depth, m.heap.Reads depth m.cell observation.fields
  cell : m.heap[m.observation]? = some (popKey "_trace_request" m.cell)
  loaded : ∃ h, m.cell = (Heap.loadFields observation.fields h).1

theorem Merge.begins (next : S → String → S) (s t : S) {observation token : Json}
    (loads : Merge.of observation token = some m) : ∃ states, Begins next s t observation token m states := by
  unfold Merge.of at loads
  have empty : Heap.Typed next ([] : Heap) (fun _ => s) := fun a cell stored => by simp at stored
  obtain ⟨states₁, first⟩ := Heap.load_spec token empty s
  split at loads
  · cases loads
  rename_i root h isRoot
  rw [isRoot] at first
  obtain ⟨states₂, second⟩ := Heap.load_fields_spec observation.fields first.grows.typed t
  obtain rfl := Option.some.inj loads
  have below : ∀ entry ∈ popKey "_trace_request" (Heap.loadFields observation.fields h).1,
      entry ∈ (Heap.loadFields observation.fields h).1 := fun entry isIn => List.mem_of_mem_filter isIn
  have pushed := second.grows.typed.push (s := t) fun entry isIn => second.at_ entry (below entry isIn)
  have all := second.grows.trans pushed
  obtain ⟨inHeap, isState⟩ := first.at_ root rfl
  obtain ⟨depth, -, reads⟩ := first.read
  obtain ⟨depth', -, fields⟩ := second.reads
  refine ⟨_, ⟨pushed.typed, inHeap.trans_le all.cells.length_le, (all.old _ inHeap).trans isState, ?_⟩,
    ⟨depth, Heap.read_mono reads le_rfl fun _ _ => all.stored⟩,
    fun entry isIn => pushed.at (second.at_ entry isIn), ⟨depth', pushed.reads le_rfl fields⟩, ?_, h, rfl⟩
  · intro a isRef
    obtain rfl := Value.ref.inj isRef
    exact ⟨by simp, Heap.extend_same ..⟩
  · simp

end States

/-! ### A path of the token -/

section Reading

variable {node observation token merged seen : Json} {q : List String}

/-- The stages of a merge. -/
theorem merge_observation_spec (did : mergeObservation node observation token = some (merged, seen)) :
    ∃ m h, Merge.of observation token = some m ∧
      fileObservation m.token (node.field "id").toStr (.ref m.observation)
        (m.after (node.field "merge").items) = some h ∧
      h.read h.length (.ref m.token) = some merged ∧
      ∃ fs, h.Reads h.length m.cell fs ∧ seen = obj fs := by
  obtain ⟨m, loads, did⟩ := Option.bind_eq_some_iff.mp did
  obtain ⟨h, files, did⟩ := Option.bind_eq_some_iff.mp did
  obtain ⟨merged', reads, did⟩ := Option.bind_eq_some_iff.mp did
  obtain ⟨fs, entries, same⟩ := Option.bind_eq_some_iff.mp did
  obtain ⟨rfl, rfl⟩ := Prod.mk.inj (Option.some.inj same)
  exact ⟨m, h, loads, files, reads, fs, Heap.reads_iff.mp entries, rfl⟩

/-- Filing the observation writes along its own path, if it writes. -/
theorem file_observation_spec {root : Nat} {id : String} {v : Value} {h h' : Heap}
    (files : fileObservation root id v h = some h') :
    h' = h ∨ h' = h.set ["observations", id] v root := by
  unfold fileObservation at files
  split at files
  · cases files
  · split at files
    · exact .inl (Option.some.inj files).symm
    · exact .inr (Option.some.inj files).symm

theorem suits_apart {operation : Json} (isApart : OperationApart operation q) :
    Suits Heap.ahead (some q) none operation := by
  intro path target taken isTaken
  obtain ⟨beside, off⟩ := isApart path target
  rw [Heap.ahead_apart beside]
  unfold sourceState at isTaken
  simp only at isTaken
  split at isTaken
  · cases isTaken
  split at isTaken
  · rw [Heap.ahead_none] at isTaken
    exact (Option.some.inj isTaken).symm
  split at isTaken
  · exact (Option.some.inj isTaken).symm
  · obtain ⟨source, isSource, rfl⟩ := Option.map_eq_some_iff.mp isTaken
    exact Heap.ahead_apart (off source isSource)

/-- An operation apart from a path keeps what stands there. -/
theorem Tracks.apart {m : Merge} {h h₀ : Heap} {states : Nat → Option (List String)} {operation : Json}
    (isApart : OperationApart operation q) (tracks : Tracks Heap.ahead (some q) none m h states)
    (keeps : Heap.Keeps q m.token h₀ h) :
    ∃ states', Tracks Heap.ahead (some q) none m
        (mergeOperation m.token (.ref m.observation) h operation) states' ∧
      Heap.Keeps q m.token h₀ (mergeOperation m.token (.ref m.observation) h operation) := by
  refine tracks.operation (P := fun k _ => Heap.Keeps q m.token h₀ k) (suits_apart isApart) keeps
    (fun k states' grows => keeps.trans (grows.keeps tracks.typed tracks.inHeap q)) ?_
  rintro path target k statesK w - states' within kept isAt rfl -
  have beside := (isApart path target).1
  rw [Heap.ahead_apart beside] at isAt
  exact kept.trans (Heap.set_keeps within.typed within.inHeap within.token beside isAt)

theorem file_keeps {m : Merge} {h h' : Heap} {states : Nat → Option (List String)} {id : String}
    (beside : Apart ["observations", id] q) (tracks : Tracks Heap.ahead (some q) none m h states)
    (files : fileObservation m.token id (.ref m.observation) h = some h') : Heap.Keeps q m.token h h' := by
  rcases file_observation_spec files with rfl | rfl
  · exact .refl ..
  · exact Heap.set_keeps tracks.typed tracks.inHeap tracks.token beside tracks.observed

/-- **A merge leaves a path of the token alone** if no operation of the node writes along it or takes its
value from along it, and the observation is not filed there. -/
theorem merge_observation_keeps
    (free : ∀ operation ∈ (node.field "merge").items, OperationApart operation q)
    (beside : Apart ["observations", (node.field "id").toStr] q)
    (did : mergeObservation node observation token = some (merged, seen)) :
    at? q merged = at? q token := by
  obtain ⟨m, h, loads, files, reads, -⟩ := merge_observation_spec did
  obtain ⟨states, begins⟩ := m.begins Heap.ahead (some q) none loads
  obtain ⟨depth, before⟩ := begins.token
  obtain ⟨states', tracks, keeps⟩ := begins.tracks.operations (P := fun k _ => Heap.Keeps q m.token m.heap k)
    (fun operation isIn _ _ tracks keeps => tracks.apart (free operation isIn) keeps) (.refl ..)
  exact (keeps.trans (file_keeps beside tracks files)).at_read before reads

/-- Nothing beside the observations is written by filing one. -/
theorem merge_observation_read
    (free : ∀ operation ∈ (node.field "merge").items, OperationApart operation q)
    (beside : Apart ["observations"] q)
    (did : mergeObservation node observation token = some (merged, seen)) :
    at? q merged = at? q token := merge_observation_keeps free beside.shorten did

end Reading

/-! ### What is left of the observation -/

section Seen

variable {node observation token merged seen : Json} {key : String}

theorem field_of_fields (key : String) (j : Json) : j.field key = (lookup key j.fields).getD null := by
  cases j <;> rfl

/-- A value of the observation that is no object stays as it was made. -/
theorem seen_plain (did : mergeObservation node observation token = some (merged, seen))
    (flat : (observation.field key).isObj = false) : seen.field key = observation.field key := by
  obtain ⟨m, h, loads, -, -, fs, entries, rfl⟩ := merge_observation_spec did
  obtain ⟨states, begins⟩ := m.begins (fun _ _ => ()) () () loads
  obtain ⟨depth, fields⟩ := begins.fields
  rw [field_obj, field_of_fields, entries.lookup, fields.lookup]
  cases has : lookup key m.cell with
  | none => rfl
  | some v =>
    cases v with
    | plain value isFlat => rw [Option.bind_some, Option.bind_some, Heap.read_plain, Heap.read_plain]
    | ref a =>
      obtain ⟨value, isValue⟩ := fields.defined has
      obtain ⟨inner, rfl⟩ : ∃ inner, value = obj inner := by
        cases depth with
        | zero => cases isValue
        | succ depth =>
          obtain ⟨-, inner, -, -, same⟩ := Heap.read_ref.mp isValue
          exact ⟨inner, same⟩
      rw [field_of_fields, fields.lookup, has, Option.bind_some, isValue] at flat
      cases flat

/-- The key is on the path to an object. -/
def named (key : String) (before : Bool) (other : String) : Bool := before || other == key

theorem named_foldl {path : List String} (absent : key ∉ path) : path.foldl (named key) false = false := by
  induction path with
  | nil => rfl
  | cons other path ih =>
    rw [List.mem_cons, not_or] at absent
    rw [List.foldl_cons, named, Bool.false_or, beq_eq_false_iff_ne.mpr (Ne.symm absent.1)]
    exact ih absent.2

theorem suits_spares {operation : Json} (spares : OperationSpares key operation)
    (differ : key ≠ "input_envelope") : Suits (named key) false false operation := by
  intro path target taken isTaken
  obtain ⟨absent, taking⟩ := spares path target
  rw [named_foldl absent]
  unfold sourceState mergeSource? at isTaken
  simp only at isTaken
  split at isTaken
  · cases isTaken
  rename_i unvalued
  have free := taking.resolve_left unvalued
  -- The rest of a source names no key that the source does not.
  have below : ∀ {lead head : String}, (∀ rest, pathParts (lead ++ rest) = head :: pathParts rest) →
      Text.startsWith lead (operation.field "from").toStr = true →
      key ∉ pathParts (Text.dropLead lead (operation.field "from").toStr) := by
    intro lead head splits starts isIn
    obtain ⟨rest, isRest⟩ := Text.startsWith_iff.mp starts
    rw [isRest, Text.dropLead_append] at isIn
    rw [isRest, splits] at free
    exact free (List.mem_cons_of_mem _ isIn)
  split at isTaken
  · rename_i starts
    have splits : ∀ rest, pathParts ("observation." ++ rest) = "observation" :: pathParts rest :=
      fun rest => Text.splitOn_at_sep '.' "observation" rest (by decide)
    exact (Option.some.inj isTaken).symm.trans (named_foldl (below splits starts))
  split at isTaken
  · exact (Option.some.inj isTaken).symm
  split at isTaken
  · rename_i starts
    have splits : ∀ rest, pathParts ("token." ++ rest) = "token" :: pathParts rest :=
      fun rest => Text.splitOn_at_sep '.' "token" rest (by decide)
    exact (Option.some.inj isTaken).symm.trans (named_foldl (below splits starts))
  split at isTaken
  · rename_i starts
    have splits : ∀ rest, pathParts ("input." ++ rest) = "input" :: pathParts rest :=
      fun rest => Text.splitOn_at_sep '.' "input" rest (by decide)
    refine (Option.some.inj isTaken).symm.trans (named_foldl ?_)
    rw [List.mem_cons, not_or]
    exact ⟨differ, below splits starts⟩
  · cases isTaken

/-- What is held under a key is read as before. -/
def StillHeld (h₀ : Heap) (v : Value) (h : Heap) (states : Nat → Bool) : Prop :=
  h.At states true v ∧ ∀ depth, h.read depth v = h₀.read depth v

theorem StillHeld.next {h₀ h h' : Heap} {v : Value} {states states' : Nat → Bool}
    (typed : h.Typed (named key) states) (kept : StillHeld h₀ v h states) (isAt : h'.At states' true v)
    (same : ∀ a < h.length, states a = true → h'[a]? = h[a]?) : StillHeld h₀ v h' states' := by
  refine ⟨isAt, fun depth => (typed.read (· = true) ?_ same kept.1 rfl depth).trans (kept.2 depth)⟩
  rintro s rfl other
  rfl

/-- A write along a path without the key does not touch what is held under it. -/
theorem named_apart {path p rest : List String} {other : String} (absent : key ∉ path)
    (split : path = p ++ other :: rest) : p.foldl (named key) false = false :=
  named_foldl fun isIn => absent (split ▸ List.mem_append_left _ isIn)

/-- **What the observation holds under a key** stays as it was made, if no operation of the node names the
key. -/
theorem merge_observation_spares (differ : key ≠ "input_envelope") (other : key ≠ "observations")
    (free : ∀ operation ∈ (node.field "merge").items, OperationSpares key operation)
    (did : mergeObservation node observation token = some (merged, seen)) :
    seen.field key = observation.field key := by
  obtain ⟨m, h, loads, files, -, fs, entries, rfl⟩ := merge_observation_spec did
  obtain ⟨states, begins⟩ := m.begins (named key) false false loads
  obtain ⟨depth, fields⟩ := begins.fields
  rw [field_obj, field_of_fields, entries.lookup, fields.lookup]
  cases has : lookup key m.cell with
  | none => rfl
  | some v =>
    have start : StillHeld m.heap v m.heap states := by
      refine ⟨?_, fun _ => rfl⟩
      have isAt := begins.entries _ (lookup_mem has)
      rwa [named, beq_self_eq_true, Bool.or_true] at isAt
    obtain ⟨states', tracks, kept⟩ := begins.tracks.operations (P := StillHeld m.heap v)
      (fun operation isIn h states tracks kept => by
        refine tracks.operation (suits_spares (free operation isIn) differ) kept
          (fun k states' grows => kept.next tracks.typed (grows.at kept.1) fun a isA _ => ?_) ?_
        · exact (grows.stored (List.getElem?_eq_getElem isA)).trans (List.getElem?_eq_getElem isA).symm
        · rintro path target k statesK w k' states' within kept - rfl sets
          refine kept.next within.typed (sets.at kept.1) fun a isA isTrue => sets.others a isA ?_
          intro p k rest split leads
          rw [isTrue, named_apart (free operation isIn path target).1 split] at leads
          cases leads) start
    have filed : ∀ depth, h.read depth v = m.heap.read depth v := by
      rcases file_observation_spec files with rfl | rfl
      · exact kept.2
      · refine fun depth => (tracks.typed.read (· = true) ?_ (fun a isA isTrue => ?_) kept.1 rfl
          depth).trans (kept.2 depth)
        · rintro s rfl other
          rfl
        · refine Heap.set_others tracks.typed _ tracks.inHeap isA fun p k rest split leads => ?_
          rw [tracks.token, isTrue] at leads
          cases p with
          | nil => cases leads
          | cons first p =>
            obtain ⟨rfl, split⟩ := List.cons.inj split
            cases p with
            | nil => simp [named, Ne.symm other] at leads
            | cons => simp at split
    obtain ⟨value, isValue⟩ := fields.defined has
    obtain ⟨value', isValue'⟩ := entries.defined has
    rw [Option.bind_some, Option.bind_some, isValue, isValue']
    have both := Heap.read_mono isValue (le_max_left depth h.length) fun _ _ is => is
    have both' := Heap.read_mono (filed _ ▸ isValue') (le_max_right depth h.length) fun _ _ is => is
    exact congrArg (·.getD null) (both'.symm.trans both)

end Seen

/-! ### What an operation stores -/

section Storing

variable {node observation token merged seen operation value : Json} {m : Merge} {key path : String}
  {flat : value.isObj = false}

/-- A value of the observation that is no object, as an operation takes it before any other. -/
theorem observed_plain (loads : Merge.of observation token = some m)
    (isValue : observation.field key = value) (isPart : pathParts key = [key]) (some_ : key ≠ "")
    (kept : "_trace_request" ≠ key) : heapPath m.heap key (.ref m.observation) = .plain value flat := by
  obtain ⟨states, begins⟩ := m.begins (fun _ _ => ()) () () loads
  obtain ⟨depth, fields⟩ := begins.fields
  rw [field_of_fields, fields.lookup] at isValue
  rw [heapPath, if_neg some_, isPart, Heap.walk, begins.cell, Option.bind_some,
    lookup_popKey_other kept]
  cases has : lookup key m.cell with
  | none =>
    rw [has] at isValue
    subst isValue
    rfl
  | some v =>
    rw [has, Option.bind_some] at isValue
    cases v with
    | plain stored isFlat =>
      rw [Heap.read_plain] at isValue
      subst isValue
      rfl
    | ref a =>
      obtain ⟨stored, isStored⟩ := fields.defined has
      rw [isStored] at isValue
      subst isValue
      cases depth with
      | zero => cases isStored
      | succ depth =>
        obtain ⟨-, inner, -, -, rfl⟩ := Heap.read_ref.mp isStored
        cases flat

/-- The value of an operation adds objects at most. -/
theorem merge_value_grows {S : Type} {next : S → String → S} {h : Heap} {states : Nat → S}
    (typed : h.Typed next states) (s : S) (root observed : Value) (operation : Json) :
    ∃ states', h.Grows next states (mergeValue root observed operation h).2 states' := by
  unfold mergeValue
  split
  · rename_i value _
    obtain ⟨states', loads⟩ := Heap.load_spec value typed s
    exact ⟨states', loads.grows⟩
  · exact ⟨states, typed.refl⟩

/-- **What an operation stores**, if it is no object, stands where it was stored: the other operations of
the node keep apart from there. -/
theorem merge_observation_stores {before later : List Json}
    (split : (node.field "merge").items = before ++ operation :: later)
    (target : mergeTarget? operation = some path)
    (others : ∀ o ∈ before ++ later, OperationApart o (pathParts path))
    (beside : Apart ["observations"] (pathParts path))
    (stores : ∀ m, Merge.of observation token = some m →
      (mergeValue (.ref m.token) (.ref m.observation) operation (m.after before)).1 = .plain value flat)
    (did : mergeObservation node observation token = some (merged, seen)) :
    at? (pathParts path) merged = some value := by
  obtain ⟨m, h, loads, files, reads, -⟩ := merge_observation_spec did
  obtain ⟨states, begins⟩ := m.begins Heap.ahead (some (pathParts path)) none loads
  have keeping : ∀ {operations : List Json} {h₀ : Heap} {states : Nat → Option (List String)},
      (∀ o ∈ operations, o ∈ before ++ later) →
      Tracks Heap.ahead (some (pathParts path)) none m h₀ states → ∃ states',
        Tracks Heap.ahead (some (pathParts path)) none m
          (operations.foldl (mergeOperation m.token (.ref m.observation)) h₀) states' ∧
        Heap.Keeps (pathParts path) m.token h₀
          (operations.foldl (mergeOperation m.token (.ref m.observation)) h₀) :=
    fun {_ h₀ _} within tracks => tracks.operations (P := fun k _ => Heap.Keeps (pathParts path) m.token h₀ k)
      (fun operation isIn _ _ tracks keeps => tracks.apart (others operation (within operation isIn)) keeps)
      (.refl ..)
  obtain ⟨states₁, tracks₁, -⟩ := keeping (fun o isIn => List.mem_append_left later isIn) begins.tracks
  have some_ : pathParts path ≠ [] := fun none_ => by
    rw [none_] at beside
    exact absurd beside (by decide)
  obtain ⟨states₂, grows⟩ := merge_value_grows tracks₁.typed none (.ref m.token) (.ref m.observation) operation
  have tracks₂ := tracks₁.grows grows
  have isPlain : ∀ {k : Heap} {states : Nat → Option (List String)},
      k.At states (some []) (.plain value flat) := Heap.at_plain
  have stored : mergeOperation m.token (.ref m.observation) (m.after before) operation =
      (mergeValue (.ref m.token) (.ref m.observation) operation (m.after before)).2.set (pathParts path)
        (.plain value flat) m.token := by
    rw [mergeOperation, target, ← stores m loads]
  obtain ⟨states₃, sets⟩ := Heap.set_typed tracks₂.typed (pathParts path) tracks₂.inHeap (by
    rw [tracks₂.token, Heap.ahead_self]
    exact isPlain)
  have tracks₃ := tracks₂.sets sets
  have here := Heap.set_same tracks₂.typed tracks₂.inHeap tracks₂.token some_ isPlain
  change Tracks _ _ _ _ (Heap.set (pathParts path) (.plain value flat) m.token
    (mergeValue (.ref m.token) (.ref m.observation) operation (m.after before)).2) _ at tracks₃
  change Heap.walk (Heap.set (pathParts path) (.plain value flat) m.token
    (mergeValue (.ref m.token) (.ref m.observation) operation (m.after before)).2) _ _ = _ at here
  rw [← stored] at tracks₃ here
  obtain ⟨states₄, tracks₄, keeps⟩ := keeping (fun o isIn => List.mem_append_right before isIn) tracks₃
  have all : m.after (node.field "merge").items =
      later.foldl (mergeOperation m.token (.ref m.observation))
        (mergeOperation m.token (.ref m.observation) (m.after before) operation) := by
    rw [split, Merge.after, List.foldl_append]
    rfl
  rw [← all] at tracks₄ keeps
  rw [(Heap.at_read reads _).1, ((keeps.trans (file_keeps beside.shorten tracks₄ files)).walk).trans here,
    Option.bind_some, Heap.read_plain]

end Storing

end Psop.Runtime
