import Mathlib.Logic.Relation
import Psop.Compiler.Formal

/-!
What the normaliser makes of a guard, and what the validator asks of the result.

`normalizeOperators_eq` says that a guard in its own operators keeps its keys and has each value
rewritten on its own, by `normalizeOperand`. `validateGuard_obj` says that a guard passes exactly when
each of its keys is an operator and each operand passes. Together they give `Accepted.entry` and
`Accepted.part`: every operand of an accepted guard, and every guard inside it, is accepted.
-/
namespace Psop.Compiler

open Json

/-! ### Normalisation, one entry at a time -/

theorem wholeShapes_eq (fs : Fields) :
    wholeShapes fs = fs.map fun f => (f.1, normalizeGuardShape f.2) := by
  induction fs with
  | nil => rfl
  | cons f rest ih =>
    obtain ⟨key, value⟩ := f
    rw [wholeShapes, ih]
    rfl

theorem itemShapes_eq (fs : Fields) : itemShapes fs = fs.map fun f => (f.1, shapesOf f.2) := by
  induction fs with
  | nil => rfl
  | cons f rest ih =>
    obtain ⟨key, value⟩ := f
    rw [itemShapes, ih]
    rfl

theorem guardShapes_eq (guards : List Json) : guardShapes guards = guards.map normalizeGuardShape := by
  induction guards with
  | nil => rfl
  | cons guard rest ih => rw [guardShapes, ih, List.map_cons]

theorem shapesOf_arr (guards : List Json) :
    shapesOf (arr guards) = arr (guards.map normalizeGuardShape) := by
  rw [shapesOf, guardShapes_eq]

/-- A value under `field_exists`. -/
def normalizePathValue : Json → Json
  | str path => str (normalizeTokenPath path false)
  | value => value

/-- A value under `field_equals`. -/
def normalizeCondition : Json → Json
  | obj condition => match lookup "path" condition with
    | some (str path) => obj (setKey "path" (str (normalizeTokenPath path false)) condition)
    | _ => obj condition
  | value => value

/-- The operand the normaliser leaves under a key of a guard. -/
def normalizeOperand (key : String) (value : Json) : Json :=
  if key = "field_exists" then normalizePathValue value
  else if key = "field_equals" then normalizeCondition value
  else if key = "all" ∨ key = "any" then shapesOf value
  else if key = "not" then normalizeGuardShape value
  else value

/-- A guard with each operand normalised under its own key. -/
def normalizeOperands (fs : Fields) : Fields := fs.map fun f => (f.1, normalizeOperand f.1 f.2)

theorem normalizeOperands_keys (fs : Fields) :
    (normalizeOperands fs).map Prod.fst = fs.map Prod.fst := by
  rw [normalizeOperands, List.map_map]
  rfl

/-- The rewriting of the value under one key, where the key is there. -/
def changeAt (key : String) (change : Json → Json) (fs : Fields) : Fields :=
  fs.map fun f => (f.1, if f.1 = key then change f.2 else f.2)

theorem changeAt_keys (key : String) (change : Json → Json) (fs : Fields) :
    (changeAt key change fs).map Prod.fst = fs.map Prod.fst := by
  rw [changeAt, List.map_map]
  rfl

theorem lookup_changeAt (key other : String) (change : Json → Json) (fs : Fields) :
    lookup other (changeAt key change fs) =
      (lookup other fs).map fun value => if other = key then change value else value :=
  lookup_map (fun k value => if k = key then change value else value) other fs

theorem changeAt_id {key : String} {fs : Fields} (distinct : (fs.map Prod.fst).Nodup)
    {change : Json → Json} (fixed : ∀ value, lookup key fs = some value → change value = value) :
    changeAt key change fs = fs := by
  refine (List.map_congr_left fun f isEntry => ?_).trans (List.map_id fs)
  have found := lookup_of_mem distinct isEntry
  by_cases same : f.1 = key
  · rw [if_pos same, fixed f.2 (same ▸ found)]
    rfl
  · rw [if_neg same]
    rfl

/-- Where keys are distinct, an assignment that depends on the value there is a rewriting. -/
theorem setKey_changeAt {key : String} {value : Json} {fs : Fields}
    (distinct : (fs.map Prod.fst).Nodup) (found : lookup key fs = some value)
    (change : Json → Json) : setKey key (change value) fs = changeAt key change fs := by
  rw [setKey_eq_map distinct (List.mem_map_of_mem (lookup_mem found))]
  refine List.map_congr_left fun f isEntry => ?_
  by_cases same : f.1 = key
  · have value_eq : f.2 = value := by
      rw [← same, lookup_of_mem distinct isEntry] at found
      exact Option.some.inj found
    rw [if_pos same, if_pos same, value_eq]
  · rw [if_neg same, if_neg same]

theorem changeAt_absent {key : String} {fs : Fields} (distinct : (fs.map Prod.fst).Nodup)
    (absent : lookup key fs = none) (change : Json → Json) : fs = changeAt key change fs :=
  (changeAt_id distinct fun value found => by rw [absent] at found; cases found).symm

theorem changeAt_fixed {key : String} {value : Json} {fs : Fields}
    (distinct : (fs.map Prod.fst).Nodup) (found : lookup key fs = some value)
    {change : Json → Json} (fixed : change value = value) : fs = changeAt key change fs := by
  refine (changeAt_id distinct fun other found' => ?_).symm
  obtain rfl := Option.some.inj (found.symm.trans found')
  exact fixed

section Stages

/-! The stages of the normaliser one by one: each rewrites the value under its key where it has the
form it looks for, and such a rewriting leaves every other value as it is. -/

variable {fs : Fields} (distinct : (fs.map Prod.fst).Nodup)
include distinct

theorem exists_stage : (match lookup "field_exists" fs with
    | some (str path) => setKey "field_exists" (str (normalizeTokenPath path false)) fs
    | _ => fs) = changeAt "field_exists" normalizePathValue fs := by
  split
  · rename_i path found
    exact setKey_changeAt distinct found normalizePathValue
  · rename_i other
    cases found : lookup "field_exists" fs with
    | none => exact changeAt_absent distinct found _
    | some value =>
      refine changeAt_fixed distinct found ?_
      cases value with
      | str path => exact absurd found (other path)
      | null | bool | num | arr | obj => rfl

theorem equals_stage : (match lookup "field_equals" fs with
    | some (obj condition) => match lookup "path" condition with
      | some (str path) => setKey "field_equals"
          (obj (setKey "path" (str (normalizeTokenPath path false)) condition)) fs
      | _ => fs
    | _ => fs) = changeAt "field_equals" normalizeCondition fs := by
  split
  · rename_i condition found
    have rewritten := setKey_changeAt distinct found normalizeCondition
    cases inner : lookup "path" condition with
    | none => exact changeAt_fixed distinct found (by simp only [normalizeCondition, inner])
    | some value =>
      cases value with
      | str path =>
        simp only [normalizeCondition, inner] at rewritten
        exact rewritten
      | null | bool | num | arr | obj =>
        exact changeAt_fixed distinct found (by simp only [normalizeCondition, inner])
  · rename_i other
    cases found : lookup "field_equals" fs with
    | none => exact changeAt_absent distinct found _
    | some value =>
      refine changeAt_fixed distinct found ?_
      cases value with
      | obj condition => exact absurd found (other condition)
      | null | bool | num | arr | str => rfl

theorem group_stage {key : String} {each : Fields}
    (items : ∀ value, lookup key fs = some value → firstOf [key] each = shapesOf value) :
    (match lookup key fs with
    | some (arr _) => setKey key (firstOf [key] each) fs
    | _ => fs) = changeAt key shapesOf fs := by
  split
  · rename_i guards found
    rw [items _ found]
    exact setKey_changeAt distinct found shapesOf
  · rename_i other
    cases found : lookup key fs with
    | none => exact changeAt_absent distinct found _
    | some value =>
      refine changeAt_fixed distinct found ?_
      cases value with
      | arr guards => exact absurd found (other guards)
      | null | bool | num | str | obj => rfl

theorem not_stage {whole : Fields} (wholes : ∀ value, lookup "not" fs = some value →
    firstOf ["not"] whole = normalizeGuardShape value) :
    (match lookup "not" fs with
    | some _ => setKey "not" (firstOf ["not"] whole) fs
    | none => fs) = changeAt "not" normalizeGuardShape fs := by
  split
  · rename_i value found
    rw [wholes _ found]
    exact setKey_changeAt distinct found normalizeGuardShape
  · rename_i found
    exact changeAt_absent distinct found _

end Stages

theorem firstOf_single (key : String) (fs : Fields) : firstOf [key] fs = (lookup key fs).getD null := rfl

/-- A guard in its own operators keeps its keys, with each value normalised on its own. -/
theorem normalizeOperators_eq {fs : Fields} (distinct : (fs.map Prod.fst).Nodup) :
    normalizeOperators fs (wholeShapes fs) (itemShapes fs) = obj (normalizeOperands fs) := by
  have keys : ∀ {key change} {gs : Fields}, (gs.map Prod.fst).Nodup →
      ((changeAt key change gs).map Prod.fst).Nodup := fun h => (changeAt_keys _ _ _).symm ▸ h
  have item : ∀ {key value}, lookup key fs = some value →
      firstOf [key] (itemShapes fs) = shapesOf value := by
    intro key value found
    rw [itemShapes_eq, firstOf_single, lookup_map fun _ => shapesOf, found]
    rfl
  have whole : ∀ value, lookup "not" fs = some value →
      firstOf ["not"] (wholeShapes fs) = normalizeGuardShape value := by
    intro value found
    rw [wholeShapes_eq, firstOf_single, lookup_map fun _ => normalizeGuardShape, found]
    rfl
  unfold normalizeOperators
  extract_lets fs₁ fs₂ fs₃ fs₄ fs₅
  have h₁ : fs₁ = changeAt "field_exists" normalizePathValue fs := exists_stage distinct
  have d₁ : (fs₁.map Prod.fst).Nodup := h₁ ▸ keys distinct
  have h₂ : fs₂ = changeAt "field_equals" normalizeCondition fs₁ := equals_stage d₁
  have d₂ : (fs₂.map Prod.fst).Nodup := h₂ ▸ keys d₁
  have h₃ : fs₃ = changeAt "all" shapesOf fs₂ := group_stage d₂ fun value found => item (by
    simpa [h₂, h₁, lookup_changeAt] using found)
  have d₃ : (fs₃.map Prod.fst).Nodup := h₃ ▸ keys d₂
  have h₄ : fs₄ = changeAt "any" shapesOf fs₃ := group_stage d₃ fun value found => item (by
    simpa [h₃, h₂, h₁, lookup_changeAt] using found)
  have d₄ : (fs₄.map Prod.fst).Nodup := h₄ ▸ keys d₃
  have h₅ : fs₅ = changeAt "not" normalizeGuardShape fs₄ := not_stage d₄ fun value found =>
    whole value (by simpa [h₄, h₃, h₂, h₁, lookup_changeAt] using found)
  rw [h₅, h₄, h₃, h₂, h₁]
  simp only [changeAt, normalizeOperands, List.map_map]
  refine congrArg obj (List.map_congr_left fun f _ => ?_)
  simp only [Function.comp_apply, normalizeOperand, Prod.mk.injEq, true_and]
  -- an entry is rewritten by the one stage of its key
  by_cases e1 : f.1 = "field_exists"
  · simp [e1]
  by_cases e2 : f.1 = "field_equals"
  · simp [e2]
  by_cases e3 : f.1 = "all"
  · simp [e3]
  by_cases e4 : f.1 = "any"
  · simp [e4]
  by_cases e5 : f.1 = "not"
  · simp [e5]
  simp [e1, e2, e3, e4, e5]

/-! ### Guards written with `op` -/

/-- The one operator a guard written with `op` stands for, with its operand as it is written. -/
def opOperand? (op : String) (fs : Fields) : Option (String × Json) :=
  let grouped := fun key => match firstOf ["conditions", "items", "value"] (fs ++ [("value", arr [])]) with
    | arr guards => some (key, arr guards)
    | _ => none
  if op ∈ ["always", "true"] then some ("always", .bool true)
  else if op = "phase_is" then match firstOf ["value", "phase"] fs with
    | null => none
    | phase => some ("phase_is", str phase.toStr)
  else if op = "field_exists" then match firstOf ["path", "value"] fs with
    | null => none
    | path => some ("field_exists", str path.toStr)
  else if op ∈ ["field_equals", "equals", "eq"] then match firstOf ["path", "field"] fs with
    | null => none
    | path => some ("field_equals", obj [("path", str path.toStr), ("value", firstOf ["value"] fs)])
  else if op ∈ ["and", "all"] then grouped "all"
  else if op ∈ ["or", "any"] then grouped "any"
  else if op = "not" then some ("not", firstOf ["condition", "value"] fs)
  else none

/-- The operators of a guard that the normaliser keeps: beside an `op` it drops all others. -/
def kept (fs : Fields) : Fields :=
  match lookup "op" fs with
  | some op => match opOperand? (Text.lower op.strOr) fs with
    | some entry => [entry]
    | none => fs
  | none => fs

/-- A guard whose `op` lacks its operand is left as it is. -/
def keepsOp (fs : Fields) : Bool :=
  match lookup "op" fs with
  | some op => decide (Text.lower op.strOr ∈ ["phase_is", "field_exists", "and", "all", "or", "any"]) &&
      (opOperand? (Text.lower op.strOr) fs).isNone
  | none => false

theorem firstOf_map {change : Json → Json} (fixed : change null = null) (keys : List String)
    (fs : Fields) : firstOf keys (fs.map fun f => (f.1, change f.2)) = change (firstOf keys fs) := by
  induction keys with
  | nil => exact fixed.symm
  | cons key keys ih =>
    rw [firstOf, firstOf, lookup_map fun _ => change, ih]
    cases lookup key fs <;> rfl

section Op

variable (op : String) (fs : Fields)

theorem firstOf_wholeShapes (keys : List String) :
    firstOf keys (wholeShapes fs) = normalizeGuardShape (firstOf keys fs) := by
  rw [wholeShapes_eq]
  exact @firstOf_map normalizeGuardShape rfl keys fs

theorem firstOf_itemShapes (keys : List String) :
    firstOf keys (itemShapes fs ++ [("value", arr [])]) =
      shapesOf (firstOf keys (fs ++ [("value", arr [])])) := by
  have same : itemShapes fs ++ [("value", arr [])] =
      (fs ++ [("value", arr [])]).map fun f => (f.1, shapesOf f.2) := by
    rw [List.map_append, itemShapes_eq]
    rfl
  rw [same]
  exact @firstOf_map shapesOf rfl keys _

/-- What a guard written with `op` becomes: the guard of its one operator, and without an operand it
is left as it is or read in the plain operators. -/
theorem normalizeOp?_eq : normalizeOp? op fs (wholeShapes fs) (itemShapes fs) =
    match opOperand? op fs with
    | some entry => some (obj (normalizeOperands [entry]))
    | none => if op ∈ ["phase_is", "field_exists", "and", "all", "or", "any"] then some (obj fs)
        else none := by
  have group : ∀ key, key = "all" ∨ key = "any" →
      (match firstOf ["conditions", "items", "value"] (itemShapes fs ++ [("value", arr [])]) with
        | arr guards => some (obj [(key, arr guards)])
        | _ => some (obj fs)) =
      match (match firstOf ["conditions", "items", "value"] (fs ++ [("value", arr [])]) with
        | arr guards => some (key, arr guards)
        | _ => none : Option (String × Json)) with
      | some entry => some (obj (normalizeOperands [entry]))
      | none => some (obj fs) := by
    intro key isGroup
    rw [firstOf_itemShapes]
    cases firstOf ["conditions", "items", "value"] (fs ++ [("value", arr [])]) with
    | arr guards => rcases isGroup with rfl | rfl <;> rfl
    | null | bool | num | str | obj => rfl
  unfold opOperand? normalizeOp?
  dsimp only
  by_cases h1 : op ∈ ["always", "true"]
  · simp only [if_pos h1]
    rfl
  by_cases h2 : op = "phase_is"
  · subst h2
    cases firstOf ["value", "phase"] fs <;> rfl
  by_cases h3 : op = "field_exists"
  · subst h3
    cases firstOf ["path", "value"] fs <;> rfl
  by_cases h4 : op ∈ ["field_equals", "equals", "eq"]
  · simp only [if_neg h1, if_neg h2, if_neg h3, if_pos h4]
    have other : op ∉ ["phase_is", "field_exists", "and", "all", "or", "any"] := by
      simp only [List.mem_cons, List.not_mem_nil, or_false] at h4
      rcases h4 with rfl | rfl | rfl <;> decide
    cases firstOf ["path", "field"] fs with
    | null => exact (if_neg other).symm
    | bool | num | str | arr | obj => rfl
  by_cases h5 : op ∈ ["and", "all"]
  · simp only [if_neg h1, if_neg h2, if_neg h3, if_neg h4, if_pos h5]
    have isGroup : op ∈ ["phase_is", "field_exists", "and", "all", "or", "any"] := by
      simp only [List.mem_cons, List.not_mem_nil, or_false] at h5
      rcases h5 with rfl | rfl <;> decide
    rw [if_pos isGroup]
    exact group "all" (.inl rfl)
  by_cases h6 : op ∈ ["or", "any"]
  · simp only [if_neg h1, if_neg h2, if_neg h3, if_neg h4, if_neg h5, if_pos h6]
    have isGroup : op ∈ ["phase_is", "field_exists", "and", "all", "or", "any"] := by
      simp only [List.mem_cons, List.not_mem_nil, or_false] at h6
      rcases h6 with rfl | rfl <;> decide
    rw [if_pos isGroup]
    exact group "any" (.inr rfl)
  have other : op ∉ ["phase_is", "field_exists", "and", "all", "or", "any"] := by
    simp only [List.mem_cons, List.not_mem_nil, or_false] at h5 h6 ⊢
    tauto
  by_cases h7 : op = "not"
  · subst h7
    simp only [firstOf_wholeShapes]
    rfl
  · simp only [if_neg h1, if_neg h2, if_neg h3, if_neg h4, if_neg h5, if_neg h6, if_neg h7, if_neg other]

/-- What the normaliser makes of any object. -/
theorem normalizeGuardShape_obj {fs : Fields} (distinct : (fs.map Prod.fst).Nodup) :
    normalizeGuardShape (obj fs) =
      if keepsOp fs then obj fs else obj (normalizeOperands (kept fs)) := by
  simp only [normalizeGuardShape]
  unfold kept keepsOp
  cases hasOp : lookup "op" fs with
  | none => exact normalizeOperators_eq distinct
  | some op =>
    simp only [Option.bind_some, normalizeOp?_eq]
    cases isEntry : opOperand? (Text.lower op.strOr) fs with
    | some entry => simp
    | none =>
      by_cases alone : Text.lower op.strOr ∈ ["phase_is", "field_exists", "and", "all", "or", "any"]
      · simp only [if_pos alone, decide_eq_true alone]
        rfl
      · simp only [if_neg alone, decide_eq_false alone]
        exact normalizeOperators_eq distinct

end Op

/-! ### Accepted guards -/

/-- The validator objects to nothing in the guard as the normaliser leaves it. -/
def Accepted (fields : List String) (guard : Json) : Prop :=
  ∃ path, validateGuard fields path (normalizeGuardShape guard) = []

theorem unknownOperators_nil {path : String} {fs : Fields} :
    unknownOperators path fs = [] ↔ ∀ f ∈ fs, f.1 ∈ guardOperators := by
  rw [unknownOperators, List.map_eq_nil_iff, List.eq_nil_iff_forall_not_mem]
  constructor
  · intro known f isEntry
    by_contra unknown
    refine known f.1 (Text.mem_sortedSet.mpr (List.mem_filter.mpr ⟨List.mem_map_of_mem isEntry, ?_⟩))
    simpa using unknown
  · intro known key listed
    obtain ⟨isKey, unknown⟩ := List.mem_filter.mp (Text.mem_sortedSet.mp listed)
    obtain ⟨f, isEntry, rfl⟩ := List.mem_map.mp isKey
    simp [known f isEntry] at unknown

theorem guardEntryDiagnostics_lookup {fields : List String} {path : String} {fs : Fields}
    (key : String) : ((guardEntryDiagnostics fields path fs).lookup key) =
      (lookup key fs).map fun value => (validateEntry fields path (key, value)).2 := by
  induction fs with
  | nil => rfl
  | cons f rest ih =>
    obtain ⟨k, value⟩ := f
    rw [guardEntryDiagnostics, lookup_cons]
    by_cases same : k = key
    · subst same
      simp [validateEntry]
    · have differ : (key == k) = false := by simpa using Ne.symm same
      rw [if_neg same, ← ih]
      simp [validateEntry, List.lookup_cons, differ]

/-- A guard passes exactly when each key is an operator and each operand passes. -/
theorem validateGuard_obj {fields : List String} {path : String} {fs : Fields}
    (distinct : (fs.map Prod.fst).Nodup) : validateGuard fields path (obj fs) = [] ↔
      ∀ f ∈ fs, f.1 ∈ guardOperators ∧ (validateEntry fields path f).2 = [] := by
  rw [validateGuard, List.append_eq_nil_iff, unknownOperators_nil, List.flatMap_eq_nil_iff]
  constructor
  · rintro ⟨known, pass⟩ f isEntry
    have found := pass f.1 (known f isEntry)
    rw [guardEntryDiagnostics_lookup, lookup_of_mem distinct isEntry] at found
    exact ⟨known f isEntry, found⟩
  · intro pass
    refine ⟨fun f isEntry => (pass f isEntry).1, fun key _ => ?_⟩
    rw [guardEntryDiagnostics_lookup]
    cases found : lookup key fs with
    | none => rfl
    | some value => exact (pass _ (lookup_mem found)).2

theorem not_accepted_of_op {fields : List String} {path : String} {fs : Fields}
    (distinct : (fs.map Prod.fst).Nodup) (hasOp : "op" ∈ fs.map Prod.fst) :
    validateGuard fields path (obj fs) ≠ [] := by
  intro accepted
  obtain ⟨f, isEntry, isOp⟩ := List.mem_map.mp hasOp
  have known := ((validateGuard_obj distinct).mp accepted f isEntry).1
  rw [isOp] at known
  exact absurd known (by decide)

theorem kept_distinct {fs : Fields} (distinct : (fs.map Prod.fst).Nodup) :
    ((kept fs).map Prod.fst).Nodup := by
  unfold kept
  split
  · split
    · exact List.pairwise_singleton _ _
    · exact distinct
  · exact distinct

theorem not_keepsOp {fields : List String} {fs : Fields} (distinct : (fs.map Prod.fst).Nodup)
    (accepted : Accepted fields (obj fs)) : keepsOp fs = false := by
  obtain ⟨path, accepted⟩ := accepted
  rw [normalizeGuardShape_obj distinct] at accepted
  cases keeps : keepsOp fs with
  | false => rfl
  | true =>
    rw [keeps, if_pos rfl] at accepted
    unfold keepsOp at keeps
    split at keeps
    · rename_i op hasOp
      exact absurd accepted
        (not_accepted_of_op distinct (List.mem_map_of_mem (lookup_mem hasOp)))
    · cases keeps

/-- An accepted guard is the guard of the operators that are kept, their operands normalised. -/
theorem normalizeGuardShape_kept {fields : List String} {fs : Fields}
    (distinct : (fs.map Prod.fst).Nodup) (accepted : Accepted fields (obj fs)) :
    normalizeGuardShape (obj fs) = obj (normalizeOperands (kept fs)) := by
  rw [normalizeGuardShape_obj distinct, not_keepsOp distinct accepted, if_neg Bool.false_ne_true]

/-- Each operator that is kept is one of the plain ones, and its operand passes. -/
theorem Accepted.entry {fields : List String} {fs : Fields} (distinct : (fs.map Prod.fst).Nodup)
    (accepted : Accepted fields (obj fs)) {f : String × Json} (isKept : f ∈ kept fs) :
    f.1 ∈ guardOperators ∧
      ∃ path, (validateEntry fields path (f.1, normalizeOperand f.1 f.2)).2 = [] := by
  have shape := normalizeGuardShape_kept distinct accepted
  obtain ⟨path, accepted⟩ := accepted
  rw [shape] at accepted
  have keys : ((normalizeOperands (kept fs)).map Prod.fst).Nodup :=
    (normalizeOperands_keys _).symm ▸ kept_distinct distinct
  obtain ⟨known, pass⟩ := (validateGuard_obj keys).mp accepted _ (List.mem_map_of_mem isKept)
  exact ⟨known, path, pass⟩

/-- The `op` of an accepted guard stands for an operator. -/
theorem Accepted.op {fields : List String} {fs : Fields} {op : Json}
    (distinct : (fs.map Prod.fst).Nodup) (accepted : Accepted fields (obj fs))
    (hasOp : lookup "op" fs = some op) :
    ∃ entry, opOperand? (Text.lower op.strOr) fs = some entry ∧ kept fs = [entry] := by
  cases isEntry : opOperand? (Text.lower op.strOr) fs with
  | some entry => exact ⟨entry, rfl, by simp only [kept, hasOp, isEntry]⟩
  | none =>
    have all : kept fs = fs := by simp only [kept, hasOp, isEntry]
    have known : "op" ∈ guardOperators :=
      (accepted.entry distinct (all.symm ▸ lookup_mem hasOp)).1
    exact absurd known (by decide)

theorem opEntry_known {op : String} {fs : Fields} {entry : String × Json}
    (isEntry : opOperand? op fs = some entry) : entry.1 ∈ guardOperators := by
  unfold opOperand? at isEntry
  dsimp only at isEntry
  split_ifs at isEntry
  all_goals try split at isEntry
  all_goals first
    | obtain rfl := Option.some.inj isEntry
      simp [guardOperators]
    | cases isEntry

/-- Behind an `op`, `always` is true. -/
theorem opEntry_always {op : String} {fs : Fields} {operand : Json}
    (isEntry : opOperand? op fs = some ("always", operand)) : operand = .bool true := by
  unfold opOperand? at isEntry
  dsimp only at isEntry
  split_ifs at isEntry
  · cases isEntry
    rfl
  all_goals
    try split at isEntry
    all_goals simp at isEntry

/-- The guards directly inside an operator. -/
def partsOf (entry : String × Json) : List Json :=
  if entry.1 = "all" ∨ entry.1 = "any" then entry.2.items
  else if entry.1 = "not" then [entry.2]
  else []

/-- The guards directly inside a guard, as far as the normaliser rewrites them. -/
def parts : Json → List Json
  | obj fs => if keepsOp fs then [] else (kept fs).flatMap partsOf
  | _ => []

theorem validateItems_nil {fields : List String} {path : String} {index : Nat} {guards : List Json}
    (pass : validateItems fields path index guards = []) :
    ∀ guard ∈ guards, ∃ path, validateGuard fields path guard = [] := by
  induction guards generalizing index with
  | nil => exact fun _ none => absurd none List.not_mem_nil
  | cons guard rest ih =>
    rw [validateItems, List.append_eq_nil_iff] at pass
    exact List.forall_mem_cons.mpr ⟨⟨_, pass.1⟩, ih pass.2⟩

/-- The operand of a group is a list, and each of its guards is accepted. -/
theorem accepted_group {fields : List String} {key path : String} {value : Json}
    (pass : validateGuards fields key path (shapesOf value) = []) :
    ∃ guards, value = arr guards ∧ ∀ guard ∈ guards, Accepted fields guard := by
  cases value with
  | arr guards =>
    rw [shapesOf_arr, validateGuards] at pass
    refine ⟨guards, rfl, fun guard inside => ?_⟩
    exact validateItems_nil pass _ (List.mem_map_of_mem inside)
  | null | bool | num | str | obj => simp [shapesOf, validateGuards] at pass

theorem Accepted.part_obj {fields : List String} {fs : Fields} (distinct : (fs.map Prod.fst).Nodup)
    (accepted : Accepted fields (obj fs)) {part : Json} (inside : part ∈ parts (obj fs)) :
    Accepted fields part := by
  rw [parts, not_keepsOp distinct accepted, if_neg Bool.false_ne_true] at inside
  obtain ⟨⟨key, value⟩, isKept, inside⟩ := List.mem_flatMap.mp inside
  obtain ⟨-, path, pass⟩ := accepted.entry distinct isKept
  simp only [partsOf] at inside
  split_ifs at inside with isGroup isNot
  · have pass : validateGuards fields key path (shapesOf value) = [] := by
      rcases isGroup with rfl | rfl <;> exact pass
    obtain ⟨guards, rfl, each⟩ := accepted_group pass
    exact each part inside
  · obtain rfl := List.mem_singleton.mp inside
    subst isNot
    exact ⟨_, pass⟩
  · cases inside

theorem firstOf_from (keys : List String) (fs : Fields) :
    firstOf keys fs = null ∨ ∃ f ∈ fs, firstOf keys fs = f.2 := by
  induction keys with
  | nil => exact .inl rfl
  | cons key keys ih =>
    rw [firstOf]
    cases found : lookup key fs with
    | none => exact ih
    | some value => exact .inr ⟨_, lookup_mem found, rfl⟩

/-- Where a guard inside a guard stands: it is the value of an entry or in the list of one. -/
def StandsIn (fs : Fields) (part : Json) : Prop := ∃ f ∈ fs, part = f.2 ∨ part ∈ f.2.items

theorem partsOf_standsIn {fs : Fields} {f : String × Json} {part : Json} (isEntry : f ∈ fs)
    (inside : part ∈ partsOf f) : StandsIn fs part := by
  unfold partsOf at inside
  split_ifs at inside
  · exact ⟨f, isEntry, .inr inside⟩
  · exact ⟨f, isEntry, .inl (List.mem_singleton.mp inside)⟩
  · cases inside

theorem opEntry_standsIn {op : String} {fs : Fields} {entry : String × Json} {part : Json}
    (isEntry : opOperand? op fs = some entry) (inside : part ∈ partsOf entry) :
    part = null ∨ StandsIn fs part := by
  have group : ∀ guards, firstOf ["conditions", "items", "value"] (fs ++ [("value", arr [])]) =
      arr guards → part ∈ guards → part = null ∨ StandsIn fs part := by
    intro guards isGroup isIn
    rcases firstOf_from ["conditions", "items", "value"] (fs ++ [("value", arr [])]) with
      none | ⟨f, isField, same⟩
    · rw [isGroup] at none
      cases none
    · rw [isGroup] at same
      rcases List.mem_append.mp isField with isField | last
      · exact .inr ⟨f, isField, .inr (same ▸ isIn)⟩
      · obtain rfl := List.mem_singleton.mp last
        cases same
        cases isIn
  unfold opOperand? at isEntry
  dsimp only at isEntry
  split_ifs at isEntry
  · cases isEntry
    cases inside
  · split at isEntry
    · cases isEntry
    · cases isEntry
      cases inside
  · split at isEntry
    · cases isEntry
    · cases isEntry
      cases inside
  · split at isEntry
    · cases isEntry
    · cases isEntry
      cases inside
  · split at isEntry
    · cases isEntry
      exact group _ ‹_› inside
    · cases isEntry
  · split at isEntry
    · cases isEntry
      exact group _ ‹_› inside
    · cases isEntry
  · cases isEntry
    obtain rfl := List.mem_singleton.mp inside
    rcases firstOf_from ["condition", "value"] fs with none | ⟨f, isField, same⟩
    · exact .inl none
    · exact .inr ⟨f, isField, .inl same⟩

theorem parts_standIn {fs : Fields} {part : Json} (inside : part ∈ parts (obj fs)) :
    part = null ∨ StandsIn fs part := by
  rw [parts] at inside
  split at inside
  · cases inside
  obtain ⟨entry, isKept, inside⟩ := List.mem_flatMap.mp inside
  unfold kept at isKept
  split at isKept
  · split at isKept
    · rename_i isEntry
      obtain rfl := List.mem_singleton.mp isKept
      exact opEntry_standsIn isEntry inside
    · exact .inr (partsOf_standsIn isKept inside)
  · exact .inr (partsOf_standsIn isKept inside)

theorem part_keyed {guard part : Json} (isKeyed : guard.keyed = true) (inside : part ∈ parts guard) :
    part.keyed = true := by
  cases guard with
  | obj fs =>
    have values := (keyed_obj.mp isKeyed).2
    rcases parts_standIn inside with rfl | ⟨f, isField, rfl | isItem⟩
    · rfl
    · exact values f isField
    · exact keyed_items (values f isField) part isItem
  | null | bool | num | str | arr => cases inside

/-- An accepted guard is a truth value or an object. -/
theorem Accepted.shape {fields : List String} {guard : Json} (accepted : Accepted fields guard) :
    (∃ b, guard = .bool b) ∨ ∃ fs, guard = obj fs := by
  obtain ⟨path, accepted⟩ := accepted
  cases guard with
  | bool b => exact .inl ⟨b, rfl⟩
  | obj fs => exact .inr ⟨fs, rfl⟩
  | null | num | str | arr => cases accepted

/-- Every guard inside an accepted guard is accepted. -/
theorem Accepted.part {fields : List String} {guard part : Json} (accepted : Accepted fields guard)
    (isKeyed : guard.keyed = true) (inside : part ∈ parts guard) : Accepted fields part := by
  rcases accepted.shape with ⟨b, rfl⟩ | ⟨fs, rfl⟩
  · cases inside
  · exact accepted.part_obj (keyed_obj.mp isKeyed).1 inside

/-- `h` is `g` or a guard somewhere inside it. -/
def Inside (g h : Json) : Prop := Relation.ReflTransGen (fun outer inner => inner ∈ parts outer) g h

/-- Every guard inside a guard keeps keys distinct as the whole does. -/
theorem Inside.keyed {guard inner : Json} (inside : Inside guard inner)
    (isKeyed : guard.keyed = true) : inner.keyed = true := by
  induction inside with
  | refl => exact isKeyed
  | tail _ isPart ih => exact part_keyed ih isPart

theorem Inside.accepted {fields : List String} {guard inner : Json} (inside : Inside guard inner)
    (isKeyed : guard.keyed = true) (accepted : Accepted fields guard) : Accepted fields inner := by
  induction inside with
  | refl => exact accepted
  | tail before isPart ih => exact ih.part (Inside.keyed before isKeyed) isPart

/-- Induction over the guards inside a guard: what holds of a guard if it holds of its parts holds of
every one. The parts stand in the values of the entries and in their lists, so the induction over the
value carries the items of a list along. -/
theorem parts_induct {motive : Json → Prop}
    (step : ∀ guard, (∀ part ∈ parts guard, motive part) → motive guard) (guard : Json) :
    motive guard := by
  suffices both : motive guard ∧ ∀ item ∈ guard.items, motive item from both.1
  induction guard using Json.induct with
  | arr guards ih =>
    exact ⟨step _ fun _ none => (nomatch none), fun item isIn => (ih item isIn).1⟩
  | obj fs ih =>
    refine ⟨step _ fun part isPart => ?_, fun _ none => nomatch none⟩
    rcases parts_standIn isPart with rfl | ⟨f, isField, rfl | isItem⟩
    · exact step _ fun _ none => nomatch none
    · exact (ih f isField).1
    · exact (ih f isField).2 part isItem
  | null | bool _ | num _ | str _ =>
    exact ⟨step _ fun _ none => (nomatch none), fun _ none => nomatch none⟩

end Psop.Compiler
