import Psop.Compiler.Guards
import Psop.Compiler.Scaffold
import Psop.Runs

/-!
Validating an artifact a second time.

Every rewriting of the normaliser is settled after one pass, but for one: `token.` is dropped from the
front of a path once, so a path that starts with `token.token.` is rewritten again. `guard_stable_iff`
says so for guards, by induction over the guards inside one, `merge_stable_iff` for merges, and
`validation_idempotent` puts a whole artifact together: its stored form passes the validator unchanged
exactly if no path the normaliser looked at starts with `token.token.`.
-/
namespace Psop.Compiler

open Json

/-! ### Paths -/

/-- The path still starts with `token.` after one pass. -/
def doubled (path : String) : Bool := Text.startsWith "token.token." path

theorem doubled_iff {path : String} :
    doubled path = true ↔ Text.startsWith "token." (Text.dropLead "token." path) = true := by
  have twice : "token.token." = "token." ++ "token." := by decide
  constructor
  · intro isDoubled
    obtain ⟨rest, rfl⟩ := Text.startsWith_iff.mp isDoubled
    rw [twice, String.append_assoc, Text.dropLead_append]
    exact Text.startsWith_iff.mpr ⟨rest, rfl⟩
  · intro again
    obtain ⟨rest, isRest⟩ := Text.startsWith_iff.mp again
    cases starts : Text.startsWith "token." path with
    | true =>
      obtain ⟨middle, rfl⟩ := Text.startsWith_iff.mp starts
      rw [Text.dropLead_append] at isRest
      exact Text.startsWith_iff.mpr ⟨rest, by rw [isRest, twice, String.append_assoc]⟩
    | false =>
      rw [Text.dropLead_of_not starts] at again
      rw [starts] at again
      cases again

/-- The paths that shorthands stand for. -/
def shorthandPaths : List String :=
  ["observations.input.user_input", "input_envelope.user_input", "observations.llm.content",
    "outputs.final_response", "observations.tool"]

theorem shorthandPaths_fixed : ∀ path ∈ shorthandPaths, ∀ target,
    normalizeTokenPath path target = path ∧ Text.startsWith "token." path = false := by
  decide

/-- A path without its lead stays, or is a shorthand. -/
theorem normalizeTokenPath_cases (path : String) (target : Bool) :
    normalizeTokenPath path target = Text.dropLead "token." path ∨
      normalizeTokenPath path target ∈ shorthandPaths ∧
        Text.startsWith "token." (Text.dropLead "token." path) = false := by
  unfold normalizeTokenPath
  generalize Text.dropLead "token." path = stripped
  have shorthand : ∀ names : List String, stripped ∈ names →
      (∀ name ∈ names, Text.startsWith "token." name = false) →
      Text.startsWith "token." stripped = false := fun names isName none => none stripped isName
  dsimp only
  split_ifs with h1 h2 h3 h4 h5 h6 h7 h8 h9
  · exact .inl rfl
  all_goals first
    | exact .inl rfl
    | exact .inr ⟨by decide, shorthand _ ‹_› (by decide)⟩

theorem normalizeTokenPath_congr {path other : String}
    (same : Text.dropLead "token." path = Text.dropLead "token." other) (target : Bool) :
    normalizeTokenPath path target = normalizeTokenPath other target := by
  unfold normalizeTokenPath
  rw [same]

/-- A second pass changes nothing exactly if the path was not doubled. -/
theorem path_stable_iff (path : String) (target : Bool) :
    normalizeTokenPath (normalizeTokenPath path target) target = normalizeTokenPath path target ↔
      doubled path = false := by
  rw [← Bool.not_eq_true, doubled_iff, Bool.not_eq_true]
  rcases normalizeTokenPath_cases path target with same | ⟨isShorthand, single⟩
  · constructor
    · intro fixed
      rw [same] at fixed
      rcases normalizeTokenPath_cases (Text.dropLead "token." path) target with
        dropped | ⟨isShorthand, -⟩
      · exact Text.not_startsWith_of_dropLead (by decide) (dropped.symm.trans fixed)
      · rw [fixed] at isShorthand
        exact (shorthandPaths_fixed _ isShorthand target).2
    · intro single
      refine normalizeTokenPath_congr ?_ target
      rw [same, Text.dropLead_of_not single]
  · exact iff_of_true (shorthandPaths_fixed _ isShorthand target).1 single

theorem source_cases (path : String) : normalizeMergeSourcePath path = path ∨
    normalizeMergeSourcePath path ∈
      ["input.user_input", "observation.content", "observation.final_response"] := by
  unfold normalizeMergeSourcePath
  dsimp only
  split_ifs
  · exact .inr (by decide)
  · exact .inr (by decide)
  · exact .inr (by decide)
  · exact .inl rfl

theorem source_stable (path : String) :
    normalizeMergeSourcePath (normalizeMergeSourcePath path) = normalizeMergeSourcePath path := by
  have named : ∀ source ∈ ["input.user_input", "observation.content", "observation.final_response"],
      normalizeMergeSourcePath source = source := by decide
  rcases source_cases path with same | isNamed
  · rw [same, same]
  · exact named _ isNamed

/-! ### Guards -/

/-- A second pass over the guard changes nothing. -/
def Stable (guard : Json) : Prop :=
  normalizeGuardShape (normalizeGuardShape guard) = normalizeGuardShape guard

/-- The path an operator of a guard names. -/
def operandPath (entry : String × Json) : Option String :=
  if entry.1 = "field_exists" then entry.2.str?
  else if entry.1 = "field_equals" then (entry.2.field "path").str?
  else none

/-- The paths the operators of a guard name, as far as the normaliser rewrites them. -/
def ownPaths : Json → List String
  | obj fs => if keepsOp fs then [] else (kept fs).filterMap operandPath
  | _ => []

/-- No path in the guard, or in a guard inside it, starts with `token.token.`. -/
def Single (guard : Json) : Prop :=
  ∀ inner, Inside guard inner → ∀ path ∈ ownPaths inner, doubled path = false

theorem condition_stable_iff (condition : Fields) :
    normalizeCondition (normalizeCondition (obj condition)) = normalizeCondition (obj condition) ↔
      ∀ path ∈ ((obj condition).field "path").str?, doubled path = false := by
  cases found : lookup "path" condition with
  | none => simp [normalizeCondition, found, str?]
  | some value =>
    cases value with
    | str path =>
      simp only [normalizeCondition, found, lookup_setKey_same, field_obj, Option.getD_some, str?,
        Option.mem_some_iff, forall_eq']
      rw [← path_stable_iff path false, setKey_setKey]
      constructor
      · intro same
        have values := congrArg (lookup "path") (obj.inj same)
        simpa using values
      · intro same
        rw [same]
    | null | bool | num | arr | obj => simp [normalizeCondition, found, str?]

theorem normalizeOperand_other {key : String} (other : key ∉ guardOperators) (value : Json) :
    normalizeOperand key value = value := by
  simp only [guardOperators, List.mem_cons, List.not_mem_nil, or_false, not_or] at other
  simp [normalizeOperand, other]

theorem group_stable_iff (value : Json) :
    shapesOf (shapesOf value) = shapesOf value ↔ ∀ part ∈ value.items, Stable part := by
  cases value with
  | arr guards =>
    rw [shapesOf_arr, shapesOf_arr, arr.injEq, List.map_map, List.map_inj_left]
    rfl
  | null | bool | num | str | obj => exact iff_of_true rfl fun _ isPart => nomatch isPart

/-- A second pass over one operand. -/
theorem operand_stable_iff (entry : String × Json) :
    normalizeOperand entry.1 (normalizeOperand entry.1 entry.2) = normalizeOperand entry.1 entry.2 ↔
      (∀ path ∈ operandPath entry, doubled path = false) ∧ ∀ part ∈ partsOf entry, Stable part := by
  obtain ⟨key, value⟩ := entry
  have none_path : ∀ path ∈ (none : Option String), doubled path = false := fun _ isPath => nomatch isPath
  have none_part : ∀ part ∈ ([] : List Json), Stable part := fun _ isPart => nomatch isPart
  by_cases known : key ∈ guardOperators
  · simp only [guardOperators, List.mem_cons, List.not_mem_nil, or_false] at known
    rcases known with rfl | rfl | rfl | rfl | rfl | rfl | rfl
    · exact iff_of_true rfl ⟨none_path, none_part⟩
    · exact iff_of_true rfl ⟨none_path, none_part⟩
    · show normalizePathValue (normalizePathValue value) = normalizePathValue value ↔
        (∀ path ∈ value.str?, doubled path = false) ∧ ∀ part ∈ ([] : List Json), Stable part
      cases value with
      | str path => simp [normalizePathValue, str?, path_stable_iff]
      | null | bool | num | arr | obj => exact iff_of_true rfl ⟨none_path, none_part⟩
    · show normalizeCondition (normalizeCondition value) = normalizeCondition value ↔
        (∀ path ∈ (value.field "path").str?, doubled path = false) ∧
          ∀ part ∈ ([] : List Json), Stable part
      cases value with
      | obj condition => exact (condition_stable_iff condition).trans (and_iff_left none_part).symm
      | null | bool | num | str | arr => exact iff_of_true rfl ⟨none_path, none_part⟩
    · exact (group_stable_iff value).trans (and_iff_right none_path).symm
    · exact (group_stable_iff value).trans (and_iff_right none_path).symm
    · show Stable value ↔ _ ∧ ∀ part ∈ [value], Stable part
      rw [List.forall_mem_singleton]
      exact (and_iff_right none_path).symm
  · have paths : operandPath (key, value) = none := by
      simp only [guardOperators, List.mem_cons, List.not_mem_nil, or_false, not_or] at known
      simp [operandPath, known]
    have parts : partsOf (key, value) = [] := by
      simp only [guardOperators, List.mem_cons, List.not_mem_nil, or_false, not_or] at known
      simp [partsOf, known]
    rw [paths, parts]
    refine iff_of_true ?_ ⟨none_path, none_part⟩
    simp only [normalizeOperand_other known]

/-- A guard whose `op` stands for no operator is read in the plain ones again. -/
theorem opEntry_again {op : String} {fs : Fields} (none : opOperand? op fs = none)
    (alone : op ∉ ["phase_is", "field_exists", "and", "all", "or", "any"]) :
    opOperand? op (normalizeOperands fs) = .none := by
  have same : firstOf ["path", "field"] (normalizeOperands fs) = firstOf ["path", "field"] fs := by
    simp only [firstOf, normalizeOperands, lookup_map]
    cases lookup "path" fs <;> cases lookup "field" fs <;> rfl
  simp only [List.mem_cons, List.not_mem_nil, or_false, not_or] at alone
  obtain ⟨h1, h2, h3, h4, h5, h6⟩ := alone
  unfold opOperand? at none ⊢
  simp only [List.mem_cons, List.not_mem_nil, or_false, h1, h2, h3, h4, h5, h6, if_false,
    same] at none ⊢
  split_ifs at none ⊢
  · generalize firstOf ["path", "field"] fs = path at none ⊢
    cases path with
    | null => rfl
    | bool | num | str | arr | obj => cases none
  · rfl

/-- An `op` that does not stand for an operator stays without meaning in the next pass. -/
theorem kept_again {fs : Fields} (notKept : keepsOp fs = false) :
    keepsOp (normalizeOperands (kept fs)) = false ∧
      kept (normalizeOperands (kept fs)) = normalizeOperands (kept fs) := by
  cases hasOp : lookup "op" fs with
  | none =>
    have all : kept fs = fs := by simp only [kept, hasOp]
    have none : lookup "op" (normalizeOperands fs) = none := by
      rw [normalizeOperands, lookup_map, hasOp]
      rfl
    rw [all]
    simp only [keepsOp, kept, none, and_self]
  | some op =>
    cases isEntry : opOperand? (Text.lower op.strOr) fs with
    | some entry =>
      have all : kept fs = [entry] := by simp only [kept, hasOp, isEntry]
      have other : entry.1 ≠ "op" := fun isOp =>
        absurd (isOp ▸ opEntry_known isEntry : "op" ∈ guardOperators) (by decide)
      have none : lookup "op" (normalizeOperands [entry]) = none := if_neg other
      rw [all]
      simp only [keepsOp, kept, none, and_self]
    | none =>
      have all : kept fs = fs := by simp only [kept, hasOp, isEntry]
      have same : lookup "op" (normalizeOperands fs) = some op := by
        rw [normalizeOperands, lookup_map, hasOp]
        rfl
      have alone : Text.lower op.strOr ∉ ["phase_is", "field_exists", "and", "all", "or", "any"] := by
        simpa [keepsOp, hasOp, isEntry] using notKept
      rw [all]
      simp only [keepsOp, kept, same, opEntry_again isEntry alone, decide_eq_false alone,
        Bool.false_and, and_self]

/-- A second pass over a guard, in its own paths and in the guards directly inside it. -/
theorem guard_stable_step {guard : Json} (isKeyed : guard.keyed = true) :
    Stable guard ↔
      (∀ path ∈ ownPaths guard, doubled path = false) ∧ ∀ part ∈ parts guard, Stable part := by
  cases guard with
  | obj fs =>
    have distinct := (keyed_obj.mp isKeyed).1
    have keys : ((normalizeOperands (kept fs)).map Prod.fst).Nodup :=
      (normalizeOperands_keys _).symm ▸ kept_distinct distinct
    rw [Stable, normalizeGuardShape_obj distinct, ownPaths, parts]
    cases keeps : keepsOp fs with
    | true =>
      simp only [if_true]
      refine iff_of_true ?_ ⟨fun _ none => absurd none List.not_mem_nil,
        fun _ none => absurd none List.not_mem_nil⟩
      rw [normalizeGuardShape_obj distinct, keeps, if_pos rfl]
    | false =>
      obtain ⟨notKept, again⟩ := kept_again keeps
      simp only [Bool.false_eq_true, if_false]
      rw [normalizeGuardShape_obj keys, notKept, if_neg Bool.false_ne_true, again, obj.injEq]
      have entries : normalizeOperands (normalizeOperands (kept fs)) = normalizeOperands (kept fs) ↔
          ∀ f ∈ kept fs, normalizeOperand f.1 (normalizeOperand f.1 f.2) = normalizeOperand f.1 f.2 := by
        rw [normalizeOperands, normalizeOperands, List.map_map, List.map_inj_left]
        simp
      rw [entries]
      simp only [operand_stable_iff, List.mem_filterMap, List.mem_flatMap]
      constructor
      · intro each
        constructor
        · rintro path ⟨f, isKept, isPath⟩
          exact (each f isKept).1 path isPath
        · rintro part ⟨f, isKept, isPart⟩
          exact (each f isKept).2 part isPart
      · rintro ⟨paths, inner⟩ f isKept
        exact ⟨fun path isPath => paths path ⟨f, isKept, isPath⟩,
          fun part isPart => inner part ⟨f, isKept, isPart⟩⟩
  | null | bool | num | str | arr =>
    exact iff_of_true rfl ⟨fun _ none => absurd none List.not_mem_nil,
        fun _ none => absurd none List.not_mem_nil⟩

/-- A second pass over a guard changes nothing exactly if none of its paths was doubled. -/
theorem guard_stable_iff {guard : Json} (isKeyed : guard.keyed = true) : Stable guard ↔ Single guard := by
  constructor
  · intro stable inner inside
    have innerStable : Stable inner := by
      induction inside with
      | refl => exact stable
      | tail before isPart ih =>
        exact ((guard_stable_step (Inside.keyed before isKeyed)).mp ih).2 _ isPart
    exact ((guard_stable_step (inside.keyed isKeyed)).mp innerStable).1
  · induction guard using parts_induct with
    | step guard ih =>
      intro single
      refine (guard_stable_step isKeyed).mpr ⟨single guard .refl, fun part isPart => ?_⟩
      exact ih part isPart (part_keyed isKeyed isPart)
        fun inner inside => single inner (.head isPart inside)

/-! ### Merges -/

/-- The rewriting of a text, of no other value. -/
def onText (change : String → String) : Json → Json
  | str text => str (change text)
  | value => value

def operationName (op : String) : String := if op = "assign" ∨ op = "write" then "set" else op

/-- The value the normaliser leaves under a key of a merge operation. -/
def mergeField (key : String) (value : Json) : Json :=
  if key = "op" then onText operationName value
  else if key = "path" then onText (normalizeTokenPath · true) value
  else if key = "from" then onText normalizeMergeSourcePath value
  else value

def mergeFields (fs : Fields) : Fields := fs.map fun f => (f.1, mergeField f.1 f.2)

theorem text_stage {fs : Fields} (distinct : (fs.map Prod.fst).Nodup) (key : String)
    (change : String → String) : (match lookup key fs with
      | some (str text) => setKey key (str (change text)) fs
      | _ => fs) = changeAt key (onText change) fs := by
  split
  · rename_i text found
    exact setKey_changeAt distinct found (onText change)
  · rename_i other
    cases found : lookup key fs with
    | none => exact changeAt_absent distinct found _
    | some value =>
      refine changeAt_fixed distinct found ?_
      cases value with
      | str text => exact absurd found (other text)
      | null | bool | num | arr | obj => rfl

theorem op_stage {fs : Fields} (distinct : (fs.map Prod.fst).Nodup) : (match lookup "op" fs with
      | some (str op) => if op = "assign" ∨ op = "write" then setKey "op" (str "set") fs else fs
      | _ => fs) = changeAt "op" (onText operationName) fs := by
  rw [← text_stage distinct "op" operationName]
  split
  · rename_i op found
    simp only [operationName]
    split_ifs
    · rfl
    · exact (setKey_self found).symm
  · rfl

theorem normalizeMergeOperation_eq {fs : Fields} (distinct : (fs.map Prod.fst).Nodup) :
    normalizeMergeOperation (obj fs) =
      if unhashable (firstOf ["op"] fs) then none else some (obj (mergeFields fs)) := by
  have keys : ∀ {key change} {gs : Fields}, (gs.map Prod.fst).Nodup →
      ((changeAt key change gs).map Prod.fst).Nodup := fun h => (changeAt_keys _ _ _).symm ▸ h
  rw [normalizeMergeOperation]
  by_cases raises : unhashable (firstOf ["op"] fs) = true
  · rw [if_pos raises, if_pos raises]
  · rw [if_neg raises, if_neg raises]
    extract_lets fs₁ fs₂ fs₃
    have h₁ : fs₁ = changeAt "op" (onText operationName) fs := op_stage distinct
    have d₁ : (fs₁.map Prod.fst).Nodup := h₁ ▸ keys distinct
    have h₂ : fs₂ = changeAt "path" (onText (normalizeTokenPath · true)) fs₁ := text_stage d₁ _ _
    have d₂ : (fs₂.map Prod.fst).Nodup := h₂ ▸ keys d₁
    have h₃ : fs₃ = changeAt "from" (onText normalizeMergeSourcePath) fs₂ := text_stage d₂ _ _
    rw [h₃, h₂, h₁]
    simp only [changeAt, mergeFields, List.map_map]
    refine congrArg (fun gs => some (obj gs)) (List.map_congr_left fun f _ => ?_)
    simp only [Function.comp_apply, mergeField, Prod.mk.injEq, true_and]
    by_cases e1 : f.1 = "op"
    · simp [e1]
    by_cases e2 : f.1 = "path"
    · simp [e2]
    by_cases e3 : f.1 = "from"
    · simp [e3]
    simp [e1, e2, e3]

/-- The path a merge operation writes. -/
def mergeTarget (operation : Json) : Option String := (operation.field "path").str?

theorem mergeField_stable_iff (key : String) (value : Json) :
    mergeField key (mergeField key value) = mergeField key value ↔
      (key = "path" → ∀ path ∈ value.str?, doubled path = false) := by
  have name : ∀ op, operationName (operationName op) = operationName op := by
    intro op
    unfold operationName
    split_ifs with h1 h2
    · rfl
    · rfl
    · rfl
  by_cases e1 : key = "op"
  · subst e1
    refine iff_of_true ?_ fun isPath => absurd isPath (by decide)
    cases value with
    | str op => exact congrArg str (name op)
    | null | bool | num | arr | obj => rfl
  by_cases e2 : key = "path"
  · subst e2
    cases value with
    | str path => simp [mergeField, onText, str?, path_stable_iff]
    | null | bool | num | arr | obj => exact iff_of_true rfl fun _ _ none => absurd none (Option.not_mem_none _)
  by_cases e3 : key = "from"
  · subst e3
    refine iff_of_true ?_ fun isPath => absurd isPath (by decide)
    cases value with
    | str path => exact congrArg str (source_stable path)
    | null | bool | num | arr | obj => rfl
  simp [mergeField, e1, e2, e3]

/-- A second pass over a merge operation changes nothing exactly if its path was not doubled. -/
theorem merge_stable_iff {operation once : Json} (isKeyed : operation.keyed = true)
    (first : normalizeMergeOperation operation = some once) :
    normalizeMergeOperation once = some once ↔
      ∀ path ∈ mergeTarget operation, doubled path = false := by
  cases operation with
  | obj fs =>
    have distinct := (keyed_obj.mp isKeyed).1
    have keys : ((mergeFields fs).map Prod.fst).Nodup := by
      rw [mergeFields, List.map_map]
      exact distinct
    rw [normalizeMergeOperation_eq distinct] at first
    split at first
    · cases first
    · rename_i hashable
      obtain rfl := Option.some.inj first
      have again : ¬unhashable (firstOf ["op"] (mergeFields fs)) = true := by
        rw [firstOf_single, mergeFields, lookup_map]
        rw [firstOf_single] at hashable
        cases found : lookup "op" fs with
        | none => exact Bool.false_ne_true
        | some op =>
          rw [found] at hashable
          cases op with
          | str op => exact Bool.false_ne_true
          | null | bool | num | arr | obj => exact hashable
      rw [normalizeMergeOperation_eq keys, if_neg again, Option.some.injEq, obj.injEq, mergeFields,
        mergeFields, List.map_map, List.map_inj_left]
      simp only [Function.comp_apply, Prod.mk.injEq, true_and, mergeField_stable_iff]
      constructor
      · intro each path isPath
        cases found : lookup "path" fs with
        | none => simp [mergeTarget, found, str?] at isPath
        | some value =>
          rw [mergeTarget, field_obj, found] at isPath
          exact each _ (lookup_mem found) rfl path isPath
      · intro single f isEntry isPath path isText
        refine single path ?_
        rw [mergeTarget, field_obj, ← isPath, lookup_of_mem distinct isEntry]
        exact isText
  | null | bool | num | str | arr =>
    obtain rfl := Option.some.inj first
    exact iff_of_true rfl fun _ none => nomatch none

/-! ### Lists under a key -/

theorem mapM_cons_some {α β : Type*} {f : α → Option β} {x : α} {xs : List α} {zs : List β}
    (mapped : (x :: xs).mapM f = some zs) :
    ∃ y ys, f x = some y ∧ xs.mapM f = some ys ∧ zs = y :: ys := by
  rw [List.mapM_cons] at mapped
  obtain ⟨y, isHead, mapped⟩ := Option.bind_eq_some_iff.mp mapped
  obtain ⟨ys, isTail, same⟩ := Option.bind_eq_some_iff.mp mapped
  exact ⟨y, ys, isHead, isTail, (Option.some.inj same).symm⟩

/-- A second pass over a list, from what it does to each element. -/
theorem mapM_stable_iff {α : Type*} {f : α → Option α} {single : α → Prop} {xs ys : List α}
    (first : xs.mapM f = some ys)
    (each : ∀ x ∈ xs, ∀ y, f x = some y → (f y = some y ↔ single x)) :
    ys.mapM f = some ys ↔ ∀ x ∈ xs, single x := by
  induction xs generalizing ys with
  | nil =>
    obtain rfl : [] = ys := by simpa using first
    exact iff_of_true rfl fun _ none => nomatch none
  | cons x xs ih =>
    obtain ⟨y, zs, isHead, isTail, rfl⟩ := mapM_cons_some first
    rw [List.forall_mem_cons, ← each x List.mem_cons_self y isHead,
      ← ih isTail fun x isIn => each x (List.mem_cons_of_mem _ isIn)]
    constructor
    · intro again
      obtain ⟨y', zs', isHead', isTail', same⟩ := mapM_cons_some again
      obtain ⟨rfl, rfl⟩ := List.cons.inj same
      exact ⟨isHead', isTail'⟩
    · rintro ⟨fixed, rest⟩
      rw [List.mapM_cons, fixed, rest]
      rfl

/-- The value under a key, where it is a list. -/
def listAt (key : String) (fs : Fields) : Option (List Json) :=
  match lookup key fs with
  | some (arr xs) => some xs
  | _ => none

theorem listAt_some {key : String} {fs : Fields} {xs : List Json} (isList : listAt key fs = some xs) :
    lookup key fs = some (arr xs) := by
  unfold listAt at isList
  split at isList
  · rename_i found
    rw [found, Option.some.inj isList]
  · cases isList

theorem listAt_congr {key : String} {fs gs : Fields} (same : lookup key fs = lookup key gs) :
    listAt key fs = listAt key gs := by
  rw [listAt, listAt, same]

theorem listAt_items (key : String) (fs : Fields) :
    ((obj fs).field key).items = (listAt key fs).getD [] := by
  rw [field_obj, listAt]
  cases lookup key fs with
  | none => rfl
  | some value => cases value <;> rfl

section Lists

variable (key : String) (change : Json → Option Json)

/-- The rewriting of the elements of the list under a key. -/
def changeList (fs : Fields) : Option Fields :=
  match listAt key fs with
  | some xs => (xs.mapM change).map fun ys => setKey key (arr ys) fs
  | none => some fs

/-- The list under the key is as a pass leaves it. -/
def ListFixed (fs : Fields) : Prop := ∀ xs, listAt key fs = some xs → xs.mapM change = some xs

variable {key : String} {change : Json → Option Json} {fs gs : Fields}

theorem changeList_other (pass : changeList key change fs = some gs) {other : String}
    (differ : key ≠ other) : lookup other gs = lookup other fs := by
  unfold changeList at pass
  split at pass
  · obtain ⟨ys, -, rfl⟩ := Option.map_eq_some_iff.mp pass
    exact lookup_setKey_other differ _ _
  · rw [Option.some.inj pass]

theorem changeList_fixed (fixed : ListFixed key change fs) : changeList key change fs = some fs := by
  unfold changeList
  cases isList : listAt key fs with
  | none => rfl
  | some xs => simp only [fixed xs isList, Option.map_some, setKey_self (listAt_some isList)]

/-- A pass that leaves the list as it was had nothing to change in it. -/
theorem listFixed_of_same (pass : changeList key change fs = some gs)
    (same : lookup key gs = lookup key fs) : ListFixed key change fs := by
  intro xs isList
  rw [changeList, isList] at pass
  obtain ⟨ys, mapped, rfl⟩ := Option.map_eq_some_iff.mp pass
  rw [lookup_setKey_same, listAt_some isList] at same
  rw [mapped, arr.inj (Option.some.inj same)]

/-- The list is settled after one pass exactly if each of its elements is. -/
theorem listFixed_iff {single : Json → Prop} (pass : changeList key change fs = some gs)
    (each : ∀ x ∈ ((obj fs).field key).items, ∀ y, change x = some y →
      (change y = some y ↔ single x)) :
    ListFixed key change gs ↔ ∀ x ∈ ((obj fs).field key).items, single x := by
  rw [listAt_items] at each ⊢
  unfold changeList at pass
  cases isList : listAt key fs with
  | none =>
    simp only [isList] at pass
    obtain rfl := Option.some.inj pass
    refine iff_of_true (fun xs found => ?_) fun _ none => nomatch none
    rw [isList] at found
    cases found
  | some xs =>
    simp only [isList] at pass each
    obtain ⟨ys, mapped, rfl⟩ := Option.map_eq_some_iff.mp pass
    have again : listAt key (setKey key (arr ys) fs) = some ys := by
      rw [listAt, lookup_setKey_same]
    rw [Option.getD_some, ← mapM_stable_iff mapped each]
    constructor
    · exact fun fixed => fixed ys again
    · intro fixed zs found
      obtain rfl := Option.some.inj (again.symm.trans found)
      exact fixed

theorem listFixed_congr (same : lookup key fs = lookup key gs) :
    ListFixed key change fs ↔ ListFixed key change gs := by
  rw [ListFixed, ListFixed, listAt_congr same]

end Lists

theorem normalizeMerge_eq (fs : Fields) :
    normalizeMerge fs = changeList "merge" normalizeMergeOperation fs := by
  unfold normalizeMerge changeList listAt
  cases lookup "merge" fs with
  | none => rfl
  | some value => cases value <;> rfl

theorem normalizeNodes_eq (fs : Fields) : normalizeNodes fs = changeList "nodes" normalizeNode fs := by
  unfold normalizeNodes changeList listAt
  cases lookup "nodes" fs with
  | none => rfl
  | some value => cases value <;> rfl

/-! ### Nodes -/

theorem lookup_addActor {key : String} (other : "actor" ≠ key) (fs : Fields) :
    lookup key (addActor fs) = lookup key fs := by
  unfold addActor
  split
  · split
    · exact lookup_setKey_other other _ _
    · rfl
  · rfl

theorem addActor_again (fs : Fields) : addActor (addActor fs) = addActor fs := by
  have present : ∀ {value : Json} {gs : Fields}, lookup "actor" gs = some value →
      addActor gs = gs := by
    intro value gs found
    simp only [addActor, found]
  cases hasActor : lookup "actor" fs with
  | some value => rw [present hasActor, present hasActor]
  | none =>
    cases hasKind : lookup "kind" fs with
    | none => simp only [addActor, hasActor, hasKind]
    | some kind =>
      cases kind with
      | str kind =>
        cases isDefault : defaultActor? kind with
        | none => simp only [addActor, hasActor, hasKind, isDefault]
        | some actor =>
          have added : addActor fs = setKey "actor" (obj [("name", str actor)]) fs := by
            simp only [addActor, hasActor, hasKind, isDefault]
          rw [added]
          exact present (lookup_setKey_same _ _ _)
      | null | bool | num | arr | obj => simp only [addActor, hasActor, hasKind]

/-- No path that a node's guard or merge names starts with `token.token.`. -/
structure SingleNode (node : Json) : Prop where
  guard : Single (node.field "guard")
  merge : ∀ operation ∈ (node.field "merge").items, ∀ path ∈ mergeTarget operation,
    doubled path = false

/-- A second pass over a node changes nothing exactly if no path in it was doubled. -/
theorem node_stable_iff {node once : Json} (isKeyed : node.keyed = true)
    (first : normalizeNode node = some once) : normalizeNode once = some once ↔ SingleNode node := by
  cases node with
  | obj fs =>
    obtain ⟨m, merged, rfl⟩ := Option.map_eq_some_iff.mp first
    replace merged : changeList "merge" normalizeMergeOperation
        (setKey "guard" (normalizeGuardShape ((obj fs).field "guard")) fs) = some m := by
      rw [← normalizeMerge_eq]
      exact merged
    have guard := guard_stable_iff (keyed_field isKeyed "guard")
    have isMerge : (obj (setKey "guard" (normalizeGuardShape ((obj fs).field "guard")) fs)).field
        "merge" = (obj fs).field "merge" := by
      rw [field_obj, lookup_setKey_other (by decide)]
      rfl
    have mergeKeyed := keyed_items (keyed_field isKeyed "merge")
    have merge : ListFixed "merge" normalizeMergeOperation m ↔ _ := listFixed_iff merged
      fun operation isIn _ isImage =>
        merge_stable_iff (mergeKeyed operation (isMerge ▸ isIn)) isImage
    rw [isMerge] at merge
    have guardOnce : lookup "guard" (addActor m) =
        some (normalizeGuardShape ((obj fs).field "guard")) := by
      rw [lookup_addActor (by decide), changeList_other merged (by decide), lookup_setKey_same]
    have mergeOnce : ListFixed "merge" normalizeMergeOperation (addActor m) ↔ _ :=
      listFixed_congr (lookup_addActor (by decide) m)
    have second : normalizeNode (obj (addActor m)) =
        (changeList "merge" normalizeMergeOperation (setKey "guard" (normalizeGuardShape
          (normalizeGuardShape ((obj fs).field "guard"))) (addActor m))).map
          fun fs => obj (addActor fs) := by
      rw [normalizeNode, firstOf_single, guardOnce, normalizeMerge_eq]
      rfl
    rw [second]
    constructor
    · intro again
      obtain ⟨m', merged', same⟩ := Option.map_eq_some_iff.mp again
      have same : addActor m' = addActor m := obj.inj same
      constructor
      · have guardTwice : lookup "guard" (addActor m') = some (normalizeGuardShape
            (normalizeGuardShape ((obj fs).field "guard"))) := by
          rw [lookup_addActor (by decide), changeList_other merged' (by decide), lookup_setKey_same]
        rw [same, guardOnce] at guardTwice
        exact guard.mp (Option.some.inj guardTwice).symm
      · refine merge.mp (mergeOnce.mp ?_)
        have left : lookup "merge" m' = lookup "merge" (addActor m) := by
          rw [← same, lookup_addActor (by decide)]
        have written := lookup_setKey_other (by decide : "guard" ≠ "merge")
          (normalizeGuardShape (normalizeGuardShape ((obj fs).field "guard"))) (addActor m)
        exact (listFixed_congr written).mp (listFixed_of_same merged' (left.trans written.symm))
    · rintro ⟨guardSingle, mergeSingle⟩
      rw [guard.mpr guardSingle, setKey_self guardOnce,
        changeList_fixed (mergeOnce.mpr (merge.mpr mergeSingle)), Option.map_some, addActor_again]
  | null | bool | num | str | arr =>
    obtain rfl := Option.some.inj first
    refine iff_of_true rfl ⟨?_, fun _ none => nomatch none⟩
    exact (guard_stable_iff rfl).mp rfl

/-! ### Halt conditions -/

def haltNames : List String := ["success", "failure", "aborted"]

/-- The whole halt stands for the condition of success. -/
def haltShort (halt : Fields) : Bool := (lookup "success" halt).isNone && (lookup "failure" halt).isNone

/-- The conditions of a halt, as the normaliser reads them. -/
def haltConditions : Json → List Json
  | obj halt => if haltShort halt then [obj halt] else haltNames.filterMap (lookup · halt)
  | _ => []

/-- The value the normaliser leaves under a key of a halt. -/
def haltField (key : String) (value : Json) : Json :=
  if key ∈ haltNames then normalizeGuardShape value else value

def haltFields (halt : Fields) : Fields := halt.map fun f => (f.1, haltField f.1 f.2)

/-- The stage of the normaliser for one condition. -/
def haltStage (fs : Fields) (key : String) : Fields :=
  match lookup key fs with
  | some condition => setKey key (normalizeGuardShape condition) fs
  | none => fs

theorem haltStage_eq {fs : Fields} (distinct : (fs.map Prod.fst).Nodup) (key : String) :
    haltStage fs key = changeAt key normalizeGuardShape fs := by
  unfold haltStage
  split
  · rename_i condition found
    exact setKey_changeAt distinct found normalizeGuardShape
  · rename_i found
    exact changeAt_absent distinct found _

theorem normalizeHalt_eq {halt : Fields} (distinct : (halt.map Prod.fst).Nodup) :
    normalizeHalt halt = if haltShort halt then obj [("success", normalizeGuardShape (obj halt))]
      else obj (haltFields halt) := by
  have keys : ∀ {key change} {gs : Fields}, (gs.map Prod.fst).Nodup →
      ((changeAt key change gs).map Prod.fst).Nodup := fun h => (changeAt_keys _ _ _).symm ▸ h
  unfold normalizeHalt haltShort
  split_ifs
  · rfl
  · show obj (haltStage (haltStage (haltStage halt "success") "failure") "aborted") = _
    rw [haltStage_eq distinct, haltStage_eq (keys distinct), haltStage_eq (keys (keys distinct))]
    simp only [changeAt, haltFields, List.map_map]
    refine congrArg obj (List.map_congr_left fun f _ => ?_)
    simp only [Function.comp_apply, haltField, haltNames, Prod.mk.injEq, true_and]
    by_cases e1 : f.1 = "success"
    · simp [e1]
    by_cases e2 : f.1 = "failure"
    · simp [e2]
    by_cases e3 : f.1 = "aborted"
    · simp [e3]
    simp [e1, e2, e3]

/-- A second pass over a halt changes nothing exactly if no path in its conditions was doubled. -/
theorem halt_stable_iff {halt once : Fields} (isKeyed : (obj halt).keyed = true)
    (first : normalizeHalt halt = obj once) :
    normalizeHalt once = obj once ↔ ∀ condition ∈ haltConditions (obj halt), Single condition := by
  have distinct := (keyed_obj.mp isKeyed).1
  rw [normalizeHalt_eq distinct] at first
  rw [haltConditions]
  split_ifs at first ⊢ with short
  · obtain rfl := obj.inj first
    rw [List.forall_mem_singleton, ← guard_stable_iff isKeyed]
    show obj [("success", normalizeGuardShape (normalizeGuardShape (obj halt)))] = _ ↔ _
    simp [Stable]
  · obtain rfl := obj.inj first
    have keys : ((haltFields halt).map Prod.fst).Nodup := by
      rw [haltFields, List.map_map]
      exact distinct
    have long : haltShort (haltFields halt) = false := by
      rw [haltShort, haltFields, lookup_map, lookup_map, Option.isNone_map, Option.isNone_map]
      exact Bool.not_eq_true _ ▸ short
    rw [normalizeHalt_eq keys, long, if_neg Bool.false_ne_true, obj.injEq, haltFields, haltFields,
      List.map_map, List.map_inj_left]
    simp only [Function.comp_apply, Prod.mk.injEq, true_and, List.mem_filterMap]
    constructor
    · rintro each condition ⟨name, isName, found⟩
      have fixed := each _ (lookup_mem found)
      simp only [haltField, if_pos isName] at fixed
      exact (guard_stable_iff ((keyed_obj.mp isKeyed).2 _ (lookup_mem found))).mp fixed
    · intro single f isEntry
      by_cases isName : f.1 ∈ haltNames
      · simp only [haltField, if_pos isName]
        have found := lookup_of_mem distinct isEntry
        exact (guard_stable_iff ((keyed_obj.mp isKeyed).2 _ isEntry)).mpr
          (single f.2 ⟨f.1, isName, found⟩)
      · simp only [haltField, if_neg isName]

/-! ### Artifacts -/

/-- The rewriting of the halt of an artifact. -/
def changeHalt (fs : Fields) : Fields :=
  match lookup "halt" fs with
  | some (obj halt) => setKey "halt" (normalizeHalt halt) fs
  | _ => fs

/-- The halt is as a pass leaves it. -/
def HaltFixed (fs : Fields) : Prop :=
  ∀ halt, lookup "halt" fs = some (obj halt) → normalizeHalt halt = obj halt

theorem changeHalt_some {fs halt : Fields} (isHalt : lookup "halt" fs = some (obj halt)) :
    changeHalt fs = setKey "halt" (normalizeHalt halt) fs := by
  simp only [changeHalt, isHalt]

theorem changeHalt_none {fs : Fields} (other : ∀ halt, lookup "halt" fs ≠ some (obj halt)) :
    changeHalt fs = fs := by
  unfold changeHalt
  split
  · rename_i halt isHalt
    exact absurd isHalt (other halt)
  · rfl

theorem changeHalt_other {key : String} (differ : "halt" ≠ key) (fs : Fields) :
    lookup key (changeHalt fs) = lookup key fs := by
  unfold changeHalt
  split
  · exact lookup_setKey_other differ _ _
  · rfl

theorem changeHalt_fixed {fs : Fields} (fixed : HaltFixed fs) : changeHalt fs = fs := by
  by_cases isHalt : ∃ halt, lookup "halt" fs = some (obj halt)
  · obtain ⟨halt, isHalt⟩ := isHalt
    rw [changeHalt_some isHalt, fixed halt isHalt, setKey_self isHalt]
  · exact changeHalt_none (not_exists.mp isHalt)

theorem haltFixed_of_same {fs : Fields} (same : lookup "halt" (changeHalt fs) = lookup "halt" fs) :
    HaltFixed fs := by
  intro halt isHalt
  rw [changeHalt_some isHalt, lookup_setKey_same, isHalt] at same
  exact Option.some.inj same

theorem haltFixed_congr {fs gs : Fields} (same : lookup "halt" fs = lookup "halt" gs) :
    HaltFixed fs ↔ HaltFixed gs := by
  rw [HaltFixed, HaltFixed, same]

theorem haltFixed_iff {fs gs : Fields} (isKeyed : (obj gs).keyed = true)
    (same : lookup "halt" fs = lookup "halt" gs) : HaltFixed (changeHalt fs) ↔
      ∀ condition ∈ haltConditions ((obj gs).field "halt"), Single condition := by
  rw [field_obj, ← same]
  by_cases isHalt : ∃ halt, lookup "halt" fs = some (obj halt)
  · obtain ⟨halt, isHalt⟩ := isHalt
    have haltKeyed : (obj halt).keyed = true :=
      (keyed_obj.mp isKeyed).2 _ (lookup_mem (same ▸ isHalt))
    obtain ⟨once, first⟩ : ∃ once, normalizeHalt halt = obj once := by
      unfold normalizeHalt
      split_ifs
      · exact ⟨_, rfl⟩
      · exact ⟨_, rfl⟩
    rw [isHalt, Option.getD_some, ← halt_stable_iff haltKeyed first, HaltFixed,
      changeHalt_some isHalt, lookup_setKey_same, first]
    constructor
    · exact fun fixed => fixed once rfl
    · intro fixed halt' isOnce
      rw [← obj.inj (Option.some.inj isOnce)]
      exact fixed
  · have other := not_exists.mp isHalt
    rw [changeHalt_none other]
    refine iff_of_true (fun halt isHalt => absurd isHalt (other halt)) fun condition isCondition => ?_
    cases found : lookup "halt" fs with
    | none =>
      rw [found] at isCondition
      cases isCondition
    | some halt =>
      rw [found] at isCondition
      cases halt with
      | obj halt => exact absurd found (other halt)
      | null | bool | num | str | arr => cases isCondition

/-! ### Artifacts -/

/-- No path the normaliser looks at in an artifact starts with `token.token.`. -/
structure SinglePaths (candidate : Json) : Prop where
  nodes : ∀ node ∈ (candidate.field "nodes").items, SingleNode node
  halt : ∀ condition ∈ haltConditions (candidate.field "halt"), Single condition

theorem normalizeCandidate_eq (fs : Fields) :
    normalizeCandidate fs = (changeList "nodes" normalizeNode fs).map changeHalt := by
  rw [normalizeCandidate, normalizeNodes_eq]
  rfl

/-- The nodes and the halt are settled after one pass exactly if no path in them was doubled. -/
theorem candidate_settled_iff {fs N : Fields} (isKeyed : (obj fs).keyed = true)
    (pass : normalizeCandidate fs = some N) :
    ListFixed "nodes" normalizeNode N ∧ HaltFixed N ↔ SinglePaths (obj fs) := by
  rw [normalizeCandidate_eq] at pass
  obtain ⟨A, nodes, rfl⟩ := Option.map_eq_some_iff.mp pass
  have nodesKeyed := keyed_items (keyed_field isKeyed "nodes")
  rw [listFixed_congr (changeHalt_other (by decide) A),
    haltFixed_iff isKeyed (changeList_other nodes (by decide)),
    listFixed_iff nodes fun node isIn _ isImage => node_stable_iff (nodesKeyed node isIn) isImage]
  exact ⟨fun ⟨nodes, halt⟩ => ⟨nodes, halt⟩, fun ⟨nodes, halt⟩ => ⟨nodes, halt⟩⟩

/-- A pass over an artifact whose nodes and halt are settled changes nothing. -/
theorem normalizeCandidate_fixed {fs : Fields} (nodes : ListFixed "nodes" normalizeNode fs)
    (halt : HaltFixed fs) : normalizeCandidate fs = some fs := by
  rw [normalizeCandidate_eq, changeList_fixed nodes, Option.map_some, changeHalt_fixed halt]

/-- A pass that leaves nodes and halt as they were had nothing to change in them. -/
theorem settled_of_same {fs gs : Fields} (pass : normalizeCandidate fs = some gs)
    (sameNodes : lookup "nodes" gs = lookup "nodes" fs)
    (sameHalt : lookup "halt" gs = lookup "halt" fs) :
    ListFixed "nodes" normalizeNode fs ∧ HaltFixed fs := by
  rw [normalizeCandidate_eq] at pass
  obtain ⟨A, nodes, rfl⟩ := Option.map_eq_some_iff.mp pass
  rw [changeHalt_other (by decide)] at sameNodes
  have halt : lookup "halt" A = lookup "halt" fs := changeList_other nodes (by decide)
  exact ⟨listFixed_of_same nodes sameNodes,
    (haltFixed_congr halt).mp (haltFixed_of_same (sameHalt.trans halt.symm))⟩

/-! ### The second validation -/

theorem lookup_summarized {key : String} (version : "artifact_version" ≠ key)
    (graph : "graph_summary" ≠ key) (capability : "capability_summary" ≠ key) (fs : Fields) :
    lookup key (summarized fs) = lookup key fs := by
  rw [summarized, lookup_setKey_other capability, lookup_setKey_other graph]
  split
  · rfl
  · exact lookup_setKey_other version _ _

theorem required_summarized {key : String} (isRequired : key ∈ requiredArtifactFields) (fs : Fields) :
    lookup key (summarized fs) = lookup key fs := by
  have others : ∀ key ∈ requiredArtifactFields, "artifact_version" ≠ key ∧ "graph_summary" ≠ key ∧
      "capability_summary" ≠ key := by decide
  obtain ⟨version, graph, capability⟩ := others key isRequired
  exact lookup_summarized version graph capability fs

theorem firstOf_summarized {key : String} (isRequired : key ∈ requiredArtifactFields) (fs : Fields) :
    firstOf [key] (summarized fs) = firstOf [key] fs := by
  rw [firstOf_single, firstOf_single, required_summarized isRequired]

/-- The summaries are not looked at by the validator. -/
theorem validateArtifact_summarized (fs : Fields) :
    validateArtifact (summarized fs) = validateArtifact fs := by
  have header : validateHeader (summarized fs) = validateHeader fs := by
    unfold validateHeader
    rw [firstOf_summarized (by decide), firstOf_summarized (by decide), firstOf_summarized (by decide)]
    congr 3
    refine List.flatMap_congr fun name isRequired => ?_
    rw [required_summarized isRequired]
  unfold validateArtifact
  rw [header, firstOf_summarized (by decide), firstOf_summarized (by decide),
    firstOf_summarized (by decide), firstOf_summarized (by decide), firstOf_summarized (by decide)]

/-- Summarising twice is summarising once. -/
theorem summarized_again (fs : Fields) : summarized (summarized fs) = summarized fs := by
  have version : ∃ v, lookup "artifact_version" (summarized fs) = some v := by
    rw [summarized, lookup_setKey_other (by decide), lookup_setKey_other (by decide)]
    split
    · rename_i v found
      exact ⟨v, found⟩
    · exact ⟨_, lookup_setKey_same _ _ _⟩
  obtain ⟨v, version⟩ := version
  have graph : lookup "graph_summary" (summarized fs) =
      some (buildGraphSummary (firstOf ["nodes"] fs).items) := by
    rw [summarized, lookup_setKey_other (by decide), lookup_setKey_same]
  have capability : lookup "capability_summary" (summarized fs) = some (buildCapabilitySummary
      (firstOf ["nodes"] fs).items (firstOf ["runtime_contract"] fs)) := by
    rw [summarized, lookup_setKey_same]
  generalize isOnce : summarized fs = once at version graph capability
  have nodes : firstOf ["nodes"] once = firstOf ["nodes"] fs := by
    rw [← isOnce, firstOf_summarized (by decide)]
  have contract : firstOf ["runtime_contract"] once = firstOf ["runtime_contract"] fs := by
    rw [← isOnce, firstOf_summarized (by decide)]
  rw [summarized, version, nodes, contract]
  dsimp only
  rw [setKey_self graph, setKey_self capability]

/-- An accepted candidate is stored as its normal form with its summaries. -/
theorem accepted_iff {fs : Fields} {artifact : Json} : accepted (obj fs) = some artifact ↔
    ∃ N, normalizeCandidate fs = some N ∧ raisesOnKind N = false ∧
      hasErrors (validateArtifact N) = false ∧ artifact = obj (summarized N) := by
  have unfolded : accepted (obj fs) = ((normalizeCandidate fs).bind fun N =>
      if raisesOnKind N then none
      else some ⟨if hasErrors (validateArtifact N) then none else some (obj (summarized N)),
        validateArtifact N⟩).bind FormalValidationResult.artifact := rfl
  rw [unfolded]
  constructor
  · intro stored
    obtain ⟨result, validated, stored⟩ := Option.bind_eq_some_iff.mp stored
    obtain ⟨N, pass, validated⟩ := Option.bind_eq_some_iff.mp validated
    split at validated
    · cases validated
    · rename_i raises
      rw [← Option.some.inj validated] at stored
      dsimp only at stored
      split at stored
      · cases stored
      · rename_i errors
        exact ⟨N, pass, Bool.not_eq_true _ ▸ raises, Bool.not_eq_true _ ▸ errors,
          (Option.some.inj stored).symm⟩
  · rintro ⟨N, pass, raises, errors, rfl⟩
    rw [pass, Option.bind_some, raises, if_neg Bool.false_ne_true, Option.bind_some, errors,
      if_neg Bool.false_ne_true]

theorem accepted_obj {candidate artifact : Json} (stored : accepted candidate = some artifact) :
    ∃ fs, candidate = obj fs := by
  cases candidate with
  | obj fs => exact ⟨fs, rfl⟩
  | null | bool | num | str | arr => cases stored

/-- **Validation is idempotent on what it stores, exactly where no path was doubled**: validating the
stored artifact again accepts it unchanged if and only if no guard, halt condition or merge of the
candidate names a path that starts with `token.token.`. -/
theorem validation_idempotent {candidate artifact : Json} (isKeyed : candidate.keyed = true)
    (stored : accepted candidate = some artifact) :
    accepted artifact = some artifact ↔ SinglePaths candidate := by
  obtain ⟨fs, rfl⟩ := accepted_obj stored
  obtain ⟨N, pass, raises, errors, rfl⟩ := accepted_iff.mp stored
  have nodes : lookup "nodes" (summarized N) = lookup "nodes" N := required_summarized (by decide) N
  have halt : lookup "halt" (summarized N) = lookup "halt" N := required_summarized (by decide) N
  rw [← candidate_settled_iff isKeyed pass, ← listFixed_congr nodes, ← haltFixed_congr halt]
  constructor
  · intro again
    obtain ⟨M, pass', -, -, same⟩ := accepted_iff.mp again
    have same : summarized N = summarized M := obj.inj same
    refine settled_of_same pass' ?_ ?_
    · rw [same, required_summarized (by decide)]
    · rw [same, required_summarized (by decide)]
  · rintro ⟨nodesFixed, haltFixed⟩
    refine accepted_iff.mpr ⟨_, normalizeCandidate_fixed nodesFixed haltFixed, ?_, ?_, ?_⟩
    · rw [raisesOnKind, firstOf_summarized (by decide)]
      exact raises
    · rw [validateArtifact_summarized]
      exact errors
    · rw [summarized_again]

/-- A guard in normal form doubles no path. -/
theorem single_of_normal {guard : Json} (isKeyed : guard.keyed = true)
    (normal : normalizeGuardShape guard = guard) : Single guard :=
  (guard_stable_iff isKeyed).mp
    (show normalizeGuardShape (normalizeGuardShape guard) = _ by rw [normal, normal])

theorem brewing_single : SinglePaths (brewCandidate (scaffoldNodes "brew" [brewStep]) []) where
  nodes node isNode := by
    have merges : ((brewCandidate (scaffoldNodes "brew" [brewStep]) []).field "nodes").items.all (fun node =>
        (node.field "merge").items.all fun operation =>
          (mergeTarget operation).all fun path => !doubled path) = true := by decide +kernel
    have guards : ∀ node ∈ ((brewCandidate (scaffoldNodes "brew" [brewStep]) []).field "nodes").items,
        ∃ phase, node.field "guard" = phaseGuard phase := by
      have nodes : ((brewCandidate (scaffoldNodes "brew" [brewStep]) []).field "nodes").items =
          [startNode "brew", instructNode brewStep true, evaluateNode brewStep "final_verify",
            finalVerifyNode, terminalNode] := rfl
      rw [nodes]
      intro node isNode
      simp only [List.mem_cons, List.not_mem_nil, or_false] at isNode
      rcases isNode with rfl | rfl | rfl | rfl | rfl <;> exact ⟨_, rfl⟩
    obtain ⟨phase, isGuard⟩ := guards node isNode
    refine ⟨?_, fun operation isIn path isPath => ?_⟩
    · rw [isGuard]
      exact single_of_normal rfl rfl
    · have checked := List.all_eq_true.mp (List.all_eq_true.mp merges node isNode) operation isIn
      rw [Option.all_eq_true] at checked
      simpa using checked path isPath
  halt condition isIn := by
    have conditions : haltConditions ((brewCandidate (scaffoldNodes "brew" [brewStep]) []).field "halt") =
        [obj [("field_equals", obj [("path", str "status"), ("value", str "success")])]] := rfl
    rw [conditions, List.mem_singleton] at isIn
    rw [isIn]
    exact single_of_normal rfl rfl

/-- The scaffold of one step is stored for good. -/
theorem validation_idempotent_brewing : ∃ artifact,
    (brewCandidate (scaffoldNodes "brew" [brewStep]) []).keyed = true ∧
    accepted (brewCandidate (scaffoldNodes "brew" [brewStep]) []) = some artifact ∧
    SinglePaths (brewCandidate (scaffoldNodes "brew" [brewStep]) []) ∧
    accepted artifact = some artifact := by
  have isKeyed : (brewCandidate (scaffoldNodes "brew" [brewStep]) []).keyed = true := by decide +kernel
  obtain ⟨artifact, stored⟩ := Option.isSome_iff_exists.mp (show
    (accepted (brewCandidate (scaffoldNodes "brew" [brewStep]) [])).isSome = true by decide +kernel)
  exact ⟨artifact, isKeyed, stored, brewing_single,
    (validation_idempotent isKeyed stored).mpr brewing_single⟩

/-- The scaffold of one step, its condition of success spelled with two leads. -/
def doubledCandidate : Json :=
  withField "halt" (obj [("success", obj [("field_equals", obj [("path", str "token.token.status"),
      ("value", str "success")])])])
    (brewCandidate (scaffoldNodes "brew" [brewStep]) [])

/-- It is accepted, and validating the stored artifact stores another one. -/
theorem validation_not_idempotent :
    ∃ artifact again, accepted doubledCandidate = some artifact ∧ accepted artifact = some again ∧
      again ≠ artifact := by
  obtain ⟨artifact, again, isArtifact, isAgain, passes⟩ := checked_run (show
    ((accepted doubledCandidate).bind accepted).any (fun again =>
      (again.at? ["halt", "success", "field_equals", "path"]).map toStr == some "status") = true by
    decide +kernel)
  have once : ((accepted doubledCandidate).bind (at? ["halt", "success", "field_equals", "path"])).map
      toStr = some "token.status" := by decide +kernel
  rw [isArtifact, Option.bind_some] at once
  refine ⟨artifact, again, isArtifact, isAgain, fun same => ?_⟩
  rw [same, once] at passes
  exact absurd passes (by decide)

end Psop.Compiler
