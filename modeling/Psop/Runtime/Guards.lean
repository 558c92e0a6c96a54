import Psop.Compiler.Guards
import Psop.Compiler.Scaffold
import Psop.Runs
import Psop.Runtime.Graph

/-!
What a guard means, and how far the runtime's evaluator agrees.

A `Guard` is a condition on a token; `parseGuard` reads one off a guard as an author writes it: an
object asks for every operator in it, in the plain spelling or behind `op`. The compiler normalises
the written guard and validates the result, and the runtime evaluates that. An operator can decide
alone: `always: true` makes the evaluator skip what stands beside it, any other `always` is itself
skipped, and an `op` makes the normaliser drop its neighbours, behind `op: always` even the operand.

An evaluation comes to some of the guards inside a guard only (`Reaches`): an operator is asked where
those before it hold, and a group up to the item that decides it. `guard_semantics` says that the
evaluator agrees with the meaning at a guard and at every guard it comes to exactly when each of them
is `undisputed`, which asks that the operator that decides alone is not contradicted by what it makes
the evaluator skip.
-/
namespace Psop.Runtime

open Json Compiler

/-! ### Meaning -/

inductive Guard where
  | always (operand : Bool)
  | phaseIs (phase : Json)
  | fieldExists (path : String)
  | fieldEquals (path : String) (value : Json)
  | all (guards : List Guard)
  | any (guards : List Guard)
  | not (guard : Guard)

namespace Guard

mutual
def holds (token : Json) : Guard → Bool
  | always operand => operand
  | phaseIs phase => (token.field "phase").pyEq phase
  | fieldExists path => !(token.getPath path).pyEq null
  | fieldEquals path value => (token.getPath path).pyEq value
  | all guards => holdsAll token guards
  | any guards => holdsAny token guards
  | not guard => !holds token guard
termination_by structural x => x
def holdsAll (token : Json) : List Guard → Bool
  | [] => true
  | guard :: rest => holds token guard && holdsAll token rest
termination_by structural x => x
def holdsAny (token : Json) : List Guard → Bool
  | [] => false
  | guard :: rest => holds token guard || holdsAny token rest
termination_by structural x => x
end

theorem holds_all (token : Json) (guards : List Guard) :
    (all guards).holds token = guards.all (holds token) := by
  show holdsAll token guards = _
  induction guards with
  | nil => rfl
  | cons guard rest ih => rw [holdsAll, ih, List.all_cons]

theorem holds_any (token : Json) (guards : List Guard) :
    (any guards).holds token = guards.any (holds token) := by
  show holdsAny token guards = _
  induction guards with
  | nil => rfl
  | cons guard rest ih => rw [holdsAny, ih, List.any_cons]

end Guard

/-- A value of a guard object: as it is written, read as a guard and read as a list of guards. -/
structure Reading where
  value : Json
  whole : Guard
  items : List Guard

/-- The operator an entry stands for; a key that is no operator asks for nothing. -/
def Reading.operator (key : String) (reading : Reading) : Guard :=
  if key = "always" then .always reading.value.truthy
  else if key = "phase_is" then .phaseIs reading.value
  else if key = "field_exists" then .fieldExists (normalizeTokenPath reading.value.toStr false)
  else if key = "field_equals" then
    .fieldEquals (normalizeTokenPath (reading.value.field "path").toStr false)
      (reading.value.field "value")
  else if key = "all" then .all reading.items
  else if key = "any" then .any reading.items
  else if key = "not" then .not reading.whole
  else .always true

/-- The reading under the first of the keys that is there. -/
def firstReading : List String → List (String × Reading) → Reading
  | [], _ => ⟨null, .any [], []⟩
  | key :: keys, readings => (readings.lookup key).getD (firstReading keys readings)

/-- The operator an `op` stands for. An `always` that comes with a value means that value. -/
def opGuard (op : String) (readings : List (String × Reading)) : Guard :=
  let group := (firstReading ["conditions", "items", "value"] readings).items
  if op = "always" then .always ((readings.lookup "value").all fun operand => operand.value.truthy)
  else if op = "true" then .always true
  else if op = "phase_is" then
    .phaseIs (str (firstReading ["value", "phase"] readings).value.toStr)
  else if op = "field_exists" then
    .fieldExists (normalizeTokenPath (firstReading ["path", "value"] readings).value.toStr false)
  else if op ∈ ["field_equals", "equals", "eq"] then
    .fieldEquals (normalizeTokenPath (firstReading ["path", "field"] readings).value.toStr false)
      (firstReading ["value"] readings).value
  else if op ∈ ["and", "all"] then .all group
  else if op ∈ ["or", "any"] then .any group
  else if op = "not" then .not (firstReading ["condition", "value"] readings).whole
  else .always true

/-- The operator behind the `op` of a guard object, if it has one. -/
def opPart (readings : List (String × Reading)) : List Guard :=
  match readings.lookup "op" with
  | some op => [opGuard (Text.lower op.value.strOr) readings]
  | none => []

/-- The operators of a guard object in the plain spelling. -/
def plainPart (readings : List (String × Reading)) : List Guard :=
  readings.map fun entry => entry.2.operator entry.1

mutual
/-- What a written guard asks for: every operator in it. -/
def parseGuard : Json → Guard
  | .bool operand => .always operand
  | obj fs => .all (opPart (readings fs) ++ plainPart (readings fs))
  | _ => .any []
termination_by structural x => x
def readings : List (String × Json) → List (String × Reading)
  | [] => []
  | entry :: rest => reading entry :: readings rest
termination_by structural x => x
def reading : String × Json → String × Reading
  | (key, value) => (key, ⟨value, parseGuard value, parseItems value⟩)
termination_by structural x => x
def parseItems : Json → List Guard
  | arr guards => parseGuards guards
  | _ => []
termination_by structural x => x
def parseGuards : List Json → List Guard
  | [] => []
  | guard :: rest => parseGuard guard :: parseGuards rest
termination_by structural x => x
end

def Reading.of (value : Json) : Reading := ⟨value, parseGuard value, parseItems value⟩

/-- The operator an entry of a written guard stands for. -/
def parseEntry (entry : String × Json) : Guard := (Reading.of entry.2).operator entry.1

/-- The words behind `op` that the normaliser turns into `always: true`. -/
def decidingOps : List String := ["always", "true"]

/-- The operator that decides a guard alone is not contradicted by what it makes the evaluator skip:
behind `op: always` and beside it everything holds; beside another `op` that holds every other operator
holds; beside `always: true` every other one holds; and one that is falsy stands beside another that
fails. -/
def undisputed (token : Json) : Json → Bool
  | obj fs => match lookup "op" fs with
    | some op =>
      let own := (Guard.all (opPart (readings fs))).holds token
      let others := (Guard.all (plainPart (readings fs))).holds token
      if Text.lower op.strOr ∈ decidingOps then own && others else !own || others
    | none => match lookup "always" fs with
      | none => true
      | some operand =>
        let others := (Guard.all ((popKey "always" fs).map parseEntry)).holds token
        if isTrue operand then others else !others || operand.truthy
  | _ => true

/-! ### What an evaluation comes to -/

/-- The guards a group comes to: one after the other, up to the first that decides it. -/
def askedItems (token : Json) (decides : Bool) : List Json → List Json
  | [] => []
  | guard :: rest =>
    if (parseGuard guard).holds token = decides then [guard]
    else guard :: askedItems token decides rest

/-- The guards an operator comes to. -/
def askedOf (token : Json) (entry : String × Json) : List Json :=
  if entry.1 = "all" then askedItems token false entry.2.items
  else if entry.1 = "any" then askedItems token true entry.2.items
  else if entry.1 = "not" then [entry.2]
  else []

/-- The evaluator's order of asking the operators of one object. -/
def askingRank (entry : String × Json) : Nat :=
  ["phase_is", "field_exists", "field_equals", "all", "any", "not"].idxOf entry.1

/-- Every operator that is asked before the entry holds. -/
def isAsked (token : Json) (fs : Fields) (entry : String × Json) : Bool :=
  fs.all fun other => decide (askingRank entry ≤ askingRank other) || (parseEntry other).holds token

/-- The guards directly inside a guard that its evaluation comes to. -/
def asked (token : Json) : Json → List Json
  | obj fs =>
    if keepsOp fs || isTrue ((lookup "always" (kept fs)).getD null) then []
    else ((kept fs).filter (isAsked token (kept fs))).flatMap (askedOf token)
  | _ => []

/-- The evaluation of a guard comes to a guard inside it. -/
def Reaches (token guard inner : Json) : Prop :=
  Relation.ReflTransGen (fun outer inner => inner ∈ asked token outer) guard inner

theorem askedItems_subset (token : Json) (decides : Bool) (guards : List Json) :
    askedItems token decides guards ⊆ guards := by
  induction guards with
  | nil => exact List.Subset.refl _
  | cons guard rest ih =>
    rw [askedItems]
    split
    · exact List.cons_subset_cons _ (List.nil_subset _)
    · exact List.cons_subset_cons _ ih

theorem askedOf_subset (token : Json) (entry : String × Json) :
    askedOf token entry ⊆ partsOf entry := by
  unfold askedOf partsOf
  split_ifs <;> first | exact askedItems_subset .. | simp_all

/-- An evaluation comes to guards inside the guard alone. -/
theorem asked_parts {token guard part : Json} (isAsked : part ∈ asked token guard) :
    part ∈ parts guard := by
  cases guard with
  | obj fs =>
    rw [asked] at isAsked
    split at isAsked
    · cases isAsked
    · rename_i undecided
      simp only [Bool.or_eq_true, not_or, Bool.not_eq_true] at undecided
      obtain ⟨entry, isEntry, isIn⟩ := List.mem_flatMap.mp isAsked
      rw [parts, undecided.1, if_neg Bool.false_ne_true]
      exact List.mem_flatMap.mpr ⟨entry, (List.mem_filter.mp isEntry).1, askedOf_subset token entry isIn⟩
  | null | bool | num | str | arr => cases isAsked

theorem Reaches.inside {token guard inner : Json} (reaches : Reaches token guard inner) :
    Inside guard inner := by
  induction reaches with
  | refl => exact .refl
  | tail _ isAsked ih => exact ih.tail (asked_parts isAsked)

/-! ### Reading a guard entry by entry -/

theorem parseItems_eq (value : Json) : parseItems value = value.items.map parseGuard := by
  have each : ∀ guards, parseGuards guards = guards.map parseGuard := by
    intro guards
    induction guards with
    | nil => rfl
    | cons guard rest ih => rw [parseGuards, ih, List.map_cons]
  cases value with
  | arr guards => exact each guards
  | null | bool | num | str | obj => rfl

theorem readings_eq (fs : Fields) : readings fs = fs.map fun f => (f.1, Reading.of f.2) := by
  induction fs with
  | nil => rfl
  | cons f rest ih =>
    obtain ⟨key, value⟩ := f
    rw [readings, ih]
    rfl

theorem plainPart_eq (fs : Fields) : plainPart (readings fs) = fs.map parseEntry := by
  rw [plainPart, readings_eq, List.map_map]
  rfl

theorem readings_lookup (key : String) (fs : Fields) :
    (readings fs).lookup key = (lookup key fs).map Reading.of := by
  rw [readings_eq]
  induction fs with
  | nil => rfl
  | cons f rest ih =>
    rw [List.map_cons, lookup, List.lookup_cons, ih]
    by_cases same : f.1 = key
    · simp [same]
    · have differ : (key == f.1) = false := by simpa using Ne.symm same
      rw [if_neg same, differ]

theorem firstReading_eq (keys : List String) (fs : Fields) :
    firstReading keys (readings fs) = Reading.of (firstOf keys fs) := by
  induction keys with
  | nil => rfl
  | cons key keys ih =>
    rw [firstReading, firstOf, readings_lookup, ih]
    cases lookup key fs <;> rfl

/-- The operator behind an `op` is the one the normaliser leaves, where that is not `always`. -/
theorem opGuard_eq {op : String} {fs : Fields} {entry : String × Json} (other : op ∉ decidingOps)
    (isEntry : opOperand? op fs = some entry) : opGuard op (readings fs) = parseEntry entry := by
  have items : (firstOf ["conditions", "items", "value"] fs).items =
      (firstOf ["conditions", "items", "value"] (fs ++ [("value", arr [])])).items := by
    simp only [firstOf, lookup_append]
    cases lookup "conditions" fs with
    | some value => rfl
    | none => cases lookup "items" fs with
      | some value => rfl
      | none => cases lookup "value" fs <;> rfl
  have notAlways : op ≠ "always" := fun same => other (same ▸ List.mem_cons_self)
  have notTrue : op ≠ "true" := fun same => other (same ▸ by decide)
  unfold opOperand? at isEntry
  unfold opGuard
  simp only [firstReading_eq, if_neg notAlways, if_neg notTrue]
  dsimp only at isEntry
  rw [if_neg (show op ∉ ["always", "true"] from other)] at isEntry
  split_ifs at isEntry ⊢
  · split at isEntry
    · cases isEntry
    · obtain rfl := Option.some.inj isEntry
      rfl
  · split at isEntry
    · cases isEntry
    · obtain rfl := Option.some.inj isEntry
      rfl
  · split at isEntry
    · cases isEntry
    · obtain rfl := Option.some.inj isEntry
      rfl
  · split at isEntry
    · rename_i guards isGroup
      obtain rfl := Option.some.inj isEntry
      show Guard.all (parseItems _) = Guard.all (parseItems _)
      rw [parseItems_eq, parseItems_eq, items, isGroup]
    · cases isEntry
  · split at isEntry
    · rename_i guards isGroup
      obtain rfl := Option.some.inj isEntry
      show Guard.any (parseItems _) = Guard.any (parseItems _)
      rw [parseItems_eq, parseItems_eq, items, isGroup]
    · cases isEntry
  · obtain rfl := Option.some.inj isEntry
    rfl

/-- What an object asks for: the operator behind its `op` and every plain one. -/
theorem parse_holds (token : Json) (fs : Fields) : (parseGuard (obj fs)).holds token =
    ((Guard.all (opPart (readings fs))).holds token &&
      (Guard.all (plainPart (readings fs))).holds token) := by
  rw [parseGuard, Guard.holds_all, Guard.holds_all, Guard.holds_all, List.all_append]

/-! ### Evaluating a normalised guard entry by entry -/

theorem allOf_eq (token : Json) (guards : List Json) :
    allOf token (arr guards) = guards.all (evaluateGuard token) := by
  show allGuards token guards = _
  induction guards with
  | nil => rfl
  | cons guard rest ih => rw [allGuards, ih, List.all_cons]

theorem anyOf_eq (token : Json) (guards : List Json) :
    anyOf token (arr guards) = guards.any (evaluateGuard token) := by
  show anyGuard token guards = _
  induction guards with
  | nil => rfl
  | cons guard rest ih => rw [anyGuard, ih, List.any_cons]

theorem guardEntries_eq (token : Json) (fs : Fields) :
    guardEntries token fs = fs.all (guardEntry token) := by
  induction fs with
  | nil => rfl
  | cons f rest ih => rw [guardEntries, ih, List.all_cons]

/-- The evaluator on an object: `always` set to true decides alone, and else every entry is asked. -/
theorem evaluateGuard_obj (token : Json) (fs : Fields) : evaluateGuard token (obj fs) =
    (isTrue ((lookup "always" fs).getD null) || fs.all (guardEntry token)) := by
  rw [evaluateGuard, guardEntries_eq]
  congr 1
  cases lookup "always" fs with
  | none => rfl
  | some operand =>
    cases operand with
    | bool b => cases b <;> rfl
    | null | num | str | arr | obj => rfl

/-- The evaluator agrees with the meaning of a written guard. -/
def EvaluatedAsWritten (token guard : Json) : Prop :=
  evaluateGuard token (normalizeGuardShape guard) = (parseGuard guard).holds token

/-- A conjunction is evaluated as it is meant, if the items up to the first that fails are. -/
theorem all_agree {token : Json} {guards : List Json}
    (inner : ∀ guard ∈ askedItems token false guards, EvaluatedAsWritten token guard) :
    guards.all (evaluateGuard token ∘ normalizeGuardShape) =
      guards.all (Guard.holds token ∘ parseGuard) := by
  induction guards with
  | nil => rfl
  | cons guard rest ih =>
    rw [List.all_cons, List.all_cons, Function.comp_apply, Function.comp_apply]
    rw [askedItems] at inner
    split at inner
    · rename_i fails
      have first : EvaluatedAsWritten token guard := inner guard List.mem_cons_self
      rw [EvaluatedAsWritten, fails] at first
      rw [first, fails, Bool.false_and, Bool.false_and]
    · have first : EvaluatedAsWritten token guard := inner guard List.mem_cons_self
      rw [EvaluatedAsWritten] at first
      rw [first, ih fun part isLater => inner part (List.mem_cons_of_mem _ isLater)]

/-- A disjunction is evaluated as it is meant, if the items up to the first that holds are. -/
theorem any_agree {token : Json} {guards : List Json}
    (inner : ∀ guard ∈ askedItems token true guards, EvaluatedAsWritten token guard) :
    guards.any (evaluateGuard token ∘ normalizeGuardShape) =
      guards.any (Guard.holds token ∘ parseGuard) := by
  induction guards with
  | nil => rfl
  | cons guard rest ih =>
    rw [List.any_cons, List.any_cons, Function.comp_apply, Function.comp_apply]
    rw [askedItems] at inner
    split at inner
    · rename_i decides
      have first : EvaluatedAsWritten token guard := inner guard List.mem_cons_self
      rw [EvaluatedAsWritten, decides] at first
      rw [first, decides, Bool.true_or, Bool.true_or]
    · have first : EvaluatedAsWritten token guard := inner guard List.mem_cons_self
      rw [EvaluatedAsWritten] at first
      rw [first, ih fun part isLater => inner part (List.mem_cons_of_mem _ isLater)]

/-- Two conjunctions agree if each of their members does wherever the second one's earlier members
hold. -/
theorem all_in_order {α : Type*} {members : List α} {p q : α → Bool} (rank : α → Nat)
    (agree : ∀ a ∈ members, (∀ b ∈ members, rank b < rank a → q b = true) → p a = q a) :
    members.all p = members.all q := by
  rw [Bool.eq_iff_iff, List.all_eq_true, List.all_eq_true]
  constructor
  · intro all
    suffices upTo : ∀ n, ∀ a ∈ members, rank a = n → q a = true from
      fun a isMember => upTo _ a isMember rfl
    intro n
    induction n using Nat.strong_induction_on with
    | _ n ih =>
      rintro a isMember rfl
      rw [← agree a isMember fun b isOther earlier => ih _ earlier b isOther rfl]
      exact all a isMember
  · intro all a isMember
    rw [agree a isMember fun b isOther _ => all b isOther]
    exact all a isMember

/-- A condition that passes names its path by a text. -/
theorem condition_path {fields : List String} {path : String} {condition : Fields}
    (pass : validateFieldEquals fields (normalizeCondition (obj condition)) path = []) :
    ∃ target, lookup "path" condition = some (str target) := by
  cases found : lookup "path" condition with
  | none => simp [validateFieldEquals, normalizeCondition, found] at pass
  | some target =>
    cases target with
    | str target => exact ⟨target, rfl⟩
    | null | bool | num | arr | obj => simp [validateFieldEquals, normalizeCondition, found] at pass

/-- A kept operator other than `always` is evaluated as it is meant, if the guards inside it are. -/
theorem entry_agrees {token : Json} {fields : List String} {f : String × Json}
    (known : f.1 ∈ guardOperators)
    (pass : ∃ path, (validateEntry fields path (f.1, normalizeOperand f.1 f.2)).2 = [])
    (inner : ∀ part ∈ askedOf token f, EvaluatedAsWritten token part) (other : f.1 ≠ "always") :
    guardEntry token (f.1, normalizeOperand f.1 f.2) = (parseEntry f).holds token := by
  obtain ⟨key, value⟩ := f
  obtain ⟨path, pass⟩ := pass
  simp only [guardOperators, List.mem_cons, List.not_mem_nil, or_false] at known
  rcases known with rfl | rfl | rfl | rfl | rfl | rfl | rfl
  · exact absurd rfl other
  · rfl
  · cases value with
    | str text => rfl
    | null | bool | num | arr | obj => cases pass
  · cases value with
    | obj condition =>
      obtain ⟨target, found⟩ := condition_path pass
      have shape : normalizeOperand "field_equals" (obj condition) =
          obj (setKey "path" (str (normalizeTokenPath target false)) condition) := by
        simp [normalizeOperand, normalizeCondition, found]
      rw [shape]
      show (true && (token.getPath _).pyEq _) = _
      simp [parseEntry, Reading.operator, Reading.of, Guard.holds, found, lookup_setKey_other, toStr]
    | null | bool | num | str | arr => cases pass
  · obtain ⟨guards, rfl, -⟩ := accepted_group pass
    show allOf token (shapesOf (arr guards)) = (Guard.all (parseItems (arr guards))).holds token
    rw [shapesOf_arr, allOf_eq, parseItems_eq, Guard.holds_all, List.all_map, List.all_map]
    exact all_agree inner
  · obtain ⟨guards, rfl, -⟩ := accepted_group pass
    show anyOf token (shapesOf (arr guards)) = (Guard.any (parseItems (arr guards))).holds token
    rw [shapesOf_arr, anyOf_eq, parseItems_eq, Guard.holds_any, List.any_map, List.any_map]
    exact any_agree inner
  · have agrees : EvaluatedAsWritten token value := inner value List.mem_cons_self
    exact congrArg not agrees

theorem mem_popKey {key : String} {fs : Fields} {f : String × Json} :
    f ∈ popKey key fs ↔ f ∈ fs ∧ f.1 ≠ key := by
  simp [popKey]

/-- A conjunction over entries in which the one under a key counts for nothing. -/
theorem all_popKey {key : String} {fs : Fields} {p q : String × Json → Bool}
    (skipped : ∀ f, f.1 = key → p f = true) (same : ∀ f ∈ fs, f.1 ≠ key → p f = q f) :
    fs.all p = (popKey key fs).all q := by
  rw [Bool.eq_iff_iff, List.all_eq_true, List.all_eq_true]
  constructor
  · intro holds f isIn
    obtain ⟨isEntry, other⟩ := mem_popKey.mp isIn
    rw [← same f isEntry other]
    exact holds f isEntry
  · intro holds f isEntry
    by_cases isKey : f.1 = key
    · exact skipped f isKey
    · rw [same f isEntry isKey]
      exact holds f (mem_popKey.mpr ⟨isEntry, isKey⟩)

/-- A conjunction over entries, with the one under a key apart. -/
theorem all_apart {fs : Fields} (distinct : (fs.map Prod.fst).Nodup) (key : String)
    (p : String × Json → Bool) : fs.all p =
      ((lookup key fs).all (fun value => p (key, value)) && (popKey key fs).all p) := by
  rw [Bool.eq_iff_iff, Bool.and_eq_true, Option.all_eq_true, List.all_eq_true, List.all_eq_true]
  constructor
  · exact fun holds => ⟨fun value found => holds _ (lookup_mem found),
      fun f isIn => holds f (mem_popKey.mp isIn).1⟩
  · rintro ⟨own, others⟩ f isEntry
    by_cases isKey : f.1 = key
    · subst isKey
      exact own f.2 (lookup_of_mem distinct isEntry)
    · exact others f (mem_popKey.mpr ⟨isEntry, isKey⟩)

theorem askingRank_le_always (entry : String × Json) (operand : Json) :
    askingRank entry ≤ askingRank ("always", operand) := by
  have last : askingRank ("always", operand) = 6 := by
    show List.idxOf "always" _ = 6
    decide
  rw [last]
  exact List.idxOf_le_length

/-- The evaluator on the operators that are kept: `always` set to true decides alone, and every other
operator is asked. -/
theorem evaluate_kept {token : Json} {fields : List String} {fs : Fields}
    (distinct : (fs.map Prod.fst).Nodup) (accepted : Accepted fields (obj fs))
    (inner : ∀ part ∈ asked token (obj fs), EvaluatedAsWritten token part) :
    evaluateGuard token (normalizeGuardShape (obj fs)) =
      (isTrue ((lookup "always" (kept fs)).getD null) ||
        (popKey "always" (kept fs)).all fun f => (parseEntry f).holds token) := by
  have always : lookup "always" (normalizeOperands (kept fs)) = lookup "always" (kept fs) := by
    rw [normalizeOperands, lookup_map]
    cases lookup "always" (kept fs) <;> rfl
  rw [normalizeGuardShape_kept distinct accepted, evaluateGuard_obj, always, normalizeOperands,
    List.all_map]
  cases decided : isTrue ((lookup "always" (kept fs)).getD null) with
  | true => rw [Bool.true_or, Bool.true_or]
  | false =>
    rw [Bool.false_or, Bool.false_or]
    have skips : (kept fs).all (guardEntry token ∘ fun f => (f.1, normalizeOperand f.1 f.2)) =
        (popKey "always" (kept fs)).all (guardEntry token ∘ fun f => (f.1, normalizeOperand f.1 f.2)) :=
      all_popKey (fun f isAlways => by simp [Function.comp_apply, guardEntry, isAlways])
        fun _ _ _ => rfl
    rw [skips]
    refine all_in_order askingRank fun f isIn earlier => ?_
    obtain ⟨isKept, other⟩ := mem_popKey.mp isIn
    obtain ⟨known, pass⟩ := accepted.entry distinct isKept
    refine entry_agrees known pass (fun part isPart => inner part ?_) other
    have comes : isAsked token (kept fs) f = true := by
      refine List.all_eq_true.mpr fun g isEntry => ?_
      rw [Bool.or_eq_true, decide_eq_true_eq]
      by_cases isAlways : g.1 = "always"
      · obtain ⟨key, operand⟩ := g
        subst isAlways
        exact .inl (askingRank_le_always f operand)
      · rcases Nat.lt_or_ge (askingRank g) (askingRank f) with before | after
        · exact .inr (earlier g (mem_popKey.mpr ⟨isEntry, isAlways⟩) before)
        · exact .inl after
    rw [asked, not_keepsOp distinct accepted, decided]
    exact List.mem_flatMap.mpr ⟨f, List.mem_filter.mpr ⟨isKept, comes⟩, isPart⟩

/-- Behind an `op` the kept operator is evaluated as it is meant. -/
theorem op_agrees {token : Json} {op : String} {fs : Fields} {entry : String × Json}
    (isEntry : opOperand? op fs = some entry) :
    (isTrue ((lookup "always" [entry]).getD null) ||
      (popKey "always" [entry]).all fun f => (parseEntry f).holds token) =
        (parseEntry entry).holds token := by
  obtain ⟨key, operand⟩ := entry
  by_cases isAlways : key = "always"
  · subst isAlways
    rw [opEntry_always isEntry]
    rfl
  · simp [popKey, isAlways, Compiler.isTrue]

/-- Behind a word for `always` the normaliser leaves `always: true`. -/
theorem opOperand_deciding {op : String} {fs : Fields} (decides : op ∈ decidingOps) :
    opOperand? op fs = some ("always", .bool true) := by
  unfold opOperand?
  exact if_pos decides

/-- One step of the agreement: where the guards an accepted guard comes to are evaluated as they are
meant, the guard is exactly if it is undisputed. -/
theorem agrees_iff {token : Json} {fields : List String} {guard : Json} (isKeyed : guard.keyed = true)
    (accepted : Accepted fields guard) (inner : ∀ part ∈ asked token guard, EvaluatedAsWritten token part) :
    EvaluatedAsWritten token guard ↔ undisputed token guard = true := by
  rcases accepted.shape with ⟨b, rfl⟩ | ⟨fs, rfl⟩
  · exact iff_of_true rfl rfl
  have distinct := (keyed_obj.mp isKeyed).1
  rw [EvaluatedAsWritten, evaluate_kept distinct accepted inner, parse_holds, undisputed]
  cases hasOp : lookup "op" fs with
  | some op =>
    obtain ⟨entry, isEntry, isKept⟩ := accepted.op distinct hasOp
    dsimp only
    rw [isKept, op_agrees isEntry]
    split
    · rename_i decides
      obtain rfl := Option.some.inj (isEntry.symm.trans (opOperand_deciding decides))
      show true = _ ↔ _
      exact eq_comm
    · rename_i other
      have part : opPart (readings fs) = [parseEntry entry] := by
        rw [opPart, readings_lookup, hasOp]
        exact congrArg (fun guard => [guard]) (opGuard_eq other isEntry)
      rw [part, Guard.holds_all]
      simp only [List.all_cons, List.all_nil, Bool.and_true]
      cases (parseEntry entry).holds token <;> simp
  | none =>
    have all : kept fs = fs := by simp only [kept, hasOp]
    have noOp : opPart (readings fs) = [] := by
      rw [opPart, readings_lookup, hasOp]
      rfl
    rw [all, noOp, plainPart_eq, Guard.holds_all, Guard.holds_all, List.all_map,
      all_apart distinct "always", Guard.holds_all]
    simp only [List.all_nil, Bool.true_and, List.all_map]
    cases found : lookup "always" fs with
    | none =>
      simp only [Option.all_none, Bool.true_and, Option.getD_none, Function.comp_def]
      exact iff_of_true rfl trivial
    | some operand =>
      have own : (parseEntry ("always", operand)).holds token = operand.truthy := rfl
      simp only [Option.getD_some, Option.all_some, Function.comp_def, own]
      cases (popKey "always" fs).all fun f => (parseEntry f).holds token <;>
        cases operand with
        | bool b => cases b <;> simp [Compiler.isTrue, truthy]
        | null | num | str | arr | obj => simp [Compiler.isTrue]

/-! ### Every guard an evaluation comes to -/

/-- An accepted guard is evaluated as it is meant, if every guard its evaluation comes to is
undisputed. -/
theorem agrees_of_undisputed {fields : List String} {token : Json} (guard : Json) :
    guard.keyed = true → Accepted fields guard →
      (∀ inner, Reaches token guard inner → undisputed token inner = true) →
        EvaluatedAsWritten token guard := by
  induction guard using parts_induct with
  | step guard ih =>
    intro isKeyed accepted calm
    refine (agrees_iff isKeyed accepted fun part isAsked => ?_).mpr (calm _ .refl)
    have isPart := asked_parts isAsked
    exact ih part isPart (part_keyed isKeyed isPart) (accepted.part isKeyed isPart)
      fun inner reaches => calm inner (.head isAsked reaches)

/-- **The evaluator computes what a guard means, but where an operator decides alone**: at an accepted
guard and at every guard its evaluation comes to, exactly when each of these is undisputed. -/
theorem guard_semantics {fields : List String} {guard : Json} (isKeyed : guard.keyed = true)
    (accepted : Accepted fields guard) (token : Json) :
    (∀ inner, Reaches token guard inner →
      evaluateGuard token (normalizeGuardShape inner) = (parseGuard inner).holds token) ↔
    ∀ inner, Reaches token guard inner → undisputed token inner = true := by
  constructor
  · intro agrees inner reaches
    have inside := reaches.inside
    refine (agrees_iff (inside.keyed isKeyed) (inside.accepted isKeyed accepted)
      fun part isAsked => ?_).mp (agrees inner reaches)
    exact agrees part (reaches.tail isAsked)
  · intro calm inner reaches
    have inside := reaches.inside
    exact agrees_of_undisputed inner (inside.keyed isKeyed) (inside.accepted isKeyed accepted)
      fun deeper below => calm deeper (reaches.trans below)

/-- A disjunction that its first item decides never comes to the `always: false` after it. -/
theorem guard_semantics_decided :
    let guard := obj [("any", arr [.bool true, obj [("always", .bool false)]])]
    guard.keyed = true ∧ Accepted defaultTokenFields guard ∧
      ∀ inner, Reaches (obj []) guard inner →
        evaluateGuard (obj []) (normalizeGuardShape inner) = (parseGuard inner).holds (obj []) := by
  intro guard
  have accepted : Accepted defaultTokenFields guard := ⟨"nodes[0].guard", by decide +kernel⟩
  refine ⟨by decide, accepted, (guard_semantics (by decide) accepted (obj [])).mpr fun inner reaches => ?_⟩
  rcases Relation.ReflTransGen.cases_head reaches with rfl | ⟨part, isAsked, later⟩
  · decide +kernel
  · have first : asked (obj []) guard = [.bool true] := rfl
    rw [first, List.mem_singleton] at isAsked
    subst isAsked
    rcases Relation.ReflTransGen.cases_head later with rfl | ⟨deeper, isAsked, -⟩
    · rfl
    · exact absurd isAsked List.not_mem_nil

/-- A guard that says `always: false` holds of every token. -/
theorem always_false_holds : ¬∀ (fields : List String) (guard token : Json), guard.keyed = true →
    Accepted fields guard →
    evaluateGuard token (normalizeGuardShape guard) = (parseGuard guard).holds token := by
  intro agrees
  have never := agrees defaultTokenFields (obj [("always", .bool false)]) (obj []) (by decide)
    ⟨"nodes[0].guard", by decide⟩
  exact absurd never (by decide)

/-! ### Halt conditions -/

/-- The comparison the runtime looks for in a halt condition. -/
def comparison? (condition : Json) : Option Fields :=
  match condition.field? "field_equals" with
  | some (obj comparison) => some comparison
  | _ => none

def compares (token : Json) (comparison : Fields) : Bool :=
  (token.getPath ((lookup "path" comparison).getD null).toStr).pyEq
    ((lookup "value" comparison).getD null)

/-- The condition decides without being asked further: it is true, or says `always: true`. -/
def decidesAlone : Json → Bool
  | .bool b => b
  | obj fs => isTrue ((lookup "always" fs).getD null)
  | _ => false

/-- The condition has a comparison, and what the runtime does not read of it changes nothing: every
operator beside the comparison holds of the token, and none is `always: true`. -/
def heeded (token : Json) : Json → Bool
  | obj fs => (comparison? (obj fs)).isSome && !decidesAlone (obj fs) &&
      guardEntries token (popKey "field_equals" fs)
  | _ => false

theorem comparison_entry {fs comparison : Fields} (compared : comparison? (obj fs) = some comparison) :
    lookup "field_equals" fs = some (obj comparison) := by
  simp only [comparison?, field?_obj] at compared
  split at compared
  · rename_i other isField
    rw [isField, Option.some.inj compared]
  · cases compared

/-- The evaluator on a condition with a comparison, in the parts the runtime's halt test tells apart. -/
theorem evaluate_condition {fs comparison : Fields} (isKeyed : (obj fs).keyed = true) (token : Json)
    (compared : comparison? (obj fs) = some comparison) :
    evaluateGuard token (obj fs) = (decidesAlone (obj fs) ||
      (compares token comparison && guardEntries token (popKey "field_equals" fs))) := by
  have distinct := (keyed_obj.mp isKeyed).1
  rw [evaluateGuard_obj, decidesAlone, guardEntries_eq, all_apart distinct "field_equals",
    comparison_entry compared]
  rfl

/-- On a stored condition with a comparison the halt test is the comparison. -/
theorem haltsOn_stored {artifact condition : Json} {name : String} {comparison : Fields}
    (stored : artifact.at? ["halt", name] = some condition)
    (compared : comparison? condition = some comparison) (word : String) (token : Json) :
    haltsOn name word artifact token = compares token comparison := by
  have deeper : artifact.at? ["halt", name, "field_equals"] = condition.field? "field_equals" := by
    refine (at?_below stored ["field_equals"]).trans ?_
    rw [at?_cons]
    cases condition.field? "field_equals" <;> rfl
  have has : condition.field? "field_equals" = some (obj comparison) := by
    unfold comparison? at compared
    cases isField : condition.field? "field_equals" with
    | none =>
      rw [isField] at compared
      cases compared
    | some value =>
      rw [isField] at compared
      cases value with
      | obj found => rw [Option.some.inj compared]
      | null | bool | num | str | arr => cases compared
  rw [haltsOn, deeper, has]
  rfl

/-- On a heeded condition the halt test is the evaluator. -/
theorem halt_of_heeded {artifact condition : Json} {name : String} (word : String) {token : Json}
    (isKeyed : condition.keyed = true) (stored : artifact.at? ["halt", name] = some condition)
    (isHeeded : heeded token condition = true) :
    haltsOn name word artifact token = evaluateGuard token condition := by
  cases condition with
  | obj fs =>
    simp only [heeded, Bool.and_eq_true, Bool.not_eq_true'] at isHeeded
    obtain ⟨⟨hasComparison, undecided⟩, others⟩ := isHeeded
    obtain ⟨comparison, compared⟩ := Option.isSome_iff_exists.mp hasComparison
    rw [haltsOn_stored stored compared, evaluate_condition isKeyed token compared, undecided, others,
      Bool.false_or, Bool.and_true]
  | null | bool | num | str | arr => cases isHeeded

/-- Where the comparison holds, only on a heeded condition, or one that says `always: true`. -/
theorem heeded_of_halt {artifact condition : Json} {name : String} (word : String) {token : Json}
    (isKeyed : condition.keyed = true) (stored : artifact.at? ["halt", name] = some condition)
    {comparison : Fields} (compared : comparison? condition = some comparison)
    (passes : compares token comparison = true)
    (agree : haltsOn name word artifact token = evaluateGuard token condition) :
    decidesAlone condition = true ∨ heeded token condition = true := by
  cases condition with
  | obj fs =>
    rw [haltsOn_stored stored compared, evaluate_condition isKeyed token compared, passes,
      Bool.true_and] at agree
    rcases (Bool.or_eq_true ..).mp agree.symm with alone | others
    · exact .inl alone
    · cases decided : decidesAlone (obj fs) with
      | true => exact .inl rfl
      | false => exact .inr (by simp [heeded, compared, decided, others])
  | null | bool | num | str | arr => cases compared

/-- The scaffold of one step, to halt in the phase after the terminal node. -/
def phaseHalt : Json :=
  withField "halt" (obj [("success", obj [("phase_is", str "completed")])])
    (brewCandidate (scaffoldNodes "brew" [brewStep]) [])

end Psop.Runtime
