import Psop.Dict
import Psop.Printable

/-!
JSON values and the dictionary operations a dynamically typed program performs on them.

An object is an association list whose first entry for a key counts, so insertion order is kept as
a `dict` keeps it. Reads go through `at?`, a lookup along a path of keys. Writes come in two forms:
`setParts` replaces whatever stands in its way by a new object, `alter?` is the chain of
`setdefault(key, {})` followed by one update of the last key and is undefined where that chain
would raise. `Apart` says that two paths diverge at some key; a write along one path never changes
a read along the other, and reads back what it wrote along its own.

Numbers are integers: no value compared or counted here is a fraction.
-/
namespace Psop

inductive Json where
  | null
  | bool (b : Bool)
  | num (n : Int)
  | str (s : String)
  | arr (items : List Json)
  | obj (fields : List (String × Json))
deriving Repr, Inhabited

namespace Json

abbrev Fields := List (String × Json)

/-! ### Objects -/

def lookup {α : Type} (key : String) : List (String × α) → Option α
  | [] => none
  | (k, v) :: rest => if k = key then some v else lookup key rest

/-- `d[key] = value`: the key keeps its place if it is there and is added last otherwise. -/
def setKey {α : Type} (key : String) (value : α) : List (String × α) → List (String × α)
  | [] => [(key, value)]
  | (k, v) :: rest => if k = key then (key, value) :: rest else (k, v) :: setKey key value rest

/-- `d.pop(key, None)`. -/
def popKey {α : Type} (key : String) (fields : List (String × α)) : List (String × α) :=
  fields.filter fun f => f.1 != key

/-- `{**left, **right}`. -/
def union (left right : Fields) : Fields := right.foldl (fun acc f => setKey f.1 f.2 acc) left

section Entries

variable {α : Type}

@[simp] theorem lookup_nil (key : String) : lookup key ([] : List (String × α)) = none := rfl

@[simp] theorem lookup_cons (key k : String) (v : α) (rest : List (String × α)) :
    lookup key ((k, v) :: rest) = if k = key then some v else lookup key rest := rfl

@[simp] theorem lookup_setKey_same (key : String) (value : α) (fields : List (String × α)) :
    lookup key (setKey key value fields) = some value := by
  induction fields with
  | nil => simp [setKey]
  | cons f rest ih =>
    obtain ⟨k, v⟩ := f
    by_cases same : k = key
    · simp [setKey, same]
    · simp [setKey, same, ih]

theorem lookup_setKey_other {key other : String} (differ : key ≠ other) (value : α)
    (fields : List (String × α)) : lookup other (setKey key value fields) = lookup other fields := by
  induction fields with
  | nil => simp [setKey, differ]
  | cons f rest ih =>
    obtain ⟨k, v⟩ := f
    by_cases same : k = key
    · simp [setKey, same, differ]
    · simp [setKey, same, ih]

/-- Assigning what is there changes nothing. -/
theorem setKey_self {key : String} {value : α} {fields : List (String × α)}
    (found : lookup key fields = some value) : setKey key value fields = fields := by
  induction fields with
  | nil => cases found
  | cons f rest ih =>
    obtain ⟨k, v⟩ := f
    rw [lookup_cons] at found
    by_cases same : k = key
    · rw [if_pos same] at found
      rw [setKey, if_pos same, ← Option.some.inj found, same]
    · rw [if_neg same] at found
      rw [setKey, if_neg same, ih found]

/-- The last of two assignments counts. -/
theorem setKey_setKey (key : String) (value other : α) (fields : List (String × α)) :
    setKey key value (setKey key other fields) = setKey key value fields := by
  induction fields with
  | nil => simp [setKey]
  | cons f rest ih =>
    obtain ⟨k, v⟩ := f
    by_cases same : k = key
    · simp [setKey, same]
    · simp [setKey, same, ih]

theorem mem_setKey {key : String} {value : α} {fields : List (String × α)} {f : String × α}
    (isEntry : f ∈ setKey key value fields) : f = (key, value) ∨ f ∈ fields := by
  induction fields with
  | nil => exact .inl (List.mem_singleton.mp isEntry)
  | cons g rest ih =>
    obtain ⟨k, v⟩ := g
    rw [setKey] at isEntry
    split at isEntry
    · rcases List.mem_cons.mp isEntry with new | old
      · exact .inl new
      · exact .inr (List.mem_cons_of_mem _ old)
    · rcases List.mem_cons.mp isEntry with rfl | later
      · exact .inr List.mem_cons_self
      · exact (ih later).imp id (List.mem_cons_of_mem _)

/-- An object is assigned to as any dictionary. -/
theorem setKey_eq_assign (key : String) (value : α) (fields : List (String × α)) :
    setKey key value fields = assign key value fields := by
  induction fields with
  | nil => rfl
  | cons f rest ih => rw [setKey, assign, ih]

theorem keys_setKey (key : String) (value : α) (fields : List (String × α)) :
    (setKey key value fields).map Prod.fst =
      if key ∈ fields.map Prod.fst then fields.map Prod.fst else fields.map Prod.fst ++ [key] := by
  rw [setKey_eq_assign, keys_assign]

theorem nodup_setKey {fields : List (String × α)} (distinct : (fields.map Prod.fst).Nodup) (key : String)
    (value : α) : ((setKey key value fields).map Prod.fst).Nodup := by
  rw [keys_setKey]
  split
  · exact distinct
  · rename_i fresh
    rw [List.nodup_append]
    refine ⟨distinct, List.nodup_singleton _, ?_⟩
    rintro k known j isNew rfl
    exact fresh (List.mem_singleton.mp isNew ▸ known)

theorem lookup_append (key : String) (left right : List (String × α)) :
    lookup key (left ++ right) = (lookup key left).or (lookup key right) := by
  induction left with
  | nil => simp
  | cons f rest ih =>
    obtain ⟨k, v⟩ := f
    by_cases same : k = key
    · simp [same]
    · simp [same, ih]

theorem lookup_popKey_other {key other : String} (differ : key ≠ other)
    (fields : List (String × α)) : lookup other (popKey key fields) = lookup other fields := by
  induction fields with
  | nil => rfl
  | cons f rest ih =>
    obtain ⟨k, v⟩ := f
    by_cases same : k = key
    · subst same
      simpa [popKey, differ] using ih
    · have kept : popKey key ((k, v) :: rest) = (k, v) :: popKey key rest := by
        simp [popKey, same]
      rw [kept, lookup_cons, lookup_cons, ih]

theorem lookup_popKey_same (key : String) (fields : List (String × α)) :
    lookup key (popKey key fields) = none := by
  induction fields with
  | nil => rfl
  | cons f rest ih =>
    by_cases same : f.1 = key
    · have dropped : popKey key (f :: rest) = popKey key rest := by simp [popKey, same]
      rw [dropped, ih]
    · have kept : popKey key (f :: rest) = f :: popKey key rest := by simp [popKey, same]
      rw [kept, lookup, if_neg same, ih]

theorem lookup_mem {key : String} {value : α} {fs : List (String × α)} (found : lookup key fs = some value) :
    (key, value) ∈ fs := by
  induction fs with
  | nil => cases found
  | cons f rest ih =>
    rw [lookup_cons] at found
    split at found
    · rename_i same
      obtain rfl := Option.some.inj found
      rw [← same]
      exact List.mem_cons_self
    · exact List.mem_cons_of_mem _ (ih found)

theorem lookup_none_of_not_mem {key : String} {fs : List (String × α)} (absent : key ∉ fs.map Prod.fst) :
    lookup key fs = none := by
  cases found : lookup key fs with
  | none => rfl
  | some value => exact absurd (List.mem_map_of_mem (lookup_mem found)) absent

/-- Objects with the same keys are equal where every lookup agrees. -/
theorem eq_of_lookups {fs gs : List (String × α)} (keys : fs.map Prod.fst = gs.map Prod.fst)
    (distinct : (fs.map Prod.fst).Nodup) (agree : ∀ key ∈ fs.map Prod.fst, lookup key fs = lookup key gs) :
    fs = gs := by
  induction fs generalizing gs with
  | nil => exact (List.map_eq_nil_iff.mp keys.symm).symm
  | cons f rest ih =>
    cases gs with
    | nil => cases keys
    | cons g others =>
      obtain ⟨k, v⟩ := f
      obtain ⟨l, w⟩ := g
      rw [List.map_cons, List.map_cons, List.cons.injEq] at keys
      obtain ⟨rfl, keys⟩ := keys
      rw [List.map_cons, List.nodup_cons] at distinct
      have first := agree k List.mem_cons_self
      rw [lookup_cons, lookup_cons, if_pos rfl, if_pos rfl] at first
      rw [Option.some.inj first, ih keys distinct.2 fun key isKey => ?_]
      have later := agree key (List.mem_cons_of_mem _ isKey)
      have differs : k ≠ key := by
        rintro rfl
        exact distinct.1 isKey
      rwa [lookup_cons, lookup_cons, if_neg differs, if_neg differs] at later

end Entries

/-! ### Reading a value -/

/-- The entries of an object, nothing for any other value. -/
def fields : Json → Fields
  | obj fs => fs
  | _ => []

def isObj : Json → Bool
  | obj _ => true
  | _ => false

/-- `value if isinstance(value, list) else []`. -/
def items : Json → List Json
  | arr xs => xs
  | _ => []

/-- `isinstance(d, dict) and key in d`, with the value. -/
def field? (key : String) (j : Json) : Option Json := lookup key j.fields

/-- `d.get(key)`, `None` where `d` is not an object. -/
def field (key : String) (j : Json) : Json := (j.field? key).getD null

/-- `bool(value)`. -/
def truthy : Json → Bool
  | null => false
  | bool b => b
  | num n => n != 0
  | str s => s != ""
  | arr xs => !xs.isEmpty
  | obj fs => !fs.isEmpty

/-- `left or right`. -/
def or (left right : Json) : Json := if left.truthy then left else right

/-- `isinstance(value, str)`, with the value. -/
def str? : Json → Option String
  | str s => some s
  | _ => none

/-- `isinstance(value, int)`, with the value: a boolean is an integer. -/
def int? : Json → Option Int
  | bool b => some (if b then 1 else 0)
  | num n => some n
  | _ => none

/-- `int(value)`, `none` where it raises. -/
def toInt? : Json → Option Int
  | bool b => some (if b then 1 else 0)
  | num n => some n
  | str s => Text.int? s
  | _ => none

/-- `int(value or 0)`. -/
def toIntOr0? (j : Json) : Option Int := if j.truthy then j.toInt? else some 0

def hexDigit (n : Nat) : Char := if n < 10 then Char.ofNat (48 + n) else Char.ofNat (87 + n)

/-- The last `width` hexadecimal digits. -/
def hexDigits : (width : Nat) → Nat → List Char
  | 0, _ => []
  | width + 1, n => hexDigits width (n / 16) ++ [hexDigit (n % 16)]

def quoteChar (quote : Char) (c : Char) : List Char :=
  if c = '\n' then ['\\', 'n'] else if c = '\r' then ['\\', 'r'] else if c = '\t' then ['\\', 't']
  else if c = '\\' then ['\\', '\\'] else if c = quote then ['\\', quote]
  else if Text.isPrintable c then [c]
  else if c.toNat ≤ 0xFF then '\\' :: 'x' :: hexDigits 2 c.toNat
  else if c.toNat ≤ 0xFFFF then '\\' :: 'u' :: hexDigits 4 c.toNat
  else '\\' :: 'U' :: hexDigits 8 c.toNat

/-- `repr` of a string: double quotes only around a text with a single and no double one. -/
def quote (s : String) : String :=
  let single := Char.ofNat 39
  let double := Char.ofNat 34
  let mark := if single ∈ s.toList && !(double ∈ s.toList) then double else single
  String.ofList (mark :: s.toList.flatMap (quoteChar mark) ++ [mark])

mutual
/-- `repr(value)`. -/
def repr : Json → String
  | null => "None"
  | bool b => if b then "True" else "False"
  | num n => toString n
  | str s => quote s
  | arr xs => "[" ++ Text.join ", " (reprItems xs) ++ "]"
  | obj fs => String.singleton (Char.ofNat 123) ++ Text.join ", " (reprFields fs) ++
      String.singleton (Char.ofNat 125)
termination_by structural x => x
def reprItems : List Json → List String
  | [] => []
  | x :: xs => repr x :: reprItems xs
termination_by structural x => x
def reprFields : List (String × Json) → List String
  | [] => []
  | f :: fs => reprField f :: reprFields fs
termination_by structural x => x
def reprField : String × Json → String
  | (k, v) => quote k ++ ": " ++ repr v
termination_by structural x => x
end

def escapeChar (c : Char) : List Char :=
  if c.toNat = 34 then ['\\', c] else if c = '\\' then ['\\', '\\']
  else if c = '\n' then ['\\', 'n'] else if c = '\r' then ['\\', 'r']
  else if c = '\t' then ['\\', 't'] else if c.toNat = 8 then ['\\', 'b']
  else if c.toNat = 12 then ['\\', 'f']
  else if c.toNat < 32 then ['\\', 'u', '0', '0', hexDigit (c.toNat / 16), hexDigit (c.toNat % 16)]
  else [c]

def dumpString (s : String) : String :=
  String.ofList (Char.ofNat 34 :: s.toList.flatMap escapeChar ++ [Char.ofNat 34])

mutual
/-- `json.dumps(value, ensure_ascii=False)`. -/
def dumps : Json → String
  | null => "null"
  | bool b => if b then "true" else "false"
  | num n => toString n
  | str s => dumpString s
  | arr xs => "[" ++ Text.join ", " (dumpItems xs) ++ "]"
  | obj fs => String.singleton (Char.ofNat 123) ++ Text.join ", " (dumpFields fs) ++
      String.singleton (Char.ofNat 125)
termination_by structural x => x
def dumpItems : List Json → List String
  | [] => []
  | x :: xs => dumps x :: dumpItems xs
termination_by structural x => x
def dumpFields : List (String × Json) → List String
  | [] => []
  | f :: fs => dumpField f :: dumpFields fs
termination_by structural x => x
def dumpField : String × Json → String
  | (k, v) => dumpString k ++ ": " ++ dumps v
termination_by structural x => x
end

/-- `str(value)`. -/
def toStr : Json → String
  | str s => s
  | j => j.repr

/-- `str(value or "")`. -/
def strOr (j : Json) (default : String := "") : String := if j.truthy then j.toStr else default

mutual
/-- `left == right`: booleans are integers and objects compare without regard to order. -/
def pyEq : Json → Json → Bool
  | null, null => true
  | str a, str b => a == b
  | arr xs, arr ys => pyEqItems xs ys
  | obj fs, obj gs => fs.length == gs.length && pyEqFields fs gs
  | bool a, b => b.int? == some (if a then 1 else 0)
  | num a, b => b.int? == some a
  | _, _ => false
termination_by structural x => x
def pyEqItems : List Json → List Json → Bool
  | [], [] => true
  | x :: xs, y :: ys => pyEq x y && pyEqItems xs ys
  | _, _ => false
termination_by structural x => x
def pyEqFields : List (String × Json) → Fields → Bool
  | [], _ => true
  | f :: fs, gs => pyEqField f gs && pyEqFields fs gs
termination_by structural x => x
def pyEqField : String × Json → Fields → Bool
  | (k, v), gs => match lookup k gs with
    | some w => pyEq v w
    | none => false
termination_by structural x => x
end

@[simp] theorem pyEq_str (a b : String) : pyEq (str a) (str b) = (a == b) := rfl

@[simp] theorem field?_obj (key : String) (fs : Fields) : (obj fs).field? key = lookup key fs := rfl

@[simp] theorem field_obj (key : String) (fs : Fields) :
    (obj fs).field key = (lookup key fs).getD null := rfl

@[simp] theorem truthy_str (s : String) : (str s).truthy = (s != "") := rfl

theorem toStr_str (s : String) : (str s).toStr = s := rfl

/-! ### Induction -/

/-- Induction over a value: through the elements of its lists and the values of its objects. -/
@[elab_as_elim]
theorem induct {motive : Json → Prop} (null : motive null) (bool : ∀ b, motive (bool b))
    (num : ∀ n, motive (num n)) (str : ∀ s, motive (str s))
    (arr : ∀ xs, (∀ x ∈ xs, motive x) → motive (arr xs))
    (obj : ∀ fs, (∀ f ∈ fs, motive f.2) → motive (obj fs)) (j : Json) : motive j :=
  @Json.rec motive (fun xs => ∀ x ∈ xs, motive x) (fun fs => ∀ f ∈ fs, motive f.2)
    (fun f => motive f.2) null bool num str arr obj (fun _ h => nomatch h)
    (fun _ _ head tail => List.forall_mem_cons.mpr ⟨head, tail⟩) (fun _ h => nomatch h)
    (fun _ _ head tail => List.forall_mem_cons.mpr ⟨head, tail⟩) (fun _ _ value => value) j

/-! ### Distinct keys -/

mutual
/-- Every object in the value has each of its keys once, as a `dict` does. -/
def keyed : Json → Bool
  | arr xs => keyedItems xs
  | obj fs => decide (fs.map Prod.fst).Nodup && keyedFields fs
  | _ => true
termination_by structural x => x
def keyedItems : List Json → Bool
  | [] => true
  | x :: xs => keyed x && keyedItems xs
termination_by structural x => x
def keyedFields : List (String × Json) → Bool
  | [] => true
  | f :: fs => keyedField f && keyedFields fs
termination_by structural x => x
def keyedField : String × Json → Bool
  | (_, value) => keyed value
termination_by structural x => x
end

theorem keyed_arr {xs : List Json} : keyed (arr xs) = true ↔ ∀ x ∈ xs, keyed x = true := by
  show keyedItems xs = true ↔ _
  induction xs with
  | nil => simp [keyedItems]
  | cons x xs ih => simp [keyedItems, ih]

theorem keyed_obj {fs : Fields} :
    keyed (obj fs) = true ↔ (fs.map Prod.fst).Nodup ∧ ∀ f ∈ fs, keyed f.2 = true := by
  have values : keyedFields fs = true ↔ ∀ f ∈ fs, keyed f.2 = true := by
    induction fs with
    | nil => simp [keyedFields]
    | cons f fs ih =>
      obtain ⟨key, value⟩ := f
      rw [keyedFields, Bool.and_eq_true, ih, List.forall_mem_cons]
      rfl
  simp only [keyed, Bool.and_eq_true, decide_eq_true_eq, values]

/-- Where keys are distinct, every entry is the one its key finds. -/
theorem lookup_of_mem {fs : Fields} (distinct : (fs.map Prod.fst).Nodup) {f : String × Json}
    (isEntry : f ∈ fs) : lookup f.1 fs = some f.2 := by
  induction fs with
  | nil => cases isEntry
  | cons g rest ih =>
    rw [List.map_cons, List.nodup_cons] at distinct
    rcases List.mem_cons.mp isEntry with rfl | isLater
    · exact if_pos rfl
    · have differ : g.1 ≠ f.1 := fun same =>
        distinct.1 (same ▸ List.mem_map_of_mem isLater)
      rw [lookup, if_neg differ]
      exact ih distinct.2 isLater

/-- A rewriting of the values under each key is seen by every lookup. -/
theorem lookup_map {α β : Type} (change : String → α → β) (key : String) (fs : List (String × α)) :
    lookup key (fs.map fun f => (f.1, change f.1 f.2)) = (lookup key fs).map (change key) := by
  induction fs with
  | nil => rfl
  | cons f rest ih =>
    rw [List.map_cons, lookup_cons, ih, lookup]
    split
    · rename_i same
      rw [same]
      rfl
    · rfl

/-- Where keys are distinct, an assignment to a key that is there changes that entry alone. -/
theorem setKey_eq_map {fs : Fields} (distinct : (fs.map Prod.fst).Nodup) {key : String}
    {value : Json} (present : key ∈ fs.map Prod.fst) :
    setKey key value fs = fs.map fun f => (f.1, if f.1 = key then value else f.2) := by
  induction fs with
  | nil => cases present
  | cons f rest ih =>
    rw [List.map_cons, List.nodup_cons] at distinct
    by_cases same : f.1 = key
    · have others : rest.map (fun f => (f.1, if f.1 = key then value else f.2)) = rest := by
        refine (List.map_congr_left fun g isLater => ?_).trans (List.map_id rest)
        have differ : g.1 ≠ key := fun again =>
          distinct.1 (same ▸ again ▸ List.mem_map_of_mem isLater)
        rw [if_neg differ]
        rfl
      rw [setKey, if_pos same, List.map_cons, others, if_pos same, same]
    · have later : key ∈ rest.map Prod.fst :=
        (List.mem_cons.mp present).resolve_left fun first => same first.symm
      rw [setKey, if_neg same, ih distinct.2 later, List.map_cons, if_neg same]

/-! ### Paths -/

/-- The value along a path of keys, `none` as soon as a key is missing. -/
def at? : List String → Json → Option Json
  | [], j => some j
  | key :: path, j => (j.field? key).bind (at? path)

/-- `path.split(".")`. -/
def pathParts (path : String) : List String := Text.splitOn '.' path

/-- The value at a dotted path, `None` where it is missing. -/
def getPath (path : String) (j : Json) : Json :=
  if path = "" then null else (j.at? (pathParts path)).getD null

/-- The write at the end of a path, replacing by a new object every value on the way that is not
one. -/
def setParts : List String → Json → Json → Json
  | [], value, _ => value
  | key :: path, value, j => obj (setKey key (setParts path value ((j.field? key).getD null)) j.fields)

/-- One update at the end of a chain of `setdefault(key, {})`: `none` where a value on the way is
not an object, or where the update itself raises. -/
def alter? : List String → (Option Json → Option Json) → Option Json → Option Json
  | [], update, current => update current
  | key :: path, update, current => match current.getD (obj []) with
    | obj fs => (alter? path update (lookup key fs)).map fun value => obj (setKey key value fs)
    | _ => none

/-- `j[k₁]…[kₙ] = value`. -/
def put? (j : Json) (path : List String) (value : Json) : Option Json :=
  alter? path (fun _ => some value) (some j)

/-- `j[k₁]….setdefault(kₙ, []).append(value)`. -/
def push? (j : Json) (path : List String) (value : Json) : Option Json :=
  alter? path (fun current => match current.getD (arr []) with
    | arr xs => some (arr (xs ++ [value]))
    | _ => none) (some j)

/-- `j[k₁]….setdefault(kₙ, value)`. -/
def setDefault? (j : Json) (path : List String) (value : Json) : Option Json :=
  alter? path (fun current => some (current.getD value)) (some j)

/-- `j.setdefault(key, {}).pop(inner, None)`. -/
def pop? (j : Json) (key inner : String) : Option Json :=
  alter? [key] (fun current => match current.getD (obj []) with
    | obj fs => some (obj (popKey inner fs))
    | _ => none) (some j)

/-- The two paths part at some key, so neither runs through the end of the other. -/
def apart : List String → List String → Bool
  | k :: ks, l :: ls => k != l || apart ks ls
  | _, _ => false

def Apart (p q : List String) : Prop := apart p q = true

instance (p q : List String) : Decidable (Apart p q) := inferInstanceAs (Decidable (apart p q = true))

theorem Apart.cons {k l : String} {p q : List String} (h : Apart (k :: p) (l :: q)) :
    k ≠ l ∨ Apart p q := by
  simpa [Apart, apart] using h

theorem apart_of_head {k l : String} (differ : k ≠ l) (p q : List String) :
    Apart (k :: p) (l :: q) := by
  simp [Apart, apart, differ]

theorem Apart.symm {p q : List String} (h : Apart p q) : Apart q p := by
  induction p generalizing q with
  | nil => exact absurd h (by simp [Apart, apart])
  | cons k ks ih =>
    cases q with
    | nil => exact absurd h (by simp [Apart, apart])
    | cons l ls =>
      rcases h.cons with differ | rest
      · exact apart_of_head (Ne.symm differ) ls ks
      · have back : apart ls ks = true := ih rest
        simp [Apart, apart, back]

@[simp] theorem at?_nil (j : Json) : at? [] j = some j := rfl

theorem at?_cons (key : String) (path : List String) (j : Json) :
    at? (key :: path) j = (j.field? key).bind (at? path) := rfl

/-- A longer path continues from where the shorter one ends. -/
theorem at?_append (p q : List String) (j : Json) : at? (p ++ q) j = (at? p j).bind (at? q) := by
  induction p generalizing j with
  | nil => rfl
  | cons key path ih =>
    simp only [List.cons_append, at?_cons, Option.bind_assoc]
    exact congrArg _ (funext ih)

theorem at?_below {p : List String} {j value : Json} (found : at? p j = some value)
    (q : List String) : at? (p ++ q) j = at? q value := by
  rw [at?_append, found, Option.bind_some]

/-- A write is read back along its own path. -/
@[simp] theorem at?_setParts_same (path : List String) (value j : Json) :
    at? path (setParts path value j) = some value := by
  induction path generalizing j with
  | nil => rfl
  | cons key path ih => simp [setParts, at?_cons, ih]

/-- A write is not seen along any path apart from it. -/
theorem at?_setParts_apart {p q : List String} (h : Apart p q) (value j : Json) :
    at? q (setParts p value j) = at? q j := by
  induction p generalizing q j with
  | nil => exact absurd h (by simp [Apart, apart])
  | cons k ks ih =>
    cases q with
    | nil => exact absurd h (by simp [Apart, apart])
    | cons l ls =>
      rw [at?_cons, at?_cons]
      by_cases same : k = l
      · subst same
        have rest : Apart ks ls := (h.cons).resolve_left (fun differ => differ rfl)
        rw [setParts, field?_obj, lookup_setKey_same, Option.bind_some, ih rest]
        cases found : field? k j with
        | none => cases ls with
          | nil => exact absurd rest (by simp [Apart, apart])
          | cons m ms => simp [at?_cons, field?, fields]
        | some inner => rfl
      · rw [setParts, field?_obj, lookup_setKey_other same]
        rfl

/-- What an update leaves at its own path, from what was there. -/
theorem at?_alter?_same {path : List String} {update : Option Json → Option Json} {j j' : Json}
    (h : alter? path update (some j) = some j') :
    ∃ value, update (at? path j) = some value ∧ at? path j' = some value := by
  suffices general : ∀ current, alter? path update current = some j' →
      ∃ value, update (current.bind (at? path)) = some value ∧ at? path j' = some value by
    exact general (some j) h
  clear h
  induction path generalizing j' with
  | nil =>
    intro current h
    cases current <;> exact ⟨j', h, rfl⟩
  | cons key path ih =>
    intro current h
    simp only [alter?] at h
    split at h
    · rename_i fs isFields
      obtain ⟨value, inner, rfl⟩ := Option.map_eq_some_iff.mp h
      obtain ⟨last, updated, readBack⟩ := ih _ inner
      refine ⟨last, ?_, by simp [at?_cons, readBack]⟩
      cases current with
      | none =>
        obtain rfl : fs = [] := by simpa using isFields.symm
        simpa using updated
      | some j =>
        obtain rfl : j = obj fs := by simpa using isFields
        simpa [at?_cons] using updated
    · cases h

/-- An update is not seen along any path apart from it. -/
theorem at?_alter?_apart {p q : List String} (h : Apart p q) {update : Option Json → Option Json}
    {j j' : Json} (altered : alter? p update (some j) = some j') : at? q j' = at? q j := by
  suffices general : ∀ current, alter? p update current = some j' →
      at? q j' = current.bind (at? q) by
    exact general (some j) altered
  clear altered
  induction p generalizing q j' with
  | nil => exact absurd h (by simp [Apart, apart])
  | cons k ks ih =>
    intro current altered
    cases q with
    | nil => exact absurd h (by simp [Apart, apart])
    | cons l ls =>
      simp only [alter?] at altered
      split at altered
      · rename_i fs isFields
        obtain ⟨value, inner, rfl⟩ := Option.map_eq_some_iff.mp altered
        have reads : current.bind (at? (l :: ls)) = (lookup l fs).bind (at? ls) := by
          cases current with
          | none =>
            obtain rfl : fs = [] := by simpa using isFields.symm
            rfl
          | some j =>
            obtain rfl : j = obj fs := by simpa using isFields
            rfl
        rw [reads, at?_cons, field?_obj]
        by_cases same : k = l
        · subst same
          have rest : Apart ks ls := (h.cons).resolve_left (fun differ => differ rfl)
          rw [lookup_setKey_same, Option.bind_some, ih rest _ inner]
        · rw [lookup_setKey_other same]
      · cases altered

theorem at?_put?_same {path : List String} {value j j' : Json} (h : j.put? path value = some j') :
    at? path j' = some value := by
  obtain ⟨_, written, readBack⟩ := at?_alter?_same h
  rw [readBack, ← written]

theorem at?_put?_apart {p q : List String} (h : Apart p q) {value j j' : Json}
    (written : j.put? p value = some j') : at? q j' = at? q j := at?_alter?_apart h written

/-- What `append` finds and leaves. -/
theorem at?_push?_same {path : List String} {value j j' : Json}
    (h : j.push? path value = some j') :
    ∃ xs, (at? path j).getD (arr []) = arr xs ∧ at? path j' = some (arr (xs ++ [value])) := by
  obtain ⟨_, written, readBack⟩ := at?_alter?_same h
  split at written
  · rename_i xs found
    exact ⟨xs, found, by rw [readBack, ← written]⟩
  · cases written

theorem at?_push?_apart {p q : List String} (h : Apart p q) {value j j' : Json}
    (pushed : j.push? p value = some j') : at? q j' = at? q j := at?_alter?_apart h pushed

theorem at?_setDefault?_same {path : List String} {value j j' : Json}
    (h : j.setDefault? path value = some j') : at? path j' = some ((at? path j).getD value) := by
  obtain ⟨_, written, readBack⟩ := at?_alter?_same h
  rw [readBack, ← written]

theorem at?_setDefault?_apart {p q : List String} (h : Apart p q) {value j j' : Json}
    (written : j.setDefault? p value = some j') : at? q j' = at? q j := at?_alter?_apart h written

theorem keyed_field {j : Json} (isKeyed : j.keyed = true) (key : String) :
    (j.field key).keyed = true := by
  cases j with
  | obj fs =>
    rw [field_obj]
    cases found : lookup key fs with
    | none => rfl
    | some value => exact (keyed_obj.mp isKeyed).2 _ (lookup_mem found)
  | null | bool | num | str | arr => rfl

theorem keyed_items {j : Json} (isKeyed : j.keyed = true) : ∀ x ∈ j.items, x.keyed = true := by
  cases j with
  | arr xs => exact keyed_arr.mp isKeyed
  | null | bool | num | str | obj => exact fun _ none => nomatch none

theorem keyed_at? {path : List String} {j value : Json} (isKeyed : j.keyed = true)
    (found : at? path j = some value) : value.keyed = true := by
  induction path generalizing j with
  | nil =>
    obtain rfl := Option.some.inj found
    exact isKeyed
  | cons key path ih =>
    obtain ⟨inner, isField, below⟩ := Option.bind_eq_some_iff.mp found
    cases j with
    | obj fs => exact ih ((keyed_obj.mp isKeyed).2 _ (lookup_mem isField)) below
    | null | bool | num | str | arr => cases isField

end Json
end Psop
