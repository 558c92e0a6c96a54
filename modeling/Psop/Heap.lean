import Psop.Json
import Mathlib.Data.List.Forall2

/-!
Objects held by reference.

An interpreter holds an object by its address: a write through one path to it is seen through every
other. A `Heap` is the list of the objects, `load` puts a value into it and `read` takes one out again,
undefined where an object holds itself. `walk` follows a path of keys, `set` writes at the end of one.

Where every address carries a state and every key leads from the state of an object to the state of the
object it holds (`Typed`), a path alone decides where it can lead. `set_typed` says what such a heap
needs of a write, `set_apart` that a write along one path is not seen along another, if no object on
the other path was ever stored a second time.
-/
namespace Psop

open Json

/-- A value as it is held: an object by its address, any other value as it is. -/
inductive Value where
  | plain (value : Json) (flat : value.isObj = false)
  | ref (address : Nat)

abbrev Cell := List (String × Value)

/-- The objects, each at its address. -/
abbrev Heap := List Cell

namespace Heap

mutual
def load : Json → Heap → Value × Heap
  | null, h => (.plain null rfl, h)
  | .bool b, h => (.plain (.bool b) rfl, h)
  | num n, h => (.plain (num n) rfl, h)
  | str s, h => (.plain (str s) rfl, h)
  | arr xs, h => (.plain (arr xs) rfl, h)
  | obj fs, h =>
    let (cell, h) := loadFields fs h
    (.ref h.length, h ++ [cell])
termination_by structural x => x
def loadFields : List (String × Json) → Heap → Cell × Heap
  | [], h => ([], h)
  | f :: fs, h =>
    let (entry, h) := loadField f h
    let (cell, h) := loadFields fs h
    (entry :: cell, h)
termination_by structural x => x
def loadField : String × Json → Heap → (String × Value) × Heap
  | (key, value), h =>
    let (value, h) := load value h
    ((key, value), h)
termination_by structural x => x
end

/-- The value an address holds, through at most `depth` objects. -/
def read (h : Heap) : (depth : Nat) → Value → Option Json
  | _, .plain value _ => some value
  | 0, .ref _ => none
  | depth + 1, .ref a => (h[a]?).bind fun cell =>
      (cell.mapM fun entry => (read h depth entry.2).map (Prod.mk entry.1)).map obj

/-- The value along a path of keys. -/
def walk (h : Heap) : List String → Value → Option Value
  | [], v => some v
  | _ :: _, .plain _ _ => none
  | key :: path, .ref a => ((h[a]?).bind (lookup key)).bind (walk h path)

/-- `d[key] = value` -/
def put (a : Nat) (key : String) (v : Value) (h : Heap) : Heap := h.modify a (setKey key v)

/-- `d[key] = {}` -/
def putNew (a : Nat) (key : String) (h : Heap) : Heap := (h ++ [[]]).put a key (.ref h.length)

/-- The write at the end of a path from an object: whatever on the way is no object is replaced by a new
one. -/
def set : List String → Value → Nat → Heap → Heap
  | [], _, _, h => h
  | [key], v, a, h => h.put a key v
  | key :: path, v, a, h => match (h[a]?).bind (lookup key) with
    | some (.ref b) => set path v b h
    | _ => set path v h.length (h.putNew a key)

/-! ### Reading -/

theorem mapM_eq_some {α β : Type} {f : α → Option β} {xs : List α} {ys : List β} :
    xs.mapM f = some ys ↔ List.Forall₂ (fun x y => f x = some y) xs ys := by
  induction xs generalizing ys with
  | nil => simp [eq_comm]
  | cons x xs ih =>
    rw [List.mapM_cons, List.forall₂_cons_left_iff]
    simp only [Option.bind_eq_bind, Option.bind_eq_some_iff, Option.pure_def, Option.some.injEq, ih]
    constructor
    · rintro ⟨y, isY, ys, isYs, rfl⟩
      exact ⟨y, ys, isY, isYs, rfl⟩
    · rintro ⟨y, ys, isY, isYs, rfl⟩
      exact ⟨y, isY, ys, isYs, rfl⟩

theorem mapM_congr {α β : Type} {f g : α → Option β} {xs : List α} (same : ∀ x ∈ xs, f x = g x) :
    xs.mapM f = xs.mapM g := by
  induction xs with
  | nil => rfl
  | cons x xs ih =>
    rw [List.mapM_cons, List.mapM_cons, same x List.mem_cons_self,
      ih fun x isLater => same x (List.mem_cons_of_mem _ isLater)]

section Reading

variable {h h' : Heap} {v : Value} {j : Json}

/-- The entries of an object as they are read. -/
def Reads (h : Heap) (depth : Nat) (cell : Cell) (fs : Fields) : Prop :=
  List.Forall₂ (fun entry f => f.1 = entry.1 ∧ h.read depth entry.2 = some f.2) cell fs

theorem reads_iff {depth : Nat} {cell : Cell} {fs : Fields} :
    cell.mapM (fun entry => (h.read depth entry.2).map (Prod.mk entry.1)) = some fs ↔
      h.Reads depth cell fs := by
  have each : (fun entry f => (h.read depth entry.2).map (Prod.mk entry.1) = some f) =
      fun (entry : String × Value) (f : String × Json) =>
        f.1 = entry.1 ∧ h.read depth entry.2 = some f.2 := by
    funext entry f
    rw [Option.map_eq_some_iff, eq_iff_iff]
    constructor
    · rintro ⟨value, isValue, rfl⟩
      exact ⟨rfl, isValue⟩
    · rintro ⟨sameKey, isValue⟩
      exact ⟨f.2, isValue, by rw [← sameKey]⟩
  rw [mapM_eq_some, each, Reads]

theorem read_ref {depth a : Nat} : h.read (depth + 1) (.ref a) = some j ↔
    ∃ cell fs, h[a]? = some cell ∧ h.Reads depth cell fs ∧ j = obj fs := by
  rw [read, Option.bind_eq_some_iff]
  constructor
  · rintro ⟨cell, stored, reads⟩
    obtain ⟨fs, entries, rfl⟩ := Option.map_eq_some_iff.mp reads
    exact ⟨cell, fs, stored, reads_iff.mp entries, rfl⟩
  · rintro ⟨cell, fs, stored, entries, rfl⟩
    exact ⟨cell, stored, by rw [reads_iff.mpr entries]; rfl⟩

theorem read_plain {depth : Nat} {value : Json} {flat : value.isObj = false} :
    h.read depth (.plain value flat) = some value := by
  cases depth <;> rfl

/-- A value is read alike from a heap that has the same objects, and to any greater depth. -/
theorem read_mono {depth more : Nat} (reads : h.read depth v = some j) (within : depth ≤ more)
    (same : ∀ (a : Nat) cell, h[a]? = some cell → h'[a]? = some cell) : h'.read more v = some j := by
  induction depth generalizing more v j with
  | zero =>
    cases v with
    | plain => exact read_plain.trans (read_plain.symm.trans reads)
    | ref => cases reads
  | succ depth ih =>
    cases v with
    | plain => exact read_plain.trans (read_plain.symm.trans reads)
    | ref a =>
      obtain ⟨cell, fs, stored, entries, rfl⟩ := read_ref.mp reads
      obtain ⟨more, rfl⟩ := Nat.exists_eq_add_of_le' (Nat.one_le_of_lt within)
      exact read_ref.mpr ⟨cell, fs, same a cell stored,
        entries.imp fun _ _ is => ⟨is.1, ih is.2 (Nat.le_of_succ_le_succ within)⟩, rfl⟩

theorem Reads.lookup {depth : Nat} {cell : Cell} {fs : Fields} (entries : h.Reads depth cell fs)
    (key : String) : Json.lookup key fs = (Json.lookup key cell).bind (h.read depth) := by
  induction entries with
  | nil => rfl
  | @cons entry f _ _ is _ ih =>
    rw [Json.lookup, Json.lookup, ih, ← is.1]
    split
    · exact is.2.symm
    · rfl

theorem Reads.defined {depth : Nat} {cell : Cell} {fs : Fields} (entries : h.Reads depth cell fs)
    {key : String} {w : Value} (has : Json.lookup key cell = some w) : ∃ i, h.read depth w = some i := by
  induction entries with
  | nil => cases has
  | @cons entry f _ _ is _ ih =>
    rw [Json.lookup] at has
    split at has
    · obtain rfl := Option.some.inj has
      exact ⟨_, is.2⟩
    · exact ih has

/-- A path leads to the same place in what is read. -/
theorem at_read {depth : Nat} (reads : h.read depth v = some j) (path : List String) :
    at? path j = (h.walk path v).bind (h.read depth) ∧
      ∀ u, h.walk path v = some u → (h.read depth u).isSome := by
  induction path generalizing depth v j with
  | nil =>
    refine ⟨reads.symm, fun u isU => ?_⟩
    obtain rfl := Option.some.inj isU
    rw [reads]
    rfl
  | cons key path ih =>
    cases v with
    | plain value flat =>
      obtain rfl : value = j := Option.some.inj (read_plain.symm.trans reads)
      refine ⟨?_, fun u isU => by cases isU⟩
      cases value with
      | obj => cases flat
      | null | bool | num | str | arr => rfl
    | ref a =>
      cases depth with
      | zero => cases reads
      | succ depth =>
        obtain ⟨cell, fs, stored, entries, rfl⟩ := read_ref.mp reads
        rw [at?_cons, field?_obj, entries.lookup, walk, stored, Option.bind_some]
        cases has : Json.lookup key cell with
        | none => exact ⟨rfl, fun u isU => by cases isU⟩
        | some w =>
          obtain ⟨i, below⟩ := entries.defined has
          obtain ⟨same, defined⟩ := ih below
          have deeper : ∀ u, h.walk path w = some u → h.read (depth + 1) u = h.read depth u := by
            intro u isU
            obtain ⟨value, isValue⟩ := Option.isSome_iff_exists.mp (defined u isU)
            rw [isValue, read_mono isValue (Nat.le_succ _) fun _ _ is => is]
          rw [Option.bind_some, Option.bind_some, below, Option.bind_some, same]
          refine ⟨Option.bind_congr fun u isU => (deeper u isU).symm, fun u isU => ?_⟩
          rw [deeper u isU]
          exact defined u isU

end Reading

/-! ### States -/

section States

variable {S : Type} {next : S → String → S} {h h' k : Heap} {states states' statesK : Nat → S}

/-- A value is no object, or an object of the heap in this state. -/
def At (h : Heap) (states : Nat → S) (s : S) (v : Value) : Prop :=
  ∀ a, v = .ref a → a < h.length ∧ states a = s

/-- Every key leads from the state of an object to the state of what it holds. -/
def Typed (next : S → String → S) (h : Heap) (states : Nat → S) : Prop :=
  ∀ (a : Nat) cell, h[a]? = some cell → ∀ entry ∈ cell, h.At states (next (states a) entry.1) entry.2

theorem at_plain {s : S} {value : Json} {flat : value.isObj = false} :
    h.At states s (.plain value flat) := fun _ isRef => by cases isRef

/-- Objects are added behind those there are. -/
structure Grows (next : S → String → S) (h : Heap) (states : Nat → S) (h' : Heap)
    (states' : Nat → S) : Prop where
  cells : h <+: h'
  old : ∀ a < h.length, states' a = states a
  typed : Typed next h' states'

theorem Grows.stored (grows : Grows next h states h' states') {a : Nat} {cell : Cell}
    (stored : h[a]? = some cell) : h'[a]? = some cell := by
  obtain ⟨more, rfl⟩ := grows.cells
  rw [List.getElem?_append_left (List.getElem?_eq_some_iff.mp stored).1, stored]

theorem Grows.at (grows : Grows next h states h' states') {s : S} {v : Value}
    (isAt : h.At states s v) : h'.At states' s v := by
  intro a isRef
  obtain ⟨isIn, is⟩ := isAt a isRef
  exact ⟨isIn.trans_le grows.cells.length_le, (grows.old a isIn).trans is⟩

theorem Typed.refl (typed : Typed next h states) : Grows next h states h states :=
  ⟨List.prefix_rfl, fun _ _ => rfl, typed⟩

theorem Grows.trans (first : Grows next h states h' states') (second : Grows next h' states' k statesK) :
    Grows next h states k statesK :=
  ⟨first.cells.trans second.cells, fun a isIn =>
    (second.old a (isIn.trans_le first.cells.length_le)).trans (first.old a isIn), second.typed⟩

theorem Grows.reads (grows : Grows next h states h' states') {depth more : Nat} {cell : Cell} {fs : Fields}
    (within : depth ≤ more) (entries : h.Reads depth cell fs) : h'.Reads more cell fs :=
  entries.imp fun _ _ is => ⟨is.1, read_mono is.2 within fun _ _ => grows.stored⟩

/-- One more address, with its state. -/
def extend (states : Nat → S) (n : Nat) (s : S) (a : Nat) : S := if a = n then s else states a

theorem extend_same (states : Nat → S) (n : Nat) (s : S) : extend states n s n = s := if_pos rfl

theorem extend_other (states : Nat → S) {n : Nat} (s : S) {a : Nat} (isIn : a < n) :
    extend states n s a = states a := if_neg (Nat.ne_of_lt isIn)

/-- A new object, in any state that suits its entries. -/
theorem Typed.push (typed : Typed next h states) {cell : Cell} {s : S}
    (entries : ∀ entry ∈ cell, h.At states (next s entry.1) entry.2) :
    Grows next h states (h ++ [cell]) (extend states h.length s) := by
  have old : ∀ {t v}, h.At states t v → (h ++ [cell]).At (extend states h.length s) t v := by
    intro t v isAt a isRef
    obtain ⟨isIn, is⟩ := isAt a isRef
    refine ⟨?_, (extend_other states s isIn).trans is⟩
    rw [List.length_append]
    omega
  refine ⟨List.prefix_append _ _, fun a => extend_other states s, fun a cell' stored => ?_⟩
  rcases Nat.lt_or_ge a h.length with isIn | beyond
  · rw [List.getElem?_append_left isIn] at stored
    rw [extend_other states s isIn]
    exact fun entry isEntry => old (typed a cell' stored entry isEntry)
  · rw [List.getElem?_append_right beyond] at stored
    obtain ⟨isLast, isCell⟩ := List.getElem?_eq_some_iff.mp stored
    obtain rfl : a = h.length := by
      rw [List.length_singleton] at isLast
      omega
    rw [extend_same]
    intro entry isEntry
    refine old (entries entry ?_)
    rw [← isCell] at isEntry
    simpa using isEntry

/-- What loading a value leaves. -/
structure Loads (next : S → String → S) (h : Heap) (states : Nat → S) (s : S) (j : Json) (v : Value)
    (h' : Heap) (states' : Nat → S) : Prop where
  grows : Grows next h states h' states'
  at_ : h'.At states' s v
  read : ∃ depth, depth + h.length ≤ h'.length ∧ h'.read depth v = some j

/-- What loading the entries of an object leaves. -/
structure LoadsFields (next : S → String → S) (h : Heap) (states : Nat → S) (s : S) (fs : Fields)
    (cell : Cell) (h' : Heap) (states' : Nat → S) : Prop where
  grows : Grows next h states h' states'
  at_ : ∀ entry ∈ cell, h'.At states' (next s entry.1) entry.2
  reads : ∃ depth, depth + h.length ≤ h'.length ∧ h'.Reads depth cell fs

theorem load_fields_of {fs : Fields}
    (each : ∀ f ∈ fs, ∀ {h : Heap} {states : Nat → S}, Typed next h states → ∀ s, ∃ states',
      Loads next h states s f.2 (load f.2 h).1 (load f.2 h).2 states')
    (typed : Typed next h states) (s : S) : ∃ states',
      LoadsFields next h states s fs (loadFields fs h).1 (loadFields fs h).2 states' := by
  induction fs generalizing h states with
  | nil => exact ⟨states, typed.refl, by simp [loadFields], 0, by simp [loadFields], .nil⟩
  | cons f fs ih =>
    obtain ⟨key, value⟩ := f
    obtain ⟨states₁, first⟩ := each _ List.mem_cons_self typed (next s key)
    obtain ⟨states₂, rest⟩ := ih (fun f isLater => each f (List.mem_cons_of_mem _ isLater)) first.grows.typed
    dsimp only at first rest
    refine ⟨states₂, first.grows.trans rest.grows, ?_, ?_⟩
    · intro entry isEntry
      rcases List.mem_cons.mp isEntry with rfl | isLater
      · exact rest.grows.at first.at_
      · exact rest.at_ entry isLater
    · obtain ⟨depth₁, within₁, reads₁⟩ := first.read
      obtain ⟨depth₂, within₂, reads₂⟩ := rest.reads
      have below := rest.grows.cells.length_le
      have above := first.grows.cells.length_le
      refine ⟨max depth₁ depth₂, ?_, .cons ⟨rfl, ?_⟩ ?_⟩
      · change max depth₁ depth₂ + h.length ≤ (loadFields fs (load value h).2).2.length
        omega
      · exact read_mono reads₁ (le_max_left _ _) fun _ _ => rest.grows.stored
      · exact reads₂.imp fun _ _ is => ⟨is.1, read_mono is.2 (le_max_right _ _) fun _ _ is => is⟩

/-- A loaded value is read back, and its objects can be given any states that lead on from its own. -/
theorem load_spec (j : Json) {h : Heap} {states : Nat → S} (typed : Typed next h states) (s : S) :
    ∃ states', Loads next h states s j (load j h).1 (load j h).2 states' := by
  induction j using Json.induct generalizing h states s with
  | null | bool | num | str | arr =>
    exact ⟨states, typed.refl, at_plain, 0, by simp [load], rfl⟩
  | obj fs ih =>
    obtain ⟨states', loaded⟩ := load_fields_of (fun f isField _ _ typed s => ih f isField typed s) typed s
    have pushed := loaded.grows.typed.push loaded.at_
    refine ⟨_, loaded.grows.trans pushed, fun a isRef => ?_, ?_⟩
    · obtain rfl := Value.ref.inj isRef
      refine ⟨?_, extend_same ..⟩
      change (loadFields fs h).2.length < ((loadFields fs h).2 ++ [_]).length
      simp
    · obtain ⟨depth, within, reads⟩ := loaded.reads
      refine ⟨depth + 1, ?_, read_ref.mpr ⟨_, fs, ?_, pushed.reads le_rfl reads, rfl⟩⟩
      · change depth + 1 + h.length ≤ ((loadFields fs h).2 ++ [_]).length
        rw [List.length_append, List.length_singleton]
        omega
      · change ((loadFields fs h).2 ++ [_])[(loadFields fs h).2.length]? = _
        simp

theorem load_fields_spec (fs : Fields) (typed : Typed next h states) (s : S) : ∃ states',
    LoadsFields next h states s fs (loadFields fs h).1 (loadFields fs h).2 states' :=
  load_fields_of (fun f _ _ _ typed s => load_spec f.2 typed s) typed s

/-- A path leads to a state. -/
theorem Typed.walk (typed : Typed next h states) {path : List String} {s : S} {v u : Value}
    (isAt : h.At states s v) (leads : h.walk path v = some u) : h.At states (path.foldl next s) u := by
  induction path generalizing s v with
  | nil =>
    obtain rfl := Option.some.inj leads
    exact isAt
  | cons key path ih =>
    cases v with
    | plain => cases leads
    | ref a =>
      obtain ⟨w, has, leads⟩ := Option.bind_eq_some_iff.mp leads
      obtain ⟨cell, stored, has⟩ := Option.bind_eq_some_iff.mp has
      obtain ⟨-, rfl⟩ := isAt a rfl
      exact ih (typed a cell stored _ (lookup_mem has)) leads

/-- A path leads on within states whose objects have not changed. -/
theorem Typed.walk_same (typed : Typed next h states) (kept : S → Prop)
    (closed : ∀ s, kept s → ∀ key, kept (next s key))
    (same : ∀ a < h.length, kept (states a) → h'[a]? = h[a]?) {s : S} {v : Value}
    (isAt : h.At states s v) (isKept : kept s) (path : List String) : h'.walk path v = h.walk path v := by
  induction path generalizing s v with
  | nil => rfl
  | cons key path ih =>
    cases v with
    | plain => rfl
    | ref a =>
      obtain ⟨isIn, rfl⟩ := isAt a rfl
      rw [Heap.walk, Heap.walk, same a isIn isKept]
      refine Option.bind_congr fun w has => ?_
      obtain ⟨cell, stored, has⟩ := Option.bind_eq_some_iff.mp has
      exact ih (typed a cell stored _ (lookup_mem has)) (closed _ isKept _)

/-- What is held in states whose objects have not changed is read as before. -/
theorem Typed.read (typed : Typed next h states) (kept : S → Prop)
    (closed : ∀ s, kept s → ∀ key, kept (next s key))
    (same : ∀ a < h.length, kept (states a) → h'[a]? = h[a]?) {s : S} {v : Value}
    (isAt : h.At states s v) (isKept : kept s) (depth : Nat) : h'.read depth v = h.read depth v := by
  induction depth generalizing s v with
  | zero => cases v <;> rfl
  | succ depth ih =>
    cases v with
    | plain => rfl
    | ref a =>
      obtain ⟨isIn, rfl⟩ := isAt a rfl
      rw [Heap.read, Heap.read, same a isIn isKept]
      refine Option.bind_congr fun cell stored => congrArg (Option.map obj) ?_
      refine mapM_congr fun entry isEntry => ?_
      rw [ih (typed a cell stored entry isEntry) (closed _ isKept _)]

/-! ### Writing -/

theorem put_same {a : Nat} {key : String} {w : Value} {cell : Cell} (stored : h[a]? = some cell) :
    (h.put a key w)[a]? = some (setKey key w cell) := by
  rw [put, List.getElem?_modify_eq, stored]
  rfl

theorem put_other {a b : Nat} (differ : a ≠ b) (key : String) (w : Value) :
    (h.put a key w)[b]? = h[b]? := List.getElem?_modify_ne _ _ differ

theorem put_length (a : Nat) (key : String) (w : Value) : (h.put a key w).length = h.length :=
  List.length_modify ..

theorem Typed.put (typed : Typed next h states) {a : Nat} {key : String} {w : Value}
    (isAt : h.At states (next (states a) key) w) : Typed next (h.put a key w) states := by
  have still : ∀ {s u}, h.At states s u → (h.put a key w).At states s u := by
    intro s u isAt b isRef
    rw [put_length]
    exact isAt b isRef
  intro b cell stored entry isEntry
  rcases eq_or_ne a b with rfl | differ
  · obtain ⟨old, isOld, rfl⟩ := Option.map_eq_some_iff.mp ((List.getElem?_modify_eq ..).symm.trans stored)
    rcases mem_setKey isEntry with rfl | before
    · exact still isAt
    · exact still (typed a old isOld entry before)
  · rw [put_other differ] at stored
    exact still (typed b cell stored entry isEntry)

theorem putNew_length (a : Nat) (key : String) : (h.putNew a key).length = h.length + 1 := by
  rw [putNew, put_length, List.length_append, List.length_singleton]

theorem putNew_other {a b : Nat} (differ : a ≠ b) (isB : b < h.length) (key : String) :
    (h.putNew a key)[b]? = h[b]? := by
  rw [putNew, put_other differ, List.getElem?_append_left isB]

theorem putNew_new {a : Nat} (isIn : a < h.length) (key : String) :
    (h.putNew a key)[h.length]? = some [] := by
  rw [putNew, put_other (Nat.ne_of_lt isIn)]
  simp

/-- A new object gets the state its key leads to. -/
theorem Typed.putNew (typed : Typed next h states) {a : Nat} (isIn : a < h.length) (key : String) :
    Typed next (h.putNew a key) (extend states h.length (next (states a) key)) ∧
      ∀ {s u}, h.At states s u → (h.putNew a key).At (extend states h.length (next (states a) key)) s u := by
  have grows := @Typed.push S next h states typed [] (next (states a) key) (by simp)
  refine ⟨grows.typed.put fun b isRef => ?_, fun isAt b isRef => ?_⟩
  · obtain rfl := Value.ref.inj isRef
    rw [extend_same, extend_other _ _ isIn]
    exact ⟨by simp, rfl⟩
  · rw [Heap.putNew, put_length]
    exact grows.at isAt b isRef

/-- What a write leaves: objects whose state no beginning of the path leads to are not changed. -/
structure Sets (next : S → String → S) (path : List String) (s : S) (h : Heap) (states : Nat → S)
    (h' : Heap) (states' : Nat → S) : Prop where
  length : h.length ≤ h'.length
  old : ∀ b < h.length, states' b = states b
  typed : Typed next h' states'
  others : ∀ b < h.length, (∀ p key rest, path = p ++ key :: rest → states b ≠ p.foldl next s) →
    h'[b]? = h[b]?

theorem Sets.at {path : List String} {s t : S} {u : Value} (sets : Sets next path s h states h' states')
    (isAt : h.At states t u) : h'.At states' t u := by
  intro b isRef
  obtain ⟨isIn, is⟩ := isAt b isRef
  exact ⟨isIn.trans_le sets.length, (sets.old b isIn).trans is⟩

/-- Objects that no beginning of the path leads to stay as they are. -/
theorem set_others (typed : Typed next h states) (path : List String) {a : Nat} {w : Value}
    (isIn : a < h.length) {b : Nat} (isB : b < h.length)
    (free : ∀ p key rest, path = p ++ key :: rest → states b ≠ p.foldl next (states a)) :
    (h.set path w a)[b]? = h[b]? := by
  induction path generalizing h states a with
  | nil => rfl
  | cons key path ih =>
    have differ : a ≠ b := fun same => free [] key path rfl (congrArg states same.symm)
    cases path with
    | nil => exact put_other differ key w
    | cons inner path =>
      rw [set.eq_def]
      dsimp only
      split
      · rename_i c has
        obtain ⟨cell, stored, has⟩ := Option.bind_eq_some_iff.mp has
        obtain ⟨isC, is⟩ := typed a cell stored _ (lookup_mem has) c rfl
        refine ih typed isC isB fun p k rest split => ?_
        rw [is]
        exact free (key :: p) k rest (congrArg _ split)
      · have isNew : h.length < (h.putNew a key).length := (putNew_length a key).symm ▸ Nat.lt_succ_self _
        rw [ih (typed.putNew isIn key).1 isNew (isB.trans isNew) fun p k rest split => ?_,
          putNew_other differ isB]
        rw [extend_same, extend_other _ _ isB]
        exact free (key :: p) k rest (congrArg _ split)

/-- A write keeps the states, where what is written has the state its path leads to. -/
theorem set_typed (typed : Typed next h states) (path : List String) {a : Nat} {w : Value}
    (isIn : a < h.length) (isAt : h.At states (path.foldl next (states a)) w) :
    ∃ states', Sets next path (states a) h states (h.set path w a) states' := by
  suffices kept : ∃ states', h.length ≤ (h.set path w a).length ∧ (∀ b < h.length, states' b = states b) ∧
      Typed next (h.set path w a) states' by
    obtain ⟨states', length, old, typed'⟩ := kept
    exact ⟨states', length, old, typed', fun b isB => set_others typed path isIn isB⟩
  induction path generalizing h states a with
  | nil => exact ⟨states, le_rfl, fun _ _ => rfl, typed⟩
  | cons key path ih =>
    cases path with
    | nil => exact ⟨states, (put_length ..).ge, fun _ _ => rfl, typed.put isAt⟩
    | cons inner path =>
      rw [set.eq_def]
      dsimp only
      split
      · rename_i b has
        obtain ⟨cell, stored, has⟩ := Option.bind_eq_some_iff.mp has
        obtain ⟨isIn', is⟩ := typed a cell stored _ (lookup_mem has) b rfl
        dsimp only at is
        exact ih typed isIn' (is ▸ isAt)
      · obtain ⟨typed', old⟩ := typed.putNew isIn key
        have isNew : h.length < (h.putNew a key).length := (putNew_length a key).symm ▸ Nat.lt_succ_self _
        obtain ⟨states', length, older, kept⟩ := ih typed' isNew (by rw [extend_same]; exact old isAt)
        exact ⟨states', (Nat.le_of_lt isNew).trans length, fun b isB =>
          (older b (isB.trans isNew)).trans (extend_other _ _ isB), kept⟩

end States

/-! ### Paths apart -/

/-- What is left of a path after a key: none of it at its end and below, `none` beside it. -/
def ahead : Option (List String) → String → Option (List String)
  | some [], _ => some []
  | some (key :: rest), other => if key = other then some rest else none
  | none, _ => none

theorem ahead_none (path : List String) : path.foldl ahead none = none := by
  induction path with
  | nil => rfl
  | cons key path ih => exact ih

theorem ahead_self (path : List String) : path.foldl ahead (some path) = some [] := by
  induction path with
  | nil => rfl
  | cons key path ih => rw [List.foldl_cons, ahead, if_pos rfl, ih]

theorem ahead_apart {p q : List String} (isApart : Apart p q) : p.foldl ahead (some q) = none := by
  induction p generalizing q with
  | nil => exact absurd isApart (by simp [Apart, apart])
  | cons key p ih =>
    cases q with
    | nil => exact absurd isApart (by simp [Apart, apart])
    | cons other q =>
      rw [List.foldl_cons, ahead]
      split
      · rename_i same
        exact ih (isApart.cons.resolve_left fun differ => differ same.symm)
      · exact ahead_none p

theorem ahead_length {p q r : List String} (leads : p.foldl ahead (some q) = some r) :
    r.length ≤ q.length := by
  induction p generalizing q with
  | nil =>
    obtain rfl := Option.some.inj leads
    exact le_rfl
  | cons key p ih =>
    cases q with
    | nil => exact ih leads
    | cons other q =>
      rw [List.foldl_cons, ahead] at leads
      split at leads
      · exact (ih leads).trans (Nat.le_succ _)
      · rw [ahead_none] at leads
        cases leads

section Apart

variable {h h' : Heap} {states states' : Nat → Option (List String)}

/-- The walk along what is left of a path, where the objects on it are the same. -/
theorem walk_along {rest : List String} {v : Value} (typed : Typed ahead h states)
    (isAt : h.At states (some rest) v) (same : ∀ a < h.length, ∀ left, states a = some left →
      left ≠ [] → left.length ≤ rest.length → h'[a]? = h[a]?) : h'.walk rest v = h.walk rest v := by
  induction rest generalizing v with
  | nil => rfl
  | cons key rest ih =>
    cases v with
    | plain => rfl
    | ref a =>
      obtain ⟨isIn, is⟩ := isAt a rfl
      rw [walk, walk, same a isIn _ is (by simp) le_rfl]
      refine Option.bind_congr fun w has => ?_
      obtain ⟨cell, stored, has⟩ := Option.bind_eq_some_iff.mp has
      have below := typed a cell stored _ (lookup_mem has)
      rw [is, ahead, if_pos rfl] at below
      exact ih below fun b isB left isLeft some_ within =>
        same b isB left isLeft some_ (within.trans (Nat.le_succ _))

/-- A write from an object further on, or off the path, keeps the objects before it. -/
theorem Sets.before {path left : List String} {t : Option (List String)} {b : Nat}
    (sets : Sets ahead path t h states h' states') (rest : List String) (isIn : b < h.length)
    (further : ∀ more, t = some more → more.length ≤ rest.length) (is : states b = some left)
    (before : rest.length < left.length ∨ t = none) : h'[b]? = h[b]? := by
  refine sets.others b isIn fun p key more _ leads => ?_
  rw [is] at leads
  cases t with
  | none =>
    rw [ahead_none] at leads
    cases leads
  | some more =>
    have within := (ahead_length leads.symm).trans (further more rfl)
    rcases before with longer | none_
    · omega
    · cases none_

theorem ahead_further {key other : String} {rest : List String} :
    ∀ more, ahead (some (other :: rest)) key = some more → more.length ≤ rest.length := by
  intro more leads
  rw [ahead] at leads
  split at leads
  · rw [Option.some.inj leads]
  · cases leads

/-- What a write along a path apart leaves of the walk along the other path. -/
theorem set_apart {path rest : List String} {a : Nat} {w : Value} (typed : Typed ahead h states)
    (isIn : a < h.length) (is : states a = some rest) (isApart : Apart path rest)
    (isAt : h.At states none w) : (h.set path w a).walk rest (.ref a) = h.walk rest (.ref a) := by
  induction path generalizing h states a rest with
  | nil => exact absurd isApart (by simp [Apart, apart])
  | cons key path ih =>
    cases rest with
    | nil => exact absurd isApart (by simp [Apart, apart])
    | cons other rest =>
      -- Off the path after the first key, the objects along the other one stay as they are.
      have beside : ∀ {k : Heap}, (k[a]?).bind (lookup other) = (h[a]?).bind (lookup other) →
          (∀ b < h.length, ∀ left, states b = some left → left.length ≤ rest.length → k[b]? = h[b]?) →
          k.walk (other :: rest) (.ref a) = h.walk (other :: rest) (.ref a) := by
        intro k first same
        rw [walk, walk, first]
        refine Option.bind_congr fun u has => ?_
        obtain ⟨cell, stored, has⟩ := Option.bind_eq_some_iff.mp has
        have below := typed a cell stored _ (lookup_mem has)
        rw [is, ahead, if_pos rfl] at below
        exact walk_along typed below fun b isB left isLeft _ within => same b isB left isLeft within
      have put_beside : ∀ {k : Heap} {u : Value}, key ≠ other → k[a]? = h[a]? →
          ((k.put a key u)[a]?).bind (lookup other) = (h[a]?).bind (lookup other) := by
        intro k u differ same
        rw [← same]
        cases stored : k[a]? with
        | none => rw [put, List.getElem?_modify_eq, stored]; rfl
        | some cell =>
          rw [put_same stored]
          exact lookup_setKey_other differ u cell
      have longer : ∀ {b left}, states b = some left → left.length ≤ rest.length → a ≠ b := by
        rintro b left isLeft within rfl
        obtain rfl := Option.some.inj (is.symm.trans isLeft)
        exact absurd within (by simp)
      cases path with
      | nil =>
        have differ : key ≠ other := isApart.cons.resolve_right (by simp [Apart, apart])
        exact beside (put_beside differ rfl) fun b _ left isLeft within =>
          put_other (longer isLeft within) key w
      | cons inner path =>
        rw [set.eq_def]
        dsimp only
        split
        · rename_i b has
          obtain ⟨cell, stored, found⟩ := Option.bind_eq_some_iff.mp has
          obtain ⟨isB, leads⟩ := typed a cell stored _ (lookup_mem found) b rfl
          dsimp only at leads
          rw [is] at leads
          have off : (inner :: path).foldl ahead (states b) = none := by
            rw [leads]
            exact ahead_apart isApart
          obtain ⟨states', sets⟩ := set_typed typed (inner :: path) isB (off.symm ▸ isAt)
          have here : (set (inner :: path) w b h)[a]? = h[a]? :=
            sets.before rest isIn (leads ▸ ahead_further) is (.inl (Nat.lt_succ_self _))
          by_cases same : key = other
          · subst same
            rw [ahead, if_pos rfl] at leads
            rw [walk, walk, here, has]
            exact ih typed isB leads (isApart.cons.resolve_left fun differ => differ rfl) isAt
          · rw [ahead, if_neg (Ne.symm same)] at leads
            exact beside (by rw [here]) fun c isC left isLeft _ =>
              sets.before rest isC (leads ▸ fun more none_ => by cases none_) isLeft (.inr leads)
        · rename_i absent
          obtain ⟨typed', old⟩ := typed.putNew isIn key
          rw [is] at typed' old
          have isNew : h.length < (h.putNew a key).length := (putNew_length a key).symm ▸ Nat.lt_succ_self _
          have leads : extend states h.length (ahead (some (other :: rest)) key) h.length =
            ahead (some (other :: rest)) key := extend_same ..
          have off : (inner :: path).foldl ahead
              (extend states h.length (ahead (some (other :: rest)) key) h.length) = none := by
            rw [leads]
            exact ahead_apart isApart
          obtain ⟨states', sets⟩ := set_typed typed' (inner :: path) isNew (off.symm ▸ old isAt)
          have here : (set (inner :: path) w h.length (h.putNew a key))[a]? = (h.putNew a key)[a]? :=
            sets.before rest (isIn.trans isNew) (by rw [leads]; exact ahead_further)
              ((extend_other _ _ isIn).trans is) (.inl (Nat.lt_succ_self _))
          by_cases same : key = other
          · subst same
            have onward : Apart (inner :: path) rest := isApart.cons.resolve_left fun differ => differ rfl
            obtain ⟨first, last, rfl⟩ : ∃ first last, rest = first :: last := by
              cases rest with
              | nil => exact absurd onward (by simp [Apart, apart])
              | cons first last => exact ⟨first, last, rfl⟩
            have before : h.walk (key :: first :: last) (.ref a) = none := by
              rw [walk]
              cases has : (h[a]?).bind (lookup key) with
              | none => rfl
              | some u => cases u with
                | plain => rfl
                | ref b => exact absurd has (absent b)
            have found : ((h.putNew a key)[a]?).bind (lookup key) = some (.ref h.length) := by
              obtain ⟨cell, stored⟩ : ∃ cell, h[a]? = some cell := ⟨_, List.getElem?_eq_getElem isIn⟩
              rw [putNew, put_same ((List.getElem?_append_left isIn).trans stored)]
              exact lookup_setKey_same ..
            rw [ahead, if_pos rfl] at typed' leads
            rw [before, walk, here, found, Option.bind_some,
              ih typed' isNew leads onward (by simpa [ahead] using old isAt), walk, putNew_new isIn]
            rfl
          · have gone : extend states h.length (ahead (some (other :: rest)) key) h.length = none := by
              rw [leads, ahead, if_neg (Ne.symm same)]
            refine beside ?_ fun b isB left isLeft within => ?_
            · rw [here]
              exact put_beside same (List.getElem?_append_left isIn)
            · rw [sets.before rest (isB.trans isNew) (by rw [gone]; intro more none_; cases none_)
                ((extend_other _ _ isB).trans isLeft) (.inr gone), putNew_other (longer isLeft within) isB]

/-- What a write leaves at its own path, where no object on the path was stored a second time. -/
theorem set_same {path : List String} {a : Nat} {w : Value} (typed : Typed ahead h states)
    (isIn : a < h.length) (is : states a = some path) (some_ : path ≠ [])
    (isAt : h.At states (some []) w) : (h.set path w a).walk path (.ref a) = some w := by
  induction path generalizing h states a with
  | nil => exact absurd rfl some_
  | cons key path ih =>
    obtain ⟨cell, stored⟩ : ∃ cell, h[a]? = some cell := ⟨_, List.getElem?_eq_getElem isIn⟩
    cases path with
    | nil =>
      rw [set.eq_def]
      dsimp only
      rw [walk, put_same stored, Option.bind_some, lookup_setKey_same]
      rfl
    | cons inner path =>
      rw [set.eq_def]
      dsimp only
      split
      · rename_i b has
        have found := has
        rw [stored, Option.bind_some] at found
        obtain ⟨isB, leads⟩ := typed a cell stored _ (lookup_mem found) b rfl
        dsimp only at leads
        rw [is, ahead, if_pos rfl] at leads
        obtain ⟨states', sets⟩ := set_typed typed (inner :: path) isB (by
          rw [leads, ahead_self]
          exact isAt)
        have here := sets.before (inner :: path) isIn (by
          rw [leads]
          rintro more same
          rw [Option.some.inj same]) is (.inl (Nat.lt_succ_self _))
        rw [walk, here, has]
        exact ih typed isB leads (List.cons_ne_nil _ _) isAt
      · obtain ⟨typed', old⟩ := typed.putNew isIn key
        rw [is, ahead, if_pos rfl] at typed' old
        have isNew : h.length < (h.putNew a key).length := (putNew_length a key).symm ▸ Nat.lt_succ_self _
        have leads : extend states h.length (some (inner :: path)) h.length = some (inner :: path) :=
          extend_same ..
        obtain ⟨states', sets⟩ := set_typed typed' (inner :: path) isNew (by
          rw [leads, ahead_self]
          exact old isAt)
        have here := sets.before (inner :: path) (isIn.trans isNew) (by
          rw [leads]
          rintro more same
          rw [Option.some.inj same]) ((extend_other _ _ isIn).trans is) (.inl (Nat.lt_succ_self _))
        have found : ((h.putNew a key)[a]?).bind (lookup key) = some (.ref h.length) := by
          rw [putNew, put_same ((List.getElem?_append_left isIn).trans stored)]
          exact lookup_setKey_same ..
        rw [walk, here, found]
        exact ih typed' isNew leads (List.cons_ne_nil _ _) (old isAt)

/-- What stands at a path of an object, and all that is held there, is the same. -/
structure Keeps (q : List String) (a : Nat) (h h' : Heap) : Prop where
  walk : h'.walk q (.ref a) = h.walk q (.ref a)
  read : ∀ u, h.walk q (.ref a) = some u → ∀ depth, h'.read depth u = h.read depth u

theorem Keeps.refl (q : List String) (a : Nat) (h : Heap) : Keeps q a h h := ⟨rfl, fun _ _ _ => rfl⟩

theorem Keeps.trans {q : List String} {a : Nat} {k : Heap} (first : Keeps q a h h')
    (second : Keeps q a h' k) : Keeps q a h k :=
  ⟨second.walk.trans first.walk, fun u leads depth =>
    (second.read u (first.walk.trans leads) depth).trans (first.read u leads depth)⟩

/-- The same at a path is the same in what is read. -/
theorem Keeps.at_read {q : List String} {a depth depth' : Nat} {j j' : Json} (keeps : Keeps q a h h')
    (reads : h.read depth (.ref a) = some j) (reads' : h'.read depth' (.ref a) = some j') :
    at? q j' = at? q j := by
  obtain ⟨before, defined⟩ := Heap.at_read reads q
  obtain ⟨after, defined'⟩ := Heap.at_read reads' q
  rw [before, after, keeps.walk]
  refine Option.bind_congr fun u leads => ?_
  obtain ⟨value, isValue⟩ := Option.isSome_iff_exists.mp (defined u leads)
  obtain ⟨value', isValue'⟩ := Option.isSome_iff_exists.mp (defined' u (keeps.walk.trans leads))
  have both := read_mono isValue (le_max_left depth depth') fun _ _ is => is
  have both' := read_mono (keeps.read u leads depth' ▸ isValue') (le_max_right depth depth') fun _ _ is => is
  rw [isValue, isValue', ← both, ← both']

theorem Grows.keeps (typed : Typed ahead h states) (grows : Grows ahead h states h' states') {a : Nat}
    (isIn : a < h.length) (q : List String) : Keeps q a h h' := by
  have same : ∀ b < h.length, True → h'[b]? = h[b]? := fun b isB _ =>
    (grows.stored (List.getElem?_eq_getElem isB)).trans (List.getElem?_eq_getElem isB).symm
  have isAt : h.At states (states a) (.ref a) := fun b isRef => by
    obtain rfl := Value.ref.inj isRef
    exact ⟨isIn, rfl⟩
  exact ⟨typed.walk_same (fun _ => True) (fun _ _ _ => trivial) same isAt trivial q, fun u leads =>
    typed.read (fun _ => True) (fun _ _ _ => trivial) same (typed.walk isAt leads) trivial⟩

/-- **A write along one path is not seen along another**, where no object on the other was stored a second
time: not at its end, and not in what is held there. -/
theorem set_keeps {path q : List String} {a : Nat} {w : Value} (typed : Typed ahead h states)
    (isIn : a < h.length) (is : states a = some q) (isApart : Apart path q) (isAt : h.At states none w) :
    Keeps q a h (h.set path w a) := by
  refine ⟨set_apart typed isIn is isApart isAt, fun u leads => ?_⟩
  have off : path.foldl ahead (states a) = none := is ▸ ahead_apart isApart
  obtain ⟨states', sets⟩ := set_typed typed path isIn (off.symm ▸ isAt)
  have isRoot : h.At states (some q) (.ref a) := fun b isRef => by
    obtain rfl := Value.ref.inj isRef
    exact ⟨isIn, is⟩
  refine typed.read (· = some []) ?_ (fun b isB below => ?_) (typed.walk isRoot leads)
    (ahead_self q)
  · rintro s rfl key
    rfl
  · refine sets.others b isB fun p key rest split passes => ?_
    -- A path that has passed the end of the other one stays there.
    have stays : ∀ more : List String, more.foldl ahead (some []) = some [] := fun more => by
      induction more with
      | nil => rfl
      | cons key more ih => exact ih
    rw [split, List.foldl_append, ← passes, below, stays] at off
    cases off

end Apart

end Heap
end Psop
