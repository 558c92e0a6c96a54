import Mathlib.Data.List.Nodup
import Mathlib.Data.List.Sort

/-!
Dictionaries that remember the order in which their keys were first assigned.

A `Dict` carries the proof that its keys are distinct, so looking a key up and being an entry are
one thing (`mem_entries`), and the order of the entries decides nothing but the order of a walk over
them (`get_of_perm`). `put` is the assignment `d[key] = value`.
-/
namespace Psop

/-- `d[key] = value`: a key that is there keeps its place, a new one is added last. -/
def assign {κ α : Type} [DecidableEq κ] (key : κ) (value : α) : List (κ × α) → List (κ × α)
  | [] => [(key, value)]
  | (k, v) :: rest => if k = key then (key, value) :: rest else (k, v) :: assign key value rest

theorem keys_assign {κ α : Type} [DecidableEq κ] (key : κ) (value : α) (entries : List (κ × α)) :
    (assign key value entries).map Prod.fst =
      if key ∈ entries.map Prod.fst then entries.map Prod.fst
      else entries.map Prod.fst ++ [key] := by
  induction entries with
  | nil => rfl
  | cons entry rest ih =>
    obtain ⟨k, v⟩ := entry
    rw [assign]
    by_cases same : k = key
    · simp [same]
    · rw [if_neg same, List.map_cons, ih, List.map_cons]
      by_cases known : key ∈ rest.map Prod.fst
      · rw [if_pos known, if_pos (List.mem_cons_of_mem _ known)]
      · rw [if_neg known, if_neg (List.not_mem_cons_of_ne_of_not_mem (Ne.symm same) known),
          List.cons_append]

structure Dict (κ α : Type) where
  entries : List (κ × α)
  distinct : (entries.map Prod.fst).Nodup
deriving DecidableEq

namespace Dict

variable {κ α : Type} [DecidableEq κ]

def empty : Dict κ α := ⟨[], List.nodup_nil⟩

def keys (d : Dict κ α) : List κ := d.entries.map Prod.fst

/-- `d.get(key)`. -/
def get? (d : Dict κ α) (key : κ) : Option α :=
  (d.entries.find? fun entry => entry.1 = key).map Prod.snd

/-- `d[key] = value`. -/
def put (key : κ) (value : α) (d : Dict κ α) : Dict κ α where
  entries := assign key value d.entries
  distinct := by
    rw [keys_assign]
    split
    · exact d.distinct
    · rename_i fresh
      refine List.nodup_append.mpr ⟨d.distinct, List.nodup_singleton _, fun k known j isNew => ?_⟩
      rw [List.mem_singleton] at isNew
      rintro rfl
      exact fresh (isNew ▸ known)

/-- The same entries in the order of their keys. -/
def sorted (before : κ → κ → Bool) (d : Dict κ α) : Dict κ α where
  entries := d.entries.insertionSort fun a b => before a.1 b.1
  distinct := (List.Perm.nodup_iff ((List.perm_insertionSort _ _).map _)).mpr d.distinct

variable {d : Dict κ α} {key other : κ} {value : α}

/-- Being an entry is being found under its key. -/
theorem mem_entries : (key, value) ∈ d.entries ↔ d.get? key = some value := by
  obtain ⟨entries, distinct⟩ := d
  simp only [get?]
  induction entries with
  | nil => simp
  | cons entry rest ih =>
    obtain ⟨k, v⟩ := entry
    obtain ⟨fresh, distinct⟩ := List.nodup_cons.mp distinct
    by_cases same : k = key
    · subst same
      rw [List.find?_cons_of_pos (by simp), List.mem_cons]
      constructor
      · rintro (first | later)
        · rw [← (Prod.mk.inj first).2]
          rfl
        · exact absurd (List.mem_map.mpr ⟨_, later, rfl⟩) fresh
      · intro found
        rw [← Option.some.inj found]
        exact .inl rfl
    · rw [List.find?_cons_of_neg (by simpa using same), List.mem_cons, ← ih distinct]
      constructor
      · rintro (first | later)
        · exact absurd (Prod.mk.inj first).1.symm same
        · exact later
      · exact .inr

theorem mem_keys : key ∈ d.keys ↔ ∃ value, d.get? key = some value := by
  simp only [keys, List.mem_map, Prod.exists, ← mem_entries]
  constructor
  · rintro ⟨k, v, isEntry, rfl⟩
    exact ⟨v, isEntry⟩
  · rintro ⟨v, isEntry⟩
    exact ⟨key, v, isEntry, rfl⟩

theorem get_eq_none : d.get? key = none ↔ key ∉ d.keys := by
  rw [mem_keys, Option.eq_none_iff_forall_ne_some, not_exists]

/-- The order of the entries does not decide what is found. -/
theorem get_of_perm {e : Dict κ α} (perm : d.entries.Perm e.entries) (key : κ) :
    d.get? key = e.get? key := by
  ext value
  rw [← mem_entries, ← mem_entries, perm.mem_iff]

theorem get_sorted (before : κ → κ → Bool) (d : Dict κ α) (key : κ) :
    (d.sorted before).get? key = d.get? key :=
  get_of_perm (List.perm_insertionSort _ _) key

theorem mem_keys_sorted (before : κ → κ → Bool) (d : Dict κ α) :
    key ∈ (d.sorted before).keys ↔ key ∈ d.keys := by
  simp only [mem_keys, get_sorted]

@[simp] theorem get_empty : (empty : Dict κ α).get? key = none := rfl

theorem mem_keys_put : other ∈ (d.put key value).keys ↔ other = key ∨ other ∈ d.keys := by
  rw [keys, put, keys_assign]
  split
  · rename_i known
    constructor
    · exact .inr
    · rintro (rfl | isIn)
      · exact known
      · exact isIn
  · rw [List.mem_append, List.mem_singleton]
    exact or_comm

@[simp] theorem get_put_same : (d.put key value).get? key = some value := by
  obtain ⟨entries, distinct⟩ := d
  simp only [get?, put]
  clear distinct
  induction entries with
  | nil => simp [assign]
  | cons entry rest ih =>
    obtain ⟨k, v⟩ := entry
    by_cases same : k = key
    · simp [assign, same]
    · simp [assign, same, ih]

theorem get_put_other (differ : key ≠ other) : (d.put key value).get? other = d.get? other := by
  obtain ⟨entries, distinct⟩ := d
  simp only [get?, put]
  clear distinct
  induction entries with
  | nil => simp [assign, differ]
  | cons entry rest ih =>
    obtain ⟨k, v⟩ := entry
    by_cases same : k = key
    · subst same
      simp [assign, differ]
    · by_cases isOther : k = other
      · subst isOther
        simp [assign, same]
      · simp [assign, same, isOther, ih]

/-- A key that is not there goes to the end. -/
theorem entries_put (fresh : key ∉ d.keys) :
    (d.put key value).entries = d.entries ++ [(key, value)] := by
  obtain ⟨entries, distinct⟩ := d
  simp only [keys, put] at fresh ⊢
  clear distinct
  induction entries with
  | nil => rfl
  | cons entry rest ih =>
    rw [List.map_cons, List.mem_cons, not_or] at fresh
    rw [assign, if_neg (Ne.symm fresh.1), ih fresh.2, List.cons_append]

/-! ### One dictionary over another -/

/-- `{...left, ...right}` -/
def union (left right : Dict κ α) : Dict κ α :=
  right.entries.foldl (fun d entry => d.put entry.1 entry.2) left

/-- Assigning what a key has already changes nothing. -/
theorem put_self (isEntry : (key, value) ∈ d.entries) : d.put key value = d := by
  obtain ⟨entries, distinct⟩ := d
  suffices same : assign key value entries = entries by simp only [put, same]
  induction entries with
  | nil => cases isEntry
  | cons entry rest ih =>
    obtain ⟨k, v⟩ := entry
    obtain ⟨fresh, distinct⟩ := List.nodup_cons.mp distinct
    rw [assign]
    rcases List.mem_cons.mp isEntry with first | later
    · rw [if_pos (Prod.mk.inj first).1.symm, first]
    · have differs : k ≠ key := by
        rintro rfl
        exact fresh (List.mem_map.mpr ⟨_, later, rfl⟩)
      rw [if_neg differs, ih distinct later]

theorem union_self (d : Dict κ α) : d.union d = d := by
  suffices general : ∀ entries : List (κ × α), (∀ entry ∈ entries, entry ∈ d.entries) →
      entries.foldl (fun d entry => d.put entry.1 entry.2) d = d from
    general d.entries fun _ isIn => isIn
  intro entries own
  induction entries with
  | nil => rfl
  | cons entry rest ih =>
    rw [List.foldl_cons, put_self (own entry List.mem_cons_self)]
    exact ih fun entry isIn => own entry (List.mem_cons_of_mem _ isIn)

omit [DecidableEq κ] in
theorem eq_of_entries {e : Dict κ α} (same : d.entries = e.entries) : d = e := by
  cases d
  cases e
  cases same
  rfl

theorem union_empty (d : Dict κ α) : (empty : Dict κ α).union d = d := by
  suffices general : ∀ (entries : List (κ × α)) (left : Dict κ α),
      (left.keys ++ entries.map Prod.fst).Nodup →
      (entries.foldl (fun d entry => d.put entry.1 entry.2) left).entries =
        left.entries ++ entries from
    eq_of_entries (general d.entries empty d.distinct)
  intro entries
  induction entries with
  | nil => simp
  | cons entry rest ih =>
    intro left distinct
    have fresh : entry.1 ∉ left.keys := fun known =>
      (List.nodup_append.mp distinct).2.2 entry.1 known entry.1 List.mem_cons_self rfl
    have keys : (left.put entry.1 entry.2).keys = left.keys ++ [entry.1] := by
      rw [Dict.keys, entries_put fresh, List.map_append]
      rfl
    rw [List.foldl_cons, ih, entries_put fresh, List.append_assoc, List.singleton_append]
    rw [keys, List.append_assoc]
    exact distinct

end Dict

end Psop
