import Mathlib.Init

/-!
The rows of a table, each found by a key.

An update in place keeps the keys, so what is found under a key afterwards is what was found before,
updated (`find?_update`). Rows are added at the end: what is found stays found, and a row under a
fresh key is found itself.
-/
namespace Psop

/-- The row found under a key after an update that keeps the keys. -/
theorem find?_update {α : Type} {key : α → String} {id : String} {change : α → α}
    (keeps : ∀ x, key (change x) = key x) (xs : List α) (other : String) :
    (xs.map fun x => if key x = id then change x else x).find? (fun x => key x == other) =
      (xs.find? fun x => key x == other).map fun x => if key x = id then change x else x := by
  rw [List.find?_map]
  congr 2
  funext x
  show (key (if key x = id then change x else x) == other) = _
  split
  · rw [keeps]
  · rfl

/-- A row that is found is found before the ones that are added. -/
theorem find?_append_old {α : Type} {test : α → Bool} {old new : List α} {x : α}
    (found : old.find? test = some x) : (old ++ new).find? test = some x := by
  rw [List.find?_append, found, Option.some_or]

theorem find?_append_new {α : Type} {test : α → Bool} {old : List α} {x : α}
    (fresh : ∀ y ∈ old, test y = false) (isNew : test x = true) :
    (old ++ [x]).find? test = some x := by
  have none_ : old.find? test = none := List.find?_eq_none.mpr fun y isY => by simp [fresh y isY]
  rw [List.find?_append, none_, Option.none_or]
  exact List.find?_cons_of_pos isNew

end Psop
