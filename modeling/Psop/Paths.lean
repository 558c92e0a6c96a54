import Mathlib.Data.List.DropRight
import Mathlib.Data.List.Infix

/-!
The words of a list between separators, and the list that joins words again.

`words` splits at every separator and keeps what is not empty, so a separator more at either end or
beside another one changes nothing (`words_trim`, `words_squeeze`). Words joined by one separator
split back into themselves (`words_join`), and joining the words of a list makes it no longer
(`join_words_length`). A list without separators at its ends keeps its first and its last element
(`head_join_words`, `last_join_words`).
-/
namespace Psop.Paths

variable {α : Type} [DecidableEq α] {sep : α}

/-- The non-empty pieces between separators. -/
def words (sep : α) (xs : List α) : List (List α) := (xs.splitOn sep).filter (· ≠ [])

/-- The words with one separator between neighbours. -/
def join (sep : α) (ws : List (List α)) : List α := [sep].intercalate ws

/-- The list without the separators it begins and ends with. -/
def trim (sep : α) (xs : List α) : List α := (xs.dropWhile (· = sep)).rdropWhile (· = sep)

/-- Every pair of neighbouring separators becomes one, from left to right. -/
def squeeze (sep : α) : List α → List α
  | x :: y :: rest =>
    if x = sep ∧ y = sep then sep :: squeeze sep rest else x :: squeeze sep (y :: rest)
  | xs => xs

/-! ### Words -/

@[simp] theorem words_nil : words sep [] = [] := by simp [words]

theorem words_append (xs ys : List α) : words sep (xs ++ sep :: ys) = words sep xs ++ words sep ys := by
  rw [words, List.splitOn_append_cons_self, List.filter_append]
  rfl

theorem words_sep (xs : List α) : words sep (sep :: xs) = words sep xs := by
  rw [← List.nil_append (sep :: xs), words_append, words_nil, List.nil_append]

theorem words_plain {xs : List α} (nonempty : xs ≠ []) (plain : sep ∉ xs) : words sep xs = [xs] := by
  rw [words, List.splitOn_eq_singleton plain]
  simp [nonempty]

theorem not_mem_splitOn {w xs : List α} (isPart : w ∈ xs.splitOn sep) : sep ∉ w := by
  induction xs generalizing w with
  | nil => simp_all
  | cons x xs ih =>
    rw [List.splitOn_cons_eq_if_modifyHead] at isPart
    split at isPart
    · rcases List.mem_cons.mp isPart with rfl | later
      · exact List.not_mem_nil
      · exact ih later
    · rename_i differs
      obtain ⟨first, rest, parts⟩ := List.exists_cons_of_ne_nil (List.splitOn_ne_nil sep xs)
      rw [parts, List.modifyHead_cons] at isPart
      rcases List.mem_cons.mp isPart with rfl | later
      · refine List.not_mem_cons_of_ne_of_not_mem (fun same => differs (by simp [same])) (ih ?_)
        rw [parts]
        exact List.mem_cons_self
      · apply ih
        rw [parts]
        exact List.mem_cons_of_mem _ later

/-- A word is not empty and has no separator in it. -/
theorem word_of_mem {w xs : List α} (isWord : w ∈ words sep xs) : w ≠ [] ∧ sep ∉ w := by
  obtain ⟨isPart, nonempty⟩ := List.mem_filter.mp isWord
  exact ⟨by simpa using nonempty, not_mem_splitOn isPart⟩

/-- Words joined by one separator split back into themselves. -/
theorem words_join {ws : List (List α)} (isWord : ∀ w ∈ ws, w ≠ [] ∧ sep ∉ w) :
    words sep (join sep ws) = ws := by
  cases ws with
  | nil => rfl
  | cons w ws =>
    rw [words, join, List.splitOn_intercalate sep (fun v isIn => (isWord v isIn).2)
      (List.cons_ne_nil _ _), List.filter_eq_self]
    exact fun v isIn => by simpa using (isWord v isIn).1

omit [DecidableEq α] in
theorem join_cons {w : List α} {ws : List (List α)} (more : ws ≠ []) :
    join sep (w :: ws) = w ++ sep :: join sep ws := by
  rw [join, List.intercalate_cons_of_ne_nil more, join, List.append_assoc, List.singleton_append]

omit [DecidableEq α] in
theorem join_append {vs ws : List (List α)} (some : vs ≠ []) (more : ws ≠ []) :
    join sep (vs ++ ws) = join sep vs ++ sep :: join sep ws := by
  induction vs with
  | nil => exact absurd rfl some
  | cons v vs ih =>
    cases vs with
    | nil => rw [List.singleton_append, join_cons more, join, join, List.intercalate_singleton]
    | cons v' vs =>
      rw [List.cons_append, join_cons (by simp), ih (List.cons_ne_nil _ _),
        join_cons (List.cons_ne_nil _ _), List.append_assoc, List.cons_append]

omit [DecidableEq α] in
theorem join_length_cons (w : List α) (ws : List (List α)) :
    (join sep (w :: ws)).length ≤ w.length + 1 + (join sep ws).length := by
  cases ws with
  | nil => simp [join]
  | cons v ws =>
    rw [join_cons (List.cons_ne_nil _ _), List.length_append, List.length_cons]
    omega

omit [DecidableEq α] in
theorem mem_join {x : α} {ws : List (List α)} (isIn : x ∈ join sep ws) :
    x = sep ∨ ∃ w ∈ ws, x ∈ w := by
  induction ws with
  | nil => cases isIn
  | cons w ws ih =>
    by_cases more : ws = []
    · subst more
      rw [join, List.intercalate_singleton] at isIn
      exact .inr ⟨w, List.mem_cons_self, isIn⟩
    · rw [join_cons more, List.mem_append, List.mem_cons] at isIn
      rcases isIn with first | same | later
      · exact .inr ⟨w, List.mem_cons_self, first⟩
      · exact .inl same
      · rcases ih later with same | ⟨v, isWord, isIn⟩
        · exact .inl same
        · exact .inr ⟨v, List.mem_cons_of_mem _ isWord, isIn⟩

/-- Every element before a list's first separator, and what follows that separator. -/
theorem split_first (xs : List α) :
    sep ∉ xs ∨ ∃ before after, sep ∉ before ∧ xs = before ++ sep :: after := by
  induction xs with
  | nil => exact .inl List.not_mem_nil
  | cons x xs ih =>
    by_cases same : x = sep
    · exact .inr ⟨[], xs, List.not_mem_nil, by rw [same, List.nil_append]⟩
    · rcases ih with plain | ⟨before, after, plain, rfl⟩
      · exact .inl (List.not_mem_cons_of_ne_of_not_mem (Ne.symm same) plain)
      · exact .inr ⟨x :: before, after, List.not_mem_cons_of_ne_of_not_mem (Ne.symm same) plain, rfl⟩

omit [DecidableEq α] in
theorem mem_join_of_mem {x : α} {w : List α} {ws : List (List α)} (isWord : w ∈ ws)
    (isIn : x ∈ w) : x ∈ join sep ws := by
  induction ws with
  | nil => cases isWord
  | cons v ws ih =>
    by_cases more : ws = []
    · subst more
      rw [join, List.intercalate_singleton, ← List.mem_singleton.mp isWord]
      exact isIn
    · rw [join_cons more, List.mem_append, List.mem_cons]
      rcases List.mem_cons.mp isWord with rfl | later
      · exact .inl isIn
      · exact .inr (.inr (ih later))

theorem mem_of_word {x : α} {w xs : List α} (isWord : w ∈ words sep xs) (isIn : x ∈ w) :
    x ∈ xs := by
  have whole : join sep (xs.splitOn sep) = xs := List.intercalate_splitOn sep
  rw [← whole]
  exact mem_join_of_mem (List.mem_filter.mp isWord).1 isIn

/-- Joining the words of a list makes it no longer. -/
theorem join_words_length (sep : α) (xs : List α) : (join sep (words sep xs)).length ≤ xs.length := by
  induction length : xs.length using Nat.strong_induction_on generalizing xs with
  | _ n ih =>
    rcases @split_first _ _ sep xs with plain | ⟨before, after, plain, rfl⟩
    · cases xs with
      | nil => exact Nat.zero_le _
      | cons x xs =>
        rw [words_plain (List.cons_ne_nil _ _) plain, join, List.intercalate_singleton, length]
    · rw [List.length_append, List.length_cons] at length
      have rest := ih after.length (by omega) after rfl
      rw [words_append]
      cases before with
      | nil =>
        rw [words_nil, List.nil_append]
        omega
      | cons x before =>
        rw [words_plain (List.cons_ne_nil _ _) plain, List.singleton_append]
        have cons := @join_length_cons _ sep (x :: before) (words sep after)
        omega

/-! ### Separators that change nothing -/

theorem words_separators {lead : List α} (separators : ∀ x ∈ lead, x = sep) (xs : List α) :
    words sep (lead ++ xs) = words sep xs := by
  induction lead with
  | nil => rfl
  | cons x lead ih =>
    rw [separators x List.mem_cons_self, List.cons_append, words_sep,
      ih fun y isIn => separators y (List.mem_cons_of_mem _ isIn)]

theorem words_append_separators {tail : List α} (separators : ∀ x ∈ tail, x = sep) (xs : List α) :
    words sep (xs ++ tail) = words sep xs := by
  cases tail with
  | nil => rw [List.append_nil]
  | cons x tail =>
    have none : words sep tail = [] := by
      simpa using words_separators (fun y isIn => separators y (List.mem_cons_of_mem _ isIn)) []
    rw [separators x List.mem_cons_self, words_append, none, List.append_nil]

theorem words_dropWhile (xs : List α) : words sep (xs.dropWhile (· = sep)) = words sep xs := by
  have lead : xs = xs.takeWhile (· = sep) ++ xs.dropWhile (· = sep) :=
    List.takeWhile_append_dropWhile.symm
  rw [congrArg (words sep) lead, words_separators]
  exact fun x isIn => by simpa using List.mem_takeWhile_imp isIn

/-- The separators at the ends do not matter. -/
theorem words_trim (xs : List α) : words sep (trim sep xs) = words sep xs := by
  have tail : xs.dropWhile (· = sep) =
      trim sep xs ++ (xs.dropWhile (· = sep)).rtakeWhile (· = sep) :=
    List.rdropWhile_append_rtakeWhile.symm
  rw [← words_dropWhile xs, tail, words_append_separators]
  exact fun x isIn => by simpa using List.mem_rtakeWhile_imp isIn

/-- Nor do those beside another one, whatever stands before. -/
theorem words_append_squeeze (before xs : List α) :
    words sep (before ++ squeeze sep xs) = words sep (before ++ xs) := by
  induction xs using squeeze.induct sep generalizing before with
  | case1 x y rest both ih =>
    obtain ⟨rfl, rfl⟩ := both
    rw [squeeze, if_pos ⟨rfl, rfl⟩, words_append, words_append, words_sep]
    exact congrArg _ (ih [])
  | case2 x y rest apart ih =>
    have shift : ∀ ys, before ++ x :: ys = (before ++ [x]) ++ ys := fun ys => by simp
    rw [squeeze, if_neg apart, shift, ih, ← shift]
  | case3 xs short =>
    rw [squeeze.eq_def]
    split
    · rename_i x y rest
      exact absurd rfl (short x y rest)
    · rfl

/-! ### Squeezing to the end -/

/-- Two separators stand side by side. -/
def doubled (sep : α) : List α → Bool
  | x :: y :: rest => (x = sep && y = sep) || doubled sep (y :: rest)
  | _ => false

/-- Squeezing as long as two separators stand side by side, `fuel` times at most. -/
def squeezeAll (sep : α) : Nat → List α → List α
  | 0, xs => xs
  | fuel + 1, xs => if doubled sep xs then squeezeAll sep fuel (squeeze sep xs) else xs

theorem words_squeezeAll (fuel : Nat) (xs : List α) :
    words sep (squeezeAll sep fuel xs) = words sep xs := by
  induction fuel generalizing xs with
  | zero => rfl
  | succ fuel ih =>
    rw [squeezeAll]
    split
    · rw [ih]
      exact words_append_squeeze [] xs
    · rfl

/-! ### The ends -/

/-- A list that does not begin with a separator keeps its first element. -/
theorem head_join_words {xs : List α} (starts : ∀ x ∈ xs.head?, x ≠ sep) :
    (join sep (words sep xs)).head? = xs.head? := by
  rcases @split_first _ _ sep xs with plain | ⟨before, after, plain, rfl⟩
  · cases xs with
    | nil => rfl
    | cons x xs => rw [words_plain (List.cons_ne_nil _ _) plain, join, List.intercalate_singleton]
  · cases before with
    | nil => exact absurd rfl (starts sep rfl)
    | cons x before =>
      rw [words_append, words_plain (List.cons_ne_nil _ _) plain, List.singleton_append]
      by_cases more : words sep after = []
      · rw [more, join, List.intercalate_singleton]
        rfl
      · rw [join_cons more]
        rfl

/-- A list that does not end with a separator keeps its last element. -/
theorem last_join_words {xs : List α} (ends : ∀ x ∈ xs.getLast?, x ≠ sep) :
    (join sep (words sep xs)).getLast? = xs.getLast? := by
  rcases @split_first _ _ sep xs.reverse with plain | ⟨before, after, plain, same⟩
  · rw [List.mem_reverse] at plain
    cases xs with
    | nil => rfl
    | cons x xs => rw [words_plain (List.cons_ne_nil _ _) plain, join, List.intercalate_singleton]
  · have shape : xs = after.reverse ++ sep :: before.reverse := by
      rw [← List.reverse_reverse xs, same]
      simp
    subst shape
    cases tail : before.reverse with
    | nil =>
      rw [tail] at ends
      exact absurd rfl (ends sep (by simp))
    | cons x rest =>
      have noSep : sep ∉ x :: rest := by
        rw [← tail, List.mem_reverse]
        exact plain
      rw [words_append, words_plain (List.cons_ne_nil _ _) noSep]
      by_cases more : words sep after.reverse = []
      · rw [more, List.nil_append, join, List.intercalate_singleton, List.getLast?_append,
          List.getLast?_cons_cons, List.getLast?_cons]
        rfl
      · have alone : join sep [x :: rest] = x :: rest := List.intercalate_singleton
        rw [join_append more (List.cons_ne_nil _ _), alone, List.getLast?_append,
          List.getLast?_append, List.getLast?_cons_cons, List.getLast?_cons]
        rfl

theorem head_trim (xs : List α) : ∀ x ∈ (trim sep xs).head?, x ≠ sep := by
  intro x isFirst
  obtain ⟨rest, left⟩ := List.rdropWhile_prefix (· = sep) (xs.dropWhile (· = sep))
  have isHead : (xs.dropWhile (· = sep)).head? = some x := by
    rw [← left, List.head?_append, ← trim, Option.mem_def.mp isFirst]
    rfl
  have kept := List.head?_dropWhile_not (· = sep) xs
  rw [isHead] at kept
  simpa using kept

theorem last_trim (xs : List α) : ∀ x ∈ (trim sep xs).getLast?, x ≠ sep := by
  intro x isLast
  obtain ⟨nonempty, rfl⟩ := List.mem_getLast?_eq_getLast isLast
  have kept := List.rdropWhile_last_not (· = sep) (xs.dropWhile (· = sep)) nonempty
  exact fun same => kept (decide_eq_true same)

end Psop.Paths
