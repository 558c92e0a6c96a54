import Mathlib.Data.List.Basic
import Mathlib.Data.List.Flatten
import Mathlib.Algebra.Ring.Nat

/-!
The lines of a text: `str.splitlines` and joining lines by newlines.

Lines end at any of several characters, and a text that ends with a line end has no line after it.
Joined lines split into themselves but for a last line that is empty (`mem_split_join`), and a text
whose only line ends are newlines is its lines joined (`join_split`).
-/
namespace Psop.Lines

/-- The characters lines end at. -/
def isBreak (c : Char) : Bool :=
  let n := c.toNat
  (10 ≤ n && n ≤ 13) || (28 ≤ n && n ≤ 30) || n == 0x85 || n == 0x2028 || n == 0x2029

/-- `text.splitlines()` -/
def splitLines : List Char → List (List Char)
  | [] => []
  | [c] => if isBreak c then [[]] else [[c]]
  | c :: d :: rest =>
    if c = '\r' ∧ d = '\n' then [] :: splitLines rest
    else if isBreak c then [] :: splitLines (d :: rest)
    else match splitLines (d :: rest) with
      | [] => [[c]]
      | line :: lines => (c :: line) :: lines

/-- `"\n".join(lines)` -/
def joinLines : List (List Char) → List Char
  | [] => []
  | [line] => line
  | line :: next :: rest => line ++ '\n' :: joinLines (next :: rest)

/-- `text.endswith("\n")` -/
def endsLine (cs : List Char) : Bool := cs.getLast? = some '\n'

/-- A newline or none. -/
def tail (newline : Bool) : List Char := if newline then ['\n'] else []

/-- A line has no line end in it. -/
def Plain (line : List Char) : Prop := ∀ c ∈ line, isBreak c = false

theorem newline_break : isBreak '\n' = true := by decide

theorem split_plain {c : Char} (plain : isBreak c = false) (cs : List Char) :
    splitLines (c :: cs) = match splitLines cs with
      | [] => [[c]]
      | line :: lines => (c :: line) :: lines := by
  have differs : c ≠ '\r' := by
    rintro rfl
    exact absurd plain (by decide)
  cases cs with
  | nil => simp [splitLines, plain]
  | cons d rest =>
    rw [splitLines, if_neg fun both => differs both.1, plain, if_neg Bool.false_ne_true]

theorem split_newline (cs : List Char) : splitLines ('\n' :: cs) = [] :: splitLines cs := by
  cases cs with
  | nil => rfl
  | cons d rest =>
    rw [splitLines, if_neg (by simp), newline_break, if_pos rfl]

/-- A line before a newline is the first line. -/
theorem split_line {line : List Char} (plain : Plain line) (rest : List Char) :
    splitLines (line ++ '\n' :: rest) = line :: splitLines rest := by
  induction line with
  | nil => exact split_newline rest
  | cons c cs ih =>
    rw [List.cons_append, split_plain (plain c List.mem_cons_self),
      ih fun d isIn => plain d (List.mem_cons_of_mem _ isIn)]

theorem split_last {line : List Char} (plain : Plain line) (some : line ≠ []) :
    splitLines line = [line] := by
  induction line with
  | nil => exact absurd rfl some
  | cons c cs ih =>
    rw [split_plain (plain c List.mem_cons_self)]
    by_cases empty : cs = []
    · rw [empty, splitLines]
    · rw [ih (fun d isIn => plain d (List.mem_cons_of_mem _ isIn)) empty]

/-- Lines are plain. -/
theorem split_lines_plain {cs line : List Char} (isLine : line ∈ splitLines cs) : Plain line := by
  induction cs using splitLines.induct generalizing line with
  | case1 => cases isLine
  | case2 c ends =>
    rw [splitLines, if_pos ends, List.mem_singleton] at isLine
    subst isLine
    exact nofun
  | case3 c plain =>
    rw [splitLines, if_neg plain, List.mem_singleton] at isLine
    subst isLine
    intro d isIn
    rw [List.mem_singleton.mp isIn]
    exact Bool.not_eq_true _ ▸ plain
  | case4 c d rest both ih =>
    rw [splitLines, if_pos both] at isLine
    rcases List.mem_cons.mp isLine with rfl | later
    · exact nofun
    · exact ih later
  | case5 c d rest one ends ih =>
    rw [splitLines, if_neg one, if_pos ends] at isLine
    rcases List.mem_cons.mp isLine with rfl | later
    · exact nofun
    · exact ih later
  | case6 c d rest one plain empty ih =>
    rw [splitLines, if_neg one, if_neg plain, empty, List.mem_singleton] at isLine
    subst isLine
    intro d isIn
    rw [List.mem_singleton.mp isIn]
    exact Bool.not_eq_true _ ▸ plain
  | case7 c d rest one plain first lines split ih =>
    rw [splitLines, if_neg one, if_neg plain, split] at isLine
    rcases List.mem_cons.mp isLine with rfl | later
    · intro e isIn
      rcases List.mem_cons.mp isIn with rfl | inFirst
      · exact Bool.not_eq_true _ ▸ plain
      · exact ih (by rw [split]; exact List.mem_cons_self) e inFirst
    · exact ih (by rw [split]; exact List.mem_cons_of_mem _ later)

/-- **Joined lines** split into themselves; only a last empty line may be lost. -/
theorem mem_split_join {lines : List (List Char)} (plain : ∀ line ∈ lines, Plain line)
    (newline : Bool) {line : List Char} (some : line ≠ []) :
    line ∈ splitLines (joinLines lines ++ tail newline) ↔ line ∈ lines := by
  induction lines using joinLines.induct with
  | case1 =>
    cases newline
    · simp [joinLines, tail, splitLines]
    · simpa [joinLines, tail, splitLines, newline_break] using some
  | case2 last =>
    have isPlain := plain last List.mem_cons_self
    rw [joinLines]
    cases newline
    · rw [tail, if_neg Bool.false_ne_true, List.append_nil]
      by_cases empty : last = []
      · simpa [empty, splitLines] using some
      · rw [split_last isPlain empty]
    · rw [tail, if_pos rfl, split_line isPlain, splitLines]
  | case3 first next rest ih =>
    rw [joinLines, List.append_assoc, List.cons_append, split_line (plain first List.mem_cons_self),
      List.mem_cons, ih fun other isIn => plain other (List.mem_cons_of_mem _ isIn)]
    simp only [List.mem_cons]

/-- Only newlines end lines in joined lines. -/
theorem join_breaks {lines : List (List Char)} (plain : ∀ line ∈ lines, Plain line)
    (newline : Bool) {c : Char} (isIn : c ∈ joinLines lines ++ tail newline)
    (ends : isBreak c = true) : c = '\n' := by
  have noTail : c ∈ joinLines lines ∨ c = '\n' := by
    rcases List.mem_append.mp isIn with before | after
    · exact .inl before
    · cases newline
      · cases after
      · exact .inr (List.mem_singleton.mp after)
  refine noTail.elim (fun inLines => ?_) id
  clear isIn noTail
  induction lines using joinLines.induct with
  | case1 => cases inLines
  | case2 last =>
    rw [plain last List.mem_cons_self c inLines] at ends
    cases ends
  | case3 first next rest ih =>
    rw [joinLines, List.mem_append, List.mem_cons] at inLines
    rcases inLines with inFirst | same | later
    · rw [plain first List.mem_cons_self c inFirst] at ends
      cases ends
    · exact same
    · exact ih (fun other isOther => plain other (List.mem_cons_of_mem _ isOther)) later

theorem join_cons_char (c : Char) (line : List Char) (lines : List (List Char)) :
    joinLines ((c :: line) :: lines) = c :: joinLines (line :: lines) := by
  cases lines <;> rfl

theorem join_cons_empty {lines : List (List Char)} (some : lines ≠ []) :
    joinLines ([] :: lines) = '\n' :: joinLines lines := by
  cases lines with
  | nil => exact absurd rfl some
  | cons next rest => rfl

theorem ends_cons {c : Char} {cs : List Char} (some : cs ≠ []) :
    endsLine (c :: cs) = endsLine cs := by
  cases cs with
  | nil => exact absurd rfl some
  | cons d rest => rw [endsLine, endsLine, List.getLast?_cons_cons]

theorem split_some {cs : List Char} (some : cs ≠ []) : splitLines cs ≠ [] := by
  cases cs with
  | nil => exact absurd rfl some
  | cons c cs =>
    cases cs with
    | nil => rw [splitLines]; split <;> exact List.cons_ne_nil _ _
    | cons d rest =>
      rw [splitLines]
      split
      · exact List.cons_ne_nil _ _
      split
      · exact List.cons_ne_nil _ _
      split <;> exact List.cons_ne_nil _ _

/-- **A text** in which only newlines end lines is its lines joined. -/
theorem join_split {cs : List Char} (newlines : ∀ c ∈ cs, isBreak c = true → c = '\n') :
    joinLines (splitLines cs) ++ tail (endsLine cs) = cs := by
  induction cs with
  | nil => rfl
  | cons c cs ih =>
    have rest := ih fun d isIn => newlines d (List.mem_cons_of_mem _ isIn)
    by_cases empty : cs = []
    · subst empty
      cases ends : isBreak c with
      | true => rw [newlines c List.mem_cons_self ends]; rfl
      | false =>
        have differs : c ≠ '\n' := by
          rintro rfl
          exact absurd ends (by decide)
        rw [splitLines, ends, if_neg Bool.false_ne_true, joinLines, endsLine, tail]
        simp [differs]
    · rw [ends_cons empty]
      cases ends : isBreak c with
      | true =>
        rw [newlines c List.mem_cons_self ends, split_newline, join_cons_empty (split_some empty),
          List.cons_append, rest]
      | false =>
        rw [split_plain ends]
        cases lines : splitLines cs with
        | nil => exact absurd lines (split_some empty)
        | cons line more =>
          rw [lines] at rest
          dsimp only
          rw [join_cons_char, List.cons_append, rest]

/-- The length of joined lines, with one more for each newline. -/
theorem join_length {lines : List (List Char)} (some : lines ≠ []) :
    (joinLines lines).length + 1 = (lines.map fun line => line.length + 1).sum := by
  induction lines using joinLines.induct with
  | case1 => exact absurd rfl some
  | case2 last => simp [joinLines]
  | case3 first next rest ih =>
    rw [joinLines, List.length_append, List.length_cons, List.map_cons, List.sum_cons,
      ← ih (List.cons_ne_nil _ _)]
    omega

end Psop.Lines
