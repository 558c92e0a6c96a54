import Mathlib.Data.List.Basic
import Mathlib.Data.List.DropRight
import Mathlib.Data.List.Infix

/-!
Text operations of the standard library the platform is written in, on lists of characters.

Strings are compared, split and trimmed through `String.toList`, so every function here is a
structural recursion a closed example can run. `splitOn_at_sep` is the fact a dotted path needs: a
separator starts the next part.
-/
namespace Psop.Text

/-- The characters `str.strip` removes. -/
def isSpace (c : Char) : Bool :=
  let n := c.toNat
  (9 ≤ n && n ≤ 13) || (28 ≤ n && n ≤ 32) || n == 0x85 || n == 0xA0 || n == 0x1680 ||
    (0x2000 ≤ n && n ≤ 0x200A) || n == 0x2028 || n == 0x2029 || n == 0x202F || n == 0x205F ||
    n == 0x3000

def stripLeft : List Char → List Char
  | [] => []
  | c :: cs => if isSpace c then stripLeft cs else c :: cs

def stripChars (cs : List Char) : List Char := (stripLeft (stripLeft cs).reverse).reverse

/-- `str.strip()`. -/
def strip (s : String) : String := String.ofList (stripChars s.toList)

/-- `str.lower()` of one character. Only a result in the ASCII range is ever compared, and apart
from `A`–`Z` only the dotted capital I and the Kelvin sign have an ASCII letter in theirs. -/
def lowerChar (c : Char) : List Char :=
  if c.toNat == 0x130 then ['i', Char.ofNat 0x307]
  else if c.toNat == 0x212A then ['k']
  else [c.toLower]

def lower (s : String) : String := String.ofList (s.toList.flatMap lowerChar)

/-- `str.startswith`. -/
def startsWith (lead s : String) : Bool := lead.toList.isPrefixOf s.toList

/-- `str.removeprefix`. -/
def dropLead (lead s : String) : String :=
  if startsWith lead s then String.ofList (s.toList.drop lead.toList.length) else s

def splitChars (sep : Char) : List Char → List (List Char)
  | [] => [[]]
  | c :: cs =>
    if c = sep then [] :: splitChars sep cs
    else match splitChars sep cs with
      | [] => [[c]]
      | part :: parts => (c :: part) :: parts

/-- `str.split(sep)` for a separator of one character. -/
def splitOn (sep : Char) (s : String) : List String :=
  (splitChars sep s.toList).map String.ofList

/-- `part in s` for strings. -/
def contains (part s : String) : Bool := s.toList.tails.any (part.toList.isPrefixOf ·)

/-- `sep.join(parts)`. -/
def join (sep : String) : List String → String
  | [] => ""
  | [part] => part
  | part :: rest => part ++ sep ++ join sep rest

/-- The list without repetitions: the first of equal strings stays. -/
def unique (values : List String) : List String :=
  values.foldl (fun seen value => if value ∈ seen then seen else seen ++ [value]) []

/-- The code points strings are ordered by. -/
def codes (s : String) : List Nat := s.toList.map Char.toNat

def codesLt : List Nat → List Nat → Bool
  | _, [] => false
  | [], _ :: _ => true
  | a :: as, b :: bs => decide (a < b) || (a == b && codesLt as bs)

def insertSorted (s : String) : List String → List String
  | [] => [s]
  | t :: ts => if codesLt (codes s) (codes t) then s :: t :: ts else t :: insertSorted s ts

/-- `sorted(set(values))` -/
def sortedSet (values : List String) : List String :=
  (unique values).foldr insertSorted []

/-- `codesLt` is the lexicographic order. -/
theorem codes_lt_iff (as bs : List Nat) : codesLt as bs = true ↔ as < bs := by
  induction as generalizing bs with
  | nil => cases bs <;> simp [codesLt]
  | cons a as ih => cases bs with
    | nil => simp [codesLt]
    | cons b bs => simp [codesLt, ih, List.cons_lt_cons_iff]

theorem startsWith_iff {lead s : String} : startsWith lead s = true ↔ ∃ rest, s = lead ++ rest := by
  rw [startsWith, List.isPrefixOf_iff_prefix]
  constructor
  · rintro ⟨rest, same⟩
    refine ⟨String.ofList rest, String.toList_inj.mp ?_⟩
    rw [String.toList_append, String.toList_ofList, same]
  · rintro ⟨rest, rfl⟩
    rw [String.toList_append]
    exact List.prefix_append _ _

theorem dropLead_append (lead rest : String) : dropLead lead (lead ++ rest) = rest := by
  rw [dropLead, if_pos (startsWith_iff.mpr ⟨rest, rfl⟩), String.toList_append, List.drop_left,
    String.ofList_toList]

theorem dropLead_of_not {lead s : String} (other : startsWith lead s = false) :
    dropLead lead s = s := by
  rw [dropLead, other, if_neg Bool.false_ne_true]

/-- A text that loses nothing does not start with what would be dropped. -/
theorem not_startsWith_of_dropLead {lead s : String} (nonempty : lead ≠ "")
    (same : dropLead lead s = s) : startsWith lead s = false := by
  cases starts : startsWith lead s with
  | false => rfl
  | true =>
    obtain ⟨rest, rfl⟩ := startsWith_iff.mp starts
    rw [dropLead_append] at same
    have lengths := congrArg (fun t : String => t.toList.length) same
    rw [String.toList_append, List.length_append] at lengths
    have empty : lead.toList = [] := List.length_eq_zero_iff.mp (by omega)
    exact absurd (String.toList_inj.mp empty) nonempty

theorem mem_unique {s : String} {values : List String} : s ∈ unique values ↔ s ∈ values := by
  suffices general : ∀ seen : List String,
      s ∈ values.foldl (fun seen value => if value ∈ seen then seen else seen ++ [value]) seen ↔
        s ∈ seen ∨ s ∈ values by
    simpa [unique] using general []
  induction values with
  | nil => simp
  | cons value values ih =>
    intro seen
    rw [List.foldl_cons, ih, List.mem_cons]
    split
    · rename_i known
      constructor
      · rintro (before | later)
        · exact .inl before
        · exact .inr (.inr later)
      · rintro (before | rfl | later)
        · exact .inl before
        · exact .inl known
        · exact .inr later
    · rw [List.mem_append, List.mem_singleton, or_assoc]

theorem mem_insertSorted {s t : String} {ts : List String} :
    s ∈ insertSorted t ts ↔ s = t ∨ s ∈ ts := by
  induction ts with
  | nil => simp [insertSorted]
  | cons u us ih =>
    rw [insertSorted]
    split
    · exact List.mem_cons
    · rw [List.mem_cons, ih, List.mem_cons]
      exact or_left_comm

theorem mem_sortedSet {s : String} {values : List String} : s ∈ sortedSet values ↔ s ∈ values := by
  have sorted : ∀ ts : List String, s ∈ ts.foldr insertSorted [] ↔ s ∈ ts := by
    intro ts
    induction ts with
    | nil => simp
    | cons t ts ih => rw [List.foldr_cons, mem_insertSorted, ih, List.mem_cons]
  exact (sorted _).trans mem_unique

theorem split_chars_no_sep (sep : Char) (cs : List Char) (absent : sep ∉ cs) :
    splitChars sep cs = [cs] := by
  induction cs with
  | nil => rfl
  | cons c cs ih =>
    obtain ⟨differs, rest⟩ := not_or.mp (List.mem_cons.not.mp absent)
    simp only [splitChars, if_neg (Ne.symm differs), ih rest]

theorem split_chars_at_sep (sep : Char) (cs ds : List Char) (absent : sep ∉ cs) :
    splitChars sep (cs ++ sep :: ds) = cs :: splitChars sep ds := by
  induction cs with
  | nil => simp [splitChars]
  | cons c cs ih =>
    obtain ⟨differs, rest⟩ := not_or.mp (List.mem_cons.not.mp absent)
    simp only [List.cons_append, splitChars, if_neg (Ne.symm differs), ih rest]

/-- The first part ends at the first separator. -/
theorem splitOn_at_sep (sep : Char) (s rest : String) (absent : sep ∉ s.toList) :
    splitOn sep (s ++ String.ofList [sep] ++ rest) = s :: splitOn sep rest := by
  simp [splitOn, split_chars_at_sep sep s.toList rest.toList absent]

/-! ### Trimming -/

theorem stripLeft_eq (cs : List Char) : stripLeft cs = cs.dropWhile isSpace := by
  induction cs with
  | nil => rfl
  | cons c cs ih => rw [stripLeft, List.dropWhile_cons, ih]

theorem stripChars_eq (cs : List Char) :
    stripChars cs = (cs.dropWhile isSpace).rdropWhile isSpace := by
  rw [stripChars, stripLeft_eq, stripLeft_eq, List.rdropWhile]

/-- A text between two characters that are no spaces is trimmed. -/
theorem strip_of_ends {s : String} (first : ∀ c ∈ s.toList.head?, isSpace c = false)
    (last : ∀ c ∈ s.toList.getLast?, isSpace c = false) : strip s = s := by
  have left : s.toList.dropWhile isSpace = s.toList := by
    cases cs : s.toList with
    | nil => rfl
    | cons c rest =>
      rw [List.dropWhile_cons_of_neg]
      simp [first c (by rw [cs]; rfl)]
  rw [strip, stripChars_eq, left, List.rdropWhile_eq_self_iff.mpr, String.ofList_toList]
  intro nonempty
  simp [last _ (List.getLast?_eq_some_getLast nonempty)]

theorem strip_spaceless {cs : List Char} (spaceless : ∀ c ∈ cs, isSpace c = false) :
    stripChars cs = cs := by
  have left : cs.dropWhile isSpace = cs := by
    cases cs with
    | nil => rfl
    | cons c rest => rw [List.dropWhile_cons_of_neg (by simp [spaceless c List.mem_cons_self])]
  rw [stripChars_eq, left, List.rdropWhile_eq_self_iff]
  intro nonempty
  simp [spaceless _ (List.getLast_mem nonempty)]

/-- What trimming leaves neither begins nor ends with a space. -/
theorem strip_ends (s : String) : (∀ c ∈ (strip s).toList.head?, isSpace c = false) ∧
    ∀ c ∈ (strip s).toList.getLast?, isSpace c = false := by
  rw [strip, String.toList_ofList, stripChars_eq]
  refine ⟨fun c isFirst => ?_, fun c isLast => ?_⟩
  · obtain ⟨rest, left⟩ := List.rdropWhile_prefix isSpace (l := s.toList.dropWhile isSpace)
    have isHead : (s.toList.dropWhile isSpace).head? = some c := by
      rw [← left, List.head?_append, Option.mem_def.mp isFirst]
      rfl
    have kept := List.head?_dropWhile_not isSpace s.toList
    rw [isHead] at kept
    simpa using kept
  · obtain ⟨nonempty, rfl⟩ := List.mem_getLast?_eq_getLast isLast
    simpa using List.rdropWhile_last_not isSpace _ nonempty

theorem strip_strip (s : String) : strip (strip s) = strip s :=
  strip_of_ends (strip_ends s).1 (strip_ends s).2

/-! ### Decimal numerals -/

def digit? (c : Char) : Option Nat :=
  if 48 ≤ c.toNat && c.toNat ≤ 57 then some (c.toNat - 48) else none

/-- Digits with single underscores between them, as `int` accepts them. -/
def digits? : Option Nat → List Char → Option Nat
  | acc, [] => acc
  | acc, c :: cs => match digit? c, acc with
    | some d, none => digits? (some d) cs
    | some d, some n => digits? (some (10 * n + d)) cs
    | none, none => none
    | none, some n => match c, cs with
      | '_', d :: ds => match digit? d with
        | some v => digits? (some (10 * n + v)) ds
        | none => none
      | _, _ => none

/-- `int(s)`: `none` where it raises `ValueError`. -/
def int? (s : String) : Option Int :=
  match stripChars s.toList with
  | '-' :: cs => (digits? none cs).map fun n => -(n : Int)
  | '+' :: cs => (digits? none cs).map Int.ofNat
  | cs => (digits? none cs).map Int.ofNat

theorem digit_of_isDigit {c : Char} (isDigit : c.isDigit = true) :
    digit? c = some (c.toNat - '0'.toNat) := by
  simp only [Char.isDigit, Bool.and_eq_true, decide_eq_true_eq] at isDigit
  rw [digit?, if_pos]
  · rfl
  · simp only [Bool.and_eq_true, decide_eq_true_eq]
    exact isDigit

theorem digits_after {cs : List Char} (digits : ∀ c ∈ cs, c.isDigit = true) (acc : Nat) :
    digits? (some acc) cs = some (Nat.ofDigitChars 10 cs acc) := by
  induction cs generalizing acc with
  | nil => simp [digits?]
  | cons c cs ih =>
    rw [digits?.eq_def]
    simp only [digit_of_isDigit (digits c List.mem_cons_self)]
    rw [ih (fun d isD => digits d (List.mem_cons_of_mem _ isD)), Nat.ofDigitChars_cons]

theorem isDigit_of_numeral {n : Nat} {c : Char} (isChar : c ∈ (toString n).toList) :
    c.isDigit = true := by
  rw [Nat.toString_eq_repr, Nat.toList_repr] at isChar
  exact Nat.isDigit_of_mem_toDigits (by decide) (by decide) isChar

/-- A number reads back from its numeral. -/
theorem digits_numeral (n : Nat) : digits? none (toString n).toList = some n := by
  have digits : ∀ c ∈ (toString n).toList, c.isDigit = true := fun _ => isDigit_of_numeral
  have value : Nat.ofDigitChars 10 (toString n).toList 0 = n := by
    rw [Nat.toString_eq_repr, Nat.toList_repr, Nat.ofDigitChars_ten_toDigits]
  have nonempty : (toString n).toList ≠ [] := by
    rw [Nat.toString_eq_repr, Nat.toList_repr]
    exact Nat.toDigits_ne_nil
  cases cs : (toString n).toList with
  | nil => exact absurd cs nonempty
  | cons c cs' =>
    rw [cs] at digits value
    rw [digits?.eq_def]
    simp only [digit_of_isDigit (digits c List.mem_cons_self)]
    rw [digits_after fun d isD => digits d (List.mem_cons_of_mem _ isD), ← value,
      Nat.ofDigitChars_cons]
    simp

theorem isSpace_of_isDigit {c : Char} (isDigit : c.isDigit = true) : isSpace c = false := by
  simp only [Char.isDigit, Bool.and_eq_true, decide_eq_true_eq] at isDigit
  obtain ⟨low, high⟩ := isDigit
  have low : 48 ≤ c.toNat := low
  have high : c.toNat ≤ 57 := high
  simp only [isSpace, Bool.or_eq_false_iff, Bool.and_eq_false_iff, decide_eq_false_iff_not,
    beq_eq_false_iff_ne, ne_eq]
  omega

end Psop.Text
