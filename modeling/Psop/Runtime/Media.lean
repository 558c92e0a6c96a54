import Psop.Digits
import Psop.Text

/-!
The `Range` header of a terminal object, as `domain/runtime/media.py` reads it.

`isSingleByteRangeSyntax` and `parseSingleByteRange` are the two functions of the code, with `none`
where they raise. `RangeHeader` is the grammar of a single byte range and what it assigns for a
size. `range_header_iff` says for which headers and sizes the code answers, and answers as the
grammar does: a number text may hold a digit that `int` cannot read, and the trimming and the
digits of other scripts let through headers the grammar does not have.
-/
namespace Psop.Runtime.Media

open Psop.Text hiding int?
open Psop.Digits

/-! ### The code -/

/-- `partition(sep)` and `split(sep, 1)`: what stands before the first separator and after it. -/
def cut (sep : Char) : List Char → Option (List Char × List Char)
  | [] => none
  | c :: cs =>
    if c = sep then some ([], cs)
    else (cut sep cs).map fun (before, after) => (c :: before, after)

/-- `text.lower()` -/
def lowerChars (cs : List Char) : List Char := cs.flatMap lowerChar

/-- `none` where it raises `ValueError`. -/
def isSingleByteRangeSyntax (header : List Char) : Option Bool :=
  match cut '=' header with
  | none => some false
  | some (unit, spec) =>
    if lowerChars (stripChars unit) ≠ "bytes".toList then some false
    else
      let spec := stripChars spec
      if spec = [] ∨ ',' ∈ spec then some false
      else match cut '-' spec with
        | none => some false
        | some (startText, endText) =>
          let startText := stripChars startText
          let endText := stripChars endText
          if startText = [] then
            if isDigits endText then (int? endText).map (0 < ·) else some false
          else some (isDigits startText && (endText.isEmpty || isDigits endText))

/-- The first and the last byte to send; `none` outside where it raises `ValueError`. -/
def parseSingleByteRange (header : List Char) (size : Int) : Option (Option (Int × Int)) :=
  if size ≤ 0 then some none
  else match isSingleByteRangeSyntax header with
    | none => none
    | some false => some none
    | some true =>
      match (cut '=' header).bind fun (_, spec) => cut '-' (stripChars spec) with
      | none => none
      | some (startText, endText) =>
        let startText := stripChars startText
        let endText := stripChars endText
        if startText = [] then
          (int? endText).map fun suffixLength => some (max (size - suffixLength) 0, size - 1)
        else
          (int? startText).bind fun start =>
            (if endText = [] then some (size - 1) else (int? endText).map Int.ofNat).map fun (last : Int) =>
              if size ≤ start ∨ last < start then none else some (start, min last (size - 1))

/-! ### The grammar -/

/-- `1*DIGIT` and its number. -/
structure Numeral (cs : List Char) (n : Nat) : Prop where
  nonempty : cs ≠ []
  digits : ∀ c ∈ cs, c.isDigit = true
  number : Nat.ofDigitChars 10 cs 0 = n

/-- The bytes the text around the dash assigns for an object of `size` bytes: `first-last`,
`first-` or `-suffix`. -/
inductive Assigned (size : Int) : List Char → List Char → Int → Int → Prop
  | between {first last f l} : Numeral first f → Numeral last l → f ≤ l → (f : Int) < size →
      Assigned size first last f (min l (size - 1))
  | onward {first f} : Numeral first f → (f : Int) < size → Assigned size first [] f (size - 1)
  | suffix {last n} : Numeral last n → 0 < n → 0 < size →
      Assigned size [] last (max (size - n) 0) (size - 1)

/-- The unit, an equals sign and one range, with nothing between them. -/
def Spelled (header first last : List Char) : Prop :=
  ∃ unit, header = unit ++ '=' :: (first ++ '-' :: last) ∧
    unit.map Char.toLower = "bytes".toList ∧ ∀ c ∈ first ++ last, c.isDigit = true

/-- The single-range grammar of byte ranges: the header asks for the bytes `a` to `b`. -/
def RangeHeader (header : List Char) (size a b : Int) : Prop :=
  ∃ first last, Spelled header first last ∧ Assigned size first last a b

/-- Both functions answer; a pair is the range the grammar assigns; and a header the grammar
assigns nothing gets none. -/
def Right (header : List Char) (size : Int) : Prop :=
  (∃ known, isSingleByteRangeSyntax header = some known) ∧
    ∃ range, parseSingleByteRange header size = some range ∧
      (∀ a b, range = some (a, b) → 0 ≤ a ∧ a ≤ b ∧ b < size ∧ RangeHeader header size a b) ∧
      ((∀ a b, ¬RangeHeader header size a b) → range = none)

/-! ### When they agree -/

/-- The trimmed texts around the dash, of a header that names one range of bytes. -/
def rangeTexts (header : List Char) : Option (List Char × List Char) :=
  match cut '=' header with
  | none => none
  | some (unit, spec) =>
    if lowerChars (stripChars unit) ≠ "bytes".toList ∨ ',' ∈ stripChars spec then none
    else (cut '-' (stripChars spec)).map fun (first, last) => (stripChars first, stripChars last)

/-- The texts that are there are digits, of any kind. -/
def DigitTexts (first last : List Char) : Prop :=
  if first = [] then isDigits last = true
  else isDigits first = true ∧ (last = [] ∨ isDigits last = true)

/-- The numbers meet an object of `size` bytes. -/
def Satisfiable (first last : List Char) (size : Int) : Prop :=
  0 < size ∧ if first = [] then 0 < value last
    else (value first : Int) < size ∧ (last = [] ∨ value first ≤ value last)

/-- The number texts are ones `int` reads where it is asked to, and a header whose texts meet the
object is spelled as the grammar has it. -/
structure Plain (header : List Char) (size : Int) : Prop where
  readable : ∀ first last, rangeTexts header = some (first, last) → DigitTexts first last →
    first = [] ∨ 0 < size → Readable first ∧ Readable last
  spelled : ∀ first last, rangeTexts header = some (first, last) → DigitTexts first last →
    Satisfiable first last size → Spelled header first last

instance (first last : List Char) : Decidable (DigitTexts first last) := by
  unfold DigitTexts; infer_instance

instance (first last : List Char) (size : Int) : Decidable (Satisfiable first last size) := by
  unfold Satisfiable; infer_instance

theorem cut_at {sep : Char} {before : List Char} (absent : sep ∉ before) (after : List Char) :
    cut sep (before ++ sep :: after) = some (before, after) := by
  induction before with
  | nil => simp [cut]
  | cons c cs ih =>
    obtain ⟨differs, rest⟩ := not_or.mp (List.mem_cons.not.mp absent)
    rw [List.cons_append, cut, if_neg (Ne.symm differs), ih rest, Option.map_some]

/-- A letter keeps its lower case, and is no space. -/
theorem lower_letter {c d : Char} (low : 97 ≤ d.toNat) (high : d.toNat ≤ 122)
    (letter : c.toLower = d) : lowerChar c = [d] ∧ isSpace c = false ∧ c ≠ '=' := by
  have bounds : c.toNat ≤ 122 ∧ 65 ≤ c.toNat := by
    delta Char.toLower at letter
    split at letter
    · rename_i upper
      have first : 65 ≤ c.toNat := upper.1
      have last : c.toNat ≤ 90 := upper.2
      omega
    · subst letter
      omega
  have plain : (c.toNat == 0x130) = false ∧ (c.toNat == 0x212A) = false := by
    constructor <;> rw [beq_eq_false_iff_ne] <;> omega
  refine ⟨?_, ?_, ?_⟩
  · rw [lowerChar, plain.1, plain.2, letter]
    rfl
  · simp only [isSpace, Bool.or_eq_false_iff, Bool.and_eq_false_iff, decide_eq_false_iff_not,
      beq_eq_false_iff_ne, ne_eq]
    omega
  · rintro rfl
    have : ('=' : Char).toNat = 61 := rfl
    omega

theorem lower_unit {unit bytes : List Char} (same : unit.map Char.toLower = bytes)
    (letters : bytes.all (fun d => 97 ≤ d.toNat && d.toNat ≤ 122) = true) :
    lowerChars unit = bytes ∧ (∀ c ∈ unit, isSpace c = false) ∧ '=' ∉ unit := by
  subst same
  induction unit with
  | nil => simp [lowerChars]
  | cons c cs ih =>
    simp only [List.map_cons, List.all_cons, Bool.and_eq_true, decide_eq_true_eq] at letters
    obtain ⟨⟨low, high⟩, later⟩ := letters
    obtain ⟨rest, spaceless, absent⟩ := ih later
    obtain ⟨lower, space, differs⟩ := lower_letter low high rfl
    refine ⟨?_, ?_, ?_⟩
    · rw [lowerChars, List.flatMap_cons, lower, List.map_cons, ← rest, lowerChars]
      rfl
    · intro d isChar
      rcases List.mem_cons.mp isChar with rfl | later
      · exact space
      · exact spaceless d later
    · rw [List.mem_cons, not_or]
      exact ⟨Ne.symm differs, absent⟩

theorem digit_plain {c : Char} (digit : c.isDigit = true) :
    isSpace c = false ∧ c ≠ '-' ∧ c ≠ ',' := by
  refine ⟨isSpace_of_isDigit digit, ?_, ?_⟩ <;> rintro rfl <;> exact absurd digit (by decide)

/-- A header spelled as the grammar has it is cut into its own texts. -/
theorem Spelled.texts {header first last : List Char} (spelled : Spelled header first last) :
    rangeTexts header = some (first, last) := by
  obtain ⟨unit, rfl, bytes, digits⟩ := spelled
  obtain ⟨lower, spaceless, absent⟩ := lower_unit bytes (by decide)
  have ofFirst : ∀ c ∈ first, c.isDigit = true := fun c isChar =>
    digits c (List.mem_append_left _ isChar)
  have ofLast : ∀ c ∈ last, c.isDigit = true := fun c isChar =>
    digits c (List.mem_append_right _ isChar)
  have spec : stripChars (first ++ '-' :: last) = first ++ '-' :: last := by
    apply strip_spaceless
    intro c isChar
    rw [List.mem_append, List.mem_cons] at isChar
    rcases isChar with before | rfl | after
    · exact (digit_plain (ofFirst c before)).1
    · decide
    · exact (digit_plain (ofLast c after)).1
  have noComma : ',' ∉ first ++ '-' :: last := by
    rw [List.mem_append, List.mem_cons]
    rintro (before | dash | after)
    · exact (digit_plain (ofFirst _ before)).2.2 rfl
    · exact absurd dash (by decide)
    · exact (digit_plain (ofLast _ after)).2.2 rfl
  have noDash : '-' ∉ first := fun isChar => (digit_plain (ofFirst _ isChar)).2.1 rfl
  have strips : ∀ cs : List Char, (∀ c ∈ cs, c.isDigit = true) → stripChars cs = cs :=
    fun cs digits => strip_spaceless fun c isChar => (digit_plain (digits c isChar)).1
  rw [rangeTexts, cut_at absent]
  simp only [strip_spaceless spaceless, lower, spec, noComma, cut_at noDash, strips first ofFirst,
    strips last ofLast, ne_eq, not_true_eq_false, or_self, if_false, Option.map_some]

/-! ### What the code answers -/

theorem syntax_eq (header : List Char) :
    isSingleByteRangeSyntax header = match rangeTexts header with
      | none => some false
      | some (first, last) =>
        if first = [] then if isDigits last then (int? last).map (0 < ·) else some false
        else some (isDigits first && (last.isEmpty || isDigits last)) := by
  rw [isSingleByteRangeSyntax, rangeTexts]
  cases cut '=' header with
  | none => rfl
  | some parts =>
    obtain ⟨unit, spec⟩ := parts
    by_cases bytes : lowerChars (stripChars unit) = "bytes".toList
    · by_cases comma : ',' ∈ stripChars spec
      · simp only [bytes, comma, ne_eq, not_true_eq_false, or_true, if_true, if_false]
      · by_cases empty : stripChars spec = []
        · simp only [bytes, empty, ne_eq, not_true_eq_false, true_or, if_true, if_false,
            List.not_mem_nil, or_self, cut, Option.map_none]
        · simp only [bytes, comma, empty, ne_eq, not_true_eq_false, or_self, if_false]
          cases cut '-' (stripChars spec) <;> rfl
    · simp only [ne_eq, bytes, not_false_eq_true, true_or, if_true]

/-- The bytes the trimmed texts ask for. -/
def bounds (first last : List Char) (size : Int) : Int × Int :=
  if first = [] then (max (size - value last) 0, size - 1)
  else (value first, if last = [] then size - 1 else min (value last : Int) (size - 1))

theorem syntax_digits {header first last : List Char}
    (texts : rangeTexts header = some (first, last)) (digits : DigitTexts first last) :
    isSingleByteRangeSyntax header =
      if first = [] then (int? last).map (fun n => decide (0 < n)) else some true := by
  rw [DigitTexts] at digits
  rw [syntax_eq, texts]
  split at digits
  · rename_i empty
    simp only [empty, digits, if_true]
  · rename_i nonempty
    rcases digits with ⟨isFirst, rfl | isLast⟩
    · simp [nonempty, isFirst]
    · simp [nonempty, isFirst, isLast]

theorem syntax_other {header first last : List Char}
    (texts : rangeTexts header = some (first, last)) (others : ¬DigitTexts first last) :
    isSingleByteRangeSyntax header = some false := by
  rw [DigitTexts] at others
  rw [syntax_eq, texts]
  split at others
  · rename_i empty
    simp only [empty, others, if_true]
    rfl
  · rename_i nonempty
    rw [not_and_or, not_or] at others
    simp only [nonempty, if_false, Option.some_inj, Bool.and_eq_false_iff, Bool.or_eq_false_iff]
    rcases others with notFirst | ⟨present, notLast⟩
    · exact .inl (Bool.not_eq_true _ ▸ notFirst)
    · exact .inr ⟨by simpa using present, Bool.not_eq_true _ ▸ notLast⟩

/-- What `parseSingleByteRange` cuts out again is what the check looked at. -/
theorem texts_again {header first last : List Char}
    (texts : rangeTexts header = some (first, last)) :
    ∃ startText endText,
      ((cut '=' header).bind fun (_, spec) => cut '-' (stripChars spec)) =
        some (startText, endText) ∧ stripChars startText = first ∧ stripChars endText = last := by
  rw [rangeTexts] at texts
  split at texts
  · cases texts
  · rename_i unit spec isCut
    split at texts
    · cases texts
    · obtain ⟨⟨startText, endText⟩, dash, same⟩ := Option.map_eq_some_iff.mp texts
      cases same
      exact ⟨startText, endText, by rw [isCut]; exact dash, rfl, rfl⟩

theorem parse_digits {header first last : List Char} {size : Int}
    (texts : rangeTexts header = some (first, last)) (digits : DigitTexts first last)
    (positive : 0 < size) :
    parseSingleByteRange header size =
      if Readable first ∧ Readable last then
        some (if Satisfiable first last size then some (bounds first last size) else none)
      else none := by
  obtain ⟨startText, endText, again, rfl, rfl⟩ := texts_again texts
  rw [parseSingleByteRange, if_neg (by omega), syntax_digits texts digits, again]
  by_cases empty : stripChars startText = []
  · have noFirst : Readable (stripChars startText) := by rw [empty]; decide
    simp only [empty, if_true, Satisfiable, bounds, positive, true_and]
    by_cases reads : Readable (stripChars endText)
    · rw [int_readable reads, if_pos ⟨empty ▸ noFirst, reads⟩]
      by_cases some : 0 < value (stripChars endText)
      · simp [some]
      · simp [some]
    · rw [int_unreadable reads, if_neg fun both => reads both.2]
      rfl
  · simp only [empty, if_false, Satisfiable, bounds, positive, true_and]
    by_cases readsFirst : Readable (stripChars startText)
    · rw [int_readable readsFirst, Option.bind_some]
      by_cases open_ : stripChars endText = []
      · have noLast : Readable (stripChars endText) := by rw [open_]; decide
        have both : Readable (stripChars startText) ∧ Readable (stripChars endText) :=
          ⟨readsFirst, noLast⟩
        rw [if_pos open_, Option.map_some, if_pos both]
        simp only [open_, true_or, and_true, if_true]
        by_cases below : (value (stripChars startText) : Int) < size
        · have inside : ¬(size ≤ (value (stripChars startText) : Int) ∨
              size - 1 < (value (stripChars startText) : Int)) := by omega
          rw [if_neg inside, if_pos below, Int.min_self]
        · rw [if_pos (.inl (by omega)), if_neg below]
      · by_cases readsLast : Readable (stripChars endText)
        · have both : Readable (stripChars startText) ∧ Readable (stripChars endText) :=
            ⟨readsFirst, readsLast⟩
          rw [if_neg open_, int_readable readsLast, if_pos both]
          simp only [open_, false_or, if_false, Option.map_some, Int.ofNat_eq_natCast,
            Option.some_inj]
          by_cases meets : (value (stripChars startText) : Int) < size ∧
              value (stripChars startText) ≤ value (stripChars endText)
          · rw [if_neg (by omega), if_pos meets]
          · rw [if_pos (by omega), if_neg meets]
        · rw [if_neg open_, int_unreadable readsLast, if_neg fun both => readsLast both.2]
          rfl
    · have stuck : ¬(Readable (stripChars startText) ∧ Readable (stripChars endText)) :=
        fun both => readsFirst both.1
      rw [int_unreadable readsFirst, if_neg stuck]
      rfl

theorem parse_of_false {header : List Char} (size : Int)
    (other : isSingleByteRangeSyntax header = some false) :
    parseSingleByteRange header size = some none := by
  rw [parseSingleByteRange, other]
  split <;> rfl

/-! ### The grammar assigns what is parsed -/

theorem RangeHeader.positive {header : List Char} {size a b : Int}
    (asks : RangeHeader header size a b) : 0 ≤ a ∧ a ≤ b ∧ b < size := by
  obtain ⟨first, last, -, assigned⟩ := asks
  cases assigned <;> omega

theorem bounds_assigned {first last : List Char} {size : Int} (digits : DigitTexts first last)
    (ascii : ∀ c ∈ first ++ last, c.isDigit = true) (meets : Satisfiable first last size) :
    Assigned size first last (bounds first last size).1 (bounds first last size).2 := by
  have ofFirst : ∀ c ∈ first, c.isDigit = true := fun c isChar =>
    ascii c (List.mem_append_left _ isChar)
  have ofLast : ∀ c ∈ last, c.isDigit = true := fun c isChar =>
    ascii c (List.mem_append_right _ isChar)
  have numeral : ∀ cs : List Char, cs ≠ [] → (∀ c ∈ cs, c.isDigit = true) →
      Numeral cs (value cs) := fun cs nonempty digits =>
    ⟨nonempty, digits, (value_of_ascii digits).symm⟩
  obtain ⟨positive, meets⟩ := meets
  rw [bounds]
  by_cases empty : first = []
  · subst empty
    rw [if_pos rfl] at meets ⊢
    have nonempty : last ≠ [] := by
      rintro rfl
      exact absurd meets (by decide)
    exact .suffix (numeral last nonempty ofLast) meets positive
  · rw [if_neg empty] at meets ⊢
    by_cases open_ : last = []
    · subst open_
      exact .onward (numeral first empty ofFirst) meets.1
    · rw [if_neg open_]
      exact .between (numeral first empty ofFirst) (numeral last open_ ofLast)
        (meets.2.resolve_left open_) meets.1

/-- **The range header.** The code answers a header and a size, and answers them as the grammar
does, exactly where the number texts can be read and a range that meets the object is spelled as
the grammar has it. -/
theorem range_header_iff (header : List Char) (size : Int) :
    Right header size ↔ Plain header size := by
  constructor
  · rintro ⟨⟨known, answered⟩, range, parsed, pair, -⟩
    have reads : ∀ first last, rangeTexts header = some (first, last) → DigitTexts first last →
        first = [] ∨ 0 < size → Readable first ∧ Readable last := by
      intro first last texts digits asked
      by_cases empty : first = []
      · rw [syntax_digits texts digits, if_pos empty] at answered
        obtain ⟨n, read, -⟩ := Option.map_eq_some_iff.mp answered
        exact ⟨by rw [empty]; decide, (int_some_iff.mp read).1⟩
      · rw [parse_digits texts digits (asked.resolve_left empty)] at parsed
        split at parsed
        · assumption
        · cases parsed
    refine ⟨reads, fun first last texts digits meets => ?_⟩
    rw [parse_digits texts digits meets.1, if_pos (reads first last texts digits (.inr meets.1)),
      if_pos meets, Option.some_inj] at parsed
    obtain ⟨-, -, -, first', last', spelled, -⟩ := pair _ _ parsed.symm
    have same := texts.symm.trans spelled.texts
    cases same
    exact spelled
  · intro plain
    suffices answers : (∃ known, isSingleByteRangeSyntax header = some known) ∧
        ∃ range, parseSingleByteRange header size = some range ∧
          ∀ a b, range = some (a, b) → RangeHeader header size a b by
      obtain ⟨answered, range, parsed, pair⟩ := answers
      refine ⟨answered, range, parsed, fun a b isPair => ?_, fun nothing => ?_⟩
      · have asks := pair a b isPair
        exact ⟨asks.positive.1, asks.positive.2.1, asks.positive.2.2, asks⟩
      · cases range with
        | none => rfl
        | some ab => exact absurd (pair ab.1 ab.2 rfl) (nothing _ _)
    cases texts : rangeTexts header with
    | none =>
      have other : isSingleByteRangeSyntax header = some false := by rw [syntax_eq, texts]
      exact ⟨⟨_, other⟩, none, parse_of_false size other, nofun⟩
    | some parts =>
      obtain ⟨first, last⟩ := parts
      by_cases digits : DigitTexts first last
      · refine ⟨?_, ?_⟩
        · rw [syntax_digits texts digits]
          split
          · rename_i empty
            rw [int_readable (plain.readable first last texts digits (.inl empty)).2]
            exact ⟨_, rfl⟩
          · exact ⟨_, rfl⟩
        · by_cases positive : 0 < size
          · rw [parse_digits texts digits positive,
              if_pos (plain.readable first last texts digits (.inr positive))]
            refine ⟨_, rfl, fun a b isPair => ?_⟩
            split at isPair
            · rename_i meets
              have spelled := plain.spelled first last texts digits meets
              obtain ⟨unit, written, bytes, ascii⟩ := spelled
              have assigned := bounds_assigned digits ascii meets
              rw [Option.some_inj.mp isPair] at assigned
              exact ⟨first, last, ⟨unit, written, bytes, ascii⟩, assigned⟩
            · cases isPair
          · refine ⟨none, ?_, nofun⟩
            rw [parseSingleByteRange, if_pos (by omega)]
      · have other := syntax_other texts digits
        exact ⟨⟨_, other⟩, none, parse_of_false size other, nofun⟩

/-- A superscript two is a digit without a decimal value: both functions raise on `bytes=-²`. -/
theorem range_header_raises : ¬∀ header size, Right header size := by
  intro always
  obtain ⟨⟨known, answered⟩, -⟩ := always "bytes=-²".toList 10
  have raises : isSingleByteRangeSyntax "bytes=-²".toList = none := by decide +kernel
  rw [raises] at answered
  cases answered

end Psop.Runtime.Media
