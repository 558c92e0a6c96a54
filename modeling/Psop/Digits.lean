import Mathlib.Data.List.Basic
import Mathlib.Data.Nat.Digits.Defs

/-!
Digits beyond the ASCII ones: `str.isdigit` and `int` on a text of digits.

`isDigit` holds of more characters than `int` can read: a superscript two is a digit without a
decimal value. `int_some_iff` says which texts of digits are read, and `int_of_numeral` that a text
of ASCII digits has its usual value.
-/
namespace Psop.Digits

/-- The zeros of the decimal digits; the other nine follow each. -/
def zeros : List Nat :=
  [0x30, 0x660, 0x6F0, 0x7C0, 0x966, 0x9E6, 0xA66, 0xAE6, 0xB66, 0xBE6, 0xC66, 0xCE6, 0xD66, 0xDE6,
    0xE50, 0xED0, 0xF20, 0x1040, 0x1090, 0x17E0, 0x1810, 0x1946, 0x19D0, 0x1A80, 0x1A90, 0x1B50,
    0x1BB0, 0x1C40, 0x1C50, 0xA620, 0xA8D0, 0xA900, 0xA9D0, 0xA9F0, 0xAA50, 0xABF0, 0xFF10,
    0x104A0, 0x10D30, 0x11066, 0x110F0, 0x11136, 0x111D0, 0x112F0, 0x11450, 0x114D0, 0x11650,
    0x116C0, 0x11730, 0x118E0, 0x11950, 0x11C50, 0x11D50, 0x11DA0, 0x16A60, 0x16AC0, 0x16B50,
    0x1D7CE, 0x1D7D8, 0x1D7E2, 0x1D7EC, 0x1D7F6, 0x1E140, 0x1E2F0, 0x1E950, 0x1FBF0]

/-- Digits that are no decimal ones: superscripts, subscripts, circled and the like. -/
def otherDigits : List (Nat × Nat) :=
  [(0xB2, 0xB3), (0xB9, 0xB9), (0x1369, 0x1371), (0x19DA, 0x19DA), (0x2070, 0x2070),
    (0x2074, 0x2079), (0x2080, 0x2089), (0x2460, 0x2468), (0x2474, 0x247C), (0x2488, 0x2490),
    (0x24EA, 0x24EA), (0x24F5, 0x24FD), (0x24FF, 0x24FF), (0x2776, 0x277E), (0x2780, 0x2788),
    (0x278A, 0x2792), (0x10A40, 0x10A43), (0x10E60, 0x10E68), (0x11052, 0x1105A),
    (0x1F100, 0x1F10A)]

/-- `unicodedata.decimal`. -/
def decimal? (c : Char) : Option Nat :=
  (zeros.find? fun start => start ≤ c.toNat && c.toNat < start + 10).map (c.toNat - ·)

/-- `str.isdigit` of one character. -/
def isDigit (c : Char) : Bool :=
  (decimal? c).isSome || otherDigits.any fun (low, high) => low ≤ c.toNat && c.toNat ≤ high

/-- `str.isdigit()`. -/
def isDigits (cs : List Char) : Bool := !cs.isEmpty && cs.all isDigit

/-- How many digits `int` reads: `sys.get_int_max_str_digits()`. -/
def maxDigits : Nat := 4300

/-- The number the decimal digits of a text spell. -/
def value (cs : List Char) : Nat := cs.foldl (fun n c => 10 * n + (decimal? c).getD 0) 0

/-- A text of digits `int` reads. -/
def Readable (cs : List Char) : Prop :=
  cs.length ≤ maxDigits ∧ ∀ c ∈ cs, (decimal? c).isSome = true

instance (cs : List Char) : Decidable (Readable cs) :=
  @instDecidableAnd _ _ (Nat.decLe cs.length maxDigits) (List.decidableBAll _ cs)

/-- `int(text)` for a text of digits: `none` where it raises `ValueError`. -/
def int? (cs : List Char) : Option Nat := if Readable cs then some (value cs) else none

theorem int_some_iff {cs : List Char} {n : Nat} : int? cs = some n ↔ Readable cs ∧ n = value cs := by
  rw [int?]
  split
  · rename_i reads
    rw [Option.some_inj]
    exact ⟨fun same => ⟨reads, same.symm⟩, fun same => same.2.symm⟩
  · rename_i stuck
    exact ⟨nofun, fun reads => absurd reads.1 stuck⟩

theorem int_readable {cs : List Char} (reads : Readable cs) : int? cs = some (value cs) :=
  int_some_iff.mpr ⟨reads, rfl⟩

theorem int_unreadable {cs : List Char} (stuck : ¬Readable cs) : int? cs = none :=
  if_neg stuck

theorem decimal_of_isDigit {c : Char} (ascii : c.isDigit = true) :
    decimal? c = some (c.toNat - 48) := by
  simp only [Char.isDigit, Bool.and_eq_true, decide_eq_true_eq] at ascii
  have low : 48 ≤ c.toNat := ascii.1
  have high : c.toNat ≤ 57 := ascii.2
  have first : (decide (48 ≤ c.toNat) && decide (c.toNat < 48 + 10)) = true := by
    rw [Bool.and_eq_true, decide_eq_true_eq, decide_eq_true_eq]
    omega
  have found : zeros.find? (fun start => start ≤ c.toNat && c.toNat < start + 10) = some 48 := by
    rw [zeros]
    exact List.find?_cons_of_pos first
  rw [decimal?, found, Option.map_some]

/-- ASCII digits spell their usual number. -/
theorem value_of_ascii {cs : List Char} (ascii : ∀ c ∈ cs, c.isDigit = true) :
    value cs = Nat.ofDigitChars 10 cs 0 := by
  suffices general : ∀ acc, cs.foldl (fun n c => 10 * n + (decimal? c).getD 0) acc =
      Nat.ofDigitChars 10 cs acc from general 0
  induction cs with
  | nil => simp
  | cons c cs ih =>
    intro acc
    rw [List.foldl_cons, ih (fun d isChar => ascii d (List.mem_cons_of_mem c isChar)),
      Nat.ofDigitChars_cons, decimal_of_isDigit (ascii c List.mem_cons_self), Option.getD_some]
    rfl

end Psop.Digits
