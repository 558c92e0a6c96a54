import Psop.Text
import Mathlib.Data.List.Lex
import Mathlib.Data.Prod.Lex
import Mathlib.Algebra.Ring.Nat

/-!
Date-times and their ISO 8601 text, with the fraction left out when it is zero.

Date-times of one zone compare by their fields, from the year to the microsecond (`moment`). Their texts compare almost so: digits of a fixed width compare as
their numbers (`pad_lt`), but the letter that ends a text without a fraction comes after the point
that begins one. `iso_lt_iff` says that the texts compare as if no fraction at all were the
greatest (`written`).
-/
namespace Psop

structure DateTime where
  year : Nat
  month : Nat
  day : Nat
  hour : Nat
  minute : Nat
  second : Nat
  microsecond : Nat
  year_lt : year < 10000
  month_lt : month < 13
  day_lt : day < 32
  hour_lt : hour < 24
  minute_lt : minute < 60
  second_lt : second < 60
  microsecond_lt : microsecond < 1000000

namespace DateTime

/-- The last `width` decimal digits of a number. -/
def pad : Nat → Nat → List Char
  | 0, _ => []
  | width + 1, n => Nat.digitChar (n / 10 ^ width % 10) :: pad width n

/-- The fraction of a second, and the letter of the zone. -/
def fraction (microsecond : Nat) : List Char :=
  if microsecond = 0 then ['Z'] else '.' :: (pad 6 microsecond ++ ['Z'])

def isoChars (t : DateTime) : List Char :=
  pad 4 t.year ++ '-' :: (pad 2 t.month ++ '-' :: (pad 2 t.day ++ 'T' :: (pad 2 t.hour ++
    ':' :: (pad 2 t.minute ++ ':' :: (pad 2 t.second ++ fraction t.microsecond)))))

/-- `2026-07-14T10:00:00Z`, `2026-07-14T10:00:00.500000Z` -/
def isoformat (t : DateTime) : String := String.ofList t.isoChars

/-- The fields down to the second. -/
def clock (t : DateTime) : List Nat := [t.year, t.month, t.day, t.hour, t.minute, t.second]

/-- What date-times of one zone compare by. -/
def moment (t : DateTime) : List Nat ×ₗ Nat := toLex (t.clock, t.microsecond)

/-- The place of a fraction among the texts: none at all is the last. -/
def place (microsecond : Nat) : Nat := if microsecond = 0 then 1000000 else microsecond

/-- What their texts compare by. -/
def written (t : DateTime) : List Nat ×ₗ Nat := toLex (t.clock, place t.microsecond)

theorem digit_code {d : Nat} (digit : d < 10) : (Nat.digitChar d).toNat = 48 + d := by
  have all : ∀ d : Fin 10, (Nat.digitChar d).toNat = 48 + d := by decide
  exact all ⟨d, digit⟩

/-- Leading digits decide before the rest. -/
theorem digits_lt {p a b d e : Nat} (lowA : a < p) (lowB : b < p) :
    a + p * d < b + p * e ↔ d < e ∨ d = e ∧ a < b := by
  rcases Nat.lt_trichotomy d e with less | rfl | more
  · have step : p * (d + 1) ≤ p * e := Nat.mul_le_mul_left p less
    rw [Nat.mul_add, Nat.mul_one] at step
    exact ⟨fun _ => .inl less, fun _ => by omega⟩
  · simp
  · have step : p * (e + 1) ≤ p * d := Nat.mul_le_mul_left p more
    rw [Nat.mul_add, Nat.mul_one] at step
    exact ⟨fun _ => by omega, fun _ => by omega⟩

theorem digits_eq {p a b d e : Nat} (lowA : a < p) (lowB : b < p) :
    a + p * d = b + p * e ↔ d = e ∧ a = b := by
  have less := @digits_lt p a b d e lowA lowB
  have more := @digits_lt p b a e d lowB lowA
  constructor
  · intro same
    omega
  · rintro ⟨rfl, rfl⟩
    rfl

/-- Digits of one width compare as their numbers, and then by what follows. -/
theorem pad_lt_mod (width a b : Nat) (x y : List Nat) :
    (pad width a).map Char.toNat ++ x < (pad width b).map Char.toNat ++ y ↔
      a % 10 ^ width < b % 10 ^ width ∨ a % 10 ^ width = b % 10 ^ width ∧ x < y := by
  induction width with
  | zero => simp [pad, Nat.mod_one]
  | succ width ih =>
    have lowA : a % 10 ^ width < 10 ^ width := Nat.mod_lt _ (Nat.pow_pos (by decide))
    have lowB : b % 10 ^ width < 10 ^ width := Nat.mod_lt _ (Nat.pow_pos (by decide))
    have digitA := Nat.mod_lt (a / 10 ^ width) (show 10 > 0 by decide)
    have digitB := Nat.mod_lt (b / 10 ^ width) (show 10 > 0 by decide)
    rw [pad, pad, List.map_cons, List.map_cons, digit_code digitA, digit_code digitB,
      List.cons_append, List.cons_append, List.cons_lt_cons_iff, ih, Nat.mod_pow_succ,
      Nat.mod_pow_succ, digits_lt lowA lowB, digits_eq lowA lowB, Nat.add_lt_add_iff_left,
      Nat.add_left_cancel_iff, and_or_left, or_assoc, and_assoc]

theorem pad_lt {width a b : Nat} (fitsA : a < 10 ^ width) (fitsB : b < 10 ^ width)
    (x y : List Nat) : (pad width a).map Char.toNat ++ x < (pad width b).map Char.toNat ++ y ↔
      a < b ∨ a = b ∧ x < y := by
  rw [pad_lt_mod, Nat.mod_eq_of_lt fitsA, Nat.mod_eq_of_lt fitsB]

theorem fraction_lt {a b : Nat} (fitsA : a < 1000000) (fitsB : b < 1000000) :
    (fraction a).map Char.toNat < (fraction b).map Char.toNat ↔ place a < place b := by
  have point : ('.' : Char).toNat = 46 := rfl
  have zone : ('Z' : Char).toNat = 90 := rfl
  simp only [fraction, place]
  by_cases noA : a = 0
  · by_cases noB : b = 0
    · simp [noA, noB]
    · rw [if_pos noA, if_neg noB, if_pos noA, if_neg noB, List.map_cons, List.map_cons, point,
        zone, List.cons_lt_cons_iff]
      omega
  · by_cases noB : b = 0
    · rw [if_neg noA, if_pos noB, if_neg noA, if_pos noB, List.map_cons, List.map_cons, point,
        zone, List.cons_lt_cons_iff]
      omega
    · rw [if_neg noA, if_neg noB, if_neg noA, if_neg noB, List.map_cons, List.map_cons,
        List.cons_lt_cons_iff, List.map_append, List.map_append,
        pad_lt (show a < 10 ^ 6 by omega) (show b < 10 ^ 6 by omega)]
      simp

/-- **The order of the texts.** -/
theorem iso_lt_iff (a b : DateTime) :
    Text.codesLt (Text.codes a.isoformat) (Text.codes b.isoformat) = true ↔
      a.written < b.written := by
  have two : ∀ {n bound : Nat}, n < bound → bound ≤ 100 → n < 10 ^ 2 := by omega
  have years := @pad_lt 4 a.year b.year a.year_lt b.year_lt
  have months := @pad_lt 2 a.month b.month (two a.month_lt (by decide)) (two b.month_lt (by decide))
  have days := @pad_lt 2 a.day b.day (two a.day_lt (by decide)) (two b.day_lt (by decide))
  have hours := @pad_lt 2 a.hour b.hour (two a.hour_lt (by decide)) (two b.hour_lt (by decide))
  have minutes := @pad_lt 2 a.minute b.minute (two a.minute_lt (by decide))
    (two b.minute_lt (by decide))
  have seconds := @pad_lt 2 a.second b.second (two a.second_lt (by decide))
    (two b.second_lt (by decide))
  have fractions := fraction_lt a.microsecond_lt b.microsecond_lt
  rw [Text.codes_lt_iff, Text.codes, Text.codes, isoformat, isoformat, String.toList_ofList,
    String.toList_ofList, isoChars, isoChars, written, written, Prod.Lex.toLex_lt_toLex]
  simp only [List.map_append, List.map_cons, years, months, days, hours, minutes, seconds,
    fractions, List.cons_lt_cons_iff, Nat.lt_irrefl, true_and, false_or, clock, List.cons.injEq,
    and_true, List.not_lt_nil, and_false, or_false]
  omega

end DateTime
end Psop
