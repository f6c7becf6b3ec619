import Mathlib.Data.String.Basic
import Mathlib.Order.Basic
import Mathlib.Tactic.Common

/-!
# Stream identifiers

A stream identifier is a pair of 64-bit numbers, milliseconds and a sequence number, ordered
lexicographically and written `ms-seq` in decimal. The order is transported from the natural
number `ms · 2⁶⁴ + seq` (`StreamId.toNat`), which turns every comparison into arithmetic.

`StreamId.parse` reads an identifier; a missing sequence part is zero. It reads back what
`StreamId.format` writes (`parse_format`), which rests on two facts about decimal text:
`digits_repr` (a numeral reads back) and `splitOnce_append` (the first separator splits).
-/

namespace Redis

/-! ### Decimal text -/

/-- The number written by a non-empty list of decimal digits. -/
def digits (cs : List Char) : Option ℕ :=
  if cs ≠ [] ∧ cs.all Char.isDigit then some (Nat.ofDigitChars 10 cs 0) else none

/-- A decimal numeral that fits 64 bits. -/
def digits64 (cs : List Char) : Option UInt64 :=
  match digits cs with
  | some n => if n < 2 ^ 64 then some (UInt64.ofNat n) else none
  | none => none

theorem digits_repr (n : ℕ) : digits n.repr.toList = some n := by
  have hne : n.repr.toList ≠ [] := by simp
  have hall : n.repr.toList.all Char.isDigit = true := by
    rw [List.all_eq_true, Nat.toList_repr]
    exact fun c hc => Nat.isDigit_of_mem_toDigits (by decide) (by decide) hc
  rw [digits, if_pos ⟨hne, hall⟩, Nat.toList_repr, Nat.ofDigitChars_ten_toDigits]

theorem digits64_repr (n : UInt64) : digits64 n.toNat.repr.toList = some n := by
  rw [digits64, digits_repr]
  simp [n.toNat_lt]

/-- Split at the first occurrence of a character. -/
def splitOnce (sep : Char) : List Char → Option (List Char × List Char)
  | [] => none
  | c :: cs =>
    if c = sep then some ([], cs)
    else (splitOnce sep cs).map fun p => (c :: p.1, p.2)

theorem splitOnce_append {sep : Char} {xs ys : List Char} (h : sep ∉ xs) :
    splitOnce sep (xs ++ sep :: ys) = some (xs, ys) := by
  induction xs with
  | nil => simp [splitOnce]
  | cons x xs ih =>
    obtain ⟨hx, hxs⟩ := not_or.mp (List.mem_cons.not.mp h)
    rw [List.cons_append, splitOnce, if_neg (Ne.symm hx), ih hxs]
    rfl

theorem dash_notMem_repr (n : ℕ) : '-' ∉ n.repr.toList := by
  intro h
  rw [Nat.toList_repr] at h
  have hdigit := Nat.isDigit_of_mem_toDigits (by decide) (by decide) h
  exact absurd hdigit (by decide)

/-! ### Identifiers and their order -/

/-- A stream identifier. -/
structure StreamId where
  ms : UInt64
  seq : UInt64
  deriving DecidableEq, Repr

namespace StreamId

/-- The position of an identifier in the order. -/
def toNat (id : StreamId) : ℕ := id.ms.toNat * 2 ^ 64 + id.seq.toNat

theorem toNat_injective : Function.Injective toNat := by
  intro a b h
  have ha := a.seq.toNat_lt
  have hb := b.seq.toNat_lt
  simp only [toNat] at h
  have hms : a.ms.toNat = b.ms.toNat := by omega
  have hseq : a.seq.toNat = b.seq.toNat := by omega
  cases a
  cases b
  simp_all [UInt64.toNat_inj]

instance : LinearOrder StreamId := LinearOrder.lift' toNat toNat_injective

theorem lt_iff_toNat {a b : StreamId} : a < b ↔ a.toNat < b.toNat := Iff.rfl

theorem le_iff_toNat {a b : StreamId} : a ≤ b ↔ a.toNat ≤ b.toNat := Iff.rfl

/-- The least identifier, below every entry of a stream. -/
def zero : StreamId := ⟨0, 0⟩

theorem zero_le (id : StreamId) : zero ≤ id := by
  rw [le_iff_toNat]
  simp [zero, toNat]

/-- The greatest identifier, which no other follows. -/
def max : StreamId := ⟨UInt64.ofNat (2 ^ 64 - 1), UInt64.ofNat (2 ^ 64 - 1)⟩

/-! ### Text -/

/-- The text of an identifier. -/
def format (id : StreamId) : String := id.ms.toNat.repr ++ "-" ++ id.seq.toNat.repr

/-- Read an identifier; a missing sequence part is zero. -/
def parse (s : String) : Option StreamId :=
  match splitOnce '-' s.toList with
  | some (ms, seq) =>
    match digits64 ms, digits64 seq with
    | some ms, some seq => some ⟨ms, seq⟩
    | _, _ => none
  | none => (digits64 s.toList).map fun ms => ⟨ms, 0⟩

theorem toList_format (id : StreamId) :
    id.format.toList = id.ms.toNat.repr.toList ++ '-' :: id.seq.toNat.repr.toList := by
  simp [format]

theorem splitOnce_format (id : StreamId) :
    splitOnce '-' id.format.toList = some (id.ms.toNat.repr.toList, id.seq.toNat.repr.toList) := by
  rw [toList_format, splitOnce_append (dash_notMem_repr _)]

@[simp]
theorem parse_format (id : StreamId) : parse id.format = some id := by
  rw [parse, splitOnce_format]
  simp only [digits64_repr]

theorem format_injective : Function.Injective format := by
  intro a b h
  have hparse := congrArg parse h
  rw [parse_format, parse_format] at hparse
  exact Option.some.inj hparse

end StreamId

end Redis
