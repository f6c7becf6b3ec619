import ResponsesApiStore.Core.Queue

/-!
# The cursor script

The script compares two identifiers, but it reads their parts as doubles. `roundDouble` never
turns an order around (`roundDouble_mono`) and is exact below `2 ^ 53`, so a cursor is replaced
by one that is not greater only if both have at least that many milliseconds
(`autoclaimCursorScript_eq_ok`). A cursor is written by the server as an identifier; an absent
one counts as `0-0`.
-/

namespace ResponsesApiStore

open Redis (StreamId)

namespace BackgroundQueue

/-! ### Rounding -/

theorem roundDouble_of_lt {n : ℕ} (h : n < 2 ^ 53) : roundDouble n = n := if_pos h

/-- A double of more than 53 binary digits: its unit, its quotient, and what the remainder adds. -/
theorem roundDouble_of_le {n : ℕ} (h : 2 ^ 53 ≤ n) : ∃ up : ℕ, up ≤ 1 ∧
    roundDouble n = (n / 2 ^ (n.log2 - 52) + up) * 2 ^ (n.log2 - 52) ∧
    (up = 1 ↔ 2 ^ (n.log2 - 52) < 2 * (n % 2 ^ (n.log2 - 52)) ∨
      (2 * (n % 2 ^ (n.log2 - 52)) = 2 ^ (n.log2 - 52) ∧ n / 2 ^ (n.log2 - 52) % 2 = 1)) := by
  rw [roundDouble, if_neg (not_lt.mpr h)]
  dsimp only
  split_ifs with hup
  · exact ⟨1, le_rfl, rfl, by simp [hup]⟩
  · exact ⟨0, by omega, by simp, by simp [hup]⟩

/-- Rounding stays within the powers of two around a number. -/
theorem roundDouble_bounds {n : ℕ} (h : 2 ^ 53 ≤ n) :
    2 ^ n.log2 ≤ roundDouble n ∧ roundDouble n ≤ 2 ^ (n.log2 + 1) := by
  have hne : n ≠ 0 := by omega
  have hlog : 53 ≤ n.log2 := (Nat.le_log2 hne).mpr h
  have hlow : 2 ^ n.log2 ≤ n := Nat.log2_self_le hne
  have hhigh : n < 2 ^ (n.log2 + 1) := Nat.lt_log2_self
  obtain ⟨up, hup, heq, -⟩ := roundDouble_of_le h
  -- the quotient by the unit has 53 bits, so rounding up reaches the next power at most
  have hunit : 0 < 2 ^ (n.log2 - 52) := Nat.two_pow_pos _
  have hsplit : 2 ^ n.log2 = 2 ^ 52 * 2 ^ (n.log2 - 52) := by
    rw [← pow_add]
    congr 1
    omega
  have hsplitSucc : 2 ^ (n.log2 + 1) = 2 ^ 53 * 2 ^ (n.log2 - 52) := by
    rw [← pow_add]
    congr 1
    omega
  have hquotLow : 2 ^ 52 ≤ n / 2 ^ (n.log2 - 52) := by
    rw [Nat.le_div_iff_mul_le hunit, ← hsplit]
    exact hlow
  have hquotHigh : n / 2 ^ (n.log2 - 52) < 2 ^ 53 := by
    rw [Nat.div_lt_iff_lt_mul hunit, ← hsplitSucc]
    exact hhigh
  rw [heq]
  constructor
  · rw [hsplit]
    exact Nat.mul_le_mul_right _ (hquotLow.trans (Nat.le_add_right _ _))
  · rw [hsplitSucc]
    exact Nat.mul_le_mul_right _ (by omega)

theorem le_roundDouble {n : ℕ} (h : 2 ^ 53 ≤ n) : 2 ^ 53 ≤ roundDouble n := by
  have hlog : 53 ≤ n.log2 := (Nat.le_log2 (by omega)).mpr h
  exact (Nat.pow_le_pow_right (by decide) hlog).trans (roundDouble_bounds h).1

/-- Rounding never turns an order around. -/
theorem roundDouble_mono {m n : ℕ} (h : m ≤ n) : roundDouble m ≤ roundDouble n := by
  by_cases hm : m < 2 ^ 53
  · rw [roundDouble_of_lt hm]
    by_cases hn : n < 2 ^ 53
    · rw [roundDouble_of_lt hn]
      exact h
    · exact hm.le.trans (le_roundDouble (not_lt.mp hn))
  have hm : 2 ^ 53 ≤ m := not_lt.mp hm
  have hn : 2 ^ 53 ≤ n := hm.trans h
  have hlog : m.log2 ≤ n.log2 :=
    (Nat.le_log2 (by omega)).mpr ((Nat.log2_self_le (by omega)).trans h)
  rcases hlog.lt_or_eq with hlt | heq
  · calc roundDouble m ≤ 2 ^ (m.log2 + 1) := (roundDouble_bounds hm).2
      _ ≤ 2 ^ n.log2 := Nat.pow_le_pow_right (by decide) hlt
      _ ≤ roundDouble n := (roundDouble_bounds hn).1
  -- the same unit: a smaller quotient, or the same one and no greater remainder
  obtain ⟨up, hup, hroundm, hupm⟩ := roundDouble_of_le hm
  obtain ⟨up', hup', hroundn, hupn⟩ := roundDouble_of_le hn
  rw [hroundm, hroundn, ← heq]
  rw [← heq] at hupn
  generalize 2 ^ (m.log2 - 52) = unit at hupm hupn ⊢
  refine Nat.mul_le_mul_right unit ?_
  have hquot : m / unit ≤ n / unit := Nat.div_le_div_right h
  rcases hquot.lt_or_eq with hlt | hquot
  · omega
  · have hrest : m % unit ≤ n % unit := by
      have hm' := Nat.div_add_mod m unit
      have hn' := Nat.div_add_mod n unit
      rw [hquot] at hm'
      omega
    rw [hquot] at hupm ⊢
    omega

/-- A part of an identifier that is greater as a double is greater. -/
theorem lt_of_roundDouble_lt {m n : ℕ} (h : roundDouble m < roundDouble n) : m < n := by
  by_contra hle
  exact absurd (roundDouble_mono (not_lt.mp hle)) (not_le.mpr h)

end BackgroundQueue

/-! ### Cursors and identifiers -/

open BackgroundQueue (roundDouble roundDouble_of_lt le_roundDouble)

/-- The identifier a cursor stands for; an absent one counts as `0-0`. -/
def cursorId (cursor : Option String) : StreamId := (cursor.bind StreamId.parse).getD .zero

/-- A cursor as the server writes it. -/
def IsCursor (cursor : Option String) : Prop := ∀ text ∈ cursor, ∃ id : StreamId, text = id.format

/-- The milliseconds of two cursors are told apart by the doubles the script compares. -/
def Comparable (old new : StreamId) : Prop := old.ms.toNat < 2 ^ 53 ∨ new.ms.toNat < 2 ^ 53

@[simp]
theorem cursorId_none : cursorId none = .zero := rfl

@[simp]
theorem cursorId_format (id : StreamId) : cursorId (some id.format) = id := by
  simp [cursorId]

theorem isCursor_none : IsCursor none := nofun

theorem isCursor_format (id : StreamId) : IsCursor (some id.format) := by
  rintro _ ⟨⟩
  exact ⟨id, rfl⟩

theorem format_zero : StreamId.zero.format = "0-0" := by decide

theorem format_eq_zero_iff {id : StreamId} : id.format = "0-0" ↔ id = .zero := by
  rw [← format_zero]
  exact StreamId.format_injective.eq_iff

/-- A cursor as it is read. -/
theorem IsCursor.getD {cursor : Option String} (h : IsCursor cursor) :
    IsCursor (some (cursor.getD "0-0")) := by
  rcases cursor with _ | text
  · exact format_zero ▸ isCursor_format .zero
  · exact h

theorem cursorId_getD (cursor : Option String) :
    cursorId (some (cursor.getD "0-0")) = cursorId cursor := by
  rcases cursor with _ | text
  · exact format_zero ▸ cursorId_format .zero
  · rfl

/-- Milliseconds that are equal as doubles are equal. -/
theorem Comparable.eq_of_roundDouble_eq {old new : StreamId} (h : Comparable old new)
    (heq : roundDouble new.ms.toNat = roundDouble old.ms.toNat) : new.ms = old.ms := by
  have hms : new.ms.toNat = old.ms.toNat := by
    by_cases hold : old.ms.toNat < 2 ^ 53 <;> by_cases hnew : new.ms.toNat < 2 ^ 53
    · rwa [roundDouble_of_lt hold, roundDouble_of_lt hnew] at heq
    · have hle := le_roundDouble (not_lt.mp hnew)
      rw [heq, roundDouble_of_lt hold] at hle
      exact absurd hold (not_lt.mpr hle)
    · have hle := le_roundDouble (not_lt.mp hold)
      rw [← heq, roundDouble_of_lt hnew] at hle
      exact absurd hnew (not_lt.mpr hle)
    · exact (h.elim hold hnew).elim
  exact UInt64.toNat_inj.mp hms

/-! ### The script -/

namespace BackgroundQueue

theorem luaSplitId_format (id : StreamId) :
    luaSplitId id.format = (some (roundDouble id.ms.toNat), some (roundDouble id.seq.toNat)) := by
  simp only [luaSplitId, StreamId.splitOnce_format, luaNumber, Redis.digits_repr, Option.map_some]

theorem autoclaimCursorScript_zero (old : Option String) :
    autoclaimCursorScript old StreamId.zero.format = .ok (some StreamId.zero.format) := by
  simp [autoclaimCursorScript, format_zero]

theorem autoclaimCursorScript_none (new : StreamId) :
    autoclaimCursorScript none new.format = .ok (some new.format) := by
  rcases hzero : decide (new.format = "0-0") with _ | _ <;> simp only [autoclaimCursorScript, hzero]

/-- **The script.** It keeps the stored cursor or stores the new one; it stores `0-0` in any
case, and any other only over a lesser one, as far as doubles can tell. -/
theorem autoclaimCursorScript_eq_ok {old stored : Option String} {new : StreamId}
    (hold : IsCursor old) (h : autoclaimCursorScript old new.format = .ok stored) :
    (stored = old ∨ stored = some new.format) ∧ (new = .zero → stored = some new.format) ∧
      (new ≠ .zero → Comparable (cursorId old) new → stored = old ∨ cursorId old < new) := by
  by_cases hzero : new = .zero
  · rw [hzero, autoclaimCursorScript_zero] at h
    obtain rfl : some new.format = stored := by
      rw [hzero]
      exact Except.ok.inj h
    exact ⟨.inr rfl, fun _ => rfl, fun hne => absurd hzero hne⟩
  have hformat : new.format ≠ "0-0" := fun heq => hzero (format_eq_zero_iff.mp heq)
  rcases old with _ | text
  · rw [autoclaimCursorScript_none] at h
    obtain rfl : some new.format = stored := Except.ok.inj h
    refine ⟨.inr rfl, fun _ => rfl, fun _ _ => .inr ?_⟩
    exact lt_of_le_of_ne (StreamId.zero_le new) (Ne.symm hzero)
  -- the script compares doubles: milliseconds first, then sequence numbers
  obtain ⟨id, rfl⟩ := hold text rfl
  simp only [autoclaimCursorScript, hformat, decide_false, luaSplitId_format] at h
  rw [cursorId_format]
  split_ifs at h with hms heq hseq
  all_goals obtain rfl := Except.ok.inj h
  · refine ⟨.inr rfl, fun _ => rfl, fun _ _ => .inr ?_⟩
    have hlt := lt_of_roundDouble_lt hms
    have hseq := id.seq.toNat_lt
    rw [StreamId.lt_iff_toNat, StreamId.toNat, StreamId.toNat]
    omega
  · refine ⟨.inr rfl, fun _ => rfl, fun _ hcomparable => .inr ?_⟩
    have hlt := lt_of_roundDouble_lt hseq
    -- equal as doubles means equal, as one of the two is exact
    have hsame := hcomparable.eq_of_roundDouble_eq heq
    rw [StreamId.lt_iff_toNat, StreamId.toNat, StreamId.toNat, hsame]
    omega
  · exact ⟨.inl rfl, fun hnew => absurd hnew hzero, fun _ _ => .inl rfl⟩
  · exact ⟨.inl rfl, fun hnew => absurd hnew hzero, fun _ _ => .inl rfl⟩

/-- On identifiers whose parts are exact as doubles, the script takes the maximum. -/
theorem autoclaimCursorScript_max {old new : StreamId} (hne : new ≠ .zero)
    (hms : new.ms.toNat < 2 ^ 53) (hseq : new.seq.toNat < 2 ^ 53) :
    autoclaimCursorScript (some old.format) new.format = .ok (some (max old new).format) := by
  have hformat : new.format ≠ "0-0" := fun heq => hne (format_eq_zero_iff.mp heq)
  -- with exact parts the comparisons of the script are those of the numbers
  have hexact : ∀ {m n : ℕ}, n < 2 ^ 53 → (roundDouble m < roundDouble n ↔ m < n) := by
    intro m n hn
    refine ⟨lt_of_roundDouble_lt, fun hlt => ?_⟩
    rw [roundDouble_of_lt (hlt.trans hn), roundDouble_of_lt hn]
    exact hlt
  have hsame : roundDouble new.ms.toNat = roundDouble old.ms.toNat ↔ new.ms = old.ms := by
    refine ⟨fun heq => ?_, fun heq => by rw [heq]⟩
    have hcomparable : Comparable old new := .inr hms
    exact hcomparable.eq_of_roundDouble_eq heq
  simp only [autoclaimCursorScript, hformat, decide_false, luaSplitId_format, hexact hms,
    hexact hseq, hsame]
  have holdSeq := old.seq.toNat_lt
  have hnewSeq := new.seq.toNat_lt
  have hle : old ≤ new ↔ old.ms.toNat * 2 ^ 64 + old.seq.toNat ≤
      new.ms.toNat * 2 ^ 64 + new.seq.toNat := Iff.rfl
  have hge : new ≤ old ↔ new.ms.toNat * 2 ^ 64 + new.seq.toNat ≤
      old.ms.toNat * 2 ^ 64 + old.seq.toNat := Iff.rfl
  by_cases hlt : old.ms.toNat < new.ms.toNat
  · rw [if_pos hlt, max_eq_right (hle.mpr (by omega))]
  by_cases heq : new.ms = old.ms
  · rw [heq] at hle hge
    rw [if_neg hlt, if_pos heq]
    split_ifs with hlt'
    · rw [max_eq_right (hle.mpr (by omega))]
    · rw [max_eq_left (hge.mpr (by omega))]
  · have hne' : new.ms.toNat ≠ old.ms.toNat := fun h => heq (UInt64.toNat_inj.mp h)
    rw [if_neg hlt, if_neg heq, max_eq_left (hge.mpr (by omega))]

end BackgroundQueue

end ResponsesApiStore
