import TextQuery.Predicate.Filter
import TextQuery.Proofs.NumberOrder

/-!
# Numbers as query words

A stored number matches the words that spell its decimal, and only those. Where two numbers that are
compared fall back to doubles, a word is not looked at a second time: so the text of a number matches
just the numbers that compare equal to it and that decimals can hold. The others, which are doubles
next to zero or very large ones, match no words at all, their own text included.
-/
namespace TextQuery

open Decimal (Holds)

namespace Number

variable {n m : Number}

theorem isSpelledBy_iff {text : String} : n.isSpelledBy text = true ↔
    ∃ stored wanted, n.decimal? = some stored ∧ Decimal.ofText? text = some wanted ∧
      stored.key = wanted.key := by
  unfold isSpelledBy
  cases n.decimal? with
  | none => simp
  | some stored =>
    cases Decimal.ofText? text with
    | none => simp
    | some wanted => simp

theorem holds_of_isSpelledBy {text : String} (h : n.isSpelledBy text = true) : Holds n.amount := by
  obtain ⟨stored, wanted, hstored, -, -⟩ := isSpelledBy_iff.1 h
  exact (decimal?_eq_some hstored).1

theorem exists_decimal (h : Holds n.amount) : ∃ x, n.decimal? = some x := by
  cases hn : n.decimal? with
  | none => exact absurd h (decimal?_eq_none hn)
  | some x => exact ⟨x, rfl⟩

theorem abs_place (n : Number) : |n.place| = Decimal.place n.amount := by
  have hnonneg := Decimal.place_nonneg n.amount_nonneg
  unfold place signed
  split
  · rw [abs_neg, abs_of_nonneg hnonneg]
  · exact abs_of_nonneg hnonneg

/-- Of two numbers that compare equal, decimals can hold both or none. -/
theorem holds_of_compare_eq (h : n.compare m = .eq) (hn : Holds n.amount) : Holds m.amount := by
  by_contra hm
  rw [compare_eq_cmp_place, cmp_eq_eq_iff] at h
  have hplace : Decimal.place m.amount = Decimal.place n.amount := by
    rw [← abs_place, ← abs_place, h]
  have hamount : m.amount = n.amount := by
    have hcmp := cmp_place_of_not_holds (y := n) hm
    rw [hplace, cmp_self_eq_eq] at hcmp
    exact (cmp_eq_eq_iff _ _).1 hcmp.symm
  exact hm (hamount ▸ hn)

/-- The text of a number spells the numbers that compare equal to it, of those that decimals can
hold. -/
theorem isSpelledBy_text_iff : n.isSpelledBy m.text = true ↔
    n.compare m = .eq ∧ Holds n.amount := by
  have hboth : ∀ x y, n.decimal? = some x → m.decimal? = some y →
      n.compare m = Ord.compare x.key y.key := by
    intro x y hx hy
    rw [compare, hx, hy]
  rw [isSpelledBy_iff]
  constructor
  · rintro ⟨x, y, hx, hy, hkey⟩
    refine ⟨?_, (decimal?_eq_some hx).1⟩
    rw [hboth x y hx hy, hkey, compare_eq_iff_eq]
  · rintro ⟨hcompare, hn⟩
    have hm := holds_of_compare_eq hcompare hn
    obtain ⟨x, hx⟩ := exists_decimal hn
    obtain ⟨y, hy⟩ := exists_decimal hm
    rw [hboth x y hx hy, compare_eq_iff_eq] at hcompare
    exact ⟨x, y, hx, hy, hcompare⟩

theorem compare_self (n : Number) : n.compare n = .eq := by
  rw [compare_eq_cmp_place, cmp_self_eq_eq]

theorem isSpelledBy_own_text_iff : n.isSpelledBy n.text = true ↔ Holds n.amount := by
  rw [isSpelledBy_text_iff, compare_self, and_iff_right rfl]

end Number

/-- The text of a number matches the numbers that compare equal to it, but only numbers that
decimals can hold. Those are just the numbers that their own text matches, and the others match no
words at all. -/
theorem matchesWords_text_iff (n : Number) :
    (∀ m : Number, Json.matchesWords [m.text] (.number n) = true ↔
      Json.compare (.number n) (.number m) = .eq ∧ Holds n.amount) ∧
    (Json.matchesWords [n.text] (.number n) = true ↔ Holds n.amount) ∧
    ((∃ words, Json.matchesWords words (.number n) = true) ↔ Holds n.amount) := by
  refine ⟨fun m => Number.isSpelledBy_text_iff, Number.isSpelledBy_own_text_iff, ?_, ?_⟩
  · rintro ⟨words, h⟩
    rcases words with _ | ⟨word, _ | ⟨next, words⟩⟩
    · cases h
    · exact Number.holds_of_isSpelledBy h
    · cases h
  · exact fun h => ⟨[n.text], Number.isSpelledBy_own_text_iff.2 h⟩

/-- A double too large for decimals is equal to itself, but its own text does not match it. -/
theorem matchesWords_own_text_too_large :
    let n : Number := .real ⟨false, 0x45f431e0fae6d721, by decide⟩
    n.text = "1e+29" ∧ Json.compare (.number n) (.number n) = .eq ∧
      Json.matchesWords [n.text] (.number n) = false := by
  decide +kernel

end TextQuery
