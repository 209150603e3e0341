/-! # Sets of Characters

  A set of characters is a list of ranges of codes. The ranges ascend and do
  not touch the one before, so a search can stop at the first range that
  lies above a code; `mem_iff` says that nothing is missed by stopping.
-/

namespace AdaptiveScript.Text

/-- Whether ranges start at `n` or above and ascend. Both ends of a range
belong to it. -/
def ascendFrom : Nat → List (Nat × Nat) → Bool
  | _, [] => true
  | n, (lo, hi) :: rest => Nat.ble n lo && Nat.ble lo hi && ascendFrom (hi + 1) rest

/-- Looks for a code in ascending ranges. -/
def searchRanges (code : Nat) : List (Nat × Nat) → Bool
  | [] => false
  | (lo, hi) :: rest =>
    if code < lo then false
    else if code ≤ hi then true
    else searchRanges code rest

/-- A set of characters. -/
structure CharSet where
  ranges : List (Nat × Nat)
  ascending : ascendFrom 0 ranges = true

/-! ### Membership -/

/-- Every range lies above the bound from which the ranges ascend. -/
theorem le_of_ascendFrom {n : Nat} {rs : List (Nat × Nat)} (h : ascendFrom n rs = true)
    {r : Nat × Nat} (hr : r ∈ rs) : n ≤ r.1 := by
  induction rs generalizing n with
  | nil => cases hr
  | cons s rest ih =>
    obtain ⟨lo, hi⟩ := s
    simp only [ascendFrom, Bool.and_eq_true, Nat.ble_eq] at h
    obtain ⟨⟨hn, hlo⟩, hrest⟩ := h
    rcases List.mem_cons.1 hr with rfl | hmem
    · exact hn
    · have := ih hrest hmem
      omega

theorem searchRanges_iff {n code : Nat} {rs : List (Nat × Nat)} (h : ascendFrom n rs = true) :
    searchRanges code rs = true ↔ ∃ r ∈ rs, r.1 ≤ code ∧ code ≤ r.2 := by
  induction rs generalizing n with
  | nil => simp [searchRanges]
  | cons s rest ih =>
    obtain ⟨lo, hi⟩ := s
    simp only [ascendFrom, Bool.and_eq_true, Nat.ble_eq] at h
    obtain ⟨⟨_, hlo⟩, hrest⟩ := h
    simp only [searchRanges, List.mem_cons, exists_eq_or_imp]
    by_cases below : code < lo
    · rw [if_pos below]
      constructor
      · intro hfalse
        cases hfalse
      · rintro (hin | ⟨r, hr, hle, _⟩)
        · omega
        · have := le_of_ascendFrom hrest hr
          omega
    · rw [if_neg below]
      by_cases within : code ≤ hi
      · rw [if_pos within]
        exact ⟨fun _ => Or.inl ⟨by omega, within⟩, fun _ => rfl⟩
      · rw [if_neg within, ih hrest]
        constructor
        · exact Or.inr
        · rintro (hin | hr)
          · exact absurd hin.2 within
          · exact hr

namespace CharSet

/-- Whether a character is in the set. -/
def mem (s : CharSet) (c : Char) : Bool := searchRanges c.toNat s.ranges

/-- The members are the characters with a code in one of the ranges. -/
theorem mem_iff (s : CharSet) (c : Char) :
    s.mem c = true ↔ ∃ r ∈ s.ranges, r.1 ≤ c.toNat ∧ c.toNat ≤ r.2 :=
  searchRanges_iff s.ascending

end CharSet

end AdaptiveScript.Text
