import MerkleDir.Timestamp

namespace MerkleDir

/-- The times that a file system records: whole seconds from the first to the last. -/
structure TimeRange where
  least : Int
  greatest : Int
  least_le_greatest : least ≤ greatest

namespace TimeRange

/-- Seconds in 34 bits, from December 1901 to May 2446. -/
def bits34 : TimeRange := ⟨-2147483648, 15032385535, by decide⟩

def bits64 : TimeRange := ⟨-9223372036854775808, 9223372036854775807, by decide⟩

/-- The time that is kept for `t`. The seconds are brought within the range, and its first and last
second are kept without nanoseconds. -/
def record (range : TimeRange) (t : Timestamp) : Timestamp :=
  if t.seconds ≤ range.least then ⟨range.least, 0⟩
  else if range.greatest ≤ t.seconds then ⟨range.greatest, 0⟩
  else t

def holds (range : TimeRange) (t : Timestamp) : Bool := range.record t = t

theorem record_record (range : TimeRange) (t : Timestamp) :
    range.record (range.record t) = range.record t := by
  by_cases hleast : t.seconds ≤ range.least
  · simp [record, hleast]
  · by_cases hgreatest : range.greatest ≤ t.seconds
    · rcases Int.lt_or_eq_of_le range.least_le_greatest with hlt | heq
      · simp [record, hleast, hgreatest, Int.not_le.mpr hlt]
      · simp [record, hgreatest, heq]
    · simp [record, hleast, hgreatest]

@[simp] theorem holds_record (range : TimeRange) (t : Timestamp) :
    range.holds (range.record t) = true :=
  decide_eq_true (range.record_record t)

theorem seconds_record (range : TimeRange) (t : Timestamp) :
    range.least ≤ (range.record t).seconds ∧ (range.record t).seconds ≤ range.greatest := by
  have hrange := range.least_le_greatest
  rw [record]
  split
  · exact ⟨Int.le_refl _, hrange⟩
  · split
    · exact ⟨hrange, Int.le_refl _⟩
    · exact ⟨by omega, by omega⟩

theorem seconds_of_holds {range : TimeRange} {t : Timestamp} (h : range.holds t = true) :
    range.least ≤ t.seconds ∧ t.seconds ≤ range.greatest := by
  rw [← of_decide_eq_true h]
  exact range.seconds_record t

/-- A time after the last is kept as the last second. -/
example : bits34.record ⟨8210266876800, 7⟩ = ⟨15032385535, 0⟩ := by decide

end TimeRange
end MerkleDir
