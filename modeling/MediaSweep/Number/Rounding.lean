/-!
# Rounding to whole numbers

The nearest whole number, with a half going to the even neighbour.  `roundHalfEven_near` says that
the result is never more than a half away.
-/

namespace MediaSweep.Number

set_option autoImplicit false

/-- The whole number nearest to `x`; of two equally near ones the even one. -/
def roundHalfEven (x : Rat) : Int :=
  let below := x.floor
  if x - below < 1 / 2 then below
  else if 1 / 2 < x - below then below + 1
  else below + below % 2

/-- Rounding moves a number by at most a half. -/
theorem roundHalfEven_near (x : Rat) :
    x - 1 / 2 ≤ roundHalfEven x ∧ (roundHalfEven x : Rat) ≤ x + 1 / 2 := by
  have lower : (x.floor : Rat) ≤ x := Rat.floor_le x
  have upper : x < (x.floor : Rat) + 1 := by simpa using Rat.lt_floor_add_one x
  have parity : x.floor % 2 = 0 ∨ x.floor % 2 = 1 := by omega
  simp only [roundHalfEven]
  split
  · constructor <;> grind
  · split
    · have next : ((x.floor + 1 : Int) : Rat) = (x.floor : Rat) + 1 := by simp
      rw [next]
      constructor <;> grind
    · rcases parity with even | odd
      · rw [even]
        simp only [Int.add_zero]
        constructor <;> grind
      · have next : ((x.floor + 1 : Int) : Rat) = (x.floor : Rat) + 1 := by simp
        rw [odd, next]
        constructor <;> grind

end MediaSweep.Number
