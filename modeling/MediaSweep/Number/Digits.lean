/-!
# Digits of a number

Digits in some base stand for a number, from the first digit to the last.  They are joined two by
two to digits of the squared base, and so on until one is left, because that needs few operations on
large numbers however many digits there are.  `ofDigits_eq_foldl` says that the outcome is the same
as taking up one digit after the other.
-/

namespace MediaSweep.Number

set_option autoImplicit false

/-- Join digits two by two; they come from the last to the first. -/
def joinPairs (base : Nat) : List Nat → List Nat
  | low :: high :: rest => (low + base * high) :: joinPairs base rest
  | digits => digits

theorem length_joinPairs_le (base : Nat) (digits : List Nat) :
    (joinPairs base digits).length ≤ digits.length := by
  fun_induction joinPairs base digits with
  | case1 low high rest ih => simp only [List.length_cons]; omega
  | case2 => exact Nat.le_refl _

/-- The number with the given digits, which come from the last to the first. -/
def ofReversedDigits (base : Nat) (digits : List Nat) : Nat :=
  match digits with
  | [] => 0
  | [digit] => digit
  | low :: high :: rest =>
    ofReversedDigits (base * base) ((low + base * high) :: joinPairs base rest)
termination_by digits.length
decreasing_by
  have := length_joinPairs_le base rest
  simp only [List.length_cons]
  omega

/-- The number with the given digits. -/
def ofDigits (base : Nat) (digits : List Nat) : Nat :=
  ofReversedDigits base digits.reverse

theorem ofReversedDigits_joinPairs (base : Nat) (digits : List Nat) :
    ofReversedDigits (base * base) (joinPairs base digits) = ofReversedDigits base digits := by
  match digits with
  | [] => simp [joinPairs, ofReversedDigits]
  | [digit] => simp [joinPairs, ofReversedDigits]
  | low :: high :: rest => rw [joinPairs, ofReversedDigits.eq_3]

theorem ofReversedDigits_cons (base digit : Nat) (digits : List Nat) :
    ofReversedDigits base (digit :: digits) = digit + base * ofReversedDigits base digits := by
  match digits with
  | [] => simp [ofReversedDigits]
  | high :: rest =>
    have shorter := length_joinPairs_le base rest
    rw [ofReversedDigits.eq_3, ofReversedDigits_cons (base * base), ofReversedDigits_cons base high,
      ofReversedDigits_joinPairs]
    simp only [Nat.mul_add, Nat.mul_assoc, Nat.add_assoc]
termination_by digits.length
decreasing_by all_goals simp only [List.length_cons]; omega

theorem ofDigits_concat (base : Nat) (digits : List Nat) (digit : Nat) :
    ofDigits base (digits ++ [digit]) = ofDigits base digits * base + digit := by
  simp only [ofDigits, List.reverse_append, List.reverse_cons, List.reverse_nil, List.nil_append,
    List.singleton_append, ofReversedDigits_cons]
  rw [Nat.add_comm, Nat.mul_comm]

/-- The number grows digit by digit. -/
theorem ofDigits_eq_foldl (base : Nat) (digits : List Nat) :
    ofDigits base digits = digits.foldl (fun value digit => value * base + digit) 0 := by
  rw [← List.reverse_reverse digits]
  induction digits.reverse with
  | nil => simp [ofDigits, ofReversedDigits]
  | cons digit earlier ih =>
    rw [List.reverse_cons, ofDigits_concat, ih, List.foldl_append, List.foldl_cons, List.foldl_nil]

end MediaSweep.Number
