/-!
# Rounding a quotient to a whole number

`roundDiv num den` is the whole number nearest to `num / den`, a half going to the even
neighbour. It is the one rounding step of the library: binary results are rounded with it to 53
significant bits, and figures with a set number of decimal places to their last place.
-/

namespace BenchLog

/-- The whole number nearest to `num / den`; an exact half goes to the even neighbour. -/
def roundDiv (num den : Nat) : Nat :=
  let quotient := num / den
  let twice := 2 * (num % den)
  if twice < den then quotient
  else if den < twice then quotient + 1
  else if quotient % 2 = 0 then quotient
  else quotient + 1

/-- The rounded quotient is within half a unit of the exact one. -/
theorem roundDiv_near (num : Nat) {den : Nat} (h : 0 < den) :
    2 * (roundDiv num den * den) ≤ 2 * num + den ∧
      2 * num ≤ 2 * (roundDiv num den * den) + den := by
  have split := Nat.div_add_mod num den
  have small := Nat.mod_lt num h
  rw [Nat.mul_comm] at split
  unfold roundDiv
  simp only
  generalize num / den = quotient at *
  generalize num % den = remainder at *
  have next : (quotient + 1) * den = quotient * den + den := by rw [Nat.add_mul, Nat.one_mul]
  repeat' split
  all_goals omega

/-- A quotient that is a whole number is not moved. -/
theorem roundDiv_mul_self (n : Nat) {den : Nat} (h : 0 < den) : roundDiv (n * den) den = n := by
  simp [roundDiv, h]

end BenchLog
