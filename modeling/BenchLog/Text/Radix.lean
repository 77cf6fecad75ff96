/-!
# Digits of other bases

The value of digits in a base up to sixteen, in which letters of either case stand for ten and
more.
-/

namespace BenchLog

/-- The value of a digit, if it is one in the base. -/
def digitValue? (base : Nat) (c : Char) : Option Nat :=
  let value? :=
    if '0' ≤ c && c ≤ '9' then some (c.toNat - 48)
    else if 'a' ≤ c && c ≤ 'f' then some (c.toNat - 87)
    else if 'A' ≤ c && c ≤ 'F' then some (c.toNat - 55)
    else none
  value?.filter (· < base)

/-- The number that digits spell; no digits spell zero. -/
def valueInBase? (base : Nat) (digits : List Char) : Option Nat :=
  digits.foldlM (fun value c => (base * value + ·) <$> digitValue? base c) 0

theorem digitValue?_digitChar : ∀ n < 16, digitValue? 16 (Nat.digitChar n) = some n := by decide

theorem valueInBase?_digitChars {n : Nat} (h : n < 256) :
    valueInBase? 16 ['0', '0', Nat.digitChar (n / 16), Nat.digitChar (n % 16)] = some n := by
  have high := digitValue?_digitChar (n / 16) (by omega)
  have low := digitValue?_digitChar (n % 16) (by omega)
  have zero : digitValue? 16 '0' = some 0 := digitValue?_digitChar 0 (by omega)
  have split : 16 * (16 * (16 * (16 * 0 + 0) + 0) + n / 16) + n % 16 = n := by omega
  simp only [valueInBase?, List.foldlM_cons, List.foldlM_nil, zero, high, low]
  exact congrArg some split

end BenchLog
