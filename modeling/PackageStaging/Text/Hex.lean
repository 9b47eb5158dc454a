namespace PackageStaging.Text

def hexValue? (c : Char) : Option Nat :=
  if c.isDigit then some (c.toNat - '0'.toNat)
  else if 'a' ≤ c ∧ c ≤ 'f' then some (c.toNat - 'a'.toNat + 10)
  else if 'A' ≤ c ∧ c ≤ 'F' then some (c.toNat - 'A'.toNat + 10)
  else none

def lowerHexDigit (n : Nat) : Char := Nat.digitChar n

def upperHexDigit (n : Nat) : Char := (Nat.digitChar n).toUpper

def lowerHex (n : Nat) : String := String.ofList (Nat.toDigits 16 n)

theorem hexValue?_lowerHexDigit {n : Nat} (h : n < 16) : hexValue? (lowerHexDigit n) = some n := by
  revert n
  decide

theorem hexValue?_upperHexDigit {n : Nat} (h : n < 16) : hexValue? (upperHexDigit n) = some n := by
  revert n
  decide

end PackageStaging.Text
