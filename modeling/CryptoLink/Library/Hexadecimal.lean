import Mathlib.Data.List.Basic

/-!
# Hexadecimal text

Every byte is two digits, in lower case when written and in either case when
read. Reading stops where two digits are missing, and what was read stays.
-/

namespace Hexadecimal

def digits : List Char := "0123456789abcdef".toList

def digit (n : ℕ) : Char := digits.getD n '0'

/-- `fromHexChar` -/
def value (c : Char) : Option ℕ :=
  if '0' ≤ c ∧ c ≤ '9' then some (c.toNat - 48)
  else if 'a' ≤ c ∧ c ≤ 'f' then some (c.toNat - 97 + 10)
  else if 'A' ≤ c ∧ c ≤ 'F' then some (c.toNat - 65 + 10)
  else none

def write : List UInt8 → List Char
  | [] => []
  | b :: bs => digit (b.toNat / 16) :: digit (b.toNat % 16) :: write bs

def read : List Char → List UInt8
  | high :: low :: cs =>
    match value high, value low with
    | some h, some l => UInt8.ofNat (16 * h + l) :: read cs
    | _, _ => []
  | _ => []

theorem value_digit {n : ℕ} (h : n < 16) : value (digit n) = some n := by
  have hall : ∀ n < 16, value (digit n) = some n := by decide
  exact hall n h

theorem read_write (bs : List UInt8) : read (write bs) = bs := by
  induction bs with
  | nil => rfl
  | cons b bs ih =>
    have hbyte := b.toNat_lt
    have hhigh : value (digit (b.toNat / 16)) = some (b.toNat / 16) := value_digit (by omega)
    have hlow : value (digit (b.toNat % 16)) = some (b.toNat % 16) := value_digit (by omega)
    have hboth : UInt8.ofNat (16 * (b.toNat / 16) + b.toNat % 16) = b := by
      rw [Nat.div_add_mod, UInt8.ofNat_toNat]
    rw [write, read, hhigh, hlow]
    dsimp only
    rw [hboth, ih]

end Hexadecimal
