/-!
# Byte strings and little-endian numbers

A byte string is a list of bytes. `littleEndian k n` writes the low `k` bytes of `n`, least
significant first, and `value` reads such a string back. The two are inverse to each other:
`value_littleEndian` on numbers that fit, `littleEndian_value` on all strings.
-/

namespace EchoLoad

/-- A string of bytes. -/
abbrev Bytes := List UInt8

namespace Bytes

/-- The low `k` bytes of `n`, least significant first. -/
def littleEndian : Nat → Nat → Bytes
  | 0, _ => []
  | k + 1, n => UInt8.ofNat n :: littleEndian k (n / 256)

/-- The number that a little-endian string stands for. -/
def value : Bytes → Nat
  | [] => 0
  | b :: rest => b.toNat + 256 * value rest

@[simp] theorem length_littleEndian (k n : Nat) : (littleEndian k n).length = k := by
  induction k generalizing n with
  | zero => rfl
  | succ k ih => simp [littleEndian, ih]

private theorem pow_succ (k : Nat) : Nat.pow 256 (k + 1) = 256 * Nat.pow 256 k := Nat.pow_succ'

/-- Writing drops the bytes above the `k`-th, and nothing else. -/
theorem value_littleEndian (k n : Nat) : value (littleEndian k n) = n % Nat.pow 256 k := by
  induction k generalizing n with
  | zero => simp [littleEndian, value, Nat.mod_one]
  | succ k ih =>
    have split : n % (256 * Nat.pow 256 k) = n % 256 + 256 * (n / 256 % Nat.pow 256 k) := Nat.mod_mul
    rw [littleEndian, value, ih, UInt8.toNat_ofNat', pow_succ, split]

/-- Each string is the writing of its value. -/
theorem littleEndian_value (b : Bytes) : littleEndian b.length (value b) = b := by
  induction b with
  | nil => rfl
  | cons x rest ih =>
    have hx := x.toNat_lt
    have hdiv : (x.toNat + 256 * value rest) / 256 = value rest := by omega
    have hbyte : UInt8.ofNat (x.toNat + 256 * value rest) = x := by
      apply UInt8.toNat_inj.mp
      simp only [UInt8.toNat_ofNat']
      omega
    simp only [List.length_cons, littleEndian, value, hdiv, ih, hbyte]

/-- A string of `k` bytes stands for a number below `256 ^ k`. -/
theorem value_lt (b : Bytes) : value b < Nat.pow 256 b.length := by
  induction b with
  | nil => simp [value]
  | cons x rest ih =>
    have hx := x.toNat_lt
    simp only [List.length_cons, value, pow_succ]
    omega

end Bytes

end EchoLoad
