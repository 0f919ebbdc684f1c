import Mathlib
import Remoting.Digest.Basic

/-!
# Remoting.Proofs.BigEndian

Big-endian words are read back. Writing a number and reading it keeps its lowest bytes
(`ofBigEndian_bigEndian`), and every byte string is the word of the number that it denotes
(`bigEndian_ofBigEndian`). A digest, which is two such words, is read back whole.
-/

namespace Remoting

theorem bigEndian_succ (width n : Nat) :
    bigEndian (width + 1) n = UInt8.ofNat (n / 256 ^ width) :: bigEndian width n := by
  rw [bigEndian, Nat.shiftRight_eq_div_pow, Nat.pow_mul]

theorem ofBigEndian_cons (b : UInt8) (bs : Bytes) :
    ofBigEndian (b :: bs) = b.toNat * 256 ^ bs.length + ofBigEndian bs := by
  rw [ofBigEndian, Nat.shiftLeft_eq, Nat.pow_mul]

theorem ofBigEndian_lt (bs : Bytes) : ofBigEndian bs < 256 ^ bs.length := by
  induction bs with
  | nil => simp [ofBigEndian]
  | cons b bs ih =>
    have hb : b.toNat < 256 := UInt8.toNat_lt b
    have hle : (b.toNat + 1) * 256 ^ bs.length ≤ 256 * 256 ^ bs.length :=
      Nat.mul_le_mul_right _ hb
    simp only [ofBigEndian_cons, List.length_cons, Nat.pow_succ]
    rw [Nat.add_mul, Nat.one_mul] at hle
    rw [Nat.mul_comm (256 ^ bs.length) 256]
    omega

/-- Writing a number and reading it back keeps its lowest `width` bytes. -/
theorem ofBigEndian_bigEndian (width n : Nat) :
    ofBigEndian (bigEndian width n) = n % 256 ^ width := by
  induction width with
  | zero => simp [bigEndian, ofBigEndian, Nat.mod_one]
  | succ width ih =>
    simp only [bigEndian_succ, ofBigEndian_cons, length_bigEndian, ih, UInt8.toNat_ofNat']
    have hsplit : n % (256 ^ width * 256)
        = n % 256 ^ width + 256 ^ width * (n / 256 ^ width % 256) := Nat.mod_mul
    rw [show (256 : Nat) ^ (width + 1) = 256 ^ width * 256 from Nat.pow_succ .., hsplit,
      Nat.mul_comm (256 ^ width), Nat.add_comm]

/-- Only the lowest `width` bytes matter. -/
theorem bigEndian_mod (width n : Nat) : bigEndian width (n % 256 ^ width) = bigEndian width n := by
  suffices h : ∀ k m, bigEndian k (n % (256 ^ k * m)) = bigEndian k n by
    have := h width 1
    rwa [Nat.mul_one] at this
  intro k
  induction k with
  | zero => intro m; rfl
  | succ k ih =>
    intro m
    have e : 256 ^ (k + 1) * m = 256 ^ k * (256 * m) := by
      rw [Nat.pow_succ, Nat.mul_assoc]
    have hd : n % (256 ^ k * (256 * m)) / 256 ^ k = n / 256 ^ k % (256 * m) :=
      Nat.mod_mul_right_div_self ..
    simp only [bigEndian_succ, e, ih, hd]
    congr 1
    apply UInt8.toNat_inj.1
    simp only [UInt8.toNat_ofNat']
    exact Nat.mod_mod_of_dvd _ ⟨m, by rw [show (2 : Nat) ^ 8 = 256 from rfl]⟩

/-- Reading a byte string and writing it back at its own width gives it again. -/
theorem bigEndian_ofBigEndian (bs : Bytes) : bigEndian bs.length (ofBigEndian bs) = bs := by
  induction bs with
  | nil => rfl
  | cons b bs ih =>
    have hlt := ofBigEndian_lt bs
    have hpos : 0 < 256 ^ bs.length := Nat.pow_pos (by decide)
    simp only [List.length_cons, bigEndian_succ, ofBigEndian_cons]
    congr 1
    · rw [Nat.add_comm, Nat.add_mul_div_right _ _ hpos, Nat.div_eq_of_lt hlt]
      simp
    · rw [← bigEndian_mod, Nat.add_comm, Nat.add_mul_mod_self_right, Nat.mod_eq_of_lt hlt, ih]

@[simp] theorem Digest.ofBytes_toBytes (d : Digest) : ofBytes d.toBytes = d := by
  have h (n : Nat) : (bigEndian 8 n).take 8 = bigEndian 8 n :=
    List.take_of_length_le (by simp)
  simp [ofBytes, toBytes, h, ofBigEndian_bigEndian]

end Remoting
