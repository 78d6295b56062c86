import Mathlib.Data.List.Basic

/-!
Cipher block chaining over any block cipher, and PKCS#7 padding. A block is a list of bytes
of the block length; the bytes of a message are cut into blocks from the front.
-/
namespace Cbc

structure Block (n : Nat) where
  bytes : List UInt8
  size : bytes.length = n
  deriving DecidableEq

/-- A block cipher: under every key, `decrypt` undoes `encrypt`. -/
structure BlockCipher (κ : Type) (n : Nat) where
  encrypt : κ → Block n → Block n
  decrypt : κ → Block n → Block n
  decrypt_encrypt : ∀ k b, decrypt k (encrypt k b) = b

section Blocks
variable {n : Nat}

@[ext] theorem Block.ext {a b : Block n} (h : a.bytes = b.bytes) : a = b := by
  cases a
  cases b
  cases h
  rfl

def Block.xor (a b : Block n) : Block n :=
  ⟨List.zipWith (· ^^^ ·) a.bytes b.bytes, by simp [a.size, b.size]⟩

theorem Block.xor_xor (a b : Block n) : (a.xor b).xor b = a := by
  ext1
  apply List.ext_getElem
  · simp [Block.xor, a.size, b.size]
  · intro i h₁ h₂
    simp only [Block.xor, List.getElem_zipWith]
    rw [UInt8.xor_assoc, UInt8.xor_self, UInt8.xor_zero]

def blocks (n : Nat) : Nat → List UInt8 → List (Block n)
  | 0, _ => []
  | count + 1, xs =>
      if h : (xs.take n).length = n then ⟨xs.take n, h⟩ :: blocks n count (xs.drop n) else []

def toBlocks (n : Nat) (xs : List UInt8) : List (Block n) := blocks n (xs.length / n) xs

def toBytes (bs : List (Block n)) : List UInt8 := bs.flatMap Block.bytes

theorem length_toBytes (bs : List (Block n)) : (toBytes bs).length = bs.length * n := by
  induction bs with
  | nil => simp [toBytes]
  | cons b bs ih =>
      have split : toBytes (b :: bs) = b.bytes ++ toBytes bs := List.flatMap_cons
      rw [split, List.length_append, ih, b.size, List.length_cons, Nat.succ_mul, Nat.add_comm]

theorem blocks_toBytes (bs : List (Block n)) : blocks n bs.length (toBytes bs) = bs := by
  induction bs with
  | nil => rfl
  | cons b bs ih =>
      have split : toBytes (b :: bs) = b.bytes ++ toBytes bs := List.flatMap_cons
      have first : (b.bytes ++ toBytes bs).take n = b.bytes := List.take_left' b.size
      have rest : (b.bytes ++ toBytes bs).drop n = toBytes bs := List.drop_left' b.size
      rw [List.length_cons, blocks, split, dif_pos (by rw [first, b.size]), rest, ih]
      simp [first]

theorem toBlocks_toBytes (pos : 0 < n) (bs : List (Block n)) : toBlocks n (toBytes bs) = bs := by
  rw [toBlocks, length_toBytes, Nat.mul_div_cancel _ pos, blocks_toBytes]

theorem toBytes_blocks {count : Nat} {xs : List UInt8} (h : xs.length = count * n) :
    toBytes (blocks n count xs) = xs := by
  induction count generalizing xs with
  | zero =>
      rw [Nat.zero_mul] at h
      rw [List.length_eq_zero_iff.mp h]
      rfl
  | succ count ih =>
      rw [Nat.succ_mul] at h
      have first : (xs.take n).length = n := by
        rw [List.length_take]
        omega
      have rest : toBytes (blocks n count (xs.drop n)) = xs.drop n :=
        ih (by rw [List.length_drop]; omega)
      have split : toBytes (⟨xs.take n, first⟩ :: blocks n count (xs.drop n)) =
          xs.take n ++ toBytes (blocks n count (xs.drop n)) := List.flatMap_cons
      rw [blocks, dif_pos first, split, rest, List.take_append_drop]

theorem toBytes_toBlocks {xs : List UInt8} (h : n ∣ xs.length) : toBytes (toBlocks n xs) = xs :=
  toBytes_blocks (Nat.div_mul_cancel h).symm

end Blocks

section Chaining
variable {κ : Type} {n : Nat} (cipher : BlockCipher κ n) (k : κ)

def encryptBlocks : Block n → List (Block n) → List (Block n)
  | _, [] => []
  | prev, p :: ps =>
      let c := cipher.encrypt k (p.xor prev)
      c :: encryptBlocks c ps

def decryptBlocks : Block n → List (Block n) → List (Block n)
  | _, [] => []
  | prev, c :: cs => (cipher.decrypt k c).xor prev :: decryptBlocks c cs

theorem decryptBlocks_encryptBlocks (iv : Block n) (ps : List (Block n)) :
    decryptBlocks cipher k iv (encryptBlocks cipher k iv ps) = ps := by
  induction ps generalizing iv with
  | nil => rfl
  | cons p ps ih =>
      rw [encryptBlocks, decryptBlocks, cipher.decrypt_encrypt, Block.xor_xor, ih]

theorem length_encryptBlocks (iv : Block n) (ps : List (Block n)) :
    (encryptBlocks cipher k iv ps).length = ps.length := by
  induction ps generalizing iv with
  | nil => rfl
  | cons p ps ih => rw [encryptBlocks, List.length_cons, ih, List.length_cons]

def encrypt (iv : Block n) (xs : List UInt8) : List UInt8 :=
  toBytes (encryptBlocks cipher k iv (toBlocks n xs))

def decrypt (iv : Block n) (xs : List UInt8) : List UInt8 :=
  toBytes (decryptBlocks cipher k iv (toBlocks n xs))

theorem decrypt_encrypt (pos : 0 < n) (iv : Block n) {xs : List UInt8} (h : n ∣ xs.length) :
    decrypt cipher k iv (encrypt cipher k iv xs) = xs := by
  rw [decrypt, encrypt, toBlocks_toBytes pos, decryptBlocks_encryptBlocks, toBytes_toBlocks h]

theorem length_encrypt (iv : Block n) {xs : List UInt8} (h : n ∣ xs.length) :
    (encrypt cipher k iv xs).length = xs.length := by
  have same := length_toBytes (toBlocks n xs)
  rw [toBytes_toBlocks h] at same
  rw [encrypt, length_toBytes, length_encryptBlocks, same]

end Chaining

section Padding

/-- The number of bytes that PKCS#7 appends for the block length `k`. -/
def padLength (k : Nat) (xs : List UInt8) : Nat := k - xs.length % k

def pad (k : Nat) (xs : List UInt8) : List UInt8 :=
  xs ++ List.replicate (padLength k xs) (UInt8.ofNat (padLength k xs))

/-- Take the padding off: the last byte says how many bytes there are, all alike. -/
def unpad (k : Nat) (xs : List UInt8) : Option (List UInt8) :=
  match xs.getLast? with
  | none => none
  | some last =>
      let count := last.toNat
      let rest := xs.length - count
      if count = 0 ∨ k < count ∨ xs.length < count then none
      else if (xs.drop rest).all (· == last) then some (xs.take rest) else none

theorem padLength_bounds {k : Nat} (pos : 0 < k) (xs : List UInt8) :
    0 < padLength k xs ∧ padLength k xs ≤ k := by
  have := Nat.mod_lt xs.length pos
  unfold padLength
  omega

theorem dvd_length_pad {k : Nat} (pos : 0 < k) (xs : List UInt8) : k ∣ (pad k xs).length := by
  have whole := Nat.div_add_mod xs.length k
  have small := Nat.mod_lt xs.length pos
  refine ⟨xs.length / k + 1, ?_⟩
  rw [pad, List.length_append, List.length_replicate, padLength, Nat.mul_add]
  omega

/-- A message padded for one block length, taken for padded for another one. -/
theorem unpad_pad {k : Nat} (k' : Nat) (pos : 0 < k) (byte : k < 256) (xs : List UInt8) :
    unpad k' (pad k xs) = if padLength k xs ≤ k' then some xs else none := by
  obtain ⟨some, small⟩ := padLength_bounds pos xs
  have count : (UInt8.ofNat (padLength k xs)).toNat = padLength k xs :=
    UInt8.toNat_ofNat_of_lt' (Nat.lt_of_le_of_lt small byte)
  have last : (pad k xs).getLast? = Option.some (UInt8.ofNat (padLength k xs)) := by
    rw [pad, List.getLast?_append, List.getLast?_replicate, if_neg (by omega), Option.some_or]
  have total : (pad k xs).length = xs.length + padLength k xs := by
    rw [pad, List.length_append, List.length_replicate]
  have rest : (pad k xs).length - padLength k xs = xs.length := by omega
  have front : (pad k xs).take xs.length = xs := List.take_left
  have padding : (pad k xs).drop xs.length =
      List.replicate (padLength k xs) (UInt8.ofNat (padLength k xs)) := List.drop_left
  simp only [unpad, last, count, rest, front, padding]
  by_cases fits : padLength k xs ≤ k'
  · rw [if_neg (by omega), if_pos (by simp), if_pos fits]
  · rw [if_pos (by omega), if_neg fits]

end Padding

end Cbc
