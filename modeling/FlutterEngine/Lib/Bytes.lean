import Mathlib.Algebra.GroupWithZero.Nat
import Mathlib.Data.Nat.Basic

/-!
# Machine words as bytes

A word of `n` bytes is laid out in memory in one of two byte orders. `Endian.word_bytes` says that
reading the layout back gives the word, and `Endian.words_bytes` the same for an array of words.
`nonzeros` counts the bytes of a message that are not zero.
-/

namespace Lib

open List

/-- The `n` low-order bytes of a number, least significant first. -/
def lowBytes : ℕ → ℕ → List UInt8
  | 0, _ => []
  | n + 1, v => UInt8.ofNat v :: lowBytes n (v / 256)

/-- The number whose bytes, least significant first, are given. -/
def ofLowBytes : List UInt8 → ℕ
  | [] => 0
  | b :: bs => b.toNat + 256 * ofLowBytes bs

@[simp] lemma length_lowBytes (n v : ℕ) : (lowBytes n v).length = n := by
  induction n generalizing v with
  | zero => rfl
  | succ n ih => rw [lowBytes, length_cons, ih]

/-- The low bytes of a number give the number modulo a power of 256. -/
lemma ofLowBytes_lowBytes (n v : ℕ) : ofLowBytes (lowBytes n v) = v % 256 ^ n := by
  induction n generalizing v with
  | zero => simp [lowBytes, ofLowBytes, Nat.mod_one]
  | succ n ih =>
    have hpow : 256 ^ (n + 1) = 256 * 256 ^ n := Nat.pow_succ'
    rw [lowBytes, ofLowBytes, ih, UInt8.toNat_ofNat', hpow, Nat.mod_mul]

/-- The bytes of the number of some bytes. -/
lemma lowBytes_ofLowBytes (bs : List UInt8) : lowBytes bs.length (ofLowBytes bs) = bs := by
  induction bs with
  | nil => rfl
  | cons b bs ih =>
    have hlt := b.toNat_lt
    have hdiv : (b.toNat + 256 * ofLowBytes bs) / 256 = ofLowBytes bs := by omega
    have hbyte : UInt8.ofNat (b.toNat + 256 * ofLowBytes bs) = b := by
      apply UInt8.toNat_inj.mp
      rw [UInt8.toNat_ofNat']
      omega
    rw [length_cons, lowBytes, ofLowBytes, hdiv, ih, hbyte]

/-- So many bytes give a number below a power of 256. -/
lemma ofLowBytes_lt (bs : List UInt8) : ofLowBytes bs < 256 ^ bs.length := by
  rw [← lowBytes_ofLowBytes bs, ofLowBytes_lowBytes, length_lowBytes]
  exact Nat.mod_lt _ (Nat.pow_pos (by decide))

/-- The bytes of zero. -/
lemma lowBytes_zero (n : ℕ) : lowBytes n 0 = List.replicate n 0 := by
  induction n with
  | zero => rfl
  | succ n ih =>
    rw [lowBytes, Nat.zero_div, ih, replicate_succ]
    rfl

/-- Fewer bytes of a number are the first ones of more bytes. -/
theorem lowBytes_sublist {n k : ℕ} (h : n ≤ k) (v : ℕ) : (lowBytes n v).Sublist (lowBytes k v) := by
  induction n generalizing k v with
  | zero => exact nil_sublist _
  | succ n ih =>
    obtain ⟨k, rfl⟩ : ∃ k', k = k' + 1 := ⟨k - 1, by omega⟩
    exact (ih (by omega) _).cons_cons _

/-- The two orders in which the bytes of a word can lie in memory. -/
inductive Endian
  | little
  | big
  deriving DecidableEq, Repr

namespace Endian

variable {w n : ℕ} (e : Endian)

/-- The layout of the `n`-byte word `v`. -/
def bytes (n : ℕ) (v : BitVec w) : List UInt8 :=
  match e with
  | little => lowBytes n v.toNat
  | big => (lowBytes n v.toNat).reverse

/-- The word of `w` bits with the given layout. -/
def word (w : ℕ) (bs : List UInt8) : BitVec w :=
  match e with
  | little => BitVec.ofNat w (ofLowBytes bs)
  | big => BitVec.ofNat w (ofLowBytes bs.reverse)

@[simp] lemma length_bytes (n : ℕ) (v : BitVec w) : (e.bytes n v).length = n := by
  cases e <;> simp [bytes]

/-- A word is read back from its bytes. -/
lemma word_bytes (h : w = 8 * n) (v : BitVec w) : e.word w (e.bytes n v) = v := by
  have hpow : 256 ^ n = 2 ^ w := by rw [h, Nat.pow_mul]
  have hv : BitVec.ofNat w (ofLowBytes (lowBytes n v.toNat)) = v := by
    rw [ofLowBytes_lowBytes, hpow, Nat.mod_eq_of_lt v.isLt, BitVec.ofNat_toNat, BitVec.setWidth_eq]
  cases e <;> simpa [word, bytes] using hv

/-- Bytes are read back from their word. -/
lemma bytes_word {bs : List UInt8} (hbs : bs.length = n) (hw : w = 8 * n) :
    e.bytes n (e.word w bs) = bs := by
  have hpow : 256 ^ n = 2 ^ w := by rw [hw, Nat.pow_mul]
  cases e with
  | little =>
    have hlt := ofLowBytes_lt bs
    rw [hbs, hpow] at hlt
    rw [word, bytes, BitVec.toNat_ofNat, Nat.mod_eq_of_lt hlt, ← hbs, lowBytes_ofLowBytes]
  | big =>
    have hlt := ofLowBytes_lt bs.reverse
    rw [length_reverse, hbs, hpow] at hlt
    have hlow := lowBytes_ofLowBytes bs.reverse
    rw [length_reverse, hbs] at hlow
    rw [word, bytes, BitVec.toNat_ofNat, Nat.mod_eq_of_lt hlt, hlow, reverse_reverse]

/-- The layout of an array of `n`-byte words. -/
def arrayBytes (n : ℕ) (l : List (BitVec w)) : List UInt8 := l.flatMap (e.bytes n)

/-- The array of `count` words of `n` bytes each with the given layout. -/
def words (w n : ℕ) : ℕ → List UInt8 → List (BitVec w)
  | 0, _ => []
  | count + 1, bs => e.word w (bs.take n) :: words w n count (bs.drop n)

/-- The length of the bytes of an array. -/
@[simp] lemma length_arrayBytes (n : ℕ) (l : List (BitVec w)) :
    (e.arrayBytes n l).length = l.length * n := by
  induction l with
  | nil => simp [arrayBytes]
  | cons v l ih =>
    rw [arrayBytes, flatMap_cons, List.length_append, length_bytes, ← arrayBytes, ih,
      length_cons, Nat.succ_mul, Nat.add_comm]

@[simp] lemma length_words (w n count : ℕ) (bs : List UInt8) :
    (e.words w n count bs).length = count := by
  induction count generalizing bs with
  | zero => rfl
  | succ count ih => rw [words, length_cons, ih]

/-- An array is read back from its bytes. -/
lemma words_bytes (h : w = 8 * n) (l : List (BitVec w)) :
    e.words w n l.length (e.arrayBytes n l) = l := by
  induction l with
  | nil => rfl
  | cons v l ih =>
    have hlength : (e.bytes n v).length = n := e.length_bytes n v
    rw [arrayBytes, flatMap_cons, ← arrayBytes, length_cons, words,
      take_left' hlength, drop_left' hlength, word_bytes e h, ih]

/-- Bytes are laid out as they are. -/
theorem arrayBytes_one (l : List (BitVec 8)) : e.arrayBytes 1 l = l.map UInt8.ofBitVec := by
  have hbyte : ∀ b : BitVec 8, UInt8.ofNat b.toNat = UInt8.ofBitVec b := by
    intro b
    apply UInt8.toNat_inj.mp
    rw [UInt8.toNat_ofNat', UInt8.toNat_ofBitVec, Nat.mod_eq_of_lt b.isLt]
  induction l with
  | nil => rfl
  | cons b l ih =>
    rw [arrayBytes, flatMap_cons, ← arrayBytes, ih, map_cons, ← hbyte]
    cases e <;> rfl

/-- Bytes are read back from their array. -/
lemma bytes_words (h : w = 8 * n) {count : ℕ} {bs : List UInt8} (hbs : bs.length = count * n) :
    e.arrayBytes n (e.words w n count bs) = bs := by
  induction count generalizing bs with
  | zero =>
    rw [Nat.zero_mul, length_eq_zero_iff] at hbs
    rw [hbs]
    rfl
  | succ count ih =>
    rw [Nat.succ_mul] at hbs
    have htake : (bs.take n).length = n := by
      rw [length_take]
      omega
    have hdrop : (bs.drop n).length = count * n := by
      rw [length_drop]
      omega
    rw [words, arrayBytes, flatMap_cons, ← arrayBytes, ih hdrop, bytes_word e htake h,
      take_append_drop]

end Endian

/-! ## Counting the bytes that are not zero -/

/-- How many bytes of a message are not zero. -/
def nonzeros (bs : List UInt8) : ℕ := bs.countP (· != 0)

@[simp] lemma nonzeros_nil : nonzeros [] = 0 := rfl

/-- The bytes other than zero of two parts. -/
@[simp] lemma nonzeros_append (bs bs' : List UInt8) :
    nonzeros (bs ++ bs') = nonzeros bs + nonzeros bs' :=
  countP_append

/-- The bytes other than zero from the first one on. -/
lemma nonzeros_cons (b : UInt8) (bs : List UInt8) :
    nonzeros (b :: bs) = nonzeros bs + if b = 0 then 0 else 1 := by
  simp [nonzeros, countP_cons]

lemma nonzeros_singleton (b : UInt8) : nonzeros [b] = min 1 b.toNat := by
  rw [nonzeros_cons, nonzeros_nil]
  split
  · next h =>
    rw [h]
    rfl
  · next h =>
    have : b.toNat ≠ 0 := fun h0 => h (UInt8.toNat_inj.mp h0)
    omega

@[simp] lemma nonzeros_replicate_zero (n : ℕ) : nonzeros (List.replicate n 0) = 0 := by
  simp [nonzeros, countP_replicate]

/-- A word of zero has no other bytes. -/
lemma Endian.nonzeros_bytes_zero (e : Endian) (n w : ℕ) :
    nonzeros (e.bytes n (BitVec.ofNat w 0)) = 0 := by
  cases e <;> simp [bytes, lowBytes_zero]

/-- A longer layout of a number has at least as many bytes that are not zero. -/
theorem Endian.nonzeros_bytes_le (e : Endian) {n k w w' : ℕ} (h : n ≤ k) {v : BitVec w}
    {v' : BitVec w'} (hv : v.toNat = v'.toNat) :
    nonzeros (e.bytes n v) ≤ nonzeros (e.bytes k v') := by
  have hle : nonzeros (lowBytes n v.toNat) ≤ nonzeros (lowBytes k v.toNat) :=
    (lowBytes_sublist h v.toNat).countP_le
  cases e <;> simpa [bytes, nonzeros, ← hv] using hle

end Lib
