import Mathlib.Data.List.Basic
import Mathlib.Tactic.Ring
import RarmDb.Lib.Exec

/-!
# Byte strings

* `leBytes`, `ofLeBytes`: a number as `w` little-endian bytes and back;
  **`ofLeBytes_leBytes`**, **`leBytes_ofLeBytes`**.
* `sliceOf`, `copyInto`: reading and overwriting a range of a byte string, with bounds checks.
* **`copyInto_append`**: overwriting zeroes between two parts that stay.
-/

namespace RarmDb

/-- A byte string. -/
abbrev Bytes : Type := List UInt8

/-! ## Little-endian numbers -/

/-- The `w` low bytes of `n`, least significant first. -/
def leBytes : ℕ → ℕ → Bytes
  | 0, _ => []
  | w + 1, n => UInt8.ofNat n :: leBytes w (n / 256)

/-- The number spelt by little-endian bytes. -/
def ofLeBytes : Bytes → ℕ
  | [] => 0
  | b :: bs => b.toNat + 256 * ofLeBytes bs

@[simp] theorem length_leBytes (w n : ℕ) : (leBytes w n).length = w := by
  induction w generalizing n with
  | zero => rfl
  | succ w ih => rw [leBytes, List.length_cons, ih]

theorem ofLeBytes_leBytes (w n : ℕ) : ofLeBytes (leBytes w n) = n % 256 ^ w := by
  induction w generalizing n with
  | zero => simp [leBytes, ofLeBytes, Nat.mod_one]
  | succ w ih =>
    rw [leBytes, ofLeBytes, ih, UInt8.toNat_ofNat', pow_succ' 256 w,
      Nat.mod_mul (a := 256) (b := 256 ^ w)]

theorem ofLeBytes_leBytes_of_lt {w n : ℕ} (h : n < 256 ^ w) : ofLeBytes (leBytes w n) = n := by
  rw [ofLeBytes_leBytes, Nat.mod_eq_of_lt h]

theorem ofLeBytes_lt (bs : Bytes) : ofLeBytes bs < 256 ^ bs.length := by
  induction bs with
  | nil => simp [ofLeBytes]
  | cons b bs ih =>
    have hb := b.toNat_lt
    rw [ofLeBytes, List.length_cons, pow_succ]
    omega

theorem leBytes_add (v w n : ℕ) : leBytes (v + w) n = leBytes v n ++ leBytes w (n / 256 ^ v) := by
  induction v generalizing n with
  | zero => rw [Nat.zero_add, Nat.pow_zero, Nat.div_one]; rfl
  | succ v ih =>
    rw [Nat.add_right_comm, leBytes, ih, leBytes, List.cons_append, Nat.div_div_eq_div_mul,
      Nat.pow_succ']

theorem ofLeBytes_append (a b : Bytes) :
    ofLeBytes (a ++ b) = ofLeBytes a + 256 ^ a.length * ofLeBytes b := by
  induction a with
  | nil => rw [List.nil_append, ofLeBytes, List.length_nil, Nat.pow_zero, Nat.one_mul, Nat.zero_add]
  | cons x a ih =>
    rw [List.cons_append, ofLeBytes, ofLeBytes, ih, List.length_cons, Nat.pow_succ']
    ring

theorem leBytes_ofLeBytes (bs : Bytes) : leBytes bs.length (ofLeBytes bs) = bs := by
  induction bs with
  | nil => rfl
  | cons b bs ih =>
    have hb := b.toNat_lt
    have h₁ : UInt8.ofNat (b.toNat + 256 * ofLeBytes bs) = b := by
      apply UInt8.toNat_inj.mp
      rw [UInt8.toNat_ofNat']
      omega
    have h₂ : (b.toNat + 256 * ofLeBytes bs) / 256 = ofLeBytes bs := by omega
    rw [List.length_cons, ofLeBytes, leBytes, h₁, h₂, ih]

/-! ## Ranges of a byte string -/

/-- `&bytes[lo..hi]`. -/
def sliceOf (bytes : Bytes) (lo hi : ℕ) : Exec Bytes :=
  if lo ≤ hi ∧ hi ≤ bytes.length then .ret ((bytes.drop lo).take (hi - lo)) else .panic

/-- `bytes[lo..hi].copy_from_slice(src)`. -/
def copyInto (bytes : Bytes) (lo hi : ℕ) (src : Bytes) : Exec Bytes :=
  if lo ≤ hi ∧ hi ≤ bytes.length ∧ src.length = hi - lo then
    .ret (bytes.take lo ++ src ++ bytes.drop hi)
  else .panic

/-- `bytes[i]`. -/
def byteAt (bytes : Bytes) (i : ℕ) : Exec UInt8 := Exec.unwrap bytes[i]?

/-- `bytes[i] = b`. -/
def setByte (bytes : Bytes) (i : ℕ) (b : UInt8) : Exec Bytes :=
  if i < bytes.length then .ret (bytes.set i b) else .panic

theorem sliceOf_append (a b c : Bytes) :
    sliceOf (a ++ b ++ c) a.length (a.length + b.length) = .ret b := by
  rw [sliceOf, if_pos ⟨by omega, by simp only [List.length_append]; omega⟩]
  simp

theorem sliceOf_eq {bytes a b c : Bytes} {lo hi : ℕ} (h : bytes = a ++ b ++ c)
    (hlo : lo = a.length) (hhi : hi = a.length + b.length) : sliceOf bytes lo hi = .ret b := by
  rw [h, hlo, hhi, sliceOf_append]

theorem sliceOf_zero {bytes a b : Bytes} (h : bytes = a ++ b) :
    sliceOf bytes 0 a.length = .ret a := by
  rw [sliceOf, if_pos ⟨Nat.zero_le _, by rw [h, List.length_append]; omega⟩, h, List.drop_zero,
    Nat.sub_zero, List.take_left]

/-- **Overwriting zeroes between two parts that stay.** -/
theorem copyInto_append (a src c : Bytes) {lo hi k : ℕ} (hlo : lo = a.length)
    (hhi : hi = lo + src.length) (hk : src.length ≤ k) :
    copyInto (a ++ List.replicate k 0 ++ c) lo hi src =
      .ret (a ++ src ++ (List.replicate (k - src.length) 0 ++ c)) := by
  subst hlo hhi
  rw [copyInto, if_pos ⟨by omega, by simp only [List.length_append, List.length_replicate]; omega,
    by omega⟩]
  have hd : (a ++ List.replicate k 0 ++ c).drop (a.length + src.length) =
      List.replicate (k - src.length) 0 ++ c := by
    rw [List.append_assoc, ← List.drop_drop, List.drop_left, List.drop_append_of_le_length
      (by simpa using hk), List.drop_replicate]
  rw [hd, List.append_assoc a (List.replicate k 0) c, List.take_left]

theorem setByte_append (a c : Bytes) (b : UInt8) {k : ℕ} (hk : 1 ≤ k) :
    setByte (a ++ List.replicate k 0 ++ c) a.length b =
      .ret (a ++ [b] ++ (List.replicate (k - 1) 0 ++ c)) := by
  obtain ⟨k, rfl⟩ : ∃ m, k = m + 1 := ⟨k - 1, by omega⟩
  rw [setByte, if_pos (by simp only [List.length_append, List.length_replicate]; omega),
    List.append_assoc, List.set_append_right _ _ le_rfl, Nat.sub_self, List.replicate_succ]
  simp

end RarmDb
