import Mathlib.Data.Fintype.Basic
import Mathlib.Data.List.GetD
import RarmDb.Lib.Bytes

/-!
# Buffers of a fixed size

A buffer of size `n` is a function from the `n` positions to bytes.

* `Buffer.get`, `Buffer.read`: one byte, and a range of bytes;
* `Buffer.write`: overwrite a range; **`get_write`** says what every byte is afterwards;
* `read_write_same`, `read_write_disjoint`: what a range reads after a write;
* `slice`, `copyFromSlice`, `copyWithin`, `fill`: the operations with bounds checks.
-/

namespace RarmDb

/-- A buffer of `n` bytes. -/
@[ext] structure Buffer (n : ℕ) where
  byte : Fin n → UInt8

namespace Buffer

variable {n : ℕ}

instance : DecidableEq (Buffer n) := fun a b =>
  decidable_of_iff (a.byte = b.byte) ⟨Buffer.ext, congrArg _⟩

/-- A buffer whose bytes are all `b`. -/
def const (n : ℕ) (b : UInt8) : Buffer n := ⟨fun _ => b⟩

/-- The byte at position `i`, and `0` past the end. -/
def get (b : Buffer n) (i : ℕ) : UInt8 := if h : i < n then b.byte ⟨i, h⟩ else 0

/-- The `len` bytes from position `off` on. -/
def read (b : Buffer n) (off len : ℕ) : Bytes := (List.range len).map fun k => b.get (off + k)

/-- Overwrite the range that starts at `off` with `xs`. -/
def write (b : Buffer n) (off : ℕ) (xs : Bytes) : Buffer n :=
  ⟨fun i => if off ≤ i ∧ i < off + xs.length then xs.getD (i - off) 0 else b.byte i⟩

theorem get_of_lt (b : Buffer n) {i : ℕ} (h : i < n) : b.get i = b.byte ⟨i, h⟩ := dif_pos h

theorem ext_get {a b : Buffer n} (h : ∀ i, i < n → a.get i = b.get i) : a = b := by
  refine Buffer.ext (funext fun i => ?_)
  simpa only [get_of_lt _ i.2] using h i i.2

/-- **Every byte after a write.** -/
theorem get_write (b : Buffer n) {off : ℕ} {xs : Bytes} (h : off + xs.length ≤ n) (i : ℕ) :
    (b.write off xs).get i =
      if off ≤ i ∧ i < off + xs.length then xs.getD (i - off) 0 else b.get i := by
  by_cases hi : i < n
  · rw [get_of_lt _ hi, get_of_lt _ hi]
    rfl
  · rw [if_neg (by omega), get, get, dif_neg hi, dif_neg hi]

theorem get_write_of_not {b : Buffer n} {off i : ℕ} {xs : Bytes}
    (hi : i < off ∨ off + xs.length ≤ i) : (b.write off xs).get i = b.get i := by
  unfold get
  split_ifs with h
  · exact if_neg (by simp only [not_and, not_lt]; omega)
  · rfl

/-! ## The first bytes -/

/-- The first `len` bytes of `src`, and the rest of the buffer. -/
def fillFirst (b : Buffer n) (len : ℕ) (src : Buffer n) : Buffer n :=
  ⟨fun k => if k < len then src.byte k else b.byte k⟩

/-- **All bytes come from `src`** exactly when the rest was there already. -/
theorem fillFirst_eq_iff {b src : Buffer n} {len : ℕ} :
    b.fillFirst len src = src ↔ ∀ k : Fin n, len ≤ k → b.byte k = src.byte k := by
  rw [Buffer.ext_iff, funext_iff]
  refine forall_congr' fun k => ?_
  by_cases hk : k < len
  · exact iff_of_true (if_pos hk) fun hle => absurd hk hle.not_gt
  · have hbyte : (b.fillFirst len src).byte k = b.byte k := if_neg hk
    rw [hbyte]
    exact ⟨fun h _ => h, fun h => h (not_lt.mp hk)⟩

theorem fillFirst_zero (b src : Buffer n) : b.fillFirst 0 src = b := by
  unfold fillFirst
  simp only [Nat.not_lt_zero, if_false]

theorem fillFirst_min (b src : Buffer n) (len : ℕ) : b.fillFirst (min len n) src = b.fillFirst len src := by
  refine Buffer.ext (funext fun k => ?_)
  have hiff : (k : ℕ) < min len n ↔ k < len := by rw [lt_min_iff, and_iff_left k.2]
  exact if_congr hiff rfl rfl

/-! ## Ranges -/

@[simp] theorem length_read (b : Buffer n) (off len : ℕ) : (b.read off len).length = len := by
  rw [read, List.length_map, List.length_range]

theorem getElem_read (b : Buffer n) {off len k : ℕ} (h : k < (b.read off len).length) :
    (b.read off len)[k] = b.get (off + k) := by
  simp only [read, List.getElem_map, List.getElem_range]

theorem read_congr {a b : Buffer n} {off off' len : ℕ}
    (h : ∀ k, k < len → a.get (off + k) = b.get (off' + k)) : a.read off len = b.read off' len :=
  List.map_congr_left fun k hk => h k (List.mem_range.mp hk)

theorem read_append (b : Buffer n) (off l₁ l₂ : ℕ) :
    b.read off (l₁ + l₂) = b.read off l₁ ++ b.read (off + l₁) l₂ := by
  simp only [read, List.range_add, List.map_append, List.map_map, Function.comp_def, Nat.add_assoc]

theorem take_drop_read (b : Buffer n) {off len i l : ℕ} (h : i + l ≤ len) :
    ((b.read off len).drop i).take l = b.read (off + i) l := by
  obtain ⟨m, rfl⟩ : ∃ m, len = i + (l + m) := ⟨len - i - l, by omega⟩
  rw [read_append, List.drop_left' (length_read ..), read_append, List.take_left' (length_read ..)]

theorem read_write_disjoint (b : Buffer n) {off off' len : ℕ} {xs : Bytes}
    (h : off' + len ≤ off ∨ off + xs.length ≤ off') :
    (b.write off xs).read off' len = b.read off' len :=
  read_congr fun _ hk => get_write_of_not (by omega)

theorem read_write_same (b : Buffer n) {off len : ℕ} {xs : Bytes} (h : off + xs.length ≤ n)
    (hl : len = xs.length) : (b.write off xs).read off len = xs := by
  subst hl
  refine List.ext_getElem (length_read ..) fun k hk hx => ?_
  rw [getElem_read, get_write b h, if_pos (by omega), Nat.add_sub_cancel_left,
    List.getD_eq_getElem _ _ hx]

theorem read_write_inside (b : Buffer n) {off off' len : ℕ} {xs : Bytes}
    (h : off + xs.length ≤ n) (h₁ : off ≤ off') (h₂ : off' + len ≤ off + xs.length) :
    (b.write off xs).read off' len = (xs.drop (off' - off)).take len := by
  obtain ⟨i, rfl⟩ : ∃ i, off' = off + i := ⟨off' - off, by omega⟩
  have hsub : (((b.write off xs).read off xs.length).drop i).take len =
      (b.write off xs).read (off + i) len := take_drop_read _ (by omega)
  rw [← hsub, read_write_same b h rfl, Nat.add_sub_cancel_left]

theorem read_write_read (b c : Buffer n) {off src l off' len : ℕ} (h : off + l ≤ n)
    (h₁ : off ≤ off') (h₂ : off' + len ≤ off + l) :
    (b.write off (c.read src l)).read off' len = c.read (src + (off' - off)) len := by
  rw [read_write_inside b (by rwa [length_read]) h₁ (by rwa [length_read]),
    take_drop_read c (by omega)]

theorem write_nil (b : Buffer n) (off : ℕ) : b.write off [] = b :=
  Buffer.ext (funext fun i => if_neg (by simp only [List.length_nil]; omega))

/-! ## Operations with bounds checks -/

/-- `&buffer[lo..hi]`. -/
def slice (b : Buffer n) (lo hi : ℕ) : Exec Bytes :=
  if lo ≤ hi ∧ hi ≤ n then .ret (b.read lo (hi - lo)) else .panic

/-- `buffer[lo..hi].copy_from_slice(src)`. -/
def copyFromSlice (b : Buffer n) (lo hi : ℕ) (src : Bytes) : Exec (Buffer n) :=
  if lo ≤ hi ∧ hi ≤ n ∧ src.length = hi - lo then .ret (b.write lo src) else .panic

/-- `buffer.copy_within(lo..hi, dst)`. -/
def copyWithin (b : Buffer n) (lo hi dst : ℕ) : Exec (Buffer n) :=
  if lo ≤ hi ∧ hi ≤ n ∧ dst + (hi - lo) ≤ n then .ret (b.write dst (b.read lo (hi - lo)))
  else .panic

/-- `buffer[lo..hi].fill(v)`. -/
def fill (b : Buffer n) (lo hi : ℕ) (v : UInt8) : Exec (Buffer n) :=
  if lo ≤ hi ∧ hi ≤ n then .ret (b.write lo (List.replicate (hi - lo) v)) else .panic

theorem slice_eq (b : Buffer n) {lo len : ℕ} (h : lo + len ≤ n) :
    b.slice lo (lo + len) = .ret (b.read lo len) := by
  rw [slice, if_pos ⟨by omega, h⟩, Nat.add_sub_cancel_left]

theorem copyFromSlice_eq (b : Buffer n) {lo len : ℕ} {src : Bytes} (hl : src.length = len)
    (h : lo + len ≤ n) : b.copyFromSlice lo (lo + len) src = .ret (b.write lo src) := by
  rw [copyFromSlice, if_pos ⟨by omega, h, by omega⟩]

theorem copyWithin_eq (b : Buffer n) {lo len dst : ℕ} (h : lo + len ≤ n) (hd : dst + len ≤ n) :
    b.copyWithin lo (lo + len) dst = .ret (b.write dst (b.read lo len)) := by
  rw [copyWithin, if_pos ⟨by omega, h, by omega⟩, Nat.add_sub_cancel_left]

theorem fill_eq (b : Buffer n) {lo len : ℕ} {v : UInt8} (h : lo + len ≤ n) :
    b.fill lo (lo + len) v = .ret (b.write lo (List.replicate len v)) := by
  rw [fill, if_pos ⟨by omega, h⟩, Nat.add_sub_cancel_left]

theorem fill_all (b : Buffer n) (v : UInt8) : b.fill 0 n v = .ret (const n v) := by
  rw [fill, if_pos ⟨Nat.zero_le n, le_rfl⟩]
  refine congrArg Exec.ret (Buffer.ext (funext fun i => ?_))
  simp only [write, const, List.length_replicate, Nat.sub_zero, Nat.zero_add, i.2, Nat.zero_le,
    and_self, if_true]
  rw [List.getD_eq_getElem _ _ (by rw [List.length_replicate]; exact i.2), List.getElem_replicate]

end Buffer

end RarmDb
