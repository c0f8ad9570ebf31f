import Mathlib.Data.List.DropRight
import RarmDb.Lib.Exec

/-!
# Texts

The operations of strings that a parser of short texts uses, on lists of characters.

* `trim`, `toAsciiUppercase`: Unicode whitespace and ASCII case; `trim_mid`, `trim_pad`, `trim_map`;
* `find`, `slice`: positions are counted in bytes of UTF-8, and a slice at any other place panics;
  `slice_mid`;
* `parseUnsigned`: numbers below a bound; **`parseUnsigned_toDigits`**: it reads printed numbers.
-/

namespace RarmDb

namespace Text

/-! ## Whitespace -/

/-- The Unicode property `White_Space`. -/
def isWhitespace (c : Char) : Bool :=
  (9 ≤ c.toNat && c.toNat ≤ 13) || c.toNat == 32 || c.toNat == 0x85 || c.toNat == 0xA0 ||
    c.toNat == 0x1680 || (0x2000 ≤ c.toNat && c.toNat ≤ 0x200A) || c.toNat == 0x2028 ||
    c.toNat == 0x2029 || c.toNat == 0x202F || c.toNat == 0x205F || c.toNat == 0x3000

/-- Only whitespace. -/
def IsSpace (w : List Char) : Prop := ∀ c ∈ w, isWhitespace c = true

/-- `trim_start`. -/
def trimStart (s : List Char) : List Char := s.dropWhile isWhitespace

/-- `trim_end`. -/
def trimEnd (s : List Char) : List Char := s.rdropWhile isWhitespace

/-- `trim`. -/
def trim (s : List Char) : List Char := trimEnd (trimStart s)

variable {s a b w : List Char} {c : Char}

theorem trimStart_space_append (hw : IsSpace w) : trimStart (w ++ s) = trimStart s :=
  List.dropWhile_append_of_pos hw

theorem trimEnd_append_space (hw : IsSpace w) : trimEnd (s ++ w) = trimEnd s := by
  rw [trimEnd, trimEnd, List.rdropWhile, List.rdropWhile, List.reverse_append,
    List.dropWhile_append_of_pos fun c hc => hw c (List.mem_reverse.mp hc)]

theorem trimStart_mid (hc : isWhitespace c = false) :
    trimStart (a ++ c :: b) = trimStart a ++ c :: b := by
  induction a with
  | nil => exact List.dropWhile_cons_of_neg (by rw [hc]; decide)
  | cons d a ih =>
    by_cases hd : isWhitespace d = true
    · rw [List.cons_append, trimStart, List.dropWhile_cons_of_pos hd, trimStart,
        List.dropWhile_cons_of_pos hd]
      exact ih
    · rw [List.cons_append, trimStart, List.dropWhile_cons_of_neg hd, trimStart,
        List.dropWhile_cons_of_neg hd, List.cons_append]

theorem trimEnd_mid (hc : isWhitespace c = false) : trimEnd (a ++ c :: b) = a ++ c :: trimEnd b := by
  have h := trimStart_mid (a := b.reverse) (b := a.reverse) hc
  rw [trimStart, trimStart] at h
  rw [trimEnd, trimEnd, List.rdropWhile, List.rdropWhile, List.reverse_append, List.reverse_cons,
    List.append_assoc, List.singleton_append, h, List.reverse_append, List.reverse_cons,
    List.reverse_reverse, List.append_assoc, List.singleton_append]

theorem trimEnd_cons (hc : isWhitespace c = false) : trimEnd (c :: b) = c :: trimEnd b :=
  trimEnd_mid (a := []) hc

theorem trim_mid (hc : isWhitespace c = false) :
    trim (a ++ c :: b) = trimStart a ++ c :: trimEnd b := by
  rw [trim, trimStart_mid hc, trimEnd_mid hc]

theorem trimStart_eq_nil (hw : IsSpace w) : trimStart w = [] := by
  rw [← List.append_nil w, trimStart_space_append hw]
  rfl

/-- A text is whitespace, or has a character that is none. -/
theorem isSpace_or_mid (s : List Char) :
    IsSpace s ∨ ∃ a c b, s = a ++ c :: b ∧ isWhitespace c = false := by
  by_cases h : IsSpace s
  · exact .inl h
  · right
    simp only [IsSpace, not_forall, Bool.not_eq_true] at h
    obtain ⟨c, hmem, hc⟩ := h
    obtain ⟨a, b, rfl⟩ := List.append_of_mem hmem
    exact ⟨a, c, b, rfl, hc⟩

theorem trim_space_append (hw : IsSpace w) : trim (w ++ s) = trim s := by
  rw [trim, trim, trimStart_space_append hw]

theorem trim_append_space (hw : IsSpace w) : trim (s ++ w) = trim s := by
  rcases isSpace_or_mid s with hs | ⟨a, c, b, rfl, hc⟩
  · rw [trim, trim, trimStart_space_append hs, trimStart_eq_nil hw, trimStart_eq_nil hs]
  · rw [List.append_assoc, List.cons_append, trim_mid hc, trim_mid hc, trimEnd_append_space hw]

theorem trim_pad {u v : List Char} (hu : IsSpace u) (hv : IsSpace v) : trim (u ++ s ++ v) = trim s := by
  rw [trim_append_space hv, trim_space_append hu]

theorem trim_trimStart : trim (trimStart s) = trim s := by
  rw [trim, trim, trimStart, trimStart, List.dropWhile_idempotent]

theorem trim_eq_self (hs : ∀ c ∈ s, isWhitespace c = false) : trim s = s := by
  have hstart : trimStart s = s := by
    cases s with
    | nil => rfl
    | cons c s => exact trimStart_mid (a := []) (hs c List.mem_cons_self)
  rw [trim, hstart]
  rcases List.eq_nil_or_concat s with rfl | ⟨b, c, rfl⟩
  · rfl
  · rw [List.concat_eq_append] at hs ⊢
    exact trimEnd_mid (b := []) (hs c (List.mem_append_right b List.mem_cons_self))

theorem trim_map {f : Char → Char} (hf : ∀ c, isWhitespace (f c) = isWhitespace c) :
    trim (s.map f) = (trim s).map f := by
  have hcomp : isWhitespace ∘ f = isWhitespace := by
    funext c
    exact hf c
  rw [trim, trim, trimStart, trimEnd, trimStart, trimEnd, List.rdropWhile, List.rdropWhile,
    List.dropWhile_map, hcomp, ← List.map_reverse, List.dropWhile_map, hcomp, List.map_reverse]

/-! ## ASCII case -/

/-- `to_ascii_uppercase`. -/
def toAsciiUppercase (s : List Char) : List Char := s.map Char.toUpper

theorem toAsciiUppercase_append :
    toAsciiUppercase (a ++ b) = toAsciiUppercase a ++ toAsciiUppercase b :=
  List.map_append

theorem toUpper_cases (c : Char) : c.toUpper = c ∨
    (97 ≤ c.toNat ∧ c.toNat ≤ 122) ∧ c.toUpper.toNat = c.toNat - 32 := by
  unfold Char.toUpper
  split_ifs with h
  · have hsmall : 97 ≤ c.toNat ∧ c.toNat ≤ 122 := by
      rwa [UInt32.le_iff_toNat_le, UInt32.le_iff_toNat_le] at h
    refine .inr ⟨hsmall, ?_⟩
    have hdiff : ('A'.val - 'a'.val).toNat = 2 ^ 32 - 32 := by decide
    change (c.val + ('A'.val - 'a'.val)).toNat = _
    rw [UInt32.toNat_add, hdiff, Char.toNat_val]
    omega
  · exact .inl rfl

theorem isWhitespace_toUpper (c : Char) : isWhitespace c.toUpper = isWhitespace c := by
  rcases toUpper_cases c with h | ⟨hc, h⟩
  · rw [h]
  · have hbefore : isWhitespace c = false := by
      simp only [isWhitespace]
      grind
    have hafter : isWhitespace c.toUpper = false := by
      simp only [isWhitespace, h]
      grind
    rw [hbefore, hafter]

theorem toUpper_eq_iff {c d : Char} (hd : d.toNat < 65) : c.toUpper = d ↔ c = d := by
  constructor
  · rintro rfl
    rcases toUpper_cases c with h | ⟨hc, h⟩
    · exact h.symm
    · omega
  · rintro rfl
    rcases toUpper_cases c with h | ⟨hc, h⟩
    · exact h
    · omega

theorem mem_toAsciiUppercase {d : Char} (hd : d.toNat < 65) : d ∈ toAsciiUppercase s ↔ d ∈ s := by
  rw [toAsciiUppercase, List.mem_map]
  simp only [toUpper_eq_iff hd, exists_eq_right]

theorem trim_toAsciiUppercase : trim (toAsciiUppercase s) = toAsciiUppercase (trim s) :=
  trim_map isWhitespace_toUpper

/-! ## Positions in bytes -/

/-- `len`: the number of bytes of the text in UTF-8. -/
def byteLength : List Char → ℕ
  | [] => 0
  | c :: s => c.utf8Size + byteLength s

/-- `find`: the position of the first `c`. -/
def find (c : Char) : List Char → Option ℕ
  | [] => none
  | d :: s => if d = c then some 0 else (find c s).map (d.utf8Size + ·)

/-- The two parts at a position, which is to lie between two characters. -/
def splitAt : List Char → ℕ → Exec (List Char × List Char)
  | s, 0 => .ret ([], s)
  | [], _ + 1 => .panic
  | c :: s, n + 1 =>
    if c.utf8Size ≤ n + 1 then do
      let (front, back) ← splitAt s (n + 1 - c.utf8Size)
      return (c :: front, back)
    else .panic

/-- `&s[lo..hi]`. -/
def slice (s : List Char) (lo hi : ℕ) : Exec (List Char) := do
  let (front, _) ← splitAt s hi
  let (_, range) ← splitAt front lo
  return range

theorem byteLength_append : byteLength (a ++ b) = byteLength a + byteLength b := by
  induction a with
  | nil => exact (Nat.zero_add _).symm
  | cons c a ih => rw [List.cons_append, byteLength, ih, byteLength, Nat.add_assoc]

theorem find_eq_none (h : c ∉ s) : find c s = none := by
  induction s with
  | nil => rfl
  | cons d s ih =>
    rw [List.mem_cons, not_or] at h
    rw [find, if_neg fun he => h.1 he.symm, ih h.2]
    rfl

theorem find_append (h : c ∉ a) : find c (a ++ c :: b) = some (byteLength a) := by
  induction a with
  | nil => exact if_pos rfl
  | cons d a ih =>
    rw [List.mem_cons, not_or] at h
    rw [List.cons_append, find, if_neg fun he => h.1 he.symm, ih h.2]
    rfl

theorem splitAt_append : splitAt (a ++ b) (byteLength a) = .ret (a, b) := by
  induction a with
  | nil =>
    rw [List.nil_append, byteLength, splitAt]
  | cons c a ih =>
    have hpos := c.utf8Size_pos
    obtain ⟨n, hn⟩ : ∃ n, byteLength (c :: a) = n + 1 := ⟨byteLength (c :: a) - 1, by
      rw [byteLength]
      omega⟩
    have hrest : n + 1 - c.utf8Size = byteLength a := by
      rw [← hn, byteLength, Nat.add_sub_cancel_left]
    rw [hn, List.cons_append, splitAt, if_pos (by rw [← hn, byteLength]; omega), hrest, ih]
    rfl

theorem slice_mid {m : List Char} : slice (a ++ m ++ b) (byteLength a) (byteLength (a ++ m)) = .ret m := by
  rw [slice, splitAt_append, Exec.ret_bind]
  dsimp only
  rw [splitAt_append]
  rfl

/-! ## Numbers -/

/-- The digits to come, after those that spell `value`; `none` at another character or when the value
reaches the bound. -/
def parseDigits (bound : ℕ) : List Char → ℕ → Option ℕ
  | [], value => some value
  | c :: s, value =>
    if c.isDigit ∧ 10 * value + (c.toNat - '0'.toNat) < bound then
      parseDigits bound s (10 * value + (c.toNat - '0'.toNat))
    else none

/-- `parse` of an unsigned number below `bound`. A plus sign may stand in front. -/
def parseUnsigned (bound : ℕ) : List Char → Option ℕ
  | [] => none
  | ['+'] => none
  | '+' :: c :: s => parseDigits bound (c :: s) 0
  | c :: s => parseDigits bound (c :: s) 0

theorem le_ofDigitChars (s : List Char) (value : ℕ) : value ≤ Nat.ofDigitChars 10 s value := by
  rw [Nat.ofDigitChars_eq_ofDigitChars_zero]
  exact Nat.le_add_right_of_le (Nat.le_mul_of_pos_left _ (Nat.pow_pos (by decide)))

theorem parseDigits_eq {bound value : ℕ} (hs : ∀ c ∈ s, c.isDigit = true)
    (h : Nat.ofDigitChars 10 s value < bound) :
    parseDigits bound s value = some (Nat.ofDigitChars 10 s value) := by
  induction s generalizing value with
  | nil => rfl
  | cons c s ih =>
    rw [Nat.ofDigitChars_cons] at h ⊢
    rw [parseDigits, if_pos ⟨hs c List.mem_cons_self, (le_ofDigitChars _ _).trans_lt h⟩,
      ih (fun d hd => hs d (List.mem_cons_of_mem c hd)) h]

theorem isDigit_of_mem {n : ℕ} (h : c ∈ Nat.toDigits 10 n) : c.isDigit = true :=
  Nat.isDigit_of_mem_toDigits (by decide) (by decide) h

theorem not_mem_toDigits {n : ℕ} (hc : c.toNat < 48) : c ∉ Nat.toDigits 10 n := by
  intro h
  have hdigit := Char.isDigit_iff_toNat.mp (isDigit_of_mem h)
  exact absurd hdigit.1 (not_le.mpr hc)

theorem isWhitespace_of_isDigit (h : c.isDigit = true) : isWhitespace c = false := by
  have hdigit := Char.isDigit_iff_toNat.mp h
  change 48 ≤ c.toNat ∧ c.toNat ≤ 57 at hdigit
  simp only [isWhitespace]
  grind

theorem toAsciiUppercase_toDigits (n : ℕ) :
    toAsciiUppercase (Nat.toDigits 10 n) = Nat.toDigits 10 n := by
  refine (List.map_congr_left fun c hc => ?_).trans (List.map_id _)
  have hdigit := Char.isDigit_iff_toNat.mp (isDigit_of_mem hc)
  change 48 ≤ c.toNat ∧ c.toNat ≤ 57 at hdigit
  exact (toUpper_eq_iff (d := c) (by omega)).mpr rfl

theorem trim_toDigits (n : ℕ) : trim (Nat.toDigits 10 n) = Nat.toDigits 10 n :=
  trim_eq_self fun _ hc => isWhitespace_of_isDigit (isDigit_of_mem hc)

/-- **A printed number is read back.** -/
theorem parseUnsigned_toDigits {bound n : ℕ} (h : n < bound) :
    parseUnsigned bound (Nat.toDigits 10 n) = some n := by
  have hparse : parseDigits bound (Nat.toDigits 10 n) 0 = some n := by
    rw [parseDigits_eq (fun c hc => isDigit_of_mem hc)] <;> rw [Nat.ofDigitChars_ten_toDigits]
    exact h
  have hplus : '+' ∉ Nat.toDigits 10 n := not_mem_toDigits (by decide)
  unfold parseUnsigned
  split
  · exact absurd (by assumption) Nat.toDigits_ne_nil
  · simp_all
  · simp_all
  · simp_all

end Text

end RarmDb
