import Mathlib.Algebra.BigOperators.Group.List.Basic
import Mathlib.Data.List.InsertIdx
import Mathlib.Data.List.Nodup
import Mathlib.Data.List.Perm.Subperm
import Mathlib.Tactic.Ring

/-!
# Disjoint ranges in an arena

A range is a pair `(off, len)`. `Packed lo hi l` says that the ranges of `l` lie in `[lo, hi)` and
are pairwise disjoint.

* **`Packed.total_le`**: the lengths of packed ranges sum to at most `hi - lo`; **`Packed.covers`**: if
  they sum to `hi - lo`, there is no gap;
* how `Packed` changes under insertion below the arena, removal, shrinking and moving.
-/

namespace RarmDb

/-- Two ranges that do not overlap. -/
def Apart (s t : ℕ × ℕ) : Prop := s.1 + s.2 ≤ t.1 ∨ t.1 + t.2 ≤ s.1

theorem Apart.symm {s t : ℕ × ℕ} (h : Apart s t) : Apart t s := Or.symm h

/-- The sum of the lengths. -/
def total (l : List (ℕ × ℕ)) : ℕ := (l.map Prod.snd).sum

/-- Pairwise disjoint ranges inside `[lo, hi)`. -/
structure Packed (lo hi : ℕ) (l : List (ℕ × ℕ)) : Prop where
  inside : ∀ s ∈ l, lo ≤ s.1 ∧ s.1 + s.2 ≤ hi
  apart : l.Pairwise Apart

theorem perm_cons_eraseIdx {α : Type*} {l : List α} {i : ℕ} (hi : i < l.length) :
    l.Perm (l[i] :: l.eraseIdx i) := by
  have h := List.perm_insertIdx l[i] (l.eraseIdx i) (i := i) (by
    rw [List.length_eraseIdx_of_lt hi]; omega)
  rwa [List.insertIdx_eraseIdx_getElem hi] at h

theorem perm_set {α : Type*} {l : List α} {i : ℕ} (hi : i < l.length) (a : α) :
    (l.set i a).Perm (a :: l.eraseIdx i) := by
  have h := perm_cons_eraseIdx (l := l.set i a) (i := i) (by rwa [List.length_set])
  rwa [List.getElem_set_self, List.eraseIdx_set_eq] at h

namespace Packed

variable {lo hi : ℕ} {l : List (ℕ × ℕ)}

theorem nil : Packed lo hi [] := ⟨fun _ h => absurd h List.not_mem_nil, List.Pairwise.nil⟩

theorem perm {l' : List (ℕ × ℕ)} (h : Packed lo hi l) (p : l.Perm l') : Packed lo hi l' :=
  ⟨fun s hs => h.inside s (p.mem_iff.mpr hs), h.apart.perm p Apart.symm⟩

theorem sublist {l' : List (ℕ × ℕ)} (h : Packed lo hi l) (s : l'.Sublist l) : Packed lo hi l' :=
  ⟨fun x hx => h.inside x (s.subset hx), h.apart.sublist s⟩

theorem lower {lo' : ℕ} (h : Packed lo hi l) (hl : lo' ≤ lo) : Packed lo' hi l :=
  ⟨fun s hs => ⟨hl.trans (h.inside s hs).1, (h.inside s hs).2⟩, h.apart⟩

theorem cons {s : ℕ × ℕ} (h : Packed lo hi l) (hs : lo ≤ s.1 ∧ s.1 + s.2 ≤ hi)
    (ha : ∀ t ∈ l, Apart s t) : Packed lo hi (s :: l) :=
  ⟨List.forall_mem_cons.mpr ⟨hs, h.inside⟩, List.pairwise_cons.mpr ⟨ha, h.apart⟩⟩

theorem cons_below {off len : ℕ} (h : Packed lo hi l) (hlo : off + len ≤ lo) (hhi : lo ≤ hi) :
    Packed off hi ((off, len) :: l) :=
  (h.lower (by omega)).cons ⟨le_rfl, hlo.trans hhi⟩ fun t ht =>
    Or.inl (hlo.trans (h.inside t ht).1)

theorem insertIdx {off len i : ℕ} (h : Packed lo hi l) (hi' : i ≤ l.length)
    (hlo : off + len ≤ lo) (hhi : lo ≤ hi) : Packed off hi (l.insertIdx i (off, len)) :=
  (h.cons_below hlo hhi).perm (List.perm_insertIdx _ _ hi').symm

theorem eraseIdx (h : Packed lo hi l) (i : ℕ) : Packed lo hi (l.eraseIdx i) :=
  h.sublist (List.eraseIdx_sublist l i)

theorem set_below {off len i : ℕ} (h : Packed lo hi l) (hi' : i < l.length)
    (hlo : off + len ≤ lo) (hhi : lo ≤ hi) : Packed off hi (l.set i (off, len)) :=
  ((h.eraseIdx i).cons_below hlo hhi).perm (perm_set hi' _).symm

theorem set_shrink {len i : ℕ} (h : Packed lo hi l) (hi' : i < l.length) (hlen : len ≤ l[i].2) :
    Packed lo hi (l.set i (l[i].1, len)) := by
  have h' := h.perm (perm_cons_eraseIdx hi')
  have hin := h'.inside l[i] List.mem_cons_self
  refine ((h.eraseIdx i).cons (s := (l[i].1, len)) ⟨hin.1, by dsimp only; omega⟩
    fun t ht => ?_).perm (perm_set hi' _).symm
  have := (List.pairwise_cons.mp h'.apart).1 t ht
  unfold Apart at this ⊢
  omega

theorem nodup_positions (h : Packed lo hi l) : (l.flatMap fun s => List.range' s.1 s.2).Nodup := by
  refine List.nodup_flatMap.mpr ⟨fun s _ => List.nodup_range', h.apart.imp fun {s t} hst => ?_⟩
  intro x hx hy
  rw [List.mem_range'_1] at hx hy
  unfold Apart at hst
  omega

theorem positions_subset (h : Packed lo hi l) :
    (l.flatMap fun s => List.range' s.1 s.2) ⊆ List.range' lo (hi - lo) := by
  intro x hx
  obtain ⟨s, hs, hxs⟩ := List.mem_flatMap.mp hx
  have := h.inside s hs
  rw [List.mem_range'_1] at hxs ⊢
  omega

theorem length_positions (l : List (ℕ × ℕ)) :
    (l.flatMap fun s => List.range' s.1 s.2).length = total l := by
  rw [List.length_flatMap, total]
  simp only [List.length_range']

/-- **Packed ranges fit their arena.** -/
theorem total_le (h : Packed lo hi l) : total l ≤ hi - lo := by
  have hle := (h.nodup_positions.subperm h.positions_subset).length_le
  rwa [length_positions, List.length_range'] at hle

/-- **Packed ranges that fill their arena cover it.** -/
theorem covers (h : Packed lo hi l) (ht : total l = hi - lo) {k : ℕ} (hlo : lo ≤ k) (hhi : k < hi) :
    ∃ s ∈ l, s.1 ≤ k ∧ k < s.1 + s.2 := by
  have hperm := (h.nodup_positions.subperm h.positions_subset).perm_of_length_le (by
    rw [length_positions, List.length_range', ht])
  have hk : k ∈ List.range' lo (hi - lo) := by
    rw [List.mem_range'_1]
    omega
  obtain ⟨s, hs, hks⟩ := List.mem_flatMap.mp (hperm.mem_iff.mpr hk)
  exact ⟨s, hs, List.mem_range'_1.mp hks⟩

end Packed

/-! ## Ranges stacked downwards -/

/-- Ranges of the given lengths, each ending where the previous one starts, the first at `hi`. -/
def stackDown : ℕ → List ℕ → List (ℕ × ℕ)
  | _, [] => []
  | hi, len :: lens => (hi - len, len) :: stackDown (hi - len) lens

theorem length_stackDown (hi : ℕ) (lens : List ℕ) : (stackDown hi lens).length = lens.length := by
  induction lens generalizing hi with
  | nil => rfl
  | cons len lens ih => rw [stackDown, List.length_cons, ih, List.length_cons]

theorem stackDown_append (hi : ℕ) (l₁ l₂ : List ℕ) :
    stackDown hi (l₁ ++ l₂) = stackDown hi l₁ ++ stackDown (hi - l₁.sum) l₂ := by
  induction l₁ generalizing hi with
  | nil => simp [stackDown]
  | cons len l₁ ih =>
    rw [List.cons_append, stackDown, ih, stackDown, List.cons_append, List.sum_cons, Nat.sub_sub]

theorem packed_stackDown {hi : ℕ} {lens : List ℕ} (h : lens.sum ≤ hi) :
    Packed (hi - lens.sum) hi (stackDown hi lens) := by
  induction lens generalizing hi with
  | nil => exact Packed.nil
  | cons len lens ih =>
    rw [List.sum_cons] at h
    have ih := ih (show lens.sum ≤ hi - len by omega)
    rw [List.sum_cons, ← Nat.sub_sub]
    refine ⟨fun s hs => ?_, List.pairwise_cons.mpr ⟨fun t ht => Or.inr (ih.inside t ht).2, ih.apart⟩⟩
    rcases List.mem_cons.mp hs with rfl | hs
    · exact ⟨Nat.sub_le .., by dsimp only; omega⟩
    · have := ih.inside s hs
      omega

end RarmDb
