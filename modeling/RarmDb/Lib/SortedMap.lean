import Mathlib.Data.List.InsertIdx
import RarmDb.Lib.Ranges

/-!
# Maps as sorted lists

A list of keys and values whose keys increase strictly for a comparison `cmp`, seen as a map from
keys to values. Keys that `cmp` finds equal are the same key of the map.

* `Narrows`: what a binary search knows of the keys outside `[low, high)`;
* `find`: the value of a key; it does not depend on the order of the entries (`find_perm`);
* `Represents`: the map a sorted list stands for; **`Represents.insertIdx`**, **`Represents.set`**,
  **`Represents.replace`**;
* `lower`, `upper`, `place`: items sorted by a key, with a new one at its place.
-/

namespace RarmDb.SortedMap

open Std (TransCmp OrientedCmp)

variable {κ ρ : Type} {cmp : κ → κ → Ordering}

/-- The keys increase strictly. -/
def Sorted (cmp : κ → κ → Ordering) (ks : List κ) : Prop := ks.Pairwise fun a b => cmp a b = .lt

/-- Every key below `low` is less than `k`, and every key from `high` on is greater. -/
structure Narrows (cmp : κ → κ → Ordering) (ks : List κ) (k : κ) (low high : ℕ) : Prop where
  le : low ≤ high
  high_le : high ≤ ks.length
  below : ∀ j (h : j < ks.length), j < low → cmp ks[j] k = .lt
  above : ∀ j (h : j < ks.length), high ≤ j → cmp k ks[j] = .lt

/-- The value of a key. -/
def find (cmp : κ → κ → Ordering) (es : List (κ × ρ)) (k : κ) : Option ρ :=
  (es.find? fun e => cmp k e.1 == .eq).map Prod.snd

/-- The map with the value of `k` set. -/
def assign (cmp : κ → κ → Ordering) (m : κ → Option ρ) (k : κ) (r : ρ) : κ → Option ρ :=
  fun k' => if cmp k' k = .eq then some r else m k'

/-- The sorted list stands for the map. -/
structure Represents (cmp : κ → κ → Ordering) (es : List (κ × ρ)) (m : κ → Option ρ) : Prop where
  sorted : Sorted cmp (es.map Prod.fst)
  find_eq : ∀ k, find cmp es k = m k

/-! ## Finding -/

theorem find_cons (k k' : κ) (r : ρ) (es : List (κ × ρ)) :
    find cmp ((k, r) :: es) k' = if cmp k' k = .eq then some r else find cmp es k' := by
  rw [find, List.find?_cons]
  by_cases h : cmp k' k = .eq
  · simp [h]
  · rw [if_neg h, show (cmp k' k == .eq) = false from beq_eq_false_iff_ne.mpr h]
    rfl

theorem find_eq_none {es : List (κ × ρ)} {k : κ} :
    find cmp es k = none ↔ ∀ e ∈ es, cmp k e.1 ≠ .eq := by
  rw [find, Option.map_eq_none_iff, List.find?_eq_none]
  simp

theorem Sorted.distinct {es : List (κ × ρ)} (h : Sorted cmp (es.map Prod.fst)) :
    es.Pairwise fun a b => cmp a.1 b.1 ≠ .eq := by
  refine (List.pairwise_map.mp h).imp ?_
  intro a b hab heq
  rw [hab] at heq
  cases heq

theorem represents_nil : Represents cmp ([] : List (κ × ρ)) fun _ => none :=
  ⟨List.Pairwise.nil, fun _ => rfl⟩

/-! ## Searching -/

theorem narrows_all (ks : List κ) (k : κ) : Narrows cmp ks k 0 ks.length :=
  ⟨Nat.zero_le _, le_rfl, fun j _ h => absurd h (Nat.not_lt_zero j),
    fun _ h h' => absurd h (Nat.not_lt.mpr h')⟩

theorem narrows_append {l l' : List κ} {k : κ} (hl : ∀ a ∈ l, cmp a k = .lt)
    (hl' : ∀ a ∈ l', cmp k a = .lt) : Narrows cmp (l ++ l') k l.length l.length where
  le := le_rfl
  high_le := by
    rw [List.length_append]
    exact Nat.le_add_right ..
  below j h hj := by
    rw [List.getElem_append_left hj]
    exact hl _ (List.getElem_mem hj)
  above j h hj := by
    rw [List.getElem_append_right hj]
    exact hl' _ (List.getElem_mem _)

theorem Sorted.lt {ks : List κ} (h : Sorted cmp ks) {i j : ℕ} (hij : i < j) (hj : j < ks.length) :
    cmp ks[i] ks[j] = .lt :=
  List.pairwise_iff_getElem.mp h i j (hij.trans hj) hj hij

theorem insertIdx_eq_append {α : Type} {l : List α} {i : ℕ} (hi : i ≤ l.length) (a : α) :
    l.insertIdx i a = l.take i ++ a :: l.drop i := by
  induction l generalizing i with
  | nil =>
    obtain rfl : i = 0 := Nat.le_zero.mp hi
    rfl
  | cons b l ih =>
    cases i with
    | zero => rfl
    | succ i =>
      rw [List.length_cons] at hi
      rw [List.insertIdx_succ_cons, ih (by omega), List.take_succ_cons, List.drop_succ_cons,
        List.cons_append]

theorem insertIdx_length {α : Type} (l l' : List α) (a : α) :
    (l ++ l').insertIdx l.length a = l ++ a :: l' := by
  rw [insertIdx_eq_append (by rw [List.length_append]; exact Nat.le_add_right ..), List.take_left,
    List.drop_left]

theorem Sorted.insertIdx {ks : List κ} (hs : Sorted cmp ks) {k : κ} {i : ℕ}
    (h : Narrows cmp ks k i i) : Sorted cmp (ks.insertIdx i k) := by
  have hs' : (ks.take i ++ ks.drop i).Pairwise fun a b => cmp a b = .lt := by
    rwa [List.take_append_drop]
  obtain ⟨h₁, h₂, h₃⟩ := List.pairwise_append.mp hs'
  rw [insertIdx_eq_append h.high_le]
  refine List.pairwise_append.mpr ⟨h₁, List.pairwise_cons.mpr ⟨fun b hb => ?_, h₂⟩, fun a ha b hb => ?_⟩
  · obtain ⟨j, hj, rfl⟩ := List.mem_iff_getElem.mp hb
    rw [List.getElem_drop]
    exact h.above _ _ (Nat.le_add_right ..)
  · rcases List.mem_cons.mp hb with rfl | hb
    · obtain ⟨j, hj, rfl⟩ := List.mem_iff_getElem.mp ha
      rw [List.getElem_take]
      rw [List.length_take] at hj
      exact h.below _ _ (by omega)
    · exact h₃ a ha b hb

variable [TransCmp cmp]

theorem Narrows.right {ks : List κ} {k : κ} {low high mid : ℕ} (h : Narrows cmp ks k low high)
    (hs : Sorted cmp ks) (hmid : mid < high) (hlen : mid < ks.length)
    (hlt : cmp ks[mid] k = .lt) : Narrows cmp ks k (mid + 1) high where
  le := hmid
  high_le := h.high_le
  below j hj hjm := by
    rcases Nat.lt_succ_iff_lt_or_eq.mp hjm with hjm | rfl
    · exact TransCmp.lt_trans (hs.lt hjm hlen) hlt
    · exact hlt
  above := h.above

theorem Narrows.left {ks : List κ} {k : κ} {low high mid : ℕ} (h : Narrows cmp ks k low high)
    (hs : Sorted cmp ks) (hmid : low ≤ mid) (hlen : mid < ks.length)
    (hlt : cmp k ks[mid] = .lt) : Narrows cmp ks k low mid where
  le := hmid
  high_le := hlen.le
  below := h.below
  above j hj hjm := by
    rcases hjm.eq_or_lt with rfl | hjm
    · exact hlt
    · exact TransCmp.lt_trans hlt (hs.lt hjm hj)

theorem Sorted.set {ks : List κ} (hs : Sorted cmp ks) {k : κ} {i : ℕ} (hi : i < ks.length)
    (h : cmp k ks[i] = .eq) : Sorted cmp (ks.set i k) := by
  refine List.pairwise_iff_getElem.mpr fun a b ha hb hab => ?_
  rw [List.length_set] at ha hb
  rw [List.getElem_set, List.getElem_set]
  by_cases hia : i = a
  · subst hia
    rw [if_pos rfl, if_neg (by omega), TransCmp.congr_left h]
    exact hs.lt hab hb
  · rw [if_neg hia]
    by_cases hib : i = b
    · subst hib
      rw [if_pos rfl, TransCmp.congr_right h]
      exact hs.lt hab hb
    · rw [if_neg hib]
      exact hs.lt hab hb

/-! ## Order of the entries -/

/-- **The value of a key does not depend on the order of the entries.** -/
theorem find_perm {es es' : List (κ × ρ)} (p : es.Perm es')
    (h : es.Pairwise fun a b => cmp a.1 b.1 ≠ .eq) (k : κ) : find cmp es k = find cmp es' k := by
  induction p with
  | nil => rfl
  | cons e _ ih =>
    obtain ⟨k', r⟩ := e
    rw [find_cons, find_cons, ih (List.pairwise_cons.mp h).2]
  | swap a b l =>
    obtain ⟨ka, ra⟩ := a
    obtain ⟨kb, rb⟩ := b
    have hne : cmp kb ka ≠ .eq := (List.pairwise_cons.mp h).1 _ List.mem_cons_self
    simp only [find_cons]
    by_cases ha : cmp k ka = .eq
    · rw [if_pos ha, if_pos ha, if_neg]
      intro hb
      exact hne (TransCmp.eq_trans (OrientedCmp.eq_symm hb) ha)
    · rw [if_neg ha, if_neg ha]
  | trans p₁ _ ih₁ ih₂ =>
    refine (ih₁ h).trans (ih₂ (h.perm p₁ ?_))
    intro a b hab heq
    exact hab (OrientedCmp.eq_symm heq)

/-! ## Sorted lists that stand for a map -/

variable {es : List (κ × ρ)} {m : κ → Option ρ} {k : κ} {i : ℕ}

theorem Represents.eq_none (h : Represents cmp es m)
    (hn : Narrows cmp (es.map Prod.fst) k i i) : m k = none := by
  rw [← h.find_eq, find_eq_none]
  intro e he heq
  obtain ⟨j, hj, rfl⟩ := List.mem_iff_getElem.mp he
  have hj' : j < (es.map Prod.fst).length := by rwa [List.length_map]
  rcases Nat.lt_or_ge j i with hji | hji
  · have := hn.below j hj' hji
    rw [List.getElem_map] at this
    rw [OrientedCmp.eq_symm heq] at this
    cases this
  · have := hn.above j hj' hji
    rw [List.getElem_map, heq] at this
    cases this

theorem Represents.eq_some (h : Represents cmp es m) (hi : i < es.length)
    (heq : cmp k es[i].1 = .eq) : m k = some es[i].2 := by
  rw [← h.find_eq, find_perm (perm_cons_eraseIdx hi) h.sorted.distinct,
    show es[i] = (es[i].1, es[i].2) from rfl, find_cons, if_pos heq]

/-- **Inserting a new key where the search ended.** -/
theorem Represents.insertIdx (h : Represents cmp es m)
    (hn : Narrows cmp (es.map Prod.fst) k i i) (r : ρ) :
    Represents cmp (es.insertIdx i (k, r)) (assign cmp m k r) := by
  have hi : i ≤ es.length := by
    have := hn.high_le
    rwa [List.length_map] at this
  have hmap : (es.insertIdx i (k, r)).map Prod.fst = (es.map Prod.fst).insertIdx i k :=
    List.map_insertIdx ..
  have hs := h.sorted.insertIdx hn
  rw [← hmap] at hs
  refine ⟨hs, fun k' => ?_⟩
  rw [find_perm (List.perm_insertIdx _ _ hi) hs.distinct, find_cons, h.find_eq, assign]

/-- **Replacing the value of a key.** -/
theorem Represents.set (h : Represents cmp es m) (hi : i < es.length)
    (heq : cmp k es[i].1 = .eq) (r : ρ) :
    Represents cmp (es.set i (k, r)) (assign cmp m k r) := by
  have hi' : i < (es.map Prod.fst).length := by rwa [List.length_map]
  have hmap : (es.set i (k, r)).map Prod.fst = (es.map Prod.fst).set i k := List.map_set ..
  have hs := h.sorted.set hi' (by rwa [List.getElem_map])
  rw [← hmap] at hs
  refine ⟨hs, fun k' => ?_⟩
  have hold := find_perm (perm_cons_eraseIdx hi) h.sorted.distinct k'
  rw [show es[i] = (es[i].1, es[i].2) from rfl, find_cons, h.find_eq] at hold
  rw [find_perm (perm_set hi _) hs.distinct, find_cons, assign]
  by_cases hk : cmp k' k = .eq
  · rw [if_pos hk, if_pos hk]
  · have hne : cmp k' es[i].1 ≠ .eq := fun he =>
      hk (TransCmp.eq_trans he (OrientedCmp.eq_symm heq))
    rw [if_neg hk, if_neg hk, hold, if_neg hne]

/-! ## Parts of a sorted list -/

variable {front part part' back : List (κ × ρ)} {r : ρ}

omit [TransCmp cmp] in
theorem find_append (l l' : List (κ × ρ)) (k : κ) :
    find cmp (l ++ l') k = (find cmp l k).or (find cmp l' k) := by
  rw [find, find, find, List.find?_append]
  cases l.find? fun e => cmp k e.1 == .eq <;> rfl

omit [TransCmp cmp] in
theorem sorted_append {l l' : List (κ × ρ)} :
    Sorted cmp ((l ++ l').map Prod.fst) ↔ Sorted cmp (l.map Prod.fst) ∧ Sorted cmp (l'.map Prod.fst) ∧
      ∀ e ∈ l, ∀ e' ∈ l', cmp e.1 e'.1 = .lt := by
  rw [Sorted, List.map_append, List.pairwise_append]
  simp only [List.forall_mem_map]
  rfl

/-- A key of a list that stands for a map with `k` set is `k`, or the map has it. -/
theorem Represents.eq_or_find (h : Represents cmp part' (assign cmp (find cmp part) k r)) {e : κ × ρ}
    (he : e ∈ part') : cmp e.1 k = .eq ∨ ∃ e' ∈ part, cmp e.1 e'.1 = .eq := by
  by_cases hk : cmp e.1 k = .eq
  · exact .inl hk
  · have hsome := h.find_eq e.1
    rw [assign, if_neg hk] at hsome
    right
    by_contra hnone
    push Not at hnone
    rw [find_eq_none.mpr hnone] at hsome
    exact find_eq_none.mp hsome e he Std.ReflCmp.compare_self

/-- **Setting the value of a key in a part of the list** whose neighbours have lesser and greater keys. -/
theorem Represents.replace (h : Represents cmp (front ++ part ++ back) m)
    (h' : Represents cmp part' (assign cmp (find cmp part) k r))
    (hfront : ∀ e ∈ front, cmp e.1 k = .lt) (hback : ∀ e ∈ back, cmp k e.1 = .lt) :
    Represents cmp (front ++ part' ++ back) (assign cmp m k r) := by
  obtain ⟨hsorted, hback₀, hlt₀⟩ := sorted_append.mp h.sorted
  obtain ⟨hfront₀, hpart, hlt⟩ := sorted_append.mp hsorted
  have hlt' : ∀ e ∈ front, ∀ e' ∈ part', cmp e.1 e'.1 = .lt := by
    intro e he e' he'
    rcases h'.eq_or_find he' with heq | ⟨e₁, he₁, heq⟩
    · rw [TransCmp.congr_right heq]
      exact hfront e he
    · rw [TransCmp.congr_right heq]
      exact hlt e he e₁ he₁
  have hlt₀' : ∀ e ∈ part', ∀ e' ∈ back, cmp e.1 e'.1 = .lt := by
    intro e he e' he'
    rcases h'.eq_or_find he with heq | ⟨e₁, he₁, heq⟩
    · rw [TransCmp.congr_left heq]
      exact hback e' he'
    · rw [TransCmp.congr_left heq]
      exact hlt₀ e₁ (List.mem_append_right _ he₁) e' he'
  constructor
  case sorted =>
    refine sorted_append.mpr ⟨sorted_append.mpr ⟨hfront₀, h'.sorted, hlt'⟩, hback₀, fun e he e' he' => ?_⟩
    rcases List.mem_append.mp he with he | he
    · exact hlt₀ e (List.mem_append_left _ he) e' he'
    · exact hlt₀' e he e' he'
  case find_eq =>
    intro k'
    rw [find_append, find_append, h'.find_eq, assign, assign]
    by_cases hk : cmp k' k = .eq
    · have hnone : find cmp front k' = none := by
        refine find_eq_none.mpr fun e he heq => ?_
        have hlt := hfront e he
        rw [← TransCmp.congr_right hk, OrientedCmp.eq_symm heq] at hlt
        cases hlt
      rw [if_pos hk, if_pos hk, hnone]
      rfl
    · rw [if_neg hk, if_neg hk, ← h.find_eq k', find_append, find_append]

/-! ## Items sorted by a key -/

section Place

variable {α : Type} {key : α → κ} {xs : List α} {x y : α}

/-- The items whose keys are less than `k`. -/
def lower (cmp : κ → κ → Ordering) (key : α → κ) (xs : List α) (k : κ) : List α :=
  xs.filter fun x => cmp (key x) k = .lt

/-- The items whose keys are greater than `k`. -/
def upper (cmp : κ → κ → Ordering) (key : α → κ) (xs : List α) (k : κ) : List α :=
  xs.filter fun x => cmp k (key x) = .lt

/-- The items with `x` at its place. -/
def place (cmp : κ → κ → Ordering) (key : α → κ) (xs : List α) (x : α) : List α :=
  lower cmp key xs (key x) ++ x :: upper cmp key xs (key x)

theorem parts_of_lt (hs : Sorted cmp ((y :: xs).map key)) (hlt : cmp k (key y) = .lt) :
    lower cmp key (y :: xs) k = [] ∧ upper cmp key (y :: xs) k = y :: xs := by
  have hall : ∀ a ∈ y :: xs, cmp k (key a) = .lt := by
    rw [List.map_cons] at hs
    intro a ha
    rcases List.mem_cons.mp ha with rfl | ha
    · exact hlt
    · exact TransCmp.lt_trans hlt ((List.pairwise_cons.mp hs).1 _ (List.mem_map_of_mem ha))
  refine ⟨List.filter_eq_nil_iff.mpr fun a ha => ?_, List.filter_eq_self.mpr fun a ha => ?_⟩
  · rw [OrientedCmp.gt_of_lt (hall a ha)]
    decide
  · rw [hall a ha]
    decide

theorem parts_of_gt (hgt : cmp k (key y) = .gt) (xs : List α) :
    lower cmp key (y :: xs) k = y :: lower cmp key xs k ∧
      upper cmp key (y :: xs) k = upper cmp key xs k := by
  constructor
  · exact List.filter_cons_of_pos (by rw [OrientedCmp.lt_of_gt hgt]; decide)
  · exact List.filter_cons_of_neg (by rw [hgt]; decide)

theorem lower_append_upper (hs : Sorted cmp (xs.map key)) (habs : ∀ a ∈ xs, cmp k (key a) ≠ .eq) :
    lower cmp key xs k ++ upper cmp key xs k = xs := by
  induction xs with
  | nil => rfl
  | cons a xs ih =>
    cases hcmp : cmp k (key a) with
    | eq => exact absurd hcmp (habs a List.mem_cons_self)
    | lt =>
      obtain ⟨hlower, hupper⟩ := parts_of_lt hs hcmp
      rw [hlower, hupper, List.nil_append]
    | gt =>
      obtain ⟨hlower, hupper⟩ := parts_of_gt hcmp xs
      rw [List.map_cons] at hs
      rw [hlower, hupper, List.cons_append,
        ih (List.pairwise_cons.mp hs).2 fun b hb => habs b (List.mem_cons_of_mem a hb)]

theorem length_place (hs : Sorted cmp (xs.map key)) (habs : ∀ a ∈ xs, cmp (key x) (key a) ≠ .eq) :
    (place cmp key xs x).length = xs.length + 1 := by
  conv_rhs => rw [← lower_append_upper hs habs]
  rw [place, List.length_append, List.length_append, List.length_cons, Nat.add_assoc]

theorem sorted_place (hs : Sorted cmp (xs.map key)) : Sorted cmp ((place cmp key xs x).map key) := by
  have hxs := List.pairwise_map.mp hs
  refine List.pairwise_map.mpr (List.pairwise_append.mpr ⟨hxs.filter _, ?_, fun a ha b hb => ?_⟩)
  · exact List.pairwise_cons.mpr ⟨fun b hb => of_decide_eq_true (List.mem_filter.mp hb).2, hxs.filter _⟩
  · have hlt : cmp (key a) (key x) = .lt := of_decide_eq_true (List.mem_filter.mp ha).2
    rcases List.mem_cons.mp hb with rfl | hb
    · exact hlt
    · exact TransCmp.lt_trans hlt (of_decide_eq_true (List.mem_filter.mp hb).2)

end Place

end RarmDb.SortedMap
