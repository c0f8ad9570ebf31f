import Mathlib.Data.Nat.Size
import RarmDb.Lib.Exec

/-!
# Binary search

`bisect look low high` searches between two positions with a comparison `look` of the target with the
item at a position. A comparison may panic, and the items need not be sorted.

* `probes`: the positions that it looks at; **`length_probes_le`**: they are few;
* **`bisect_congr`**, **`bisect_returns_iff`**: what it does depends on them only;
* `bisect_ok`, **`bisect_error`**: what it has seen when it ends.
-/

namespace RarmDb

/-- Binary search: a position of the target, or a place for it. -/
def bisect (look : ℕ → Exec Ordering) (low high : ℕ) : Exec (Except ℕ ℕ) :=
  if _ : low < high then
    look (low + (high - low) / 2) >>= fun
      | .eq => .ret (.ok (low + (high - low) / 2))
      | .gt => bisect look (low + (high - low) / 2 + 1) high
      | .lt => bisect look low (low + (high - low) / 2)
  else .ret (.error low)
termination_by high - low

/-- The positions that the search looks at. -/
def probes (look : ℕ → Exec Ordering) (low high : ℕ) : List ℕ :=
  if _ : low < high then
    (low + (high - low) / 2) :: match look (low + (high - low) / 2) with
      | .ret .gt => probes look (low + (high - low) / 2 + 1) high
      | .ret .lt => probes look low (low + (high - low) / 2)
      | _ => []
  else []
termination_by high - low

variable {look look' : ℕ → Exec Ordering} {low high : ℕ}

theorem bisect_turn (hlt : low < high) {mid : ℕ} (hmid : low + (high - low) / 2 = mid) :
    bisect look low high = look mid >>= fun
      | .eq => .ret (.ok mid)
      | .gt => bisect look (mid + 1) high
      | .lt => bisect look low mid := by
  subst hmid
  rw [bisect, dif_pos hlt]

theorem probes_turn (hlt : low < high) {mid : ℕ} (hmid : low + (high - low) / 2 = mid) :
    probes look low high = mid :: match look mid with
      | .ret .gt => probes look (mid + 1) high
      | .ret .lt => probes look low mid
      | _ => [] := by
  subst hmid
  rw [probes, dif_pos hlt]

theorem bisect_done (hle : ¬ low < high) : bisect look low high = .ret (.error low) := by
  rw [bisect, dif_neg hle]

theorem probes_done (hle : ¬ low < high) : probes look low high = [] := by
  rw [probes, dif_neg hle]

/-! ## The positions -/

theorem size_succ_le {d e : ℕ} (h : e ≤ d / 2) (hd : 0 < d) : Nat.size e + 1 ≤ Nat.size d := by
  obtain ⟨s, hs⟩ : ∃ s, Nat.size d = s + 1 := Nat.exists_eq_add_one.mpr (Nat.size_pos.mpr hd)
  have hlt := Nat.lt_size_self d
  rw [hs, Nat.pow_succ] at hlt
  rw [hs, Nat.add_le_add_iff_right, Nat.size_le]
  omega

/-- **A search is short**: each turn halves what is left. -/
theorem length_probes_le (look : ℕ → Exec Ordering) (low high : ℕ) :
    (probes look low high).length ≤ Nat.size (high - low) := by
  induction low, high using probes.induct with
  | case1 low high hlt right left =>
    rw [probes_turn hlt rfl, List.length_cons]
    split
    · exact Nat.le_trans (Nat.add_le_add_right right 1) (size_succ_le (by omega) (by omega))
    · exact Nat.le_trans (Nat.add_le_add_right left 1) (size_succ_le (by omega) (by omega))
    · exact Nat.size_pos.mpr (by omega)
  | case2 low high hle =>
    rw [probes_done hle]
    exact Nat.zero_le _

theorem mem_probes {i : ℕ} (h : i ∈ probes look low high) : low ≤ i ∧ i < high := by
  induction low, high using probes.induct with
  | case1 low high hlt right left =>
    rw [probes_turn hlt rfl, List.mem_cons] at h
    rcases h with rfl | h
    · omega
    split at h
    · exact (right h).imp_left (by omega)
    · exact (left h).imp_right (by omega)
    · exact absurd h List.not_mem_nil
  | case2 low high hle =>
    rw [probes_done hle] at h
    exact absurd h List.not_mem_nil

/-- **What a search does depends only on the positions that it looks at.** -/
theorem bisect_congr (h : ∀ i ∈ probes look low high, look' i = look i) :
    bisect look' low high = bisect look low high := by
  induction low, high using probes.induct with
  | case1 low high hlt right left =>
    rw [probes_turn hlt rfl] at h
    rw [bisect_turn hlt rfl, bisect_turn hlt rfl, h _ List.mem_cons_self]
    have hrest := fun i hi => h i (List.mem_cons_of_mem _ hi)
    cases hlook : look (low + (high - low) / 2) with
    | panic | diverge => rfl
    | ret side =>
      rw [hlook] at hrest
      cases side with
      | eq => rfl
      | gt => exact right hrest
      | lt => exact left hrest
  | case2 low high hle => rw [bisect_done hle, bisect_done hle]

/-- **A search ends if every comparison that it makes does.** -/
theorem bisect_returns_iff : (∃ result, bisect look low high = .ret result) ↔
    ∀ i ∈ probes look low high, ∃ side, look i = .ret side := by
  induction low, high using probes.induct with
  | case1 low high hlt right left =>
    rw [probes_turn hlt rfl, bisect_turn hlt rfl, List.forall_mem_cons]
    cases hlook : look (low + (high - low) / 2) with
    | panic | diverge => simp
    | ret side =>
      rw [Exec.ret_bind, and_iff_right ⟨side, rfl⟩]
      cases side with
      | eq => simp
      | gt => exact right
      | lt => exact left
  | case2 low high hle => simp [bisect_done hle, probes_done hle]

/-! ## The result -/

theorem bisect_ok {i : ℕ} (h : bisect look low high = .ret (.ok i)) :
    i ∈ probes look low high ∧ look i = .ret .eq := by
  induction low, high using probes.induct with
  | case1 low high hlt right left =>
    rw [bisect_turn hlt rfl] at h
    obtain ⟨side, hlook, h⟩ := Exec.bind_eq_ret.mp h
    rw [probes_turn hlt rfl, hlook, List.mem_cons]
    cases side with
    | eq =>
      obtain rfl : low + (high - low) / 2 = i := Except.ok.inj (Exec.ret.inj h)
      exact ⟨.inl rfl, hlook⟩
    | gt => exact (right h).imp_left .inr
    | lt => exact (left h).imp_left .inr
  | case2 low high hle =>
    rw [bisect_done hle] at h
    cases h

/-- **A place that the search ends at**: it has found the item before it to be less than the target, and
the item there to be greater, unless the place is at a bound. -/
theorem bisect_error {i : ℕ} (h : bisect look low high = .ret (.error i)) (hle : low ≤ high) :
    (low ≤ i ∧ i ≤ high) ∧
      (low < i → i - 1 ∈ probes look low high ∧ look (i - 1) = .ret .gt) ∧
      (i < high → i ∈ probes look low high ∧ look i = .ret .lt) := by
  induction low, high using probes.induct with
  | case1 low high hlt right left =>
    rw [bisect_turn hlt rfl] at h
    obtain ⟨side, hlook, h⟩ := Exec.bind_eq_ret.mp h
    rw [probes_turn hlt rfl, hlook]
    simp only [List.mem_cons]
    cases side with
    | eq => cases h
    | gt =>
      obtain ⟨⟨hlow, hhigh⟩, hbefore, hat⟩ := right h (by omega)
      refine ⟨⟨by omega, hhigh⟩, fun _ => ?_, fun hi => (hat hi).imp_left .inr⟩
      rcases Nat.eq_or_lt_of_le hlow with heq | hlt'
      · rw [← heq]
        exact ⟨.inl (Nat.add_sub_cancel ..), hlook⟩
      · exact (hbefore hlt').imp_left .inr
    | lt =>
      obtain ⟨⟨hlow, hhigh⟩, hbefore, hat⟩ := left h (by omega)
      refine ⟨⟨hlow, by omega⟩, fun hi => (hbefore hi).imp_left .inr, fun _ => ?_⟩
      rcases Nat.eq_or_lt_of_le hhigh with heq | hlt'
      · rw [heq]
        exact ⟨.inl rfl, hlook⟩
      · exact (hat hlt').imp_left .inr
  | case2 low high hge =>
    rw [bisect_done hge] at h
    obtain rfl : low = i := Except.error.inj (Exec.ret.inj h)
    exact ⟨⟨Nat.le_refl _, hle⟩, fun h => absurd h (Nat.lt_irrefl _), fun h => absurd h hge⟩

end RarmDb
