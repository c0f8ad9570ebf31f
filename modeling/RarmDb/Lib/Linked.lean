import Mathlib.Data.List.Nodup

/-!
# Doubly linked lists

* `Linked prev next p xs q`: the pointers of `xs` link them both ways, between the neighbours `p`
  and `q`; `linked_append`, `Linked.congr`;
* **`Linked.insertAfter`**, **`Linked.removeAfter`**: the pointers that an insertion and a removal
  change;
* `Chain`: a whole list, which ends at `nil` on both sides; **`Chain.prev_of_next`**,
  **`Chain.next_of_prev`**, **`Chain.prev_eq_nil_iff`**;
* `BackLinked`: an element may not know the one before it; **`BackLinked.insertAfter`**,
  **`BackLinked.removeAfter`**;
* `Segment node xs q`: nodes with contents, linked forwards up to `q`; `segment_append`,
  **`Segment.replace`**, **`Segment.insertAfter`**, **`Segment.removeAfter`**.
-/

namespace RarmDb

universe u

variable {ι : Type u} {prev next prev' next' : ι → ι} {p q x y i nil : ι} {xs ys : List ι}

/-- The pointers of `xs` link them both ways, between the neighbours `p` and `q`. -/
def Linked (prev next : ι → ι) : ι → List ι → ι → Prop
  | _, [], _ => True
  | p, x :: xs, q => prev x = p ∧ next x = xs.headD q ∧ Linked prev next x xs q

theorem linked_append :
    Linked prev next p (xs ++ ys) q ↔
      Linked prev next p xs (ys.headD q) ∧ Linked prev next (xs.getLastD p) ys q := by
  induction xs generalizing p with
  | nil => exact ⟨fun h => ⟨trivial, h⟩, And.right⟩
  | cons x xs ih =>
    have hhead : (xs ++ ys).headD q = xs.headD (ys.headD q) := by cases xs <;> rfl
    rw [List.cons_append, Linked, Linked, ih, hhead, List.getLastD_cons, and_assoc, and_assoc]

theorem Linked.congr (h : Linked prev next p xs q)
    (hsame : ∀ x ∈ xs, prev' x = prev x ∧ next' x = next x) : Linked prev' next' p xs q := by
  induction xs generalizing p with
  | nil => trivial
  | cons x xs ih =>
    obtain ⟨h₁, h₂, h₃⟩ := h
    obtain ⟨hp, hn⟩ := hsame x List.mem_cons_self
    exact ⟨hp.trans h₁, hn.trans h₂, ih h₃ fun y hy => hsame y (List.mem_cons_of_mem x hy)⟩

theorem Linked.setFirst (h : Linked prev next p xs q)
    (hfirst : ∀ x ∈ xs.head?, prev' x = i ∧ next' x = next x)
    (hsame : ∀ x ∈ xs.tail, prev' x = prev x ∧ next' x = next x) : Linked prev' next' i xs q := by
  cases xs with
  | nil => trivial
  | cons x xs =>
    obtain ⟨-, h₂, h₃⟩ := h
    obtain ⟨hp, hn⟩ := hfirst x rfl
    exact ⟨hp, hn.trans h₂, h₃.congr hsame⟩

/-- **Inserting `i` after `x`** changes the pointers of `x`, of `i` and of the one after them. -/
theorem Linked.insertAfter (h : Linked prev next p (x :: ys) q) (hx : prev' x = p ∧ next' x = i)
    (hi : prev' i = x ∧ next' i = ys.headD q)
    (hfirst : ∀ y ∈ ys.head?, prev' y = i ∧ next' y = next y)
    (hsame : ∀ y ∈ ys.tail, prev' y = prev y ∧ next' y = next y) :
    Linked prev' next' p (x :: i :: ys) q :=
  ⟨hx.1, hx.2, hi.1, hi.2, h.2.2.setFirst hfirst hsame⟩

/-- **Removing the one after `x`** changes the pointers of `x` and of the one after them. -/
theorem Linked.removeAfter (h : Linked prev next p (xs ++ x :: y :: ys) q)
    (hbefore : ∀ z ∈ xs, prev' z = prev z ∧ next' z = next z)
    (hx : prev' x = prev x ∧ next' x = ys.headD q)
    (hfirst : ∀ z ∈ ys.head?, prev' z = x ∧ next' z = next z)
    (hsame : ∀ z ∈ ys.tail, prev' z = prev z ∧ next' z = next z) :
    Linked prev' next' p (xs ++ x :: ys) q := by
  rw [linked_append] at h ⊢
  obtain ⟨hxs, h₁, -, -, -, hys⟩ := h
  exact ⟨hxs.congr hbefore, hx.1.trans h₁, hx.2, hys.setFirst hfirst hsame⟩

/-! ## Whole lists -/

/-- The list `xs`, linked both ways, without repetitions and without `nil`. -/
structure Chain (prev next : ι → ι) (nil : ι) (xs : List ι) : Prop where
  linked : Linked prev next nil xs nil
  nodup : xs.Nodup
  valid : nil ∉ xs

namespace Chain

theorem split (h : Chain prev next nil xs) (hx : x ∈ xs) :
    ∃ before after, xs = before ++ x :: after ∧ prev x = before.getLastD nil ∧
      next x = after.headD nil ∧ Linked prev next nil before x ∧ Linked prev next x after nil := by
  obtain ⟨before, after, rfl⟩ := List.append_of_mem hx
  obtain ⟨h₁, h₂, h₃, h₄⟩ := linked_append.mp h.linked
  exact ⟨before, after, rfl, h₂, h₃, h₁, h₄⟩

theorem prev_ne (h : Chain prev next nil xs) (hx : x ∈ xs) : prev x ≠ x := by
  obtain ⟨before, after, rfl, hp, -, -, -⟩ := h.split hx
  intro hne
  rw [hne] at hp
  rcases List.eq_nil_or_concat' before with rfl | ⟨front, z, rfl⟩
  · exact h.valid (hp ▸ hx)
  · rw [List.getLastD_concat] at hp
    subst hp
    have hdisj := (List.nodup_append.mp h.nodup).2.2
    exact hdisj x (by simp) x List.mem_cons_self rfl

/-- **The one after `x` points back to it.** -/
theorem prev_of_next (h : Chain prev next nil xs) (hx : x ∈ xs) (hnext : next x = y)
    (hy : y ≠ nil) : y ∈ xs ∧ prev y = x := by
  obtain ⟨before, after, rfl, -, hn, -, hafter⟩ := h.split hx
  cases after with
  | nil => exact absurd (hnext.symm.trans hn) hy
  | cons z after =>
    obtain rfl : y = z := hnext.symm.trans hn
    exact ⟨by simp, hafter.1⟩

/-- **The one before `y` points to it.** -/
theorem next_of_prev (h : Chain prev next nil xs) (hy : y ∈ xs) (hprev : prev y = x)
    (hx : x ≠ nil) : x ∈ xs ∧ next x = y := by
  obtain ⟨before, after, rfl, hp, -, hbefore, -⟩ := h.split hy
  rcases List.eq_nil_or_concat' before with rfl | ⟨front, z, rfl⟩
  · exact absurd (hprev.symm.trans hp) hx
  · rw [List.getLastD_concat] at hp
    obtain rfl : x = z := hprev.symm.trans hp
    exact ⟨by simp, (linked_append.mp hbefore).2.2.1⟩

/-- **Only the first has nothing before it.** -/
theorem prev_eq_nil_iff (h : Chain prev next nil xs) (hx : x ∈ xs) :
    prev x = nil ↔ xs.head? = some x := by
  obtain ⟨before, after, rfl, hp, -, -, -⟩ := h.split hx
  cases before with
  | nil => exact ⟨fun _ => rfl, fun _ => hp⟩
  | cons z before =>
    have hnodup := h.nodup
    constructor
    · intro hnil
      have hlast : (z :: before).getLastD nil ∈ z :: before := by
        rw [List.getLastD_cons, ← List.getLast_eq_getLastD]
        exact List.getLast_mem (List.cons_ne_nil z before)
      rw [← hp, hnil] at hlast
      exact absurd (List.mem_append_left _ hlast) h.valid
    · intro hhead
      obtain rfl : z = x := Option.some.inj hhead
      exact absurd rfl ((List.nodup_append.mp hnodup).2.2 z List.mem_cons_self z List.mem_cons_self)

end Chain

/-! ## Links back -/

variable {here here' : ι → Prop}

/-- An element that has one before it is the one after that. -/
def BackLinked (prev next : ι → ι) (nil : ι) (here : ι → Prop) : Prop :=
  ∀ z, here z → prev z ≠ nil → here (prev z) ∧ next (prev z) = z

/-- **Inserting `i` after `x`**, which may forget what is before it. -/
theorem BackLinked.insertAfter (h : BackLinked prev next nil here) (hx : here x) (hi : ¬ here i)
    (hhere : ∀ z, here' z ↔ z = i ∨ here z) (hxp : prev' x = nil) (hxn : next' x = i)
    (hip : prev' i = x) (hin : next' i = next x)
    (hafter : here (next x) → prev' (next x) = i ∧ next' (next x) = next (next x))
    (hsame : ∀ z, here z → z ≠ x → z ≠ next x → prev' z = prev z ∧ next' z = next z) :
    BackLinked prev' next' nil here' := by
  intro z hz hprev
  rcases (hhere z).mp hz with rfl | hz
  · rw [hip]
    exact ⟨(hhere x).mpr (.inr hx), hxn⟩
  · by_cases hzx : z = x
    · exact absurd (hzx ▸ hxp) hprev
    · by_cases hzn : z = next x
      · obtain ⟨hp, -⟩ := hafter (hzn ▸ hz)
        rw [hzn, hp]
        exact ⟨(hhere i).mpr (.inl rfl), hin⟩
      · rw [(hsame z hz hzx hzn).1] at hprev ⊢
        obtain ⟨hw, hwz⟩ := h z hz hprev
        have hwx : prev z ≠ x := fun hne => hzn (hne ▸ hwz.symm)
        refine ⟨(hhere _).mpr (.inr hw), ?_⟩
        by_cases hwn : prev z = next x
        · rw [hwn, (hafter (hwn ▸ hw)).2, ← hwn, hwz]
        · rw [(hsame _ hw hwx hwn).2, hwz]

/-- **Removing the one after `x`.** -/
theorem BackLinked.removeAfter (h : BackLinked prev next nil here) (hx : here x) (hxy : x ≠ next x)
    (hhere : ∀ z, here' z ↔ z ≠ next x ∧ here z) (hxp : prev' x = prev x)
    (hxn : next' x = next (next x))
    (hafter : here (next (next x)) →
      prev' (next (next x)) = x ∧ next' (next (next x)) = next (next (next x)))
    (hsame : ∀ z, here z → z ≠ x → z ≠ next x → z ≠ next (next x) → prev' z = prev z ∧ next' z = next z) :
    BackLinked prev' next' nil here' := by
  intro z hz hprev
  obtain ⟨hzy, hz⟩ := (hhere z).mp hz
  by_cases hzn : z = next (next x)
  · rw [hzn, (hafter (hzn ▸ hz)).1]
    exact ⟨(hhere x).mpr ⟨hxy, hx⟩, hxn⟩
  · have hp : prev' z = prev z := by
      by_cases hzx : z = x
      · rw [hzx, hxp]
      · exact (hsame z hz hzx hzy hzn).1
    rw [hp] at hprev ⊢
    obtain ⟨hw, hwz⟩ := h z hz hprev
    have hwx : prev z ≠ x := fun hne => hzy (hne ▸ hwz.symm)
    have hwy : prev z ≠ next x := fun hne => hzn (hne ▸ hwz.symm)
    refine ⟨(hhere _).mpr ⟨hwy, hw⟩, ?_⟩
    by_cases hwn : prev z = next (next x)
    · rw [hwn, (hafter (hwn ▸ hw)).2, ← hwn, hwz]
    · rw [(hsame _ hw hwx hwy hwn).2, hwz]

/-! ## Nodes with contents -/

variable {ρ : Type u} {node node' : ι → ρ → ι → Prop} {nodes front back : List (ι × ρ)} {r r' r₁ r₂ : ρ}

/-- The first of these nodes, or what follows them. -/
def firstOf (nodes : List (ι × ρ)) (q : ι) : ι := (nodes.map Prod.fst).headD q

/-- Nodes with their contents, each of which points to the next one, up to `q`. -/
def Segment (node : ι → ρ → ι → Prop) : List (ι × ρ) → ι → Prop
  | [], _ => True
  | e :: nodes, q => node e.1 e.2 (firstOf nodes q) ∧ Segment node nodes q

theorem firstOf_append_cons (front back : List (ι × ρ)) (e : ι × ρ) (q : ι) :
    firstOf (front ++ e :: back) q = firstOf (front ++ [e]) q := by
  cases front <;> rfl

theorem segment_append :
    Segment node (front ++ back) q ↔ Segment node front (firstOf back q) ∧ Segment node back q := by
  induction front with
  | nil => exact ⟨fun h => ⟨trivial, h⟩, And.right⟩
  | cons e front ih =>
    have hfirst : firstOf (front ++ back) q = firstOf front (firstOf back q) := by cases front <;> rfl
    rw [List.cons_append, Segment, Segment, ih, hfirst, and_assoc]

theorem Segment.imp (h : Segment node nodes q)
    (hsame : ∀ e ∈ nodes, ∀ n, node e.1 e.2 n → node' e.1 e.2 n) : Segment node' nodes q := by
  induction nodes with
  | nil => trivial
  | cons e nodes ih =>
    exact ⟨hsame e List.mem_cons_self _ h.1, ih h.2 fun e he => hsame e (List.mem_cons_of_mem _ he)⟩

/-- **Replacing the contents of a node.** -/
theorem Segment.replace (h : Segment node (front ++ (x, r) :: back) q)
    (hsame : ∀ e ∈ front ++ back, ∀ n, node e.1 e.2 n → node' e.1 e.2 n)
    (hx : ∀ n, node x r n → node' x r' n) : Segment node' (front ++ (x, r') :: back) q := by
  rw [segment_append] at h ⊢
  obtain ⟨hfront, hnode, hback⟩ := h
  exact ⟨hfront.imp fun e he => hsame e (List.mem_append_left _ he), hx _ hnode,
    hback.imp fun e he => hsame e (List.mem_append_right _ he)⟩

/-- **Inserting the node `i` after `x`.** -/
theorem Segment.insertAfter (h : Segment node (front ++ (x, r) :: back) q)
    (hsame : ∀ e ∈ front ++ back, ∀ n, node e.1 e.2 n → node' e.1 e.2 n)
    (hx : ∀ n, node x r n → node' x r₁ i ∧ node' i r₂ n) :
    Segment node' (front ++ (x, r₁) :: (i, r₂) :: back) q := by
  rw [segment_append] at h ⊢
  obtain ⟨hfront, hnode, hback⟩ := h
  exact ⟨hfront.imp fun e he => hsame e (List.mem_append_left _ he), (hx _ hnode).1, (hx _ hnode).2,
    hback.imp fun e he => hsame e (List.mem_append_right _ he)⟩

/-- **Removing the node after `x`**, whose contents become those of `x`. -/
theorem Segment.removeAfter (h : Segment node (front ++ (x, r₁) :: (y, r₂) :: back) q)
    (hsame : ∀ e ∈ front ++ back, ∀ n, node e.1 e.2 n → node' e.1 e.2 n)
    (hx : ∀ n, node y r₂ n → node' x r n) : Segment node' (front ++ (x, r) :: back) q := by
  rw [segment_append] at h ⊢
  obtain ⟨hfront, -, hnode, hback⟩ := h
  exact ⟨hfront.imp fun e he => hsame e (List.mem_append_left _ he), hx _ hnode,
    hback.imp fun e he => hsame e (List.mem_append_right _ he)⟩

end RarmDb
