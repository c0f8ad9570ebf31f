import Mathlib.Data.List.Nodup
import RarmDb.Disk.Model

/-!
# Page indices are taken once

* `nth`: the index that the counter gives as number `j`, from its first value on;
* `Numbered`: the counter and the indices taken so far; `Young`: what holds while the file is new;
* `AllocatedOnce`: no index is returned twice, nor filled with zeros once it was returned;
* **`allocatedOnce_of_reached`**: so it is if `create_table_file` never resets a counter that was used;
* `create_resets_counter`: a run in which it does, and the index `0` is returned twice.
-/

namespace RarmDb

namespace DiskManager

variable {τ : Type} {m m' : DiskManager τ} {t u : τ} {pc : DiskPc} {s i : UInt32}
  {j k : ℕ} {returned : List UInt32} {file : Option TableFile}

/-! ## Numbers -/

/-- The index that the counter gives after `j` others. -/
def nth (s : UInt32) (j : ℕ) : UInt32 := s + UInt32.ofNat j

theorem nth_zero (s : UInt32) : nth s 0 = s := UInt32.add_zero s

theorem nth_succ (s : UInt32) (j : ℕ) : nth s j + 1 = nth s (j + 1) := by
  rw [nth, nth, UInt32.ofNat_add, UInt32.add_assoc]
  rfl

theorem nth_inj (hj : j < 2 ^ 32) (hk : k < 2 ^ 32) (h : nth s j = nth s k) : j = k := by
  have hnat := congrArg UInt32.toNat (UInt32.add_right_inj s |>.mp h)
  rwa [UInt32.toNat_ofNat_of_lt' hj, UInt32.toNat_ofNat_of_lt' hk] at hnat

/-! ## The indices taken so far -/

/-- The counter started at `s` and gave `k` indices, each to one call. -/
structure Numbered (s : UInt32) (k : ℕ) (returned : List UInt32) (m : DiskManager τ) : Prop where
  next : ∀ i, m.nextPageId = some i → i = nth s k
  unused : m.nextPageId = none → k = 0
  cached : m.cached = m.nextPageId.isSome
  used : ∀ t call, m.tasks t = .use call → m.nextPageId ≠ none
  taken : ∀ i ∈ returned, ∃ j < k, i = nth s j
  filling : ∀ t i, m.tasks t = .zeroFill i → (∃ j < k, i = nth s j) ∧ i ∉ returned
  distinct : ∀ t u i, m.tasks t = .zeroFill i → m.tasks u = .zeroFill i → t = u
  nodup : returned.Nodup

namespace Numbered

theorem setFile (h : Numbered s k returned m) (file : Option TableFile) :
    Numbered s k returned { m with file } :=
  ⟨h.next, h.unused, h.cached, h.used, h.taken, h.filling, h.distinct, h.nodup⟩

theorem restart (h : Numbered s 0 returned m) (s' : UInt32) :
    Numbered s' 0 returned { m with cached := true, nextPageId := some s' } where
  next i hi := by
    cases hi
    exact (nth_zero s').symm
  unused hn := by cases hn
  cached := rfl
  used _ _ _ := Option.some_ne_none s'
  taken i hi := by
    obtain ⟨j, hj, -⟩ := h.taken i hi
    omega
  filling t i hi := by
    obtain ⟨⟨j, hj, -⟩, -⟩ := h.filling t i hi
    omega
  distinct := h.distinct
  nodup := h.nodup

end Numbered

variable [DecidableEq τ]

theorem goto_tasks (h : (m.goto t pc).tasks u = .zeroFill i) (hpc : pc ≠ .zeroFill i) :
    u ≠ t ∧ m.tasks u = .zeroFill i := by
  by_cases hu : u = t
  · subst hu
    exact absurd ((Function.update_self ..).symm.trans h) hpc
  · exact ⟨hu, (Function.update_of_ne hu ..).symm.trans h⟩

namespace Numbered

theorem goto (h : Numbered s k returned m) (t : τ) (hpc : ∀ i, pc ≠ .zeroFill i)
    (huse : ∀ call, pc = .use call → m.nextPageId ≠ none) : Numbered s k returned (m.goto t pc) where
  next := h.next
  unused := h.unused
  cached := h.cached
  used u call hu := by
    by_cases hut : u = t
    · subst hut
      exact huse call ((Function.update_self ..).symm.trans hu)
    · exact h.used u call ((Function.update_of_ne hut ..).symm.trans hu)
  taken := h.taken
  filling u i hu := h.filling u i (goto_tasks hu (hpc i)).2
  distinct u v i hu hv := h.distinct u v i (goto_tasks hu (hpc i)).2 (goto_tasks hv (hpc i)).2
  nodup := h.nodup

/-- **`fetch_add`** gives an index that nobody has. -/
theorem fetchAdd (h : Numbered s k returned m) (hnext : m.nextPageId = some i) (hk : k < 2 ^ 32) (t : τ) :
    Numbered s (k + 1) returned ({ m with nextPageId := some (i + 1) }.goto t (.zeroFill i)) := by
  obtain rfl := h.next i hnext
  have hnew : ∀ j < k, nth s j ≠ nth s k := fun j hj heq => by
    have hjk := nth_inj (hj.trans hk) hk heq
    omega
  have hfresh : nth s k ∉ returned := fun hmem => by
    obtain ⟨j, hj, heq⟩ := h.taken _ hmem
    exact hnew j hj heq.symm
  have htask : ∀ u i, Function.update m.tasks t (.zeroFill (nth s k)) u = .zeroFill i →
      u = t ∧ i = nth s k ∨ u ≠ t ∧ m.tasks u = .zeroFill i ∧ i ≠ nth s k := by
    intro u i hu
    by_cases hut : u = t
    · subst hut
      rw [Function.update_self] at hu
      exact .inl ⟨rfl, (DiskPc.zeroFill.inj hu).symm⟩
    · rw [Function.update_of_ne hut] at hu
      obtain ⟨⟨j, hj, rfl⟩, -⟩ := h.filling u i hu
      exact .inr ⟨hut, hu, hnew j hj⟩
  constructor
  case next =>
    intro i hi
    cases hi
    exact nth_succ s k
  case unused =>
    intro hn
    cases hn
  case cached =>
    refine h.cached.trans ?_
    rw [hnext]
    rfl
  case used => exact fun _ _ _ => Option.some_ne_none _
  case taken =>
    intro i hi
    obtain ⟨j, hj, heq⟩ := h.taken i hi
    exact ⟨j, hj.trans (Nat.lt_succ_self k), heq⟩
  case filling =>
    intro u i hu
    rcases htask u i hu with ⟨-, rfl⟩ | ⟨-, hu, -⟩
    · exact ⟨⟨k, Nat.lt_succ_self k, rfl⟩, hfresh⟩
    · obtain ⟨⟨j, hj, heq⟩, hnot⟩ := h.filling u i hu
      exact ⟨⟨j, hj.trans (Nat.lt_succ_self k), heq⟩, hnot⟩
  case distinct =>
    intro u v i hu hv
    rcases htask u i hu with ⟨hut, hi⟩ | ⟨-, hu, hi⟩ <;>
      rcases htask v i hv with ⟨hvt, hi'⟩ | ⟨-, hv, hi'⟩
    · exact hut.trans hvt.symm
    · exact absurd hi hi'
    · exact absurd hi' hi
    · exact h.distinct u v i hu hv
  case nodup => exact h.nodup

/-- **The zeros are written**, and the index is returned. -/
theorem zeroFill (h : Numbered s k returned m) (hpc : m.tasks t = .zeroFill i) (out : FileOut) :
    Numbered s k (i :: returned) (m.goto t (.idle out)) := by
  have hidle : Numbered s k returned (m.goto t (.idle out)) := h.goto t nofun nofun
  constructor
  case next => exact h.next
  case unused => exact h.unused
  case cached => exact h.cached
  case used => exact hidle.used
  case taken =>
    intro i' hi'
    rcases List.mem_cons.mp hi' with rfl | hi'
    · exact (h.filling t _ hpc).1
    · exact h.taken i' hi'
  case filling =>
    intro u i' hu
    obtain ⟨hut, hu⟩ := goto_tasks hu nofun
    obtain ⟨hnth, hnot⟩ := h.filling u i' hu
    refine ⟨hnth, fun hmem => ?_⟩
    rcases List.mem_cons.mp hmem with rfl | hmem
    · exact hut (h.distinct u t _ hu hpc)
    · exact hnot hmem
  case distinct => exact hidle.distinct
  case nodup => exact List.nodup_cons.mpr ⟨(h.filling t i hpc).2, h.nodup⟩

end Numbered

/-! ## A new file -/

/-- The task has seen that there is a file, and has no handle from the cache. -/
def opened : DiskPc → Bool
  | .cacheNew | .fileLen _ | .cacheOpened .. => true
  | _ => false

/-- While a created file has not been added to the cache, its counter starts at `0`. -/
structure Young (s : UInt32) (m : DiskManager τ) : Prop where
  noFile : m.file = none → m.nextPageId = none ∧ ∀ t, opened (m.tasks t) = false
  start : ∀ t, m.tasks t = .cacheNew → m.nextPageId ≠ none → s = 0
  len : ∀ t, m.tasks t = .cacheNew → m.nextPageId = none → ∀ file, m.file = some file → file.len = 0
  fileLength : ∀ t, m.tasks t = .cacheNew → m.nextPageId = none →
    ∀ u call len, m.tasks u = .cacheOpened call len → len = 0

namespace Young

theorem cacheNew_of_goto (h : (m.goto t pc).tasks u = .cacheNew) (hpc : pc ≠ .cacheNew) :
    m.tasks u = .cacheNew := by
  by_cases hu : u = t
  · subst hu
    exact absurd ((Function.update_self ..).symm.trans h) hpc
  · exact (Function.update_of_ne hu ..).symm.trans h

omit [DecidableEq τ] in
theorem setCounter {cached : Bool} {i s' : UInt32} (hfile : m.file ≠ none)
    (hstart : ∀ t, m.tasks t = .cacheNew → s' = 0) :
    Young s' { m with cached, nextPageId := some i } where
  noFile hnone := absurd hnone hfile
  start t ht _ := hstart t ht
  len _ _ hnone := by cases hnone
  fileLength _ _ hnone := by cases hnone

omit [DecidableEq τ] in
theorem writePage (h : Young s m) (hnext : m.nextPageId ≠ none) (i : UInt32) (data : Buffer pageSize) :
    Young s (m.writePage i data) where
  noFile hnone := h.noFile (Option.map_eq_none_iff.mp hnone)
  start := h.start
  len _ _ hnone := absurd hnone hnext
  fileLength := h.fileLength

theorem goto (h : Young s m) (t : τ) (hpc : pc ≠ .cacheNew) (hfile : m.file = none → opened pc = false)
    (hlen : ∀ call len, pc = .cacheOpened call len → ∃ file, m.file = some file ∧ len = file.len) :
    Young s (m.goto t pc) where
  noFile hnone := by
    refine ⟨(h.noFile hnone).1, fun u => ?_⟩
    by_cases hu : u = t
    · subst hu
      exact (congrArg opened (Function.update_self ..)).trans (hfile hnone)
    · exact (congrArg opened (Function.update_of_ne hu ..)).trans ((h.noFile hnone).2 u)
  start u hu := h.start u (cacheNew_of_goto hu hpc)
  len u hu := h.len u (cacheNew_of_goto hu hpc)
  fileLength u hu hnext v call len hv := by
    have hnew := cacheNew_of_goto hu hpc
    by_cases hvt : v = t
    · subst hvt
      obtain ⟨file, hfile, rfl⟩ := hlen call len ((Function.update_self ..).symm.trans hv)
      exact h.len u hnew hnext file hfile
    · exact h.fileLength u hnew hnext v call len ((Function.update_of_ne hvt ..).symm.trans hv)

theorem createFile (h : Young s m) (hfile : m.file = none) (t : τ) :
    Young s ({ m with file := some .empty }.goto t .cacheNew) where
  noFile hnone := by cases hnone
  start u hu hnext := absurd (h.noFile hfile).1 hnext
  len u hu hnext file hfile := by
    cases hfile
    rfl
  fileLength u hu hnext v call len hv := by
    have hclosed := (h.noFile hfile).2 v
    by_cases hvt : v = t
    · subst hvt
      cases (Function.update_self ..).symm.trans hv
    · rw [show m.tasks v = .cacheOpened call len from (Function.update_of_ne hvt ..).symm.trans hv]
        at hclosed
      cases hclosed

end Young

/-! ## Runs -/

/-- If the step resets the counter, the counter has no value yet, or is still `0`. -/
def KeepsCounter (m : DiskManager τ) (t : τ) : Prop :=
  m.tasks t = .cacheNew → m.nextPageId = none ∨ m.nextPageId = some 0

instance (m : DiskManager τ) (t : τ) : Decidable (KeepsCounter m t) :=
  match h : m.tasks t with
  | .cacheNew => decidable_of_iff (m.nextPageId = none ∨ m.nextPageId = some 0)
      ⟨fun hn _ => hn, fun hn => hn h⟩
  | .idle _ | .createDir | .createFile | .lookup _ | .openFile _ | .fileLen _ | .cacheOpened .. | .use _
  | .zeroFill _ | .panicked => .isTrue fun hpc => (by cases h.symm.trans hpc)

/-- **One step** keeps the numbering, though the counter may start anew. -/
theorem numbered_step (h : Numbered s k returned m) (hy : Young s m) (hok : KeepsCounter m t)
    (hk : k < 2 ^ 32) (hmove : Move m t m') :
    ∃ s', Numbered s' (takenAfter k (m.tasks t)) (returnedAfter returned (m.tasks t)) m' ∧ Young s' m' := by
  have hnofile : opened (m.tasks t) = true → m.file ≠ none := fun ho hnone => by
    rw [(hy.noFile hnone).2 t] at ho
    cases ho
  cases hmove with
  | createTableFile hpc | call hpc | createDir hpc | «exists» hpc | noFile hpc | missing hpc =>
    rw [hpc]
    exact ⟨s, h.goto t nofun nofun, hy.goto t nofun (fun _ => rfl) nofun⟩
  | panic hpc hnext => exact absurd hnext (h.used t _ hpc)
  | read hpc =>
    rw [hpc]
    exact ⟨s, h.goto t nofun nofun, hy.goto t nofun (fun _ => rfl) nofun⟩
  | openFile hpc hfile =>
    rw [hpc]
    exact ⟨s, h.goto t nofun nofun, hy.goto t nofun (fun hnone => absurd hnone hfile) nofun⟩
  | fileLen hpc hfile =>
    rw [hpc]
    refine ⟨s, h.goto t nofun nofun, hy.goto t nofun (fun hnone => ?_) fun call len hcall => ?_⟩
    · cases hnone.symm.trans hfile
    · cases hcall
      exact ⟨_, hfile, rfl⟩
  | createFile hpc hfile =>
    rw [hpc]
    exact ⟨s, (h.setFile _).goto t nofun nofun, hy.createFile hfile t⟩
  | cacheNew hpc =>
    have hzero : k = 0 := by
      rcases hok hpc with hnone | hsome
      · exact h.unused hnone
      · have hs := hy.start t hpc (by rw [hsome]; exact nofun)
        have hnext := h.next 0 hsome
        rw [hs, ← nth_zero 0] at hnext
        exact (nth_inj (by decide) hk ((nth_zero (nth 0 0)).symm.trans (congrArg (nth · 0) hnext) |>.trans
          (nth_zero _))).symm
    have hfile := hnofile (by rw [hpc]; rfl)
    subst hzero
    rw [hpc]
    exact ⟨0, (h.restart 0).goto t nofun nofun,
      (Young.setCounter hfile fun _ _ => rfl).goto t nofun (fun _ => rfl) nofun⟩
  | found hpc hcached =>
    have hnext : m.nextPageId ≠ none := Option.isSome_iff_ne_none.mp (h.cached.symm.trans hcached)
    rcases hpc with hpc | ⟨len, hpc⟩
    · rw [hpc]
      exact ⟨s, h.goto t nofun (fun _ _ => hnext), hy.goto t nofun (fun _ => rfl) nofun⟩
    · rw [hpc]
      exact ⟨s, h.goto t nofun (fun _ _ => hnext), hy.goto t nofun (fun _ => rfl) nofun⟩
  | @cacheOpened call len hpc hcached =>
    have hnone : m.nextPageId = none := by
      rw [h.cached] at hcached
      exact Option.not_isSome_iff_eq_none.mp (Bool.eq_false_iff.mp hcached)
    have hfile := hnofile (by rw [hpc]; rfl)
    obtain rfl := h.unused hnone
    rw [hpc, hnone]
    refine ⟨UInt32.ofNat (len / pageSize), (h.restart _).goto t nofun fun _ _ => nofun,
      (Young.setCounter hfile fun u hu => ?_).goto t nofun (fun _ => rfl) nofun⟩
    rw [hy.fileLength u hu hnone t call len hpc]
    rfl
  | @fetchAdd i hpc hnext =>
    have hfile : m.file ≠ none := fun hnofile => by cases hnext.symm.trans (hy.noFile hnofile).1
    rw [hpc]
    refine ⟨s, h.fetchAdd hnext hk t, (Young.setCounter hfile fun u hu => ?_).goto t nofun (fun _ => rfl) nofun⟩
    exact hy.start u hu (by rw [hnext]; exact nofun)
  | write hpc =>
    rw [hpc]
    exact ⟨s, (h.setFile _).goto t nofun nofun,
      (hy.writePage (h.used t _ hpc) _ _).goto t nofun (fun _ => rfl) nofun⟩
  | @zeroFill i hpc =>
    have hnext : m.nextPageId ≠ none := fun hnone => by
      obtain ⟨⟨j, hj, -⟩, -⟩ := h.filling t _ hpc
      rw [h.unused hnone] at hj
      exact absurd hj (Nat.not_lt_zero j)
    rw [hpc]
    have hfile := h.setFile (m.writePage i (Buffer.const pageSize 0)).file
    exact ⟨s, hfile.zeroFill hpc (.page i),
      (hy.writePage hnext _ _).goto t nofun (fun _ => rfl) nofun⟩

/-- No index was returned twice, and none that was returned is about to be filled with zeros. -/
structure AllocatedOnce (m : DiskManager τ) (returned : List UInt32) : Prop where
  once : returned.Nodup
  kept : ∀ t i, m.tasks t = .zeroFill i → i ∉ returned

theorem le_takenAfter (k : ℕ) (pc : DiskPc) : k ≤ takenAfter k pc := by
  unfold takenAfter
  split <;> omega

/-- **Page indices are allocated at most once**, if `create_table_file` resets no counter that has given
an index. -/
theorem allocatedOnce_of_reached (h : DiskReached file KeepsCounter k returned m) (hk : k < 2 ^ 32) :
    AllocatedOnce m returned := by
  suffices hinv : k < 2 ^ 32 → ∃ s, Numbered s k returned m ∧ Young s m by
    obtain ⟨s, hn, -⟩ := hinv hk
    exact ⟨hn.nodup, fun t i ht => (hn.filling t i ht).2⟩
  refine h.inv (I := fun m g => g.1 < 2 ^ 32 → ∃ s, Numbered s g.1 g.2 m ∧ Young s m) (fun _ => ?_) ?_
  · exact ⟨0, ⟨nofun, fun _ => rfl, rfl, nofun, nofun, nofun, nofun, List.nodup_nil⟩,
      ⟨fun _ => ⟨rfl, fun _ => rfl⟩, nofun, nofun, nofun⟩⟩
  · intro m m' g a hok hs ih hk
    have hlt := (le_takenAfter g.1 _).trans_lt hk
    obtain ⟨s, hn, hy⟩ := ih hlt
    exact numbered_step hn hy hok hlt (move_of_step hs)

/-- The file is created, and then two tasks allocate a page at once. -/
def raceSteps : List (Fin 2 × DiskChoice) :=
  [(0, .createTableFile), (0, .go), (0, .go), (0, .go), (0, .call .allocatePage), (1, .call .allocatePage),
    (0, .go), (1, .go), (1, .go), (0, .go), (0, .go), (1, .go)]

theorem allocatedOnce_of_race : ∃ k m, DiskReached none KeepsCounter k [0, 1] m ∧ k < 2 ^ 32 ∧
    AllocatedOnce (m : DiskManager (Fin 2)) [0, 1] := by
  have hrun : DiskReached none KeepsCounter 2 [0, 1] _ := Ghost.System.reached_run .init
    (rfl : (diskSystem (Fin 2)).run (fun m _ a => KeepsCounter m a.1) (DiskManager.new (Fin 2) none, 0, []) raceSteps = _)
  exact ⟨_, _, hrun, by decide, allocatedOnce_of_reached hrun (by decide)⟩

/-! ## The counter is reset -/

/-- The second task opens the file before the first has added it to the cache, and takes the index `0`;
the first then sets the counter to `0`. -/
def resetSteps : List (Fin 2 × DiskChoice) :=
  [(0, .createTableFile), (0, .go), (0, .go), (1, .call .allocatePage), (1, .go), (1, .go), (1, .go),
    (1, .go), (1, .go), (1, .go), (0, .go), (1, .call .allocatePage), (1, .go), (1, .go), (1, .go)]

/-- The index `0` is returned twice, and the page filled with zeros once more. -/
theorem create_resets_counter : ∃ k m, DiskReached none (fun _ _ => True) k [0, 0] m ∧ k < 2 ^ 32 ∧
    ¬ AllocatedOnce (m : DiskManager (Fin 2)) [0, 0] := by
  have hrun : DiskReached none (fun _ _ => True) 2 [0, 0] _ := Ghost.System.reached_run .init
    (rfl : (diskSystem (Fin 2)).run (fun _ _ _ => True) (DiskManager.new (Fin 2) none, 0, []) resetSteps = _)
  exact ⟨_, _, hrun, by decide, fun h => absurd h.once (by decide)⟩

end DiskManager

end RarmDb
