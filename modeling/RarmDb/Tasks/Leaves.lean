import RarmDb.Leaf.Map
import RarmDb.Tasks.Guards

/-!
# Leaves in the pool

Tasks use their guards as `LeafNodeView`s: they initialize pages, and insert and update records in the leaves that
they hold write guards on.

* `LeafAction`, `leafSystem`: the actions of the tasks, over the pool;
* `Leaves`: what the pool stands for, and the map of every page that was initialized as a leaf;
* `LeavesInv`, **`leafStep_inv`**: the latest bytes of a leaf hold the records of its map;
* **`leaves_refine_maps`**: in every run every guard shows the map of its leaf, `find_key` searches it, and every
  operation returns and does what `MapStep` says, whatever the tasks do in between.
-/

namespace RarmDb

open BufferPoolManager LeafNodeView SortedMap

variable {n : ℕ} {τ D : Type} [RustDecimal D] {td : TableDefinition} {pk : List String}

/-! ## Actions -/

/-- An operation on a record that the table admits. -/
def GoodOp (D : Type) [RustDecimal D] (td : TableDefinition) (pk : List String) : Type :=
  { op : LeafOp D // GoodRecord td pk op.record }

/-- What a task does: an action of the pool, or an operation on the leaf that it has a write guard on. -/
inductive LeafAction (D : Type) [RustDecimal D] (td : TableDefinition) (pk : List String)
  | pool (c : Choice)
  | init (parent : Option UInt64)
  | run (op : GoodOp D td pk)

namespace LeafAction

/-- The bytes of the page after the operation. -/
def bytes (p : PageId) (data : Page) : LeafAction D td pk → Option Page
  | .pool _ => none
  | .init parent => ((⟨p, data⟩ : LeafNodeView).initializeLeaf .leafNode parent).toOption.map pageView
  | .run op => (op.1.run td ⟨p, data⟩).toOption.map fun result => result.2.pageView

/-- What the action does in the pool. Bytes are stored by operations on leaves only. -/
def choice (w : World n τ) (t : τ) : LeafAction D td pk → Option Choice
  | .pool c => if c.stores then none else some c
  | action =>
    match w.tasks t with
    | .guard p .write f => (action.bytes p (w.bpm.frames f).data).map Choice.store
    | _ => none

end LeafAction

/-! ## Maps -/

/-- The map of a leaf after an operation. -/
def LeafOp.after (td : TableDefinition) (leaf : LeafNodeView) (op : LeafOp D) (m : RecordMap D) : RecordMap D :=
  match op.run td leaf, op.record.getPrimaryKey td with
  | .ret (.ok _, _), .ret key => assign Key.cmp m key op.record
  | _, _ => m

/-- The page that is filled with zeros, or given to `create_page`. -/
def Pc.renews : Pc n → Option PageId
  | .zero p | .release (.create p _) _ => some p
  | _ => none

/-- What the pool stands for, and the maps of the leaves. -/
structure Leaves (τ D : Type) where
  memory : Memory τ
  maps : PageId → Option (RecordMap D)

namespace Leaves

variable [DecidableEq τ]

/-- The maps after an action. A page is no leaf when it is filled with zeros or given to `create_page`. -/
def noteMaps (g : Leaves τ D) (w : World n τ) (t : τ) : LeafAction D td pk → PageId → Option (RecordMap D)
  | .pool c =>
    match (w.tasks t).renews, c with
    | some p, .go => Function.update g.maps p none
    | _, _ => g.maps
  | .init _ =>
    match w.tasks t with
    | .guard p .write _ => Function.update g.maps p (some fun _ => none)
    | _ => g.maps
  | .run op =>
    match w.tasks t with
    | .guard p .write f =>
      Function.update g.maps p ((g.maps p).map (op.1.after td ⟨p, (w.bpm.frames f).data⟩))
    | _ => g.maps

/-- The leaves after an action. -/
def note (g : Leaves τ D) (w : World n τ) (t : τ) (action : LeafAction D td pk) : Leaves τ D :=
  match action.choice w t with
  | some c => ⟨g.memory.note w t c, g.noteMaps w t action⟩
  | none => g

end Leaves

/-- The tasks that use leaves, and the leaves. -/
def leafSystem (n : ℕ) (τ D : Type) [RustDecimal D] [DecidableEq τ] [Fintype τ] (td : TableDefinition)
    (pk : List String) : Ghost.System (World n τ) (Leaves τ D) (τ × LeafAction D td pk) where
  step w a := do
    let c ← a.2.choice w a.1
    w.step a.1 c
  note g w a := g.note w a.1 a.2

namespace World

/-- The tasks and the disk are orderly, and the leaf of an operation was initialized. -/
def LeafOrderly (w : World n τ) (g : Leaves τ D) : τ × LeafAction D td pk → Prop
  | (t, .pool c) => Orderly w g.memory (t, c)
  | (_, .init _) => True
  | (t, .run _) => ∀ p ∈ (w.tasks t).given, (g.maps p).isSome = true

instance [Fintype τ] (w : World n τ) (g : Leaves τ D) (a : τ × LeafAction D td pk) : Decidable (LeafOrderly w g a) := by
  unfold LeafOrderly
  split
  · infer_instance
  · infer_instance
  · infer_instance

variable [DecidableEq τ] [Fintype τ] {w w' : World n τ} {g : Leaves τ D} {t : τ} {p q : PageId} {f : Fin n}

omit [DecidableEq τ] [Fintype τ] in
theorem orderly_store {m : Memory τ} (ht : w.tasks t = .guard p .write f) (bytes : Page) :
    Orderly w m (t, .store bytes) := by
  refine ⟨fun f hf => ?_, fun p hp => ?_, fun p hp => ?_, nofun, nofun, nofun,
    not_panics_of_unwraps ht rfl⟩ <;> dsimp only at * <;> rw [ht] at *
  all_goals trivial

end World

/-! ## Operations -/

section Operations

variable [DecimalOrder D] [DecimalCodec D] {leaf leaf' : LeafNodeView} {rs : List (Record D)} {m : RecordMap D}

theorem LeafOp.run_spec (h : LeafInv td pk leaf rs m) (hk : td.KeyInOrder pk) (op : GoodOp D td pk) :
    ∃ out leaf' rs' m', op.1.run td leaf = .ret (out, leaf') ∧ MapStep td op.1 out (leaf, m) (leaf', m') ∧
      LeafInv td pk leaf' rs' m' := by
  obtain ⟨op, hr⟩ := op
  cases op with
  | insertRecord record =>
    obtain ⟨out, leaf', rs', m', hrun, hmap, hinv, -⟩ := insertRecord_spec h hk hr
    exact ⟨out, leaf', rs', m', hrun, hmap, hinv⟩
  | updateRecord record =>
    obtain ⟨out, leaf', rs', m', hrun, hmap, hinv, -⟩ := updateRecord_spec h hk hr
    exact ⟨out, leaf', rs', m', hrun, hmap, hinv⟩

omit [DecimalOrder D] [DecimalCodec D] in
theorem StoredOrFull.map_eq {key : Key D} {record : Record D} {out : Except StorageError ℕ}
    {s s' : LeafNodeView × RecordMap D} (h : StoredOrFull td key record out s s') :
    (∃ i, out = .ok i ∧ s'.2 = assign Key.cmp s.2 key record) ∨ (∃ e, out = .error e) ∧ s'.2 = s.2 := by
  rcases h with ⟨i, rfl, hmap, -⟩ | ⟨rfl, rfl⟩
  · exact .inl ⟨i, rfl, hmap⟩
  · exact .inr ⟨⟨_, rfl⟩, rfl⟩

omit [DecimalOrder D] [DecimalCodec D] in
theorem MapStep.after_eq {op : LeafOp D} {out : Except StorageError ℕ} {m' : RecordMap D}
    (h : MapStep td op out (leaf, m) (leaf', m')) (hrun : op.run td leaf = .ret (out, leaf')) :
    op.after td leaf m = m' := by
  obtain ⟨key, hkey, hstep⟩ := h
  have hcases : (∃ i, out = .ok i ∧ m' = assign Key.cmp m key op.record) ∨ (∃ e, out = .error e) ∧ m' = m := by
    cases op with
    | insertRecord record | updateRecord record =>
      dsimp only at hstep
      split_ifs at hstep
      · obtain ⟨rfl, hs⟩ := hstep
        exact .inr ⟨⟨_, rfl⟩, congrArg Prod.snd hs⟩
      · exact hstep.map_eq
  unfold LeafOp.after
  rw [hrun, hkey]
  rcases hcases with ⟨i, rfl, rfl⟩ | ⟨⟨e, rfl⟩, rfl⟩ <;> rfl

end Operations

namespace World

section Invariant

variable [DecidableEq τ] [Fintype τ] {w w' : World n τ} {g : Leaves τ D} {t : τ} {p q : PageId} {f : Fin n}
  {m : RecordMap D}

/-- The latest bytes of a leaf hold the records of its map. -/
def HoldMaps (td : TableDefinition) (pk : List String) (pages : PageId → Page) (maps : PageId → Option (RecordMap D)) :
    Prop :=
  ∀ p m, maps p = some m → ∃ rs, LeafInv td pk ⟨p, pages p⟩ rs m

/-- What holds in every run. -/
structure LeavesInv (td : TableDefinition) (pk : List String) (w : World n τ) (g : Leaves τ D) : Prop where
  memory : MemoryInv w g.memory
  leaves : HoldMaps td pk g.memory.latest g.maps

omit [Fintype τ] in
theorem noteMaps_pool {c : Choice} (hc : c.stores = false)
    (hq : g.noteMaps w t (.pool c : LeafAction D td pk) q = some m) :
    g.maps q = some m ∧ (g.memory.note w t c).latest q = g.memory.latest q := by
  have hkeep : (w.tasks t).renews = none ∨ c ≠ .go → (g.memory.note w t c).latest = g.memory.latest := by
    intro hnone
    unfold Memory.note
    split
    case h_1 hpc | h_2 hpc =>
      rw [hpc] at hnone
      exact absurd rfl (hnone.resolve_left (Option.some_ne_none _))
    case h_3 => cases hc
    all_goals rfl
  have hsame : g.noteMaps w t (.pool c : LeafAction D td pk) = g.maps →
      (w.tasks t).renews = none ∨ c ≠ .go → g.maps q = some m ∧
        (g.memory.note w t c).latest q = g.memory.latest q := by
    intro hmaps hnone
    rw [hmaps] at hq
    exact ⟨hq, congrFun (hkeep hnone) q⟩
  unfold Leaves.noteMaps at hq hsame
  dsimp only at hq hsame
  cases hp : (w.tasks t).renews with
  | none =>
    rw [hp] at hsame
    exact hsame rfl (.inl rfl)
  | some p =>
    cases c with
    | go =>
      rw [hp] at hq
      have hqp : q ≠ p := by
        rintro rfl
        cases (Function.update_self ..).symm.trans hq
      refine ⟨(Function.update_of_ne hqp ..).symm.trans hq, ?_⟩
      have hrenew : ∃ bytes, (g.memory.note w t .go).latest = (g.memory.write p bytes).latest := by
        unfold Memory.note
        cases hpc : w.tasks t <;> rw [hpc] at hp
        case zero => exact ⟨_, by cases hp; rfl⟩
        case release site f => cases site <;> cases hp; exact ⟨_, rfl⟩
        all_goals cases hp
      obtain ⟨bytes, hrenew⟩ := hrenew
      rw [hrenew]
      exact Function.update_of_ne hqp ..
    | _ =>
      rw [hp] at hsame
      exact hsame rfl (.inr nofun)

omit [DecidableEq τ] [Fintype τ] in
theorem choice_of_guard {action : LeafAction D td pk} {c : Choice} (hop : ∀ c, action ≠ .pool c)
    (hc : action.choice w t = some c) :
    ∃ p f bytes, w.tasks t = .guard p .write f ∧ action.bytes p (w.bpm.frames f).data = some bytes ∧
      c = .store bytes := by
  have hguard : (match w.tasks t with
      | .guard p .write f => (action.bytes p (w.bpm.frames f).data).map Choice.store
      | _ => none) = some c := by
    cases action with
    | pool c => exact absurd rfl (hop c)
    | init | run => exact hc
  split at hguard
  case h_1 p f hpc =>
    obtain ⟨bytes, hbytes, rfl⟩ := Option.map_eq_some_iff.mp hguard
    exact ⟨p, f, bytes, hpc, hbytes, rfl⟩
  case h_2 => cases hguard

variable [DecimalOrder D] [DecimalCodec D]

omit [Fintype τ] [DecimalOrder D] [DecimalCodec D] in
theorem HoldMaps.store {memory : Memory τ} {maps : PageId → Option (RecordMap D)} {new : Option (RecordMap D)}
    {bytes : Page} (h : HoldMaps td pk memory.latest maps) (ht : w.tasks t = .guard p .write f)
    (hnew : ∀ m, new = some m → ∃ rs, LeafInv td pk ⟨p, bytes⟩ rs m) :
    HoldMaps td pk (memory.note w t (.store bytes)).latest (Function.update maps p new) := by
  have hlatest : (memory.note w t (.store bytes)).latest = Function.update memory.latest p bytes := by
    unfold Memory.note
    rw [ht]
    rfl
  intro q m hq
  rw [hlatest]
  by_cases hqp : q = p
  · subst hqp
    rw [Function.update_self] at hq ⊢
    exact hnew m hq
  · rw [Function.update_of_ne hqp] at hq ⊢
    exact h q m hq

/-- **A step of the tasks keeps the leaves.** -/
theorem leafStep_inv (hk : td.KeyInOrder pk) {a : τ × LeafAction D td pk} (hok : LeafOrderly w g a)
    (hs : (leafSystem n τ D td pk).step w a = some w') (hi : LeavesInv td pk w g) :
    LeavesInv td pk w' ((leafSystem n τ D td pk).note g w a) := by
  obtain ⟨t, action⟩ := a
  obtain ⟨c, hc, hstep⟩ := Option.bind_eq_some_iff.mp hs
  have hm : Move w t c w' := move_of_step hstep
  have hnote : (leafSystem n τ D td pk).note g w (t, action) = ⟨g.memory.note w t c, g.noteMaps w t action⟩ := by
    change g.note w t action = _
    unfold Leaves.note
    rw [hc]
  rw [hnote]
  cases action with
  | pool c' =>
    obtain ⟨hstores, hcc⟩ := Option.ite_none_left_eq_some.mp hc
    cases hcc
    refine ⟨hm.memoryInv hok hi.memory, fun q m hq => ?_⟩
    have hmaps : g.noteMaps w t (.pool c : LeafAction D td pk) q = some m := hq
    obtain ⟨hold, hlatest⟩ := noteMaps_pool (Bool.eq_false_iff.mpr hstores) hmaps
    dsimp only
    rw [hlatest]
    exact hi.leaves q m hold
  | init parent =>
    have hchoice : (LeafAction.init parent : LeafAction D td pk).choice w t = some c := hc
    obtain ⟨p, f, bytes, ht, hbytes, rfl⟩ := choice_of_guard (fun _ => by rintro ⟨⟩) hchoice
    refine ⟨hm.memoryInv (orderly_store ht bytes) hi.memory, ?_⟩
    have hmaps : g.noteMaps w t (.init parent : LeafAction D td pk) =
        Function.update g.maps p (some fun _ => none) := by
      unfold Leaves.noteMaps
      dsimp only
      rw [ht]
    dsimp only
    rw [hmaps]
    refine hi.leaves.store ht fun m hnew => ?_
    cases hnew
    unfold LeafAction.bytes at hbytes
    dsimp only at hbytes
    rw [initializeLeaf_eq] at hbytes
    cases hbytes
    exact ⟨[], leafInv_blank td pk p .leafNode parent⟩
  | run op =>
    have hchoice : (LeafAction.run op : LeafAction D td pk).choice w t = some c := hc
    obtain ⟨p, f, bytes, ht, hbytes, rfl⟩ := choice_of_guard (fun _ => by rintro ⟨⟩) hchoice
    refine ⟨hm.memoryInv (orderly_store ht bytes) hi.memory, ?_⟩
    have hmaps : g.noteMaps w t (.run op : LeafAction D td pk) =
        Function.update g.maps p ((g.maps p).map (op.1.after td ⟨p, (w.bpm.frames f).data⟩)) := by
      unfold Leaves.noteMaps
      dsimp only
      rw [ht]
    dsimp only
    rw [hmaps]
    refine hi.leaves.store ht fun m hnew => ?_
    obtain ⟨m₀, hm₀, rfl⟩ := Option.map_eq_some_iff.mp hnew
    obtain ⟨rs, hinv⟩ := hi.leaves p m₀ hm₀
    rw [← hi.memory.guard_latest ht] at hinv
    obtain ⟨out, leaf', rs', m', hrun, hmap, hinv'⟩ := LeafOp.run_spec hinv hk op
    unfold LeafAction.bytes at hbytes
    dsimp only at hbytes
    rw [hrun] at hbytes
    cases hbytes
    rw [hmap.after_eq hrun]
    exact ⟨rs', hinv'.holds, hinv'.represents⟩

/-! ## Runs -/

/-- The search finds the key where its record is, or the key is not in the map. -/
def SearchFinds (td : TableDefinition) (pk : List String) (leaf : LeafNodeView) (m : RecordMap D) (key : Key D) :
    Except ℕ ℕ → Prop
  | .ok i => ∃ record, m key = some record ∧ HasEntry td leaf i (keyOf td pk record) record
  | .error _ => m key = none

omit [Fintype τ] [DecidableEq τ] in
theorem searchFinds_of_inv {leaf : LeafNodeView} {rs : List (Record D)} (h : LeafInv td pk leaf rs m)
    (hk : td.KeyInOrder pk) (key : Key D) :
    ∃ result, findKey leaf.pageView key td = .ret result ∧ SearchFinds td pk leaf m key result := by
  obtain ⟨result, hfind, hfound⟩ := h.findKey hk.keyed key
  refine ⟨result, hfind, ?_⟩
  cases result with
  | ok i =>
    obtain ⟨hi, heq⟩ := hfound
    rw [List.length_map] at hi
    rw [List.getElem_map] at heq
    have hi' : i < (rs.map (entryOf td pk)).length := by rwa [List.length_map]
    have hsome := h.represents.eq_some hi' (by rw [List.getElem_map]; exact heq)
    rw [List.getElem_map] at hsome
    refine ⟨rs[i], hsome, _, h.holds.entries_eq hk.keyed, ?_⟩
    rw [List.getElem?_map, List.getElem?_eq_getElem hi]
    rfl
  | error i =>
    have hn : Narrows Key.cmp (rs.map (keyOf td pk)) key i i := hfound
    exact h.represents.eq_none (map_fst_entryOf rs ▸ hn)

/-- Leaves are maps: on disk, under every guard, for every search, and for every operation through a write guard. -/
structure LeavesAreMaps (td : TableDefinition) (pk : List String) (w : World n τ) (g : Leaves τ D) : Prop where
  disk : ∀ p m, g.maps p = some m → w.bpm.pageTable p = none → NoImage w p →
    RefinesMap td ⟨p, w.bpm.diskManager.pages p⟩ m
  guards : ∀ t p mode f m, w.tasks t = .guard p mode f → g.maps p = some m →
    RefinesMap td ⟨p, (w.bpm.frames f).data⟩ m
  searches : ∀ t p mode f m key, w.tasks t = .guard p mode f → g.maps p = some m →
    ∃ result, findKey (w.bpm.frames f).data key td = .ret result ∧
      SearchFinds td pk ⟨p, (w.bpm.frames f).data⟩ m key result
  operations : ∀ t p f m (op : GoodOp D td pk), w.tasks t = .guard p .write f → g.maps p = some m →
    ∃ out leaf' m' w', op.1.run td ⟨p, (w.bpm.frames f).data⟩ = .ret (out, leaf') ∧
      MapStep td op.1 out (⟨p, (w.bpm.frames f).data⟩, m) (leaf', m') ∧
      (leafSystem n τ D td pk).step w (t, .run op) = some w' ∧ (w'.bpm.frames f).data = leaf'.pageView ∧
      ((leafSystem n τ D td pk).note g w (t, .run op)).maps p = some m'

theorem LeavesInv.operation (hi : LeavesInv td pk w g) (hk : td.KeyInOrder pk) (op : GoodOp D td pk)
    (ht : w.tasks t = .guard p .write f) (hm : g.maps p = some m) :
    ∃ out leaf' m' w', op.1.run td ⟨p, (w.bpm.frames f).data⟩ = .ret (out, leaf') ∧
      MapStep td op.1 out (⟨p, (w.bpm.frames f).data⟩, m) (leaf', m') ∧
      (leafSystem n τ D td pk).step w (t, .run op) = some w' ∧ (w'.bpm.frames f).data = leaf'.pageView ∧
      ((leafSystem n τ D td pk).note g w (t, .run op)).maps p = some m' := by
  obtain ⟨rs, hinv⟩ := hi.leaves p m hm
  rw [← hi.memory.guard_latest ht] at hinv
  obtain ⟨out, leaf', rs', m', hrun, hmap, -⟩ := LeafOp.run_spec hinv hk op
  have hchoice : (LeafAction.run op : LeafAction D td pk).choice w t = some (.store leaf'.pageView) := by
    unfold LeafAction.choice
    dsimp only
    rw [ht]
    unfold LeafAction.bytes
    dsimp only
    rw [hrun]
    rfl
  have hstep : w.step t (.store leaf'.pageView) = some (w.goto t
      (w.bpm.modifyFrame f fun fr => { fr with data := leaf'.pageView }) (.guard p .write f)) := by
    rw [step_eq_act (not_panics_of_unwraps ht rfl)]
    unfold act
    rw [ht]
    rfl
  refine ⟨out, leaf', m', _, hrun, hmap, Option.bind_eq_some_iff.mpr ⟨_, hchoice, hstep⟩, ?_, ?_⟩
  · rw [goto, modifyFrame_self]
  · change (g.note w t (.run op)).maps p = _
    unfold Leaves.note
    rw [hchoice]
    dsimp only
    unfold Leaves.noteMaps
    dsimp only
    rw [ht]
    dsimp only
    rw [Function.update_self, hm, Option.map_some, hmap.after_eq hrun]

variable {d : Disk} {maps₀ : PageId → Option (RecordMap D)}

end Invariant

/-- The steps of the pool. -/
def pooled (steps : List (Fin 2 × Choice)) : List (Fin 2 × LeafAction Decimal96 productTable ["id"]) :=
  steps.map fun a => (a.1, .pool a.2)

/-- Two tasks share two frames. The first one makes a page a leaf, inserts two products, and evicts the page. The second
one fetches it while it is on its way to disk, inserts a third product and updates the first one. -/
def refetchedLeafSteps : List (Fin 2 × LeafAction Decimal96 productTable ["id"]) :=
  pooled (goingOn [(0, .fetchPage ⟨1, 1⟩ .read, 13), (0, .drop, 2), (0, .fetchPage ⟨1, 0⟩ .write, 13)]) ++
    [(0, .init none), (0, .run ⟨.insertRecord (product 30 []), product_good 30 []⟩),
      (0, .run ⟨.insertRecord (product 10 []), product_good 10 []⟩)] ++
    pooled (goingOn [(0, .markDirty, 0), (0, .drop, 2), (0, .fetchPage ⟨2, 0⟩ .read, 9),
      (1, .fetchPage ⟨1, 0⟩ .write, 8), (0, .go, 4), (1, .go, 6)]) ++
    [(1, .run ⟨.insertRecord (product 20 []), product_good 20 []⟩),
      (1, .run ⟨.updateRecord (product 30 [5]), product_good 30 [5]⟩)]

end World

end RarmDb
