import RarmDb.Disk.Reads
import RarmDb.Lib.Locked

/-!
# File handles are shared

A `TokioFileHandle` is one open file with one cursor behind a mutex. Its calls move the cursor and then read or
write where it is, in several operations of the open file, each of which may fail or move fewer bytes than asked.

The open file is that of the runtime, a parameter here. It may hold a write back after it returned, and the calls
flush nothing. `Ordered` says what they rely on: the next operation waits for that write, which does not fail then,
and only `metadata` may miss it.

* `AsyncFile`: the operations `seek`, `read`, `write`, `metadata`, `set_len` of an open file; `AsyncFile.Ordered`;
* `TokioFileHandle.len`, `readAt`, `setLen`, `writeAt`: the calls, in steps;
* `HandleFile`, `FileSpec`: what a call does at once, on a file that has no cursor;
* **`implements`**: a call that runs alone does so, and has written a part of its data in between;
* **`handle_atomic`**: so do any number of tasks together, one call after the other;
* `spec_readPage`, `spec_writePage`: the calls that read and write a page, as the disk manager uses them.
-/

namespace RarmDb

/-! ## The file -/

namespace TableFile

/-- The bytes from an offset on. -/
def bytesAt (file : TableFile) (offset count : ℕ) : Bytes := (List.range count).map fun k => file.bytes (offset + k)

/-- The bytes that are written from an offset on. A gap behind the end of the file is filled with zeros. -/
def splice (file : TableFile) (offset : ℕ) (data : Bytes) : TableFile :=
  if data = [] then file
  else {
    len := max file.len (offset + data.length)
    bytes := fun k =>
      if offset ≤ k ∧ k < offset + data.length then data.getD (k - offset) 0
      else if k < file.len then file.bytes k else 0 }

/-- The file is cut off or grows with zeros. -/
def resize (file : TableFile) (len : ℕ) : TableFile where
  len := len
  bytes k := if k < min file.len len then file.bytes k else 0

end TableFile

/-- The operations of an open file, in the states `φ`. How an operation comes out depends on the file system, too. -/
structure AsyncFile (φ κ : Type) where
  /-- `seek(SeekFrom::Start(offset))`. -/
  seek (offset : UInt64) : κ → φ → Except String Unit × φ
  /-- `read`: the number of bytes read at the cursor, and the buffer with them. -/
  read (buffer : Bytes) : κ → φ → Except String (ℕ × Bytes) × φ
  /-- `write`: the number of bytes written at the cursor. -/
  write (data : Bytes) : κ → φ → Except String ℕ × φ
  /-- The length in the `metadata`. -/
  metadata : κ → φ → Except String ℕ × φ
  /-- `set_len`. -/
  setLen (len : UInt64) : κ → φ → Except String Unit × φ

/-- The operations of a file take effect one after the other. The `contents` are what the file has when no write is
held back, and its length is `settled` at least. An operation that fails changes no bytes, and a write that was
accepted does not fail later. A read gets bytes at the cursor, a write puts the first bytes of its data there, and
both may stop early. -/
structure AsyncFile.Ordered {φ κ : Type} (file : AsyncFile φ κ) (contents : φ → TableFile) (cursor settled : φ → ℕ) :
    Prop where
  settled_le : ∀ f, settled f ≤ (contents f).len
  seek_contents : ∀ offset k f, contents (file.seek offset k f).2 = contents f
  seek_cursor : ∀ offset k f, (file.seek offset k f).1 = .ok () → cursor (file.seek offset k f).2 = offset.toNat
  seek_settled : ∀ offset k f, settled f ≤ settled (file.seek offset k f).2
  seek_waits : ∀ offset k f, (file.seek offset k f).1 = .ok () →
    settled (file.seek offset k f).2 = (contents f).len
  read_contents : ∀ buffer k f, contents (file.read buffer k f).2 = contents f
  read_settled : ∀ buffer k f, settled f ≤ settled (file.read buffer k f).2
  read_bytes : ∀ buffer k f bytesRead buffer', (file.read buffer k f).1 = .ok (bytesRead, buffer') →
    bytesRead ≤ min buffer.length ((contents f).len - cursor f) ∧
      buffer' = (contents f).bytesAt (cursor f) bytesRead ++ buffer.drop bytesRead
  write_contents : ∀ data k f written, (file.write data k f).1 = .ok written →
    written ≤ data.length ∧
      contents (file.write data k f).2 = (contents f).splice (cursor f) (data.take written)
  write_cursor : ∀ data k f written, (file.write data k f).1 = .ok written →
    cursor (file.write data k f).2 = cursor f + written
  write_settled : ∀ data k f, settled f ≤ settled (file.write data k f).2
  write_error : ∀ data k f e, (file.write data k f).1 = .error e → contents (file.write data k f).2 = contents f
  metadata_contents : ∀ k f, contents (file.metadata k f).2 = contents f
  metadata_settled : ∀ k f, settled f ≤ settled (file.metadata k f).2
  metadata_len : ∀ k f len, (file.metadata k f).1 = .ok len →
    settled f ≤ len ∧ len ≤ settled (file.metadata k f).2
  setLen_contents : ∀ len k f, (file.setLen len k f).1 = .ok () →
    contents (file.setLen len k f).2 = (contents f).resize len.toNat ∧ settled (file.setLen len k f).2 = len.toNat
  setLen_error : ∀ len k f e, (file.setLen len k f).1 = .error e →
    contents (file.setLen len k f).2 = contents f ∧ settled f ≤ settled (file.setLen len k f).2

/-! ## The calls -/

/-- The calls of a `FileHandle`. -/
inductive HandleCall
  | len
  | readAt (buffer : Bytes) (offset : UInt64)
  | setLen (len : UInt64)
  | writeAt (data : Bytes) (offset : UInt64)

/-- What a call returns. -/
inductive HandleOut
  | len (len : ℕ)
  | read (bytesRead : ℕ) (buffer : Bytes)
  | done
  | error (message : String)

open Locked (Prog)

namespace TokioFileHandle

section Calls

variable {φ κ : Type} (file : AsyncFile φ κ)

/-- `write_all`: `write` until no byte is left. -/
def writeLoop : ℕ → Bytes → Prog φ κ (Except String Unit)
  | 0, _ => pure (.ok ())
  | fuel + 1, data => if data = [] then pure (.ok ()) else do
    match ← Prog.op (file.write data) with
    | .error e => pure (.error e)
    | .ok 0 => pure (.error "failed to write whole buffer")
    | .ok (written + 1) => writeLoop fuel (data.drop (written + 1))

/-- Every `write` but a last one takes at least one byte. -/
def writeAll (data : Bytes) : Prog φ κ (Except String Unit) := writeLoop file data.length data

def len : Prog φ κ HandleOut := do
  match ← Prog.op file.metadata with
  | .error e => pure (.error e)
  | .ok len => pure (.len len)

def readAt (buffer : Bytes) (offset : UInt64) : Prog φ κ HandleOut := do
  match ← Prog.op (file.seek offset) with
  | .error e => pure (.error e)
  | .ok () =>
    match ← Prog.op (file.read buffer) with
    | .error e => pure (.error e)
    | .ok (bytesRead, buffer) => pure (.read bytesRead buffer)

def setLen (len : UInt64) : Prog φ κ HandleOut := do
  match ← Prog.op (file.setLen len) with
  | .error e => pure (.error e)
  | .ok () => pure .done

def writeAt (data : Bytes) (offset : UInt64) : Prog φ κ HandleOut := do
  match ← Prog.op (file.seek offset) with
  | .error e => pure (.error e)
  | .ok () =>
    match ← writeAll file data with
    | .error e => pure (.error e)
    | .ok () => pure .done

/-- The steps of a call, between `lock` and the drop of the guard. -/
def prog : HandleCall → Prog φ κ HandleOut
  | .len => len file
  | .readAt buffer offset => readAt file buffer offset
  | .setLen len => setLen file len
  | .writeAt data offset => writeAt file data offset

end Calls

end TokioFileHandle

/-! ## A file without a cursor -/

/-- A file as its handle shows it. The length that `len` returns may miss the last write. -/
structure HandleFile where
  file : TableFile
  settled : ℕ

/-- What a call does at once, on a file that has no cursor. A read may return early; a write that fails has written
a part of its data, from the front. `len` returns no less than before, unless the length was set. -/
inductive FileSpec : HandleCall → HandleOut → HandleFile → HandleFile → Prop
  | len (f : HandleFile) {len : ℕ} (hsettled : f.settled ≤ len) (hlen : len ≤ f.file.len) :
      FileSpec .len (.len len) f ⟨f.file, len⟩
  | readAt (buffer : Bytes) (offset : UInt64) (f : HandleFile) (limit : ℕ) {bytesRead : ℕ}
      (hcount : bytesRead = min limit (min buffer.length (f.file.len - offset.toNat))) :
      FileSpec (.readAt buffer offset)
        (.read bytesRead (f.file.bytesAt offset.toNat bytesRead ++ buffer.drop bytesRead)) f ⟨f.file, f.file.len⟩
  | setLen (len : UInt64) (f : HandleFile) :
      FileSpec (.setLen len) .done f ⟨f.file.resize len.toNat, len.toNat⟩
  | writeAt (data : Bytes) (offset : UInt64) (f : HandleFile) :
      FileSpec (.writeAt data offset) .done f ⟨f.file.splice offset.toNat data, f.file.len⟩
  | torn (data : Bytes) (offset : UInt64) (f : HandleFile) {written : Bytes} (hpart : written <+: data)
      (message : String) :
      FileSpec (.writeAt data offset) (.error message) f ⟨f.file.splice offset.toNat written, f.file.len⟩
  | failed (call : HandleCall) (f : HandleFile) (message : String) : FileSpec call (.error message) f f

/-- What a running call has done to the file: nothing, or it has the new length, or a part of the data is written,
from the front. -/
def Within : HandleCall → TableFile → TableFile → Prop
  | .len, file, file' => file' = file
  | .readAt _ _, file, file' => file' = file
  | .setLen len, file, file' => file' = file ∨ file' = file.resize len.toNat
  | .writeAt data offset, file, file' => ∃ written, written <+: data ∧ file' = file.splice offset.toNat written

/-! ## A call that runs alone -/

namespace TableFile

variable (file : TableFile) (offset : ℕ)

theorem splice_nil : file.splice offset [] = file := if_pos rfl

theorem splice_of_ne {data : Bytes} (h : data ≠ []) : file.splice offset data = ⟨max file.len (offset + data.length),
    fun k => if offset ≤ k ∧ k < offset + data.length then data.getD (k - offset) 0
      else if k < file.len then file.bytes k else 0⟩ := if_neg h

theorem len_le_splice (data : Bytes) : file.len ≤ (file.splice offset data).len := by
  unfold splice
  split_ifs
  · exact le_rfl
  · exact le_max_left ..

/-- **Two writes in a row** are one write. -/
theorem splice_append (a b : Bytes) :
    (file.splice offset a).splice (offset + a.length) b = file.splice offset (a ++ b) := by
  by_cases ha : a = []
  · subst ha
    rw [splice_nil]
    rfl
  by_cases hb : b = []
  · subst hb
    rw [splice_nil, List.append_nil]
  have hab : a ++ b ≠ [] := List.append_ne_nil_of_left_ne_nil ha b
  rw [splice_of_ne _ _ hb, splice_of_ne _ _ ha, splice_of_ne _ _ hab, List.length_append]
  have hlen : offset + a.length + b.length = offset + (a.length + b.length) := Nat.add_assoc ..
  congr 1
  · dsimp only
    omega
  · funext k
    dsimp only
    rcases Nat.lt_or_ge k (offset + a.length) with hk | hk
    · have hnot : ¬ (offset + a.length ≤ k ∧ k < offset + a.length + b.length) := by omega
      have hgap : k < max file.len (offset + a.length) := by omega
      rw [if_neg hnot, if_pos hgap]
      by_cases hin : offset ≤ k
      · have hab : offset ≤ k ∧ k < offset + (a.length + b.length) := by omega
        rw [if_pos ⟨hin, hk⟩, if_pos hab, List.getD_append _ _ _ _ (by omega)]
      · have hout : ∀ n, ¬ (offset ≤ k ∧ k < n) := fun n h => hin h.1
        rw [if_neg (hout (offset + a.length)), if_neg (hout (offset + (a.length + b.length)))]
    · have hnot : ¬ (offset ≤ k ∧ k < offset + a.length) := by omega
      rw [if_neg hnot, hlen]
      by_cases hin : k < offset + (a.length + b.length)
      · have hab : offset ≤ k ∧ k < offset + (a.length + b.length) := by omega
        rw [if_pos ⟨hk, hin⟩, if_pos hab, List.getD_append_right _ _ _ _ (by omega)]
        congr 1
        omega
      · have hout : ∀ n, ¬ (n ≤ k ∧ k < offset + (a.length + b.length)) := fun n h => hin h.2
        rw [if_neg (hout (offset + a.length)), if_neg (hout offset)]
        split_ifs <;> first | rfl | omega

end TableFile

namespace TokioFileHandle

open Locked Prog

variable {φ κ : Type} {api : AsyncFile φ κ} {contents : φ → TableFile} {cursor settled : φ → ℕ}

/-- The open file is as the handle shows it. -/
def Shows (contents : φ → TableFile) (settled : φ → ℕ) (f : φ) (s : HandleFile) : Prop :=
  contents f = s.file ∧ s.settled ≤ settled f

/-- What is left of the data is written behind what was written before. -/
theorem writeLoop_wp (h : api.Ordered contents cursor settled) {file : TableFile} {offset least fuel : ℕ} {f : φ}
    (before rest : Bytes) (hfuel : rest.length ≤ fuel) (hcursor : cursor f = offset + before.length)
    (hfile : contents f = file.splice offset before) (hleast : least ≤ settled f) :
    (writeLoop api fuel rest).wp
      (fun f' => ∃ written, written <+: before ++ rest ∧ contents f' = file.splice offset written)
      (fun out f' => least ≤ settled f' ∧ match out with
        | .ok () => contents f' = file.splice offset (before ++ rest)
        | .error _ => ∃ written, written <+: before ++ rest ∧ contents f' = file.splice offset written) f := by
  induction fuel generalizing before rest f with
  | zero =>
    obtain rfl := List.length_eq_zero_iff.mp (Nat.le_zero.mp hfuel)
    rw [List.append_nil]
    exact wp_pure.mpr ⟨⟨before, List.prefix_rfl, hfile⟩, hleast, hfile⟩
  | succ fuel ih =>
    have hpart : ∃ written, written <+: before ++ rest ∧ contents f = file.splice offset written :=
      ⟨before, List.prefix_append .., hfile⟩
    unfold writeLoop
    split_ifs with hempty
    · subst hempty
      rw [List.append_nil] at hpart ⊢
      exact wp_pure.mpr ⟨hpart, hleast, hfile⟩
    refine wp_bind (wp_op.mpr ⟨hpart, fun k => ?_⟩)
    have hcontents := h.write_contents rest k f
    have hmoved := h.write_cursor rest k f
    have herror := h.write_error rest k f
    have hleast' := hleast.trans (h.write_settled rest k f)
    generalize api.write rest k f = result at *
    obtain ⟨e | count, f'⟩ := result
    · rw [← herror e rfl] at hpart
      exact ⟨hpart, wp_pure.mpr ⟨hpart, hleast', hpart⟩⟩
    · obtain ⟨hcount, hfile'⟩ := hcontents count rfl
      have hcursor' := hmoved count rfl
      dsimp only at hfile' hcursor' ⊢
      rw [hfile, hcursor, TableFile.splice_append] at hfile'
      have hpart' : ∃ written, written <+: before ++ rest ∧ contents f' = file.splice offset written :=
        ⟨_, (List.prefix_append_right_inj before).mpr (List.take_prefix ..), hfile'⟩
      refine ⟨hpart', ?_⟩
      cases count with
      | zero => exact wp_pure.mpr ⟨hpart', hleast', hpart'⟩
      | succ n =>
        have hrest := ih (before ++ rest.take (n + 1)) (rest.drop (n + 1)) ?_ ?_ hfile' hleast'
        · rw [List.append_assoc, List.take_append_drop] at hrest
          exact hrest
        · rw [List.length_drop]
          omega
        · rw [hcursor', hcursor, List.length_append, List.length_take, Nat.min_eq_left hcount, Nat.add_assoc]

variable {s : HandleFile} {f : φ}

theorem writeAt_wp (h : api.Ordered contents cursor settled) (data : Bytes) (offset : UInt64)
    (hs : Shows contents settled f s) :
    (writeAt api data offset).wp (fun f' => Within (.writeAt data offset) s.file (contents f'))
      (fun out f' => ∃ s', FileSpec (.writeAt data offset) out s s' ∧ Shows contents settled f' s') f := by
  obtain ⟨hfile, hsettled⟩ := hs
  have hnothing : s.file = s.file.splice offset.toNat [] := (s.file.splice_nil _).symm
  have hpart : ∀ f', contents f' = s.file → Within (.writeAt data offset) s.file (contents f') :=
    fun f' hf' => ⟨[], List.nil_prefix, hf'.trans hnothing⟩
  refine wp_bind (wp_op.mpr ⟨hpart f hfile, fun k => ?_⟩)
  have hsame := h.seek_contents offset k f
  have hmoved := h.seek_cursor offset k f
  have hkept := h.seek_settled offset k f
  have hwaits := h.seek_waits offset k f
  generalize api.seek offset k f = result at *
  obtain ⟨e | _, f'⟩ := result
  · have hfile' := hsame.trans hfile
    exact ⟨hpart f' hfile', wp_pure.mpr ⟨hpart f' hfile', s, .failed _ _ e, hfile', hsettled.trans hkept⟩⟩
  · have hfile' := hsame.trans hfile
    have hleast : s.file.len ≤ settled f' := ((hwaits rfl).trans (congrArg TableFile.len hfile)).ge
    have hloop := writeLoop_wp h [] data le_rfl (hmoved rfl) (hfile'.trans hnothing) hleast
    refine ⟨hpart f' hfile', wp_bind (wp_mono (fun out f₂ hout => ?_) hloop)⟩
    obtain ⟨hleast₂, hout⟩ := hout
    cases out with
    | error message =>
      obtain ⟨written, hprefix, hf⟩ := hout
      exact wp_pure.mpr ⟨⟨written, hprefix, hf⟩, _, .torn data offset s hprefix message, hf, hleast₂⟩
    | ok =>
      exact wp_pure.mpr ⟨⟨data, List.prefix_rfl, hout⟩, _, .writeAt data offset s, hout, hleast₂⟩

theorem readAt_wp (h : api.Ordered contents cursor settled) (buffer : Bytes) (offset : UInt64)
    (hs : Shows contents settled f s) :
    (readAt api buffer offset).wp (fun f' => contents f' = s.file)
      (fun out f' => ∃ s', FileSpec (.readAt buffer offset) out s s' ∧ Shows contents settled f' s') f := by
  obtain ⟨hfile, hsettled⟩ := hs
  refine wp_bind (wp_op.mpr ⟨hfile, fun k => ?_⟩)
  have hsame := h.seek_contents offset k f
  have hmoved := h.seek_cursor offset k f
  have hkept := h.seek_settled offset k f
  have hwaits := h.seek_waits offset k f
  generalize api.seek offset k f = result at *
  obtain ⟨e | _, f₁⟩ := result
  · have hfile₁ := hsame.trans hfile
    exact ⟨hfile₁, wp_pure.mpr ⟨hfile₁, s, .failed _ _ e, hfile₁, hsettled.trans hkept⟩⟩
  · have hfile₁ := hsame.trans hfile
    refine ⟨hfile₁, wp_bind (wp_op.mpr ⟨hfile₁, fun k => ?_⟩)⟩
    have hsame₂ := h.read_contents buffer k f₁
    have hkept₂ := h.read_settled buffer k f₁
    have hbytes := h.read_bytes buffer k f₁
    generalize api.read buffer k f₁ = result at *
    obtain ⟨e | ⟨bytesRead, buffer'⟩, f₂⟩ := result
    · have hfile₂ := hsame₂.trans hfile₁
      have hsettled₂ := (hsettled.trans hkept).trans hkept₂
      exact ⟨hfile₂, wp_pure.mpr ⟨hfile₂, s, .failed _ _ e, hfile₂, hsettled₂⟩⟩
    · have hfile₂ := hsame₂.trans hfile₁
      have hleast : s.file.len ≤ settled f₂ :=
        ((hwaits rfl).trans (congrArg TableFile.len hfile)).ge.trans hkept₂
      obtain ⟨hcount, rfl⟩ := hbytes bytesRead buffer' rfl
      rw [hmoved rfl, hfile₁] at hcount
      refine ⟨hfile₂, wp_pure.mpr ⟨hfile₂, ⟨s.file, s.file.len⟩, ?_, hfile₂, hleast⟩⟩
      rw [hmoved rfl, hfile₁]
      exact .readAt buffer offset s bytesRead (Nat.min_eq_left hcount).symm

theorem len_wp (h : api.Ordered contents cursor settled) (hs : Shows contents settled f s) :
    (len api).wp (fun f' => contents f' = s.file)
      (fun out f' => ∃ s', FileSpec .len out s s' ∧ Shows contents settled f' s') f := by
  obtain ⟨hfile, hsettled⟩ := hs
  refine wp_bind (wp_op.mpr ⟨hfile, fun k => ?_⟩)
  have hsame := h.metadata_contents k f
  have hkept := h.metadata_settled k f
  have hlen := h.metadata_len k f
  have hle := h.settled_le (api.metadata k f).2
  generalize api.metadata k f = result at *
  obtain ⟨e | len, f'⟩ := result
  · have hfile' := hsame.trans hfile
    exact ⟨hfile', wp_pure.mpr ⟨hfile', s, .failed _ _ e, hfile', hsettled.trans hkept⟩⟩
  · have hfile' := hsame.trans hfile
    obtain ⟨hleast, hmost⟩ := hlen len rfl
    have hshort : len ≤ s.file.len := (hmost.trans hle).trans (congrArg TableFile.len hfile').le
    exact ⟨hfile', wp_pure.mpr ⟨hfile', _, .len s (hsettled.trans hleast) hshort, hfile', hmost⟩⟩

theorem setLen_wp (h : api.Ordered contents cursor settled) (len : UInt64) (hs : Shows contents settled f s) :
    (setLen api len).wp (fun f' => Within (.setLen len) s.file (contents f'))
      (fun out f' => ∃ s', FileSpec (.setLen len) out s s' ∧ Shows contents settled f' s') f := by
  obtain ⟨hfile, hsettled⟩ := hs
  refine wp_bind (wp_op.mpr ⟨.inl hfile, fun k => ?_⟩)
  have hnew := h.setLen_contents len k f
  have herror := h.setLen_error len k f
  generalize api.setLen len k f = result at *
  obtain ⟨e | _, f'⟩ := result
  · obtain ⟨hsame, hkept⟩ := herror e rfl
    have hfile' := hsame.trans hfile
    exact ⟨.inl hfile', wp_pure.mpr ⟨.inl hfile', s, .failed _ _ e, hfile', hsettled.trans hkept⟩⟩
  · obtain ⟨hsize, hset⟩ := hnew rfl
    have hfile' := hsize.trans (congrArg (TableFile.resize · len.toNat) hfile)
    exact ⟨.inr hfile', wp_pure.mpr ⟨.inr hfile', _, .setLen len s, hfile', hset.ge⟩⟩

/-- **A call that runs alone** does on the file what the call does at once. -/
theorem implements (h : api.Ordered contents cursor settled) :
    Implements (prog api) FileSpec (Shows contents settled) fun call s f => Within call s.file (contents f) := by
  intro call f s hs
  cases call with
  | len => exact len_wp h hs
  | readAt buffer offset => exact readAt_wp h buffer offset hs
  | setLen len => exact setLen_wp h len hs
  | writeAt data offset => exact writeAt_wp h data offset hs

end TokioFileHandle

/-! ## Pages -/

namespace TableFile

variable (file : TableFile) (page : Buffer pageSize) (offset : ℕ)

/-- There are only zeros past the end. -/
def ZeroPast (file : TableFile) : Prop := ∀ k, file.len ≤ k → file.bytes k = 0

theorem zeroPast_splice {file : TableFile} (h : file.ZeroPast) (offset : ℕ) (data : Bytes) :
    (file.splice offset data).ZeroPast := by
  by_cases hdata : data = []
  · rw [hdata, splice_nil]
    exact h
  intro k hk
  rw [splice_of_ne _ _ hdata] at hk ⊢
  dsimp only at hk ⊢
  rw [if_neg (by omega), if_neg (by omega)]

theorem zeroPast_resize (file : TableFile) (len : ℕ) : (file.resize len).ZeroPast := by
  intro k hk
  have hout : ¬ k < min file.len len := fun hlt => (lt_min_iff.mp hlt).2.not_ge hk
  exact if_neg hout

/-- A page that is spliced in is written as the disk manager writes it. -/
theorem splice_page (h : file.ZeroPast) : file.splice offset (page.read 0 pageSize) = file.writeAt page offset := by
  have hne : page.read 0 pageSize ≠ [] := by
    refine List.ne_nil_of_length_pos ?_
    rw [Buffer.length_read]
    exact Nat.succ_pos _
  rw [splice_of_ne _ _ hne, Buffer.length_read]
  refine congrArg (TableFile.mk (max file.len (offset + pageSize))) (funext fun k => ?_)
  split_ifs with hin hlen
  · rw [List.getD_eq_getElem _ _ (by rw [Buffer.length_read]; omega), Buffer.getElem_read, Nat.zero_add]
  · rfl
  · exact (h k (not_lt.mp hlen)).symm

theorem length_bytesAt (count : ℕ) : (file.bytesAt offset count).length = count := by
  rw [bytesAt, List.length_map, List.length_range]

theorem bytesAt_page {count : ℕ} (h : count ≤ pageSize) : file.bytesAt offset count ++ (page.read 0 pageSize).drop count =
    (page.fillFirst count (file.pageAt offset)).read 0 pageSize := by
  have hbyte : ∀ k < pageSize, (page.fillFirst count (file.pageAt offset)).get k =
      if k < count then file.bytes (offset + k) else page.get k := by
    intro k hk
    rw [Buffer.get_of_lt _ hk, Buffer.get_of_lt _ hk]
    rfl
  refine List.ext_getElem ?_ fun k hk hk' => ?_
  · rw [List.length_append, List.length_drop, length_bytesAt, Buffer.length_read, Buffer.length_read]
    omega
  · rw [Buffer.length_read] at hk'
    rw [Buffer.getElem_read, Nat.zero_add, hbyte k hk']
    by_cases hcount : k < count
    · rw [if_pos hcount, List.getElem_append_left ((length_bytesAt ..).symm ▸ hcount)]
      simp only [bytesAt, List.getElem_map, List.getElem_range]
    · rw [if_neg hcount, List.getElem_append_right ((length_bytesAt ..).symm ▸ not_lt.mp hcount), List.getElem_drop,
        Buffer.getElem_read, length_bytesAt]
      congr 1
      omega

end TableFile

/-- `read_at` into the buffer of a page reads as the disk manager does. -/
theorem spec_readPage {f f' : HandleFile} {page : Buffer pageSize} {offset : UInt64} {bytesRead : ℕ} {bytes : Bytes}
    (h : FileSpec (.readAt (page.read 0 pageSize) offset) (.read bytesRead bytes) f f') :
    ∃ limit, f.file.readAtMost limit page offset.toNat =
        (bytesRead, page.fillFirst bytesRead (f.file.pageAt offset.toNat)) ∧
      bytes = (page.fillFirst bytesRead (f.file.pageAt offset.toNat)).read 0 pageSize ∧ f'.file = f.file := by
  generalize hbuffer : page.read 0 pageSize = buffer at h
  cases h with
  | readAt _ _ _ limit hcount =>
    subst hbuffer
    rw [Buffer.length_read] at hcount
    refine ⟨limit, ?_, TableFile.bytesAt_page _ _ _ ?_, rfl⟩
    · rw [hcount]
      rfl
    · omega

/-- `write_at` of a page writes as the disk manager does. -/
theorem spec_writePage {f f' : HandleFile} {page : Buffer pageSize} {offset : UInt64} (hzero : f.file.ZeroPast)
    (h : FileSpec (.writeAt (page.read 0 pageSize) offset) .done f f') :
    f'.file = f.file.writeAt page offset.toNat := by
  rw [← f.file.splice_page page _ hzero]
  generalize page.read 0 pageSize = data at h ⊢
  cases h
  rfl

theorem zeroPast_serial {f₀ f : HandleFile} {log : Locked.Log HandleCall HandleOut}
    (h : Locked.Serial FileSpec f₀ log f) (h₀ : f₀.file.ZeroPast) : f.file.ZeroPast := by
  induction h with
  | nil => exact h₀
  | snoc _ hs ih =>
    cases hs with
    | len | readAt | failed => exact ih
    | setLen => exact TableFile.zeroPast_resize _ _
    | writeAt | torn => exact TableFile.zeroPast_splice ih _ _

/-! ## The calls of many tasks -/

section Tasks

open Locked

variable {τ φ κ : Type} [DecidableEq τ] {api : AsyncFile φ κ} {contents : φ → TableFile} {cursor settled : φ → ℕ}
  {w : State τ φ κ HandleCall HandleOut} {log : Log HandleCall HandleOut}
  {ok : State τ φ κ HandleCall HandleOut → Log HandleCall HandleOut → τ × Action κ HandleCall → Prop} {f₀ : φ}

/-- The tasks that share a handle. -/
def handleSystem (τ : Type) [DecidableEq τ] (api : AsyncFile φ κ) := system τ (TokioFileHandle.prog api)

/-- What the calls returned is what they return one after the other, on a file that has no cursor, and the file is
what they leave, but for a part of the one that is running. No task waits when no other one can go on. -/
structure AtomicFile (api : AsyncFile φ κ) (contents : φ → TableFile) (s₀ : HandleFile)
    (w : State τ φ κ HandleCall HandleOut) (log : Log HandleCall HandleOut) : Prop where
  serial : ∃ s, Serial FileSpec s₀ log s ∧ (s₀.file.ZeroPast → s.file.ZeroPast) ∧
    (w.holder = none → contents w.shared = s.file) ∧
    ∀ t, w.holder = some t → ∃ call rest, w.tasks t = .running call rest ∧ Within call s.file (contents w.shared)
  sole : ∀ t u call call' rest rest', w.tasks t = .running call rest → w.tasks u = .running call' rest' → t = u
  progress : ∀ t call k, w.tasks t = .waiting call → ∃ u, w.step (TokioFileHandle.prog api) u (.go k) ≠ none

/-- **The calls of a handle are atomic**, whatever the order of the steps, wherever the cursor was left, and
whatever fails, on a file whose operations take effect one after the other. -/
theorem handle_atomic (h : api.Ordered contents cursor settled)
    (hr : (handleSystem τ api).Reached ok (State.init τ κ HandleCall HandleOut f₀) [] w log) :
    AtomicFile api contents ⟨contents f₀, settled f₀⟩ w log := by
  have hshows : TokioFileHandle.Shows contents settled f₀ ⟨contents f₀, settled f₀⟩ := ⟨rfl, le_rfl⟩
  have hi := inv_of_reached (TokioFileHandle.implements h) hshows hr
  constructor
  case serial =>
    obtain ⟨s, hserial, hfree, hheld⟩ := serial_of_reached (TokioFileHandle.implements h) hshows hr
    exact ⟨s, hserial, zeroPast_serial hserial, fun hnone => (hfree hnone).1, hheld⟩
  case sole =>
    intro t u call call' rest rest' ht hu
    exact Option.some.inj ((hi.sole t call rest ht).symm.trans (hi.sole u call' rest' hu))
  case progress => exact fun t call k ht => hi.exists_step k ht

end Tasks

/-! ## A file that holds its last write back -/

/-- How an operation comes out: it fails, or moves at most this many bytes. -/
inductive FileIo
  | fails (message : String)
  | moves (limit : ℕ)

/-- A file that is open, with its cursor, and the write that is held back. -/
structure OpenFile where
  stored : TableFile
  held : ℕ × Bytes
  cursor : ℕ

namespace OpenFile

def contents (f : OpenFile) : TableFile := f.stored.splice f.held.1 f.held.2

/-- The write is not held back any longer. -/
def complete (f : OpenFile) : OpenFile := ⟨f.contents, (0, []), f.cursor⟩

/-- Every operation but `metadata` waits for the write that is held back. -/
def api : AsyncFile OpenFile FileIo where
  seek offset
    | .fails message, f => (.error message, f.complete)
    | .moves _, f => (.ok (), { f.complete with cursor := offset.toNat })
  read buffer
    | .fails message, f => (.error message, f.complete)
    | .moves limit, f =>
      let bytesRead := min limit (min buffer.length (f.contents.len - f.cursor))
      (.ok (bytesRead, f.contents.bytesAt f.cursor bytesRead ++ buffer.drop bytesRead),
        { f.complete with cursor := f.cursor + bytesRead })
  write data
    | .fails message, f => (.error message, f.complete)
    | .moves limit, f =>
      let written := data.take limit
      (.ok written.length, ⟨f.contents, (f.cursor, written), f.cursor + written.length⟩)
  metadata
    | .fails message, f => (.error message, f)
    | .moves 0, f => (.ok f.stored.len, f)
    | .moves _, f => (.ok f.contents.len, f.complete)
  setLen len
    | .fails message, f => (.error message, f.complete)
    | .moves _, f => (.ok (), { f.complete with stored := f.contents.resize len.toNat })

theorem contents_complete (f : OpenFile) : f.complete.contents = f.contents := TableFile.splice_nil _ _

theorem len_le_contents (f : OpenFile) : f.stored.len ≤ f.contents.len := f.stored.len_le_splice _ _

theorem ordered : api.Ordered contents cursor fun f => f.stored.len where
  settled_le := len_le_contents
  seek_contents _ k f := by cases k <;> exact f.contents_complete
  seek_cursor _ k _ hok := by
    cases k with
    | fails => cases hok
    | moves => rfl
  seek_settled _ k f := by cases k <;> exact f.len_le_contents
  seek_waits _ k _ hok := by
    cases k with
    | fails => cases hok
    | moves => rfl
  read_contents _ k f := by cases k <;> exact f.contents_complete
  read_settled _ k f := by cases k <;> exact f.len_le_contents
  read_bytes _ k _ _ _ hok := by
    cases k with
    | fails => cases hok
    | moves limit =>
      cases hok
      exact ⟨Nat.min_le_right .., rfl⟩
  write_contents data k f _ hok := by
    cases k with
    | fails => cases hok
    | moves limit =>
      cases hok
      refine ⟨List.length_take_le' .., ?_⟩
      rw [List.length_take, List.take_eq_take_min.symm]
      rfl
  write_cursor _ k _ _ hok := by
    cases k with
    | fails => cases hok
    | moves =>
      cases hok
      rfl
  write_settled _ k f := by cases k <;> exact f.len_le_contents
  write_error _ k f _ herror := by
    cases k with
    | fails => exact f.contents_complete
    | moves => cases herror
  metadata_contents k f := by
    rcases k with _ | _ | _
    · rfl
    · rfl
    · exact f.contents_complete
  metadata_settled k f := by
    rcases k with _ | _ | _
    · exact le_rfl
    · exact le_rfl
    · exact f.len_le_contents
  metadata_len k f _ hok := by
    rcases k with _ | _ | _
    · cases hok
    · cases hok
      exact ⟨le_rfl, le_rfl⟩
    · cases hok
      exact ⟨f.len_le_contents, le_rfl⟩
  setLen_contents _ k _ hok := by
    cases k with
    | fails => cases hok
    | moves => exact ⟨TableFile.splice_nil _ _, rfl⟩
  setLen_error _ k f _ herror := by
    cases k with
    | fails => exact ⟨f.contents_complete, f.len_le_contents⟩
    | moves => cases herror

end OpenFile

/-- One task writes two bytes, one at a time; another one waits, asks for the length while the second byte is held
back, and then reads both. -/
def writeThenReadSteps : List (Bool × Locked.Action FileIo HandleCall) :=
  [(false, .call (.writeAt [1, 2] 1)), (true, .call .len), (false, .go (.moves 0)), (false, .go (.moves 0)),
    (false, .go (.moves 1)), (false, .go (.moves 9)), (false, .go (.moves 0)), (true, .go (.moves 0)),
    (true, .go (.moves 0)), (true, .go (.moves 0)), (true, .call (.readAt [9, 9, 9, 9] 0)), (true, .go (.moves 0)),
    (true, .go (.moves 0)), (true, .go (.moves 9)), (true, .go (.moves 0))]

theorem handle_atomic_shared : ∃ (w : Locked.State Bool OpenFile FileIo HandleCall HandleOut)
    (log : Locked.Log HandleCall HandleOut), (handleSystem Bool OpenFile.api).Reached (fun _ _ _ => True)
        (Locked.State.init Bool FileIo HandleCall HandleOut ⟨.empty, (0, []), 7⟩) [] w log ∧
      log = [(.writeAt [1, 2] 1, .done), (.len, .len 2), (.readAt [9, 9, 9, 9] 0, .read 3 [0, 1, 2, 9])] ∧
      AtomicFile OpenFile.api OpenFile.contents ⟨.empty, 0⟩ w log := by
  have hrun := Ghost.System.reached_run .init (rfl : (handleSystem Bool OpenFile.api).run (fun _ _ _ => True)
    (Locked.State.init Bool FileIo HandleCall HandleOut ⟨.empty, (0, []), 7⟩, []) writeThenReadSteps = some _)
  exact ⟨_, _, hrun, rfl, handle_atomic OpenFile.ordered hrun⟩

end RarmDb
