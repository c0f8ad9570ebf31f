import RarmDb.Page.Model
import RarmDb.Record.Codec

/-!
# Leaf nodes

`LeafNodeView` and `ops::find_key`: a leaf of the B-tree is a slotted page whose records are sorted
by the primary key.

* `findKey`: binary search over the keys of the records;
* `insertRecord`, `updateRecord`;
* `getNextLeafIndex`, `setNextLeafIndex` and the same for the previous leaf;
* `merge`, `splitAndInsert`, `findSplitIndexBySize`.
-/

namespace RarmDb

open RecordSerializer

/-- `LeafNodeView`. -/
structure LeafNodeView where
  pageId : PageId
  pageView : Page

namespace LeafNodeView

variable {D : Type} [RustDecimal D]

/-! ## Searching -/

/-- The loop of `find_key`. When no comparison holds, neither bound moves and the loop never ends. -/
def findKeyLoop (p : Page) (key : Key D) (td : TableDefinition) (low high : ℕ) :
    Exec (Except ℕ ℕ) :=
  if _ : low < high then do
    let mid := low + (high - low) / 2
    let record ← p.getRecord mid
    let midPointData ← Exec.unwrap record
    let result ← deserializePrimaryKey td midPointData
    let midPointKey ← Exec.unwrapResult result
    if key == midPointKey then return .ok mid
    else if key.cmp midPointKey = .gt then findKeyLoop p key td (mid + 1) high
    else if key.cmp midPointKey = .lt then findKeyLoop p key td low mid
    else .diverge
  else return .error low
termination_by high - low

/-- `ops::find_key`: the slot of the key, or the slot at which to insert it. -/
def findKey (p : Page) (key : Key D) (td : TableDefinition) : Exec (Except ℕ ℕ) := do
  let itemCount ← p.getItemCount
  findKeyLoop p key td 0 itemCount

/-! ## Records -/

/-- Run an operation of the page. -/
def onPage {α : Type} (leaf : LeafNodeView) (op : Page → Exec (α × Page)) :
    Exec (α × LeafNodeView) := do
  let (result, pageView) ← op leaf.pageView
  return (result, { leaf with pageView })

/-- `get_item_count`. -/
def getItemCount (leaf : LeafNodeView) : Exec ℕ :=
  leaf.pageView.getPageHeaderU16Value pageHeaderItemCountOffset

/-- `append`. -/
def append (leaf : LeafNodeView) (recordData : Bytes) :
    Exec (Except StorageError ℕ × LeafNodeView) := do
  let itemCount ← leaf.pageView.getPageHeaderU16Value pageHeaderItemCountOffset
  leaf.onPage fun p => p.tryInsertRecord itemCount recordData

/-- `insert_record`. -/
def insertRecord (leaf : LeafNodeView) (record : Record D) (td : TableDefinition) :
    Exec (Except StorageError ℕ × LeafNodeView) := do
  let primaryKey ← record.getPrimaryKey td
  let slotIndex ← findKey leaf.pageView primaryKey td
  match slotIndex with
  | .error insertionSlot => do
    let result ← serialize td.columns record
    let recordBytes ← Exec.unwrapResult result
    leaf.onPage fun p => p.tryInsertRecord (asU16 insertionSlot) recordBytes
  | .ok _ => return (.error .duplicateKey, leaf)

/-- `update_record`. -/
def updateRecord (leaf : LeafNodeView) (record : Record D) (td : TableDefinition) :
    Exec (Except StorageError ℕ × LeafNodeView) := do
  let key ← record.getPrimaryKey td
  let slotResult ← findKey leaf.pageView key td
  match slotResult with
  | .ok slotIndex => do
    let result ← serialize td.columns record
    let recordData ← Exec.unwrapResult result
    leaf.onPage fun p => p.tryUpdateRecord (asU16 slotIndex) recordData
  | .error _ => return (.error .keyNotFound, leaf)

/-! ## Sibling pointers -/

/-- Read a sibling pointer. -/
def getLeafIndex (leaf : LeafNodeView) (offset : ℕ) : Exec (Option UInt32) := do
  let val ← leaf.pageView.getPageHeaderU32Value offset
  if val = invalidPageIndex then return none else return some val

/-- Write a sibling pointer. -/
def setLeafIndex (leaf : LeafNodeView) (offset : ℕ) (pageIndex : Option UInt32) :
    Exec LeafNodeView := do
  let index := pageIndex.getD invalidPageIndex
  let pageView ← leaf.pageView.setPageHeaderU32Value offset index
  return { leaf with pageView }

/-- `get_next_leaf_index`. -/
def getNextLeafIndex (leaf : LeafNodeView) : Exec (Option UInt32) :=
  leaf.getLeafIndex pageHeaderNextSiblingLeafPageIndexOffset

/-- `get_prev_leaf_index`. -/
def getPrevLeafIndex (leaf : LeafNodeView) : Exec (Option UInt32) :=
  leaf.getLeafIndex pageHeaderPrevSiblingLeafPageIndexOffset

/-- `set_next_leaf_index`. -/
def setNextLeafIndex (leaf : LeafNodeView) (pageIndex : Option UInt32) : Exec LeafNodeView :=
  leaf.setLeafIndex pageHeaderNextSiblingLeafPageIndexOffset pageIndex

/-- `set_prev_leaf_index`. -/
def setPrevLeafIndex (leaf : LeafNodeView) (pageIndex : Option UInt32) : Exec LeafNodeView :=
  leaf.setLeafIndex pageHeaderPrevSiblingLeafPageIndexOffset pageIndex

/-- `if let Some(leaf) = leaf { leaf.set_prev_leaf_index(page_index) }`. -/
def setPrevLeafIndexOf (leaf : Option LeafNodeView) (pageIndex : Option UInt32) :
    Exec (Option LeafNodeView) :=
  match leaf with
  | some leaf => some <$> leaf.setPrevLeafIndex pageIndex
  | none => .ret none

/-- `page_view.initialize`. -/
def initializeLeaf (leaf : LeafNodeView) (pageType : PageType) (parent : Option UInt64) :
    Exec LeafNodeView := do
  let pageView ← leaf.pageView.initializePage pageType parent
  return { leaf with pageView }

/-! ## Merging -/

/-- The loop of `merge`, over the slots of the right sibling still to come. -/
def mergeLoop (right : Page) : List ℕ → LeafNodeView → Exec (Except StorageError Unit × LeafNodeView)
  | [], leaf => .ret (.ok (), leaf)
  | index :: indices, leaf => do
    let record ← right.getRecord index
    match record with
    | some recordData => do
      let (result, leaf) ← leaf.append recordData
      match result with
      | .ok _ => mergeLoop right indices leaf
      | .error _ => return (.error .insertRecordFailed, leaf)
    | none => return (.error .invalidSlotIndex, leaf)

/-- `merge`: the result, this leaf, the right sibling and the leaf after it. -/
def merge (leaf rightSibling : LeafNodeView) (rightSiblingNext : Option LeafNodeView) :
    Exec (Except StorageError Unit × LeafNodeView × LeafNodeView × Option LeafNodeView) := do
  let freeSpace ← rightSibling.pageView.getFreeSpace
  let used ← Exec.sub pageSize freeSpace
  let rightSiblingTotalUsed ← Exec.sub used pageHeaderSize
  let freeSpaceContiguous ← leaf.pageView.getFreeSpaceContiguous
  if rightSiblingTotalUsed > freeSpaceContiguous then
    return (.error .insufficientSpaceForMerge, leaf, rightSibling, rightSiblingNext)
  else do
    let rightSiblingItemCount ← rightSibling.getItemCount
    let (result, leaf) ← mergeLoop rightSibling.pageView (List.range rightSiblingItemCount) leaf
    match result with
    | .error e => return (.error e, leaf, rightSibling, rightSiblingNext)
    | .ok () => do
      let next ← rightSibling.getNextLeafIndex
      let leaf ← leaf.setNextLeafIndex next
      let rightSiblingNext ← setPrevLeafIndexOf rightSiblingNext (some leaf.pageId.pageIndex)
      let rightSibling ← rightSibling.initializeLeaf .invalid none
      return (.ok (), leaf, rightSibling, rightSiblingNext)

/-! ## Splitting -/

/-- What `split_and_insert` collects before it rewrites the page. -/
structure SplitState (D : Type) where
  sortedKeys : List (Key D)
  sortedRecords : List Bytes
  sortedKeyIndex : ℕ
  newRecordInserted : Bool
  totalSize : ℕ

/-- Insert a key and its record at the current position. -/
def SplitState.insert (s : SplitState D) (key : Key D) (recordBytes : Bytes) :
    Exec (SplitState D) := do
  let sortedKeys ← Record.vecInsert s.sortedKeys s.sortedKeyIndex key
  let sortedRecords ← Record.vecInsert s.sortedRecords s.sortedKeyIndex recordBytes
  return { s with sortedKeys, sortedRecords }

/-- One turn of the loop that collects the records. -/
def splitStep (td : TableDefinition) (newRecordKey : Key D) (serializedNewRecord recordBytes : Bytes)
    (s : SplitState D) : Exec (SplitState D) := do
  let s := { s with totalSize := s.totalSize + recordBytes.length }
  let result ← deserializePrimaryKey td recordBytes
  let currentKey ← Exec.unwrapResult result
  let s ← (if !s.newRecordInserted && newRecordKey.cmp currentKey = .lt then do
      let s ← s.insert newRecordKey serializedNewRecord
      return { s with
        sortedKeyIndex := s.sortedKeyIndex + 1
        newRecordInserted := true
        totalSize := s.totalSize + serializedNewRecord.length }
    else pure s : Exec (SplitState D))
  let s ← s.insert currentKey recordBytes
  return { s with sortedKeyIndex := s.sortedKeyIndex + 1 }

/-- The loop that collects the records, over the slots still to come. -/
def splitLoop (p : Page) (td : TableDefinition) (newRecordKey : Key D)
    (serializedNewRecord : Bytes) :
    List ℕ → SplitState D → Exec (Except StorageError (SplitState D))
  | [], s => .ret (.ok s)
  | index :: indices, s => do
    let record ← p.getRecord index
    match record with
    | some recordBytes => do
      let s ← splitStep td newRecordKey serializedNewRecord recordBytes s
      splitLoop p td newRecordKey serializedNewRecord indices s
    | none => return .error .invalidSlotIndex

/-- The loop of `find_split_index_by_size`, over the records still to come. -/
def splitIndexLoop (halfOfTotal : ℕ) : List Bytes → ℕ → ℕ → ℕ
  | [], _, index => index
  | record :: records, currentDataSize, index =>
    if currentDataSize + record.length > halfOfTotal then index
    else splitIndexLoop halfOfTotal records (currentDataSize + record.length) (index + 1)

/-- `find_split_index_by_size`. -/
def findSplitIndexBySize (sortedRecords : List Bytes) (totalSize : ℕ) : ℕ :=
  splitIndexLoop (totalSize / 2) sortedRecords 0 0

/-- `for record in records { self.append(record)?; }`. -/
def appendAll : List Bytes → LeafNodeView → Exec (Except StorageError Unit × LeafNodeView)
  | [], leaf => .ret (.ok (), leaf)
  | record :: records, leaf => do
    let (result, leaf) ← leaf.append record
    match result with
    | .ok _ => appendAll records leaf
    | .error e => return (.error e, leaf)

/-- `&v[lo..hi]`. -/
def sliceRecords (records : List Bytes) (lo hi : ℕ) : Exec (List Bytes) :=
  if lo ≤ hi ∧ hi ≤ records.length then .ret ((records.drop lo).take (hi - lo)) else .panic

/-- The end of `split_and_insert`: fill the right sibling and adjust the sibling pointers. -/
def splitFinish (leaf rightSibling : LeafNodeView) (origRightSibling : Option LeafNodeView)
    (sortedRecords : List Bytes) (splitIndex itemCount : ℕ) (origNextPageIndex : Option UInt32)
    (midPointKey : Key D) :
    Exec (Except StorageError (Key D) × LeafNodeView × LeafNodeView × Option LeafNodeView) := do
  let finalCount := itemCount + 1
  let rest ← sliceRecords sortedRecords splitIndex finalCount
  let (result, rightSibling) ← appendAll rest rightSibling
  match result with
  | .error e => return (.error e, leaf, rightSibling, origRightSibling)
  | .ok () => do
    let leaf ← leaf.setNextLeafIndex (some rightSibling.pageId.pageIndex)
    let rightSibling ← rightSibling.setNextLeafIndex origNextPageIndex
    let rightSibling ← rightSibling.setPrevLeafIndex (some leaf.pageId.pageIndex)
    let origRightSibling ← setPrevLeafIndexOf origRightSibling (some rightSibling.pageId.pageIndex)
    return (.ok midPointKey, leaf, rightSibling, origRightSibling)

/-- The part of `split_and_insert` that rewrites the pages. -/
def splitRewrite (leaf rightSibling : LeafNodeView) (origRightSibling : Option LeafNodeView)
    (sortedRecords : List Bytes) (splitIndex itemCount : ℕ) (midPointKey : Key D) :
    Exec (Except StorageError (Key D) × LeafNodeView × LeafNodeView × Option LeafNodeView) := do
  let rawParentIndex ← leaf.pageView.getPageHeaderU64Value pageHeaderParentIndexOffset
  let parentIndex := if rawParentIndex = 0xFFFFFFFFFFFFFFFF then none else some rawParentIndex
  let origNextPageIndex ← leaf.getNextLeafIndex
  let leaf ← leaf.initializeLeaf .leafNode parentIndex
  let (result, leaf) ← appendAll (sortedRecords.take splitIndex) leaf
  match result with
  | .error e => return (.error e, leaf, rightSibling, origRightSibling)
  | .ok () =>
    splitFinish leaf rightSibling origRightSibling sortedRecords splitIndex itemCount
      origNextPageIndex midPointKey

/-- `split_and_insert`: the result, this leaf, the new right sibling and the original one. -/
def splitAndInsert (leaf : LeafNodeView) (record : Record D) (rightSibling : LeafNodeView)
    (origRightSibling : Option LeafNodeView) (td : TableDefinition) :
    Exec (Except StorageError (Key D) × LeafNodeView × LeafNodeView × Option LeafNodeView) := do
  let rightItemCount ← rightSibling.getItemCount
  if rightItemCount ≠ 0 then
    return (.error .newRightSiblingNotEmpty, leaf, rightSibling, origRightSibling)
  else do
    let itemCount ← leaf.getItemCount
    let result ← serialize td.columns record
    let serializedNewRecord ← Exec.unwrapResult result
    let newRecordKey ← record.getPrimaryKey td
    let result ← splitLoop leaf.pageView td newRecordKey serializedNewRecord (List.range itemCount)
      ⟨[], [], 0, false, 0⟩
    match result with
    | .error e => return (.error e, leaf, rightSibling, origRightSibling)
    | .ok s => do
      let s ← (if !s.newRecordInserted then s.insert newRecordKey serializedNewRecord
        else pure s : Exec (SplitState D))
      let splitIndex := findSplitIndexBySize s.sortedRecords s.totalSize
      let midPointKey ← Exec.unwrap s.sortedKeys[splitIndex]?
      splitRewrite leaf rightSibling origRightSibling s.sortedRecords splitIndex itemCount
        midPointKey

end LeafNodeView

end RarmDb
