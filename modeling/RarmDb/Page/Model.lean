import RarmDb.Lib.Buffer

/-!
# The slotted page

The byte layout of a page (`page.rs`, `slot.rs`, `page_id.rs`) and the operations of
`SlottedPageView`, as functions on the `8192` bytes of the page. Numbers of type `u16` and `usize`
are natural numbers, with the checks and truncations of the source; page indices are `UInt32`.

* header access: `getPageHeaderValue`, `setPageHeaderValue` and their widths;
* `initializePage`, `getFreeSpace`, `getFreeSpaceContiguous`, `getRecord`;
* `tryInsertRecord`, `tryUpdateRecord`, `deleteRecord`, `compact`; `…With`: with any conversion to `u16`.
-/

namespace RarmDb

/-! ## Constants -/

/-- `PAGE_SIZE`. -/
abbrev pageSize : ℕ := 8192

/-- `PAGE_HEADER_SIZE`. -/
abbrev pageHeaderSize : ℕ := 32

/-- `SLOT_SIZE`: the record offset and the record size, two `u16`. -/
abbrev slotSize : ℕ := 4

/-- `PAGE_HEADER_PARENT_INDEX_OFFSET`. -/
abbrev pageHeaderParentIndexOffset : ℕ := 8

/-- `PAGE_HEADER_RIGHTMOST_CHILD_POINTER_OFFSET`. -/
abbrev pageHeaderRightmostChildPointerOffset : ℕ := 12

/-- `PAGE_HEADER_PREV_SIBLING_LEAF_PAGE_INDEX_OFFSET`. -/
abbrev pageHeaderPrevSiblingLeafPageIndexOffset : ℕ := 12

/-- `PAGE_HEADER_NEXT_SIBLING_LEAF_PAGE_INDEX_OFFSET`. -/
abbrev pageHeaderNextSiblingLeafPageIndexOffset : ℕ := 16

/-- `PAGE_HEADER_ITEM_COUNT_OFFSET`. -/
abbrev pageHeaderItemCountOffset : ℕ := 20

/-- `PAGE_HEADER_DATA_HEAP_END_OFFSET_OFFSET`. -/
abbrev pageHeaderDataHeapEndOffsetOffset : ℕ := 22

/-- `PAGE_HEADER_PAGE_TYPE_OFFSET`. -/
abbrev pageHeaderPageTypeOffset : ℕ := 24

/-- `INVALID_PAGE_INDEX`, which is `u32::MAX`. -/
def invalidPageIndex : UInt32 := 0xFFFFFFFF

/-- `PageType`. -/
inductive PageType
  | invalid
  | leafNode
  | internalNode
  | tableHeader
  deriving DecidableEq

/-- `page_type as u8`. -/
def PageType.toU8 : PageType → UInt8
  | invalid => 0
  | leafNode => 1
  | internalNode => 2
  | tableHeader => 3

/-- `PageType::from`. -/
def PageType.ofU8 (value : UInt8) : PageType :=
  if value = 1 then leafNode else if value = 2 then internalNode
  else if value = 3 then tableHeader else invalid

/-- `StorageError`. -/
inductive StorageError
  | duplicateKey
  | keyNotFound
  | insertRecordFailed
  | insufficientSpaceForMerge
  | invalidSlotIndex
  | newRightSiblingNotEmpty
  | pageFull
  deriving DecidableEq

/-- `PageId`. -/
structure PageId where
  tableId : UInt32
  pageIndex : UInt32
  deriving DecidableEq

/-- `n as u16`. -/
def asU16 (n : ℕ) : ℕ := n % 65536

/-- `n as u16` is cut off, and never panics. -/
def castU16 (n : ℕ) : Exec ℕ := .ret (asU16 n)

/-- Addition of two `u16`, which panics on overflow. -/
def addU16 (a b : ℕ) : Exec ℕ := if a + b < 65536 then .ret (a + b) else .panic

/-- The bytes of a page, `[u8; PAGE_SIZE]`. -/
abbrev Page : Type := Buffer 8192

namespace Page

/-! ## Header values -/

/-- Read the `w`-byte header value at `offset`. -/
def getPageHeaderValue (w : ℕ) (p : Page) (offset : ℕ) : Exec ℕ := do
  let pageHeaderOffsetBytes ← p.slice offset (offset + w)
  return ofLeBytes pageHeaderOffsetBytes

/-- Overwrite the `w`-byte header value at `offset`. -/
def setPageHeaderValue (w : ℕ) (p : Page) (offset value : ℕ) : Exec Page :=
  p.copyFromSlice offset (offset + w) (leBytes w value)

/-- `get_page_header_u8_value`. -/
def getPageHeaderU8Value (p : Page) (offset : ℕ) : Exec UInt8 :=
  UInt8.ofNat <$> getPageHeaderValue 1 p offset

/-- `get_page_header_u16_value`. -/
def getPageHeaderU16Value (p : Page) (offset : ℕ) : Exec ℕ := getPageHeaderValue 2 p offset

/-- `get_page_header_u32_value`. -/
def getPageHeaderU32Value (p : Page) (offset : ℕ) : Exec UInt32 :=
  UInt32.ofNat <$> getPageHeaderValue 4 p offset

/-- `get_page_header_u64_value`. -/
def getPageHeaderU64Value (p : Page) (offset : ℕ) : Exec UInt64 :=
  UInt64.ofNat <$> getPageHeaderValue 8 p offset

/-- `set_page_header_u16_value`. -/
def setPageHeaderU16Value (p : Page) (offset value : ℕ) : Exec Page :=
  setPageHeaderValue 2 p offset value

/-- `set_page_header_u32_value`. -/
def setPageHeaderU32Value (p : Page) (offset : ℕ) (value : UInt32) : Exec Page :=
  setPageHeaderValue 4 p offset value.toNat

/-- `set_page_header_u64_value`. -/
def setPageHeaderU64Value (p : Page) (offset : ℕ) (value : UInt64) : Exec Page :=
  setPageHeaderValue 8 p offset value.toNat

/-! ## Slots -/

/-- `get_slot`: the record offset and the record size. -/
def getSlot (p : Page) (index : ℕ) : Exec (ℕ × ℕ) := do
  let slotOffset := pageHeaderSize + index * slotSize
  let recordOffsetBytes ← p.slice slotOffset (slotOffset + 2)
  let recordSizeBytes ← p.slice (slotOffset + 2) (slotOffset + 4)
  return (ofLeBytes recordOffsetBytes, ofLeBytes recordSizeBytes)

/-- `set_slot`. -/
def setSlot (p : Page) (index recordOffset recordSize : ℕ) : Exec Page := do
  let slotOffset := pageHeaderSize + index * slotSize
  let p ← p.copyFromSlice slotOffset (slotOffset + 2) (leBytes 2 recordOffset)
  p.copyFromSlice (slotOffset + 2) (slotOffset + 4) (leBytes 2 recordSize)

/-! ## Reading a page -/

/-- `get_item_count`. -/
def getItemCount (p : Page) : Exec ℕ := do
  let bytes ← p.slice pageHeaderItemCountOffset (pageHeaderItemCountOffset + 2)
  return ofLeBytes bytes

/-- `get_data_start_offset`. -/
def getDataStartOffset (p : Page) : Exec ℕ :=
  getPageHeaderU16Value p pageHeaderDataHeapEndOffsetOffset

/-- `get_page_type`. -/
def getPageType (p : Page) : PageType := PageType.ofU8 (p.get pageHeaderPageTypeOffset)

/-- `get_record`. -/
def getRecord (p : Page) (index : ℕ) : Exec (Option Bytes) := do
  let itemCount ← getItemCount p
  if index ≥ itemCount then return none
  else do
    let (recordOffset, recordSize) ← getSlot p index
    let recordData ← p.slice recordOffset (recordOffset + recordSize)
    return some recordData

/-- `get_free_space_contiguous`. -/
def getFreeSpaceContiguous (p : Page) : Exec ℕ := do
  let itemCount ← getItemCount p
  let slotArraySize := itemCount * slotSize
  let dataHeapOffset ← getPageHeaderU16Value p pageHeaderDataHeapEndOffsetOffset
  let dataHeapSize ← Exec.sub pageSize dataHeapOffset
  let space ← Exec.sub (pageSize - pageHeaderSize) slotArraySize
  Exec.sub space dataHeapSize

/-- `get_free_space`. -/
def getFreeSpace (p : Page) : Exec ℕ := do
  let itemCount ← getItemCount p
  let slotArraySize := itemCount * slotSize
  let dataHeapOffset ← getPageHeaderU16Value p pageHeaderDataHeapEndOffsetOffset
  let dataHeapSize ← Exec.sub pageSize dataHeapOffset
  let space ← Exec.sub (pageSize - pageHeaderSize) slotArraySize
  let freeSpaceContiguous ← Exec.sub space dataHeapSize
  let totalUsedDataSpace ← (List.range itemCount).foldlM
    (fun totalUsedDataSpace i => do
      let slot ← getSlot p i
      return totalUsedDataSpace + slot.2) 0
  let garbage ← Exec.sub dataHeapSize totalUsedDataSpace
  return freeSpaceContiguous + garbage

/-! ## Writing a page -/

section With

-- How a number becomes a `u16`.
variable (conv : ℕ → Exec ℕ)

/-- `initialize`, with any conversion. -/
def initializePageWith (p : Page) (pageType : PageType) (parentPageIndex : Option UInt64) :
    Exec Page := do
  let p ← p.fill 0 pageSize 0
  let p ← p.copyFromSlice pageHeaderPageTypeOffset (pageHeaderPageTypeOffset + 1) [pageType.toU8]
  let p ← setPageHeaderU16Value p pageHeaderItemCountOffset 0
  let parentIndex := parentPageIndex.getD 0xFFFFFFFFFFFFFFFF
  let p ← setPageHeaderU64Value p pageHeaderParentIndexOffset parentIndex
  let p ← setPageHeaderU32Value p pageHeaderRightmostChildPointerOffset invalidPageIndex
  let p ← setPageHeaderU32Value p pageHeaderNextSiblingLeafPageIndexOffset invalidPageIndex
  let p ← setPageHeaderU32Value p pageHeaderPrevSiblingLeafPageIndexOffset invalidPageIndex
  let dataHeapEnd ← conv pageSize
  p.copyFromSlice pageHeaderDataHeapEndOffsetOffset (pageHeaderDataHeapEndOffsetOffset + 2)
    (leBytes 2 dataHeapEnd)

/-- `try_insert_record`, with any conversion. -/
def tryInsertRecordWith (p : Page) (index : ℕ) (recordData : Bytes) :
    Exec (Except StorageError ℕ × Page) := do
  let freeSpace ← getFreeSpaceContiguous p
  if freeSpace < recordData.length + slotSize then return (.error .pageFull, p)
  else do
    let initialItemCount ← getItemCount p
    if index > initialItemCount then return (.error .invalidSlotIndex, p)
    else do
      let recordSize := recordData.length
      let dataHeapOffset ← getPageHeaderU16Value p pageHeaderDataHeapEndOffsetOffset
      let recordSizeU16 ← conv recordSize
      let newDataHeapOffset ← Exec.sub dataHeapOffset recordSizeU16
      let p ← p.copyFromSlice newDataHeapOffset (newDataHeapOffset + recordSize) recordData
      let p ← setPageHeaderU16Value p pageHeaderDataHeapEndOffsetOffset newDataHeapOffset
      let slotInsertionOffset := pageHeaderSize + slotSize * index
      -- Shift the slots after the insertion index one to the right.
      let slotsToShift ← Exec.sub initialItemCount index
      let p ← (if slotsToShift > 0 then
          p.copyWithin slotInsertionOffset (slotInsertionOffset + slotsToShift * slotSize)
            (slotInsertionOffset + slotSize)
        else pure p : Exec Page)
      let p ← p.copyFromSlice slotInsertionOffset (slotInsertionOffset + 2)
        (leBytes 2 newDataHeapOffset)
      let recordSizeU16 ← conv recordSize
      let p ← p.copyFromSlice (slotInsertionOffset + 2) (slotInsertionOffset + 4)
        (leBytes 2 recordSizeU16)
      let itemCount ← addU16 initialItemCount 1
      let p ← setPageHeaderU16Value p pageHeaderItemCountOffset itemCount
      return (.ok index, p)

/-- `try_update_record`, with any conversion. -/
def tryUpdateRecordWith (p : Page) (index : ℕ) (recordData : Bytes) :
    Exec (Except StorageError ℕ × Page) := do
  let itemCount ← getItemCount p
  if index ≥ itemCount then return (.error .invalidSlotIndex, p)
  else do
    let (recordOffset, origRecordSize) ← getSlot p index
    let updatedRecordSize := recordData.length
    if updatedRecordSize ≤ origRecordSize then do
      let p ← p.copyFromSlice recordOffset (recordOffset + updatedRecordSize) recordData
      let p ← (if updatedRecordSize < origRecordSize then do
          let recordOffsetU16 ← conv recordOffset
          let updatedRecordSizeU16 ← conv updatedRecordSize
          setSlot p index recordOffsetU16 updatedRecordSizeU16
        else pure p : Exec Page)
      return (.ok index, p)
    else do
      let freeSpace ← getFreeSpaceContiguous p
      if updatedRecordSize > freeSpace then return (.error .pageFull, p)
      else do
        let dataHeapOffset ← getPageHeaderU16Value p pageHeaderDataHeapEndOffsetOffset
        let updatedRecordSizeU16 ← conv updatedRecordSize
        let newDataHeapOffset ← Exec.sub dataHeapOffset updatedRecordSizeU16
        let p ← p.copyFromSlice newDataHeapOffset (newDataHeapOffset + updatedRecordSize) recordData
        let updatedRecordSizeU16 ← conv updatedRecordSize
        let p ← setSlot p index newDataHeapOffset updatedRecordSizeU16
        let p ← setPageHeaderU16Value p pageHeaderDataHeapEndOffsetOffset newDataHeapOffset
        return (.ok index, p)

/-- One turn of the rewriting loop of `compact`. The state is the page, the current data heap
offset and the current offset in the compacted block. -/
def compactStepWith (compactedDataBlock : Bytes) (s : Page × ℕ × ℕ) (i : ℕ) :
    Exec (Page × ℕ × ℕ) := do
  let (p, currentDataHeapOffset, currentDataBufferOffset) := s
  let (_, recordSize) ← getSlot p i
  let recordData ← sliceOf compactedDataBlock currentDataBufferOffset
    (currentDataBufferOffset + recordSize)
  let currentDataBufferOffset := currentDataBufferOffset + recordSize
  let currentDataHeapOffset ← Exec.sub currentDataHeapOffset recordSize
  let p ← p.copyFromSlice currentDataHeapOffset (currentDataHeapOffset + recordSize) recordData
  let currentDataHeapOffsetU16 ← conv currentDataHeapOffset
  let recordSizeU16 ← conv recordSize
  let p ← setSlot p i currentDataHeapOffsetU16 recordSizeU16
  return (p, currentDataHeapOffset, currentDataBufferOffset)

/-- `compact`, with any conversion. -/
def compactWith (p : Page) : Exec Page := do
  let freeSpace ← getFreeSpace p
  let freeSpaceContiguous ← getFreeSpaceContiguous p
  if freeSpace = freeSpaceContiguous then return p
  else do
    let itemCount ← getItemCount p
    let totalFreeAndDataSpace ← Exec.sub (pageSize - pageHeaderSize) (itemCount * slotSize)
    let _totalDataHeapSize ← Exec.sub totalFreeAndDataSpace freeSpace
    let compactedDataBlock ← (List.range itemCount).foldlM
      (fun block i => do
        let record ← getRecord p i
        let recordData ← Exec.unwrap record
        return block ++ recordData) []
    let (p, currentDataHeapOffset, _) ← (List.range itemCount).foldlM
      (compactStepWith conv compactedDataBlock) (p, pageSize, 0)
    let freeSpaceOffset := pageHeaderSize + itemCount * slotSize
    let p ← p.fill freeSpaceOffset (freeSpaceOffset + freeSpace) 0
    let currentDataHeapOffsetU16 ← conv currentDataHeapOffset
    setPageHeaderU16Value p pageHeaderDataHeapEndOffsetOffset currentDataHeapOffsetU16

end With

/-- `initialize`. -/
def initializePage (p : Page) (pageType : PageType) (parentPageIndex : Option UInt64) : Exec Page :=
  initializePageWith castU16 p pageType parentPageIndex

/-- `try_insert_record`. -/
def tryInsertRecord (p : Page) (index : ℕ) (recordData : Bytes) : Exec (Except StorageError ℕ × Page) :=
  tryInsertRecordWith castU16 p index recordData

/-- `try_update_record`. -/
def tryUpdateRecord (p : Page) (index : ℕ) (recordData : Bytes) : Exec (Except StorageError ℕ × Page) :=
  tryUpdateRecordWith castU16 p index recordData

/-- `delete_record`. -/
def deleteRecord (p : Page) (index : ℕ) : Exec Page := do
  let itemCount ← getItemCount p
  if index ≥ itemCount then return p
  else do
    let slotOffset := pageHeaderSize + index * slotSize
    let numBytesToShift ← Exec.sub (itemCount * slotSize) ((index + 1) * slotSize)
    let p ← (if numBytesToShift > 0 then
        p.copyWithin (slotOffset + slotSize) (slotOffset + slotSize + numBytesToShift) slotOffset
      else pure p : Exec Page)
    let itemCount ← Exec.sub itemCount 1
    setPageHeaderU16Value p pageHeaderItemCountOffset itemCount

/-- A turn of the loop of `compact`. -/
def compactStep (compactedDataBlock : Bytes) (s : Page × ℕ × ℕ) (i : ℕ) : Exec (Page × ℕ × ℕ) :=
  compactStepWith castU16 compactedDataBlock s i

/-- `compact`. -/
def compact (p : Page) : Exec Page := compactWith castU16 p

end Page

end RarmDb
