import RarmDb.Record.RoundTrip
import RarmDb.Record.Typed

/-!
# What the encoder accepts

The columns are written one after the other. The first one whose value the encoder does not store
decides: it is refused with an error, or `serialize` panics.

* `Refuses`: the values that are refused;
* `serialize_of_not_stores`, `stores_of_serialize`, `serialize_error_iff`: the three results of `serialize`;
* `IllTyped`, `Rejects`; **`rejects_iff`**: the ill-typed records that `serialize` rejects.
-/

namespace RarmDb

variable {D : Type} [RustDecimal D]

namespace RecordSerializer

/-! ## Values that are not stored -/

/-- The encoder refuses the value: it is a text or a blob in a column of fixed size, or another value in
another column, and a text or a blob follows in such a column. -/
def Refuses (col : ColumnDefinition) (v : DataValue D)
    (later : List (ColumnDefinition × DataValue D)) : Prop :=
  v.isNull = false ∧
    match col.dataType.getFixedSize with
    | some _ => v.isSized = true
    | none => v.isSized = false ∧ ∃ c ∈ later, c.1.dataType.getFixedSize = none ∧ c.2.isSized = true

theorem Refuses.not_stores {col : ColumnDefinition} {v : DataValue D}
    {later : List (ColumnDefinition × DataValue D)} (h : Refuses col v later) : ¬ Stores col v := by
  obtain ⟨hnull, h⟩ := h
  rintro (hv | hfit)
  · rw [hnull] at hv
    cases hv
  · cases hn : col.dataType.getFixedSize with
    | some n =>
      rw [hn] at h
      rw [(fits_fixed hfit hn).2.1] at h
      cases h
    | none =>
      rw [hn] at h
      rw [fits_variable hfit hn] at h
      cases h.1

theorem copyInto_of_length_ne {bytes src : Bytes} {offset n : ℕ} (h : src.length ≠ n) :
    copyInto bytes offset (offset + n) src = .panic :=
  if_neg fun hcopy => h (hcopy.2.2.trans (Nat.add_sub_cancel_left ..))

theorem writeFixed_of_sized {v : DataValue D} (h : v.isSized = true) (bytes : Bytes) (offset n : ℕ) :
    writeFixed bytes offset n v = .ret (.error .dataTypeMismatch) := by
  cases v <;> first | rfl | cases h

theorem writeFixed_of_length_ne {v : DataValue D} {n : ℕ} (hnull : v.isNull = false)
    (hsized : v.isSized = false) (hbool : ∀ b, v ≠ .boolean b) (h : (fixedBytes v).length ≠ n)
    (bytes : Bytes) (offset : ℕ) : writeFixed bytes offset n v = .panic := by
  cases v with
  | null => cases hnull
  | text val | blob val => cases hsized
  | boolean b => exact absurd rfl (hbool b)
  | _ => exact congrArg (Except.ok <$> ·) (copyInto_of_length_ne h)

omit [RustDecimal D] in
theorem writeVariable_of_not_sized {v : DataValue D} (h : v.isSized = false) (bytes : Bytes)
    (offset k : ℕ) : writeVariable bytes offset k v = .ret (.error .dataTypeMismatch) := by
  cases v <;> first | rfl | cases h

omit [RustDecimal D] in
theorem pushedSizes_eq_nil {c : ColumnDefinition × DataValue D}
    (h : ¬ (c.1.dataType.getFixedSize = none ∧ c.2.isSized = true)) : pushedSizes c = [] := by
  unfold pushedSizes
  split_ifs with hn
  · rfl
  · rw [Option.not_isSome_iff_eq_none] at hn
    exact (parts_of_not_sized (Bool.eq_false_iff.mpr fun hs => h ⟨hn, hs⟩)).2

omit [RustDecimal D] in
theorem pushedSizes_ne_nil {c : ColumnDefinition × DataValue D}
    (hn : c.1.dataType.getFixedSize = none) (hs : c.2.isSized = true) : pushedSizes c ≠ [] := by
  obtain ⟨data, -, hdata, -⟩ := sized_eq hs
  rw [pushedSizes, hn, hdata]
  exact List.cons_ne_nil _ _

/-- **The turn of a value that is not stored**: an error or a panic. -/
theorem writeColumn_of_not_stores {col : ColumnDefinition} {v : DataValue D} (h : ¬ Stores col v)
    (later : List (ColumnDefinition × DataValue D)) (done : List ℕ) {s : WriteState}
    (hs : s.variableLengthColIndex = done.length) (i : ℕ) :
    (Refuses col v later →
      writeColumn (done ++ ((col, v) :: later).flatMap pushedSizes) s i col v =
        .ret (.error .dataTypeMismatch)) ∧
    (¬ Refuses col v later →
      writeColumn (done ++ ((col, v) :: later).flatMap pushedSizes) s i col v = .panic) := by
  obtain ⟨hnull, hfit⟩ := not_or.mp h
  replace hnull := Bool.eq_false_iff.mpr hnull
  unfold writeColumn Refuses
  rw [if_neg (Bool.eq_false_iff.mp hnull), hnull]
  cases hn : col.dataType.getFixedSize with
  | some n =>
    dsimp only
    rw [Fits, hn] at hfit
    obtain ⟨hlen, hbool⟩ := not_or.mp hfit
    by_cases hsized : v.isSized = true
    · rw [writeFixed_of_sized hsized]
      exact ⟨fun _ => rfl, fun hnot => absurd ⟨rfl, hsized⟩ hnot⟩
    · rw [writeFixed_of_length_ne hnull (Bool.eq_false_iff.mpr hsized) (not_exists.mp hbool) hlen]
      exact ⟨fun hrefuse => absurd hrefuse.2 hsized, fun _ => rfl⟩
  | none =>
    dsimp only
    rw [Fits, hn] at hfit
    have hsized : v.isSized = false := Bool.eq_false_iff.mpr hfit
    have hpushed : pushedSizes (col, v) = [] := pushedSizes_eq_nil fun h => hfit h.2
    rw [hs, List.flatMap_cons, hpushed, List.nil_append, List.getElem?_append_right le_rfl,
      Nat.sub_self]
    by_cases hlater : ∃ c ∈ later, c.1.dataType.getFixedSize = none ∧ c.2.isSized = true
    · obtain ⟨c, hc, hcn, hcs⟩ := hlater
      cases hsizes : later.flatMap pushedSizes with
      | nil => exact absurd (List.flatMap_eq_nil_iff.mp hsizes c hc) (pushedSizes_ne_nil hcn hcs)
      | cons size sizes =>
        rw [List.getElem?_cons_zero, Exec.unwrap_some, Exec.ret_bind, writeVariable_of_not_sized hsized]
        exact ⟨fun _ => rfl, fun hnot => absurd ⟨rfl, hsized, c, hc, hcn, hcs⟩ hnot⟩
    · have hnil : later.flatMap pushedSizes = [] :=
        List.flatMap_eq_nil_iff.mpr fun c hc => pushedSizes_eq_nil fun h => hlater ⟨c, hc, h⟩
      rw [hnil]
      exact ⟨fun hrefuse => absurd hrefuse.2.2 hlater, fun _ => rfl⟩

/-! ## The three results -/

/-- **The first value that is not stored decides.** -/
theorem serialize_of_not_stores {columns : List ColumnDefinition} {record : Record D}
    (hlen : record.length = columns.length) {before later : List (ColumnDefinition × DataValue D)}
    {col : ColumnDefinition} {v : DataValue D} (hzip : columns.zip record = before ++ (col, v) :: later)
    (hbefore : ∀ c ∈ before, Stores c.1 c.2) (h : ¬ Stores col v) :
    (Refuses col v later → serialize columns record = .ret (.error .dataTypeMismatch)) ∧
      (¬ Refuses col v later → serialize columns record = .panic) := by
  obtain ⟨f, w, hspace⟩ := foldl_addColumn_space ((col, v) :: later)
  have hrun := serialize_append hlen hzip hbefore hspace
  have hturn := writeColumn_of_not_stores h later ((before.map Prod.snd).flatMap variableSizes)
    (s := stage (markNulls (List.replicate (getNullBitmapSize columns) 0) 0 (before.map Prod.snd))
      (storedPart before) (variablePart (before.map Prod.snd)) f w
      ((before.map Prod.snd).flatMap variableSizes).length) rfl before.length
  unfold serializeLoop at hrun
  refine ⟨fun hrefuse => ?_, fun hnot => ?_⟩
  · rw [hrun, hturn.1 hrefuse]
    rfl
  · rw [hrun, hturn.2 hnot]
    rfl

theorem exists_first_not_stored (cells : List (ColumnDefinition × DataValue D)) :
    (∀ c ∈ cells, Stores c.1 c.2) ∨ ∃ before col v later, cells = before ++ (col, v) :: later ∧
      (∀ c ∈ before, Stores c.1 c.2) ∧ ¬ Stores col v := by
  induction cells with
  | nil => exact .inl fun _ hc => absurd hc List.not_mem_nil
  | cons c cells ih =>
    by_cases hc : Stores c.1 c.2
    · rcases ih with ih | ⟨before, col, v, later, rfl, hbefore, hnot⟩
      · exact .inl (List.forall_mem_cons.mpr ⟨hc, ih⟩)
      · exact .inr ⟨c :: before, col, v, later, rfl, List.forall_mem_cons.mpr ⟨hc, hbefore⟩, hnot⟩
    · exact .inr ⟨[], c.1, c.2, cells, rfl, fun _ hc => absurd hc List.not_mem_nil, hc⟩

/-- **`serialize` ends well** only when every value is stored. -/
theorem stores_of_serialize {columns : List ColumnDefinition} {record : Record D} {bytes : Bytes}
    (hlen : record.length = columns.length) (h : serialize columns record = .ret (.ok bytes)) :
    (∀ c ∈ columns.zip record, Stores c.1 c.2) ∧ bytes = encodeAs columns record := by
  rcases exists_first_not_stored (columns.zip record) with hstores | hfirst
  · rw [serialize_of_stores hlen hstores] at h
    cases h
    exact ⟨hstores, rfl⟩
  · obtain ⟨before, col, v, later, hzip, hbefore, hnot⟩ := hfirst
    obtain ⟨hrefuse, hpanic⟩ := serialize_of_not_stores hlen hzip hbefore hnot
    by_cases hr : Refuses col v later
    · rw [hrefuse hr] at h
      cases h
    · rw [hpanic hr] at h
      cases h

/-- **`serialize` returns an error** when a value is refused after values that are stored. -/
theorem serialize_error_iff {columns : List ColumnDefinition} {record : Record D}
    (hlen : record.length = columns.length) :
    (∃ e, serialize columns record = .ret (.error e)) ↔
      ∃ before col v later, columns.zip record = before ++ (col, v) :: later ∧
        (∀ c ∈ before, Stores c.1 c.2) ∧ Refuses col v later := by
  constructor
  · rintro ⟨e, he⟩
    rcases exists_first_not_stored (columns.zip record) with hstores | hfirst
    · rw [serialize_of_stores hlen hstores] at he
      cases he
    · obtain ⟨before, col, v, later, hzip, hbefore, hnot⟩ := hfirst
      refine ⟨before, col, v, later, hzip, hbefore, ?_⟩
      by_contra hr
      rw [(serialize_of_not_stores hlen hzip hbefore hnot).2 hr] at he
      cases he
  · rintro ⟨before, col, v, later, hzip, hbefore, hr⟩
    exact ⟨_, (serialize_of_not_stores hlen hzip hbefore hr.not_stores).1 hr⟩

end RecordSerializer

open RecordSerializer

/-! ## Ill-typed records -/

/-- Null in a column that is not nullable, or a value of another variant, other than an `Int` in a
`BigInt` column. -/
def IllTyped (columns : List ColumnDefinition) (record : Record D) : Prop :=
  ∃ c ∈ columns.zip record, c.2 = .null ∧ c.1.isNullable = false ∨
    c.2 ≠ .null ∧ ¬ c.2.HasVariant c.1.dataType ∧ ¬ (c.1.dataType = .bigInt ∧ ∃ i, c.2 = .int i)

/-- `serialize` returns an error, and no bytes that do not decode to the record. -/
def Rejects (columns : List ColumnDefinition) (record : Record D) : Prop :=
  (∃ e, serialize columns record = .ret (.error e)) ∧
    ∀ bytes, serialize columns record = .ret (.ok bytes) →
      deserialize columns bytes = .ret (.ok record)

omit [RustDecimal D] in
theorem IllTyped.not_wellTyped {columns : List ColumnDefinition} {record : Record D}
    (h : IllTyped columns record) : ¬ WellTyped columns record := by
  intro hw
  obtain ⟨⟨col, v⟩, hc, h⟩ := h
  have hadmits : col.Admits v := (List.forall₂_iff_zip.mp hw).2 hc
  rcases h with ⟨hnull, hcol⟩ | ⟨hnull, hvariant, -⟩
  · rw [hadmits.nullable (DataValue.isNull_iff.mpr hnull)] at hcol
    cases hcol
  · exact hvariant (hadmits.resolve_left fun h => hnull h.1)

theorem not_deserialize_of_illTyped {columns : List ColumnDefinition} {record : Record D}
    (h : IllTyped columns record) (bytes : Bytes) : deserialize columns bytes ≠ .ret (.ok record) :=
  fun hread => h.not_wellTyped (wellTyped_of_deserialize hread)

/-- **The ill-typed records that `serialize` rejects**: some value is refused, and the columns before it
store theirs. What `serialize` accepts of ill-typed records is never read back. -/
theorem rejects_iff {columns : List ColumnDefinition} {record : Record D}
    (hlen : record.length = columns.length) (h : IllTyped columns record) :
    (Rejects columns record ↔
      ∃ before col v later, columns.zip record = before ++ (col, v) :: later ∧
        (∀ c ∈ before, Stores c.1 c.2) ∧ Refuses col v later) ∧
      ∀ bytes, serialize columns record = .ret (.ok bytes) →
        deserialize columns bytes ≠ .ret (.ok record) := by
  rw [← serialize_error_iff hlen]
  refine ⟨⟨And.left, fun herror => ⟨herror, fun bytes hok => ?_⟩⟩,
    fun bytes _ => not_deserialize_of_illTyped h bytes⟩
  obtain ⟨e, he⟩ := herror
  rw [he] at hok
  cases hok

theorem rejects_iff_text_in_int : Rejects [⟨"id", .int, false⟩] ([.text "7"] : Record Decimal96) :=
  (rejects_iff rfl ⟨_, List.mem_cons_self, .inr ⟨by decide, id, fun ⟨hcol, _⟩ => nomatch hcol⟩⟩).1.mpr
    ⟨[], _, _, [], rfl, fun _ hc => absurd hc List.not_mem_nil, rfl, rfl⟩

/-- Null in a column that is not nullable is written, and not read back; a date in a `BigInt` column
is read back as a number; a `BigInt` in an `Int` column makes `serialize` panic. -/
theorem serialize_accepts_illTyped :
    (IllTyped [⟨"id", .int, false⟩] ([.null] : Record Decimal96) ∧
      serialize [⟨"id", .int, false⟩] ([.null] : Record Decimal96) = .ret (.ok [1]) ∧
      deserialize (D := Decimal96) [⟨"id", .int, false⟩] [1] =
        .ret (.error .nullValueForNonNullColumnFound)) ∧
    (IllTyped [⟨"id", .bigInt, false⟩] ([.dateTime 7] : Record Decimal96) ∧
      ∃ bytes, serialize [⟨"id", .bigInt, false⟩] ([.dateTime 7] : Record Decimal96) =
        .ret (.ok bytes) ∧
      deserialize (D := Decimal96) [⟨"id", .bigInt, false⟩] bytes = .ret (.ok [.bigInt 7])) ∧
    (IllTyped [⟨"id", .int, false⟩] ([.bigInt 7] : Record Decimal96) ∧
      serialize [⟨"id", .int, false⟩] ([.bigInt 7] : Record Decimal96) = .panic) := by
  refine ⟨⟨⟨_, List.mem_cons_self, .inl ⟨rfl, rfl⟩⟩, by decide, by decide⟩,
    ⟨⟨_, List.mem_cons_self, .inr ⟨by decide, id, ?_⟩⟩, [0, 7, 0, 0, 0, 0, 0, 0, 0], by decide,
      by decide⟩, ⟨_, List.mem_cons_self, .inr ⟨by decide, id, ?_⟩⟩, by decide⟩
  · rintro ⟨-, i, hi⟩
    cases hi
  · rintro ⟨hcol, -⟩
    cases hcol

end RarmDb
