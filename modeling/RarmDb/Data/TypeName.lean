import Mathlib.Algebra.Group.Nat.Defs
import Mathlib.Logic.Relation
import RarmDb.Data.Schema
import RarmDb.Lib.Text

/-!
# Type names

The texts of column types: `Display` and `FromStr` of `PrimitiveDataType`.

* `PrimitiveDataType.display`, `fromStr`: the printer and the parser;
* `Spells`: the name and the arguments that a text has, whatever its whitespace;
  **`fromStr_of_spells`**, `fromStr_cases`: the parser computes them and never panics;
* `Padded`, `Respelled`: more whitespace, and other case; **`Padded.spells`**;
* **`fromStr_display`**: the parser reads what is printed;
* **`fromStr_ok`**: what holds of every type that the parser returns.
-/

namespace RarmDb

open Text

/-- `SchemaError`, as far as column types need it. -/
inductive SchemaError
  | argumentMismatch (typeName expected : String) (found : ℕ)
  | emptyInput
  | invalidFormat (message : String)
  | invalidNumber (number : String)
  | invalidScale (precision scale : UInt8)
  | unknownType (typeName : String)
  deriving DecidableEq

namespace PrimitiveDataType

/-! ## Printing and parsing -/

/-- `PrimitiveDataType::decimal`, the smart constructor. -/
def checkedDecimal (precision scale : UInt8) : Except SchemaError PrimitiveDataType :=
  if scale > precision then .error (.invalidScale precision scale) else .ok (decimal precision scale)

/-- `fmt`. -/
def display : PrimitiveDataType → String
  | unknown => "UNKNOWN"
  | int => "INT"
  | bigInt => "BIGINT"
  | varchar len => "VARCHAR(" ++ len.toNat.repr ++ ")"
  | boolean => "BOOLEAN"
  | decimal p s => "DECIMAL(" ++ p.toNat.repr ++ ", " ++ s.toNat.repr ++ ")"
  | dateTime => "DATETIME"
  | float => "FLOAT"
  | blob len => "BLOB(" ++ len.toNat.repr ++ ")"

/-- The name and the text between the parentheses. -/
def splitName (input normalized : List Char) :
    Exec (Except SchemaError (List Char × Option (List Char))) :=
  match find '(' normalized with
  | some openIdx =>
    if normalized.getLast? ≠ some ')' then
      return .error (.invalidFormat
        ("Missing closing parenthesis in '" ++ String.ofList input ++ "'"))
    else do
      let name ← slice normalized 0 openIdx
      let closeIdx ← Exec.sub (byteLength normalized) 1
      let args ← slice normalized (openIdx + 1) closeIdx
      return .ok (trim name, some args)
  | none => return .ok (normalized, none)

/-- The arguments, trimmed. -/
def parseArgs (argsStr : List Char) : List (List Char) :=
  if trim argsStr ≠ [] then (argsStr.splitOn ',').map trim else []

/-- A type without arguments. -/
def withoutArgs (typeName : String) (t : PrimitiveDataType) (args : List (List Char)) :
    Except SchemaError PrimitiveDataType :=
  if args ≠ [] then .error (.argumentMismatch typeName "0" args.length) else .ok t

/-- `parse`, with the error of this parser. -/
def parseNumber (bound : ℕ) (arg : List Char) : Except SchemaError ℕ :=
  match parseUnsigned bound arg with
  | some n => .ok n
  | none => .error (.invalidNumber (String.ofList arg))

/-- A type with a length. -/
def withLength (typeName : String) (bound : ℕ) (t : ℕ → PrimitiveDataType) :
    List (List Char) → Except SchemaError PrimitiveDataType
  | [arg] => t <$> parseNumber bound arg
  | args => .error (.argumentMismatch typeName "1" args.length)

/-- A decimal type, by default with 18 digits and scale 0. -/
def withPrecision : List (List Char) → Except SchemaError PrimitiveDataType
  | [] => .ok (decimal 18 0)
  | [p, s] => do
    let p ← parseNumber (2 ^ 8) p
    let s ← parseNumber (2 ^ 8) s
    checkedDecimal (UInt8.ofNat p) (UInt8.ofNat s)
  | args => .error (.argumentMismatch "DECIMAL" "0 or 2" args.length)

/-- The type of the given name, in capital letters. -/
def ofName (typeName : String) (args : List (List Char)) : Except SchemaError PrimitiveDataType :=
  match typeName with
  | "INT" | "INTEGER" => withoutArgs "INT" int args
  | "BIGINT" => withoutArgs "BIGINT" bigInt args
  | "VARCHAR" => withLength "VARCHAR" (2 ^ 16) (fun len => varchar (UInt16.ofNat len)) args
  | "BOOLEAN" | "BOOL" => withoutArgs "BOOLEAN" boolean args
  | "DECIMAL" => withPrecision args
  | "DATETIME" => withoutArgs "DATETIME" dateTime args
  | "FLOAT" | "DOUBLE" => withoutArgs "FLOAT" float args
  | "BLOB" => withLength "BLOB" (2 ^ 32) (fun len => blob (UInt32.ofNat len)) args
  | _ => .error (.unknownType typeName)

/-- `from_str`. -/
def fromStr (input : String) : Exec (Except SchemaError PrimitiveDataType) := do
  let input := trim input.toList
  if input = [] then return .error .emptyInput
  else
    let nameAndArgs ← splitName input (toAsciiUppercase input)
    match nameAndArgs with
    | .error e => return .error e
    | .ok (typeName, none) => return ofName (String.ofList typeName) []
    | .ok (typeName, some argsStr) => return ofName (String.ofList typeName) (parseArgs argsStr)

example : fromStr " varchar( +255 )" = .ret (.ok (varchar 255)) := by decide +kernel

/-! ## What a text spells -/

/-- A text in capital letters has this name and these arguments. -/
inductive Spells (text : List Char) : List Char → List (List Char) → Prop
  | plain {name : List Char} (trimmed : trim text = name) (nonempty : name ≠ [])
      (noParen : '(' ∉ name) : Spells text name []
  | call {front args : List Char} (trimmed : trim text = front ++ '(' :: (args ++ [')']))
      (noParen : '(' ∉ front) : Spells text (trim front) (parseArgs args)

theorem splitName_plain {input text : List Char} (h : '(' ∉ text) :
    splitName input text = .ret (.ok (text, none)) := by
  rw [splitName, find_eq_none h]
  rfl

theorem getLast?_call {front args : List Char} (c : Char) :
    (front ++ '(' :: (args ++ [c])).getLast? = some c := by
  rw [← List.cons_append, ← List.append_assoc, List.getLast?_concat]

theorem splitName_call {input front args : List Char} (h : '(' ∉ front) :
    splitName input (front ++ '(' :: (args ++ [')'])) = .ret (.ok (trim front, some args)) := by
  have hname : slice (front ++ '(' :: (args ++ [')'])) 0 (byteLength front) = .ret front :=
    slice_mid (a := [])
  have hlength : byteLength (front ++ '(' :: (args ++ [')'])) = byteLength (front ++ ['('] ++ args) + 1 := by
    rw [← List.singleton_append, ← List.append_assoc, ← List.append_assoc, byteLength_append]
    rfl
  have hargs : slice (front ++ '(' :: (args ++ [')'])) (byteLength front + 1)
      (byteLength (front ++ ['('] ++ args)) = .ret args := by
    have hmid := slice_mid (a := front ++ ['(']) (m := args) (b := [')'])
    rw [byteLength_append (a := front)] at hmid
    rw [← hmid, List.append_assoc, List.append_assoc]
    rfl
  rw [splitName, find_append h]
  dsimp only
  rw [if_neg (not_not.mpr (getLast?_call ')')), hname, Exec.ret_bind, hlength, Exec.sub_of_le (Nat.le_add_left 1 _),
    Exec.ret_bind, Nat.add_sub_cancel, hargs]
  rfl

theorem splitName_unclosed (input : List Char) {front rest : List Char} (h : '(' ∉ front)
    (hlast : (front ++ '(' :: rest).getLast? ≠ some ')') :
    ∃ e, splitName input (front ++ '(' :: rest) = .ret (.error e) := by
  rw [splitName, find_append h]
  exact ⟨_, if_pos hlast⟩

/-- **The parser looks at the name and the arguments only.** -/
theorem fromStr_of_spells {s : String} {name : List Char} {args : List (List Char)}
    (h : Spells (toAsciiUppercase s.toList) name args) :
    fromStr s = .ret (ofName (String.ofList name) args) := by
  have hne : trim (toAsciiUppercase s.toList) ≠ [] → trim s.toList ≠ [] := by
    rw [trim_toAsciiUppercase]
    rintro hne h
    exact hne (by rw [h]; rfl)
  cases h with
  | plain trimmed nonempty noParen =>
    rw [fromStr, if_neg (hne (trimmed ▸ nonempty)), ← trim_toAsciiUppercase, trimmed,
      splitName_plain noParen]
    rfl
  | call trimmed noParen =>
    rw [fromStr, if_neg (hne (by simp [trimmed])), ← trim_toAsciiUppercase, trimmed,
      splitName_call noParen]
    rfl

/-- The parser never panics: it fails, or the text has a name and arguments. -/
theorem fromStr_cases (s : String) : (∃ e, fromStr s = .ret (.error e)) ∨
    ∃ name args, Spells (toAsciiUppercase s.toList) name args := by
  by_cases hempty : trim s.toList = []
  · exact .inl ⟨_, if_pos hempty⟩
  · by_cases hparen : '(' ∈ trim (toAsciiUppercase s.toList)
    · obtain ⟨front, rest, htrim, hfront⟩ := List.eq_append_cons_of_mem hparen
      by_cases hlast : (front ++ '(' :: rest).getLast? = some ')'
      · right
        obtain ⟨args, rfl⟩ : ∃ args, rest = args ++ [')'] := by
          rcases List.eq_nil_or_concat rest with rfl | ⟨args, c, rfl⟩
          · simp at hlast
          · rw [List.concat_eq_append, getLast?_call] at hlast
            rw [List.concat_eq_append, Option.some.inj hlast]
            exact ⟨args, rfl⟩
        exact ⟨_, _, .call htrim hfront⟩
      · left
        obtain ⟨e, he⟩ := splitName_unclosed (trim s.toList) hfront hlast
        refine ⟨e, ?_⟩
        rw [fromStr, if_neg hempty, ← trim_toAsciiUppercase, htrim, he]
        rfl
    · right
      refine ⟨_, _, .plain rfl ?_ hparen⟩
      rw [trim_toAsciiUppercase]
      simpa [toAsciiUppercase] using hempty

/-! ## Other spellings -/

/-- What stands before an argument in the parentheses. -/
def BeforeArg (pre : List Char) : Prop := pre = [] ∨ ∃ p, pre = p ++ [',']

/-- What stands after an argument in the parentheses. -/
def AfterArg (post : List Char) : Prop := post = [] ∨ ∃ q, post = ',' :: q

/-- What stands after an argument in the text. -/
def AfterArgInText (post : List Char) : Prop :=
  (∃ w, IsSpace w ∧ post = ')' :: w) ∨ ∃ q, post = ',' :: q

/-- More whitespace: at the ends, before the opening parenthesis, or around an argument, inside the
whitespace that is already there. -/
inductive Padded : List Char → List Char → Prop
  | ends {s w v : List Char} (hw : IsSpace w) (hv : IsSpace v) : Padded s (w ++ s ++ v)
  | beforeParen {a b w : List Char} (ha : '(' ∉ a) (hw : IsSpace w) :
      Padded (a ++ '(' :: b) (a ++ w ++ '(' :: b)
  | aroundArg {a pre u w arg x v post : List Char} (ha : '(' ∉ a) (hpre : BeforeArg pre)
      (harg : ',' ∉ arg) (hpost : AfterArgInText post) (hu : IsSpace u) (hw : IsSpace w)
      (hx : IsSpace x) (hv : IsSpace v) :
      Padded (a ++ '(' :: (pre ++ (u ++ arg ++ v) ++ post))
        (a ++ '(' :: (pre ++ (u ++ (w ++ arg ++ x) ++ v) ++ post))

/-- Another spelling: the ASCII case of letters, or more whitespace. -/
inductive Respelled : List Char → List Char → Prop
  | letterCase {s s' : List Char} (h : toAsciiUppercase s = toAsciiUppercase s') : Respelled s s'
  | padded {s s' : List Char} (h : Padded s s') : Respelled s s'

theorem comma_not_mem_space {w : List Char} (hw : IsSpace w) : ',' ∉ w := fun h =>
  absurd (hw _ h) (by decide)

theorem isSpace_toAsciiUppercase {w : List Char} (hw : IsSpace w) : IsSpace (toAsciiUppercase w) := by
  intro c hc
  obtain ⟨d, hd, rfl⟩ := List.mem_map.mp hc
  rw [isWhitespace_toUpper]
  exact hw d hd

theorem Padded.toAsciiUppercase {s s' : List Char} (h : Padded s s') :
    Padded (toAsciiUppercase s) (toAsciiUppercase s') := by
  cases h with
  | ends hw hv =>
    simp only [Text.toAsciiUppercase, List.map_append]
    exact .ends (isSpace_toAsciiUppercase hw) (isSpace_toAsciiUppercase hv)
  | beforeParen ha hw =>
    simp only [Text.toAsciiUppercase, List.map_append, List.map_cons]
    exact .beforeParen (mt (mem_toAsciiUppercase (by decide)).mp ha) (isSpace_toAsciiUppercase hw)
  | aroundArg ha hpre harg hpost hu hw hx hv =>
    simp only [Text.toAsciiUppercase, List.map_append, List.map_cons]
    refine .aroundArg (mt (mem_toAsciiUppercase (by decide)).mp ha) ?_
      (mt (mem_toAsciiUppercase (by decide)).mp harg) ?_ (isSpace_toAsciiUppercase hu)
      (isSpace_toAsciiUppercase hw) (isSpace_toAsciiUppercase hx) (isSpace_toAsciiUppercase hv)
    · rcases hpre with rfl | ⟨p, rfl⟩
      · exact .inl rfl
      · exact .inr ⟨p.map Char.toUpper, by rw [List.map_append]; rfl⟩
    · rcases hpost with ⟨w, hw, rfl⟩ | ⟨q, rfl⟩
      · exact .inl ⟨_, isSpace_toAsciiUppercase hw, rfl⟩
      · exact .inr ⟨_, rfl⟩

/-! ## The arguments -/

theorem splitOn_arg {pre post : List Char} (hpre : BeforeArg pre) (hpost : AfterArg post) :
    ∃ before after, ∀ arg, ',' ∉ arg →
      (pre ++ arg ++ post).splitOn ',' = before ++ arg :: after := by
  have hback : ∃ after, ∀ arg, ',' ∉ arg → (arg ++ post).splitOn ',' = arg :: after := by
    rcases hpost with rfl | ⟨q, rfl⟩
    · refine ⟨[], fun arg harg => ?_⟩
      rw [List.append_nil, List.splitOn_eq_singleton harg]
    · exact ⟨_, fun arg harg => List.splitOn_append_cons_self_of_not_mem harg q⟩
  obtain ⟨after, hafter⟩ := hback
  rcases hpre with rfl | ⟨p, rfl⟩
  · exact ⟨[], after, hafter⟩
  · refine ⟨p.splitOn ',', after, fun arg harg => ?_⟩
    rw [List.append_assoc, List.append_assoc, List.singleton_append, List.splitOn_append_cons_self,
      hafter arg harg]

theorem parseArgs_eq (s : List Char) : parseArgs s =
    if (s.splitOn ',').map trim = [[]] then [] else (s.splitOn ',').map trim := by
  have hblank : (s.splitOn ',').map trim = [[]] ↔ trim s = [] := by
    constructor
    · intro h
      obtain ⟨x, hx, htrim⟩ := List.map_eq_singleton_iff.mp h
      have hs : [','].intercalate (s.splitOn ',') = s := List.intercalate_splitOn ','
      rw [hx] at hs
      rw [← hs]
      simpa using htrim
    · intro h
      have hspace : IsSpace s := by
        rcases isSpace_or_mid s with hs | ⟨a, c, b, rfl, hc⟩
        · exact hs
        · rw [trim_mid hc] at h
          simp at h
      rw [List.splitOn_eq_singleton (comma_not_mem_space hspace), List.map_singleton, h]
  rw [parseArgs]
  by_cases h : trim s = []
  · rw [if_neg (not_not.mpr h), if_pos (hblank.mpr h)]
  · rw [if_pos h, if_neg (mt hblank.mp h)]

theorem parseArgs_congr {pre post x y : List Char} (hpre : BeforeArg pre) (hpost : AfterArg post)
    (hx : ',' ∉ x) (hy : ',' ∉ y) (h : trim x = trim y) :
    parseArgs (pre ++ x ++ post) = parseArgs (pre ++ y ++ post) := by
  obtain ⟨before, after, hsplit⟩ := splitOn_arg hpre hpost
  have hmap : ((pre ++ x ++ post).splitOn ',').map trim =
      ((pre ++ y ++ post).splitOn ',').map trim := by
    rw [hsplit x hx, hsplit y hy, List.map_append, List.map_cons, h, List.map_append, List.map_cons]
  rw [parseArgs_eq, parseArgs_eq, hmap]

/-- At the end of a text, an argument that is closed is followed by the parenthesis or by others. -/
theorem trimEnd_afterArg {post : List Char} (hpost : AfterArgInText post) {front args : List Char}
    (h : front ++ trimEnd post = args ++ [')']) :
    ∃ tail, AfterArg tail ∧ trimEnd post = tail ++ [')'] ∧ args = front ++ tail := by
  rcases hpost with ⟨w, hw, rfl⟩ | ⟨q, rfl⟩
  · have htrim : trimEnd (')' :: w) = [')'] := trimEnd_append_space (s := [')']) hw
    rw [htrim] at h ⊢
    refine ⟨[], .inl rfl, rfl, ?_⟩
    rw [List.append_nil, List.append_cancel_right h]
  · have htrim : trimEnd (',' :: q) = ',' :: trimEnd q := trimEnd_cons (by decide)
    rw [htrim] at h ⊢
    rcases List.eq_nil_or_concat (trimEnd q) with hq | ⟨tail, c, hq⟩
    · rw [hq] at h
      simpa using congrArg List.getLast? h
    · rw [hq, List.concat_eq_append, ← List.cons_append, ← List.append_assoc] at h
      obtain ⟨hargs, hc⟩ := List.append_inj' h rfl
      refine ⟨',' :: tail, .inr ⟨tail, rfl⟩, ?_, hargs.symm⟩
      rw [hq, List.concat_eq_append, hc]
      rfl

theorem spells_paren_iff {a b name : List Char} {args : List (List Char)} (ha : '(' ∉ a) :
    Spells (a ++ '(' :: b) name args ↔
      ∃ inner, trimEnd b = inner ++ [')'] ∧ name = trim a ∧ args = parseArgs inner := by
  have htrim : trim (a ++ '(' :: b) = trimStart a ++ '(' :: trimEnd b := trim_mid (by decide)
  have hstart : '(' ∉ trimStart a := fun h => ha ((List.dropWhile_sublist _).subset h)
  constructor
  · intro hs
    cases hs with
    | plain trimmed nonempty noParen =>
      rw [htrim] at trimmed
      exact absurd (trimmed ▸ List.mem_append_right _ List.mem_cons_self) noParen
    | call trimmed noParen =>
      rw [htrim] at trimmed
      -- Both sides have the same first parenthesis.
      have hfirst := congrArg (List.splitOn '(') trimmed
      rw [List.splitOn_append_cons_self_of_not_mem hstart,
        List.splitOn_append_cons_self_of_not_mem noParen] at hfirst
      obtain ⟨rfl, -⟩ := List.cons.inj hfirst
      exact ⟨_, (List.cons.inj (List.append_cancel_left trimmed)).2, trim_trimStart, rfl⟩
  · rintro ⟨inner, hinner, rfl, rfl⟩
    rw [← trim_trimStart]
    exact .call (by rw [htrim, hinner]) hstart

/-- **Whitespace does not change what a text spells.** -/
theorem Padded.spells {s s' : List Char} (h : Padded s s') {name : List Char}
    {args : List (List Char)} (hs : Spells s name args) : Spells s' name args := by
  cases h with
  | ends hw hv =>
    cases hs with
    | plain trimmed nonempty noParen => exact .plain ((trim_pad hw hv).trans trimmed) nonempty noParen
    | call trimmed noParen => exact .call ((trim_pad hw hv).trans trimmed) noParen
  | beforeParen ha hw =>
    obtain ⟨inner, hinner, rfl, rfl⟩ := (spells_paren_iff ha).mp hs
    refine (spells_paren_iff ?_).mpr ⟨inner, hinner, (trim_append_space hw).symm, rfl⟩
    rw [List.mem_append, not_or]
    exact ⟨ha, fun h => absurd (hw _ h) (by decide)⟩
  | @aroundArg a pre u w arg x v post ha hpre harg hpost hu hw hx hv =>
    obtain ⟨inner, hinner, rfl, rfl⟩ := (spells_paren_iff ha).mp hs
    -- The last character that is no whitespace belongs to what follows the argument.
    have hend : ∀ front, trimEnd (front ++ post) = front ++ trimEnd post := by
      intro front
      rcases hpost with ⟨w, -, rfl⟩ | ⟨q, rfl⟩
      · rw [trimEnd_mid (by decide), trimEnd_cons (by decide)]
      · rw [trimEnd_mid (by decide), trimEnd_cons (by decide)]
    rw [hend] at hinner
    obtain ⟨tail, htail, htrim, rfl⟩ := trimEnd_afterArg hpost hinner
    refine (spells_paren_iff ha).mpr ⟨pre ++ (u ++ (w ++ arg ++ x) ++ v) ++ tail, ?_, rfl, ?_⟩
    · rw [hend, htrim, List.append_assoc _ tail]
    · refine parseArgs_congr hpre htail ?_ ?_ ?_
      · simp [harg, comma_not_mem_space hu, comma_not_mem_space hv]
      · simp [harg, comma_not_mem_space hu, comma_not_mem_space hv, comma_not_mem_space hw,
          comma_not_mem_space hx]
      · rw [trim_pad hu hv, trim_pad hu hv, trim_pad hw hx]

/-- **Another spelling of the name of a type is read as the same type.** -/
theorem Respelled.fromStr_eq {s s' : String} {t : PrimitiveDataType}
    (h : Respelled s.toList s'.toList) (hs : fromStr s = .ret (.ok t)) : fromStr s' = .ret (.ok t) := by
  rcases fromStr_cases s with ⟨e, he⟩ | ⟨name, args, hspells⟩
  · rw [he] at hs
    cases hs
  · rw [← hs, fromStr_of_spells hspells]
    apply fromStr_of_spells
    cases h with
    | letterCase h => exact h ▸ hspells
    | padded h => exact h.toAsciiUppercase.spells hspells

/-! ## Printed types -/

/-- The types that have a name: not `Unknown`, and no scale above the precision. -/
def Named : PrimitiveDataType → Prop
  | unknown => False
  | decimal p s => s ≤ p
  | _ => True

theorem withoutArgs_eq_ok {typeName : String} {t u : PrimitiveDataType} {args : List (List Char)}
    (h : withoutArgs typeName t args = .ok u) : t = u := by
  rw [withoutArgs] at h
  split_ifs at h
  exact Except.ok.inj h

theorem withLength_eq_ok {typeName : String} {bound : ℕ} {t : ℕ → PrimitiveDataType}
    {u : PrimitiveDataType} {args : List (List Char)} (h : withLength typeName bound t args = .ok u) :
    ∃ n, t n = u := by
  unfold withLength at h
  split at h
  · rename_i arg
    cases hn : parseNumber bound arg with
    | error e => rw [hn] at h; cases h
    | ok n =>
      rw [hn] at h
      exact ⟨n, Except.ok.inj h⟩
  · cases h

theorem withPrecision_eq_ok {u : PrimitiveDataType} {args : List (List Char)}
    (h : withPrecision args = .ok u) : ∃ p s, s ≤ p ∧ decimal p s = u := by
  unfold withPrecision at h
  split at h
  · exact ⟨18, 0, by decide, Except.ok.inj h⟩
  · rename_i p s
    cases hp : parseNumber (2 ^ 8) p with
    | error e => rw [hp] at h; cases h
    | ok p =>
      cases hs : parseNumber (2 ^ 8) s with
      | error e => rw [hp, hs] at h; cases h
      | ok s =>
        rw [hp, hs] at h
        change checkedDecimal _ _ = _ at h
        rw [checkedDecimal] at h
        split_ifs at h with hle
        exact ⟨_, _, UInt8.not_lt.mp hle, Except.ok.inj h⟩
  · cases h

theorem named_of_ofName {typeName : String} {args : List (List Char)} {t : PrimitiveDataType}
    (h : ofName typeName args = .ok t) : t.Named := by
  unfold ofName at h
  split at h
  case h_4 | h_11 =>
    obtain ⟨n, rfl⟩ := withLength_eq_ok h
    trivial
  case h_7 =>
    obtain ⟨p, s, hle, rfl⟩ := withPrecision_eq_ok h
    exact hle
  case h_12 => cases h
  all_goals
    obtain rfl := withoutArgs_eq_ok h
    trivial

theorem parseArgs_toDigits (n : ℕ) : parseArgs (Nat.toDigits 10 n) = [Nat.toDigits 10 n] := by
  rw [parseArgs, if_pos (by rw [trim_toDigits]; exact Nat.toDigits_ne_nil),
    List.splitOn_eq_singleton (not_mem_toDigits (by decide)), List.map_singleton, trim_toDigits]

theorem parseArgs_toDigits_pair (m n : ℕ) :
    parseArgs (Nat.toDigits 10 m ++ ',' :: ' ' :: Nat.toDigits 10 n) =
      [Nat.toDigits 10 m, Nat.toDigits 10 n] := by
  have hspace : trim (' ' :: Nat.toDigits 10 n) = Nat.toDigits 10 n := by
    rw [← List.singleton_append, trim_space_append (List.forall_mem_singleton.mpr rfl), trim_toDigits]
  have hcomma : ',' ∉ ' ' :: Nat.toDigits 10 n := by
    rw [List.mem_cons, not_or]
    exact ⟨by decide, not_mem_toDigits (by decide)⟩
  rw [parseArgs, if_pos (by rw [trim_mid (by decide)]; simp),
    List.splitOn_append_cons_self_of_not_mem (not_mem_toDigits (by decide)),
    List.splitOn_eq_singleton hcomma, List.map_cons, List.map_singleton, hspace, trim_toDigits]

theorem parseNumber_toDigits {bound n : ℕ} (h : n < bound) :
    parseNumber bound (Nat.toDigits 10 n) = .ok n := by
  rw [parseNumber, parseUnsigned_toDigits h]

theorem withLength_toDigits {bound n : ℕ} (h : n < bound) (typeName : String)
    (t : ℕ → PrimitiveDataType) : withLength typeName bound t [Nat.toDigits 10 n] = .ok (t n) := by
  rw [withLength, parseNumber_toDigits h]
  rfl

theorem withPrecision_toDigits {p s : UInt8} (h : s ≤ p) :
    withPrecision [Nat.toDigits 10 p.toNat, Nat.toDigits 10 s.toNat] = .ok (decimal p s) := by
  rw [withPrecision, parseNumber_toDigits p.toNat_lt, parseNumber_toDigits s.toNat_lt]
  change checkedDecimal (UInt8.ofNat p.toNat) (UInt8.ofNat s.toNat) = _
  rw [UInt8.ofNat_toNat, UInt8.ofNat_toNat, checkedDecimal, if_neg (UInt8.not_lt.mpr h)]

theorem fromStr_call (name args : String) (hname : name.toList.any isWhitespace = false)
    (hparen : '(' ∉ name.toList) (hupper : toAsciiUppercase name.toList = name.toList)
    (hargs : toAsciiUppercase args.toList = args.toList) :
    fromStr (name ++ "(" ++ args ++ ")") = .ret (ofName name (parseArgs args.toList)) := by
  have hs : toAsciiUppercase (name ++ "(" ++ args ++ ")").toList =
      name.toList ++ '(' :: (args.toList ++ [')']) := by
    simp only [String.toList_append, toAsciiUppercase_append, hupper, hargs, List.append_assoc]
    rfl
  have hspells : Spells (toAsciiUppercase (name ++ "(" ++ args ++ ")").toList) name.toList
      (parseArgs args.toList) := by
    rw [hs, spells_paren_iff hparen]
    have hspace : ∀ c ∈ name.toList, isWhitespace c = false := fun c hc =>
      Bool.eq_false_iff.mpr (List.any_eq_false.mp hname c hc)
    exact ⟨args.toList, trimEnd_mid (b := []) (by decide), (trim_eq_self hspace).symm, rfl⟩
  rw [fromStr_of_spells hspells, String.ofList_toList]

theorem toAsciiUppercase_repr (n : ℕ) : toAsciiUppercase n.repr.toList = n.repr.toList := by
  rw [Nat.toList_repr, toAsciiUppercase_toDigits]

theorem fromStr_call_repr (name : String) (n : ℕ) (hname : name.toList.any isWhitespace = false)
    (hparen : '(' ∉ name.toList) (hupper : toAsciiUppercase name.toList = name.toList) :
    fromStr (name ++ "(" ++ n.repr ++ ")") = .ret (ofName name [Nat.toDigits 10 n]) := by
  rw [fromStr_call name n.repr hname hparen hupper (toAsciiUppercase_repr n), Nat.toList_repr,
    parseArgs_toDigits]

/-- **The parser reads what is printed.** -/
theorem fromStr_display {t : PrimitiveDataType} (h : t.Named) : fromStr t.display = .ret (.ok t) := by
  cases t with
  | unknown => cases h
  | varchar len =>
    refine (fromStr_call_repr "VARCHAR" len.toNat (by decide) (by decide) (by decide)).trans ?_
    refine congrArg Exec.ret ((withLength_toDigits len.toNat_lt "VARCHAR" _).trans ?_)
    rw [UInt16.ofNat_toNat]
  | blob len =>
    refine (fromStr_call_repr "BLOB" len.toNat (by decide) (by decide) (by decide)).trans ?_
    refine congrArg Exec.ret ((withLength_toDigits len.toNat_lt "BLOB" _).trans ?_)
    rw [UInt32.ofNat_toNat]
  | decimal p s =>
    have hargs : (p.toNat.repr ++ ", " ++ s.toNat.repr).toList =
        Nat.toDigits 10 p.toNat ++ ',' :: ' ' :: Nat.toDigits 10 s.toNat := by
      rw [String.toList_append, String.toList_append, Nat.toList_repr, Nat.toList_repr,
        List.append_assoc]
      rfl
    have hupper : toAsciiUppercase (p.toNat.repr ++ ", " ++ s.toNat.repr).toList =
        (p.toNat.repr ++ ", " ++ s.toNat.repr).toList := by
      rw [String.toList_append, String.toList_append, toAsciiUppercase_append,
        toAsciiUppercase_append, toAsciiUppercase_repr, toAsciiUppercase_repr]
      rfl
    have hcall := fromStr_call "DECIMAL" (p.toNat.repr ++ ", " ++ s.toNat.repr)
      (by decide) (by decide) (by decide) hupper
    rw [hargs, parseArgs_toDigits_pair, ← String.append_assoc, ← String.append_assoc] at hcall
    exact hcall.trans (congrArg Exec.ret (withPrecision_toDigits h))
  | _ => decide +kernel

/-- **Type names survive printing and parsing.** The parser never panics. A type that it returns has a
name, is read back from its printed name, and is returned for every other spelling. -/
theorem fromStr_ok (s : String) : (∃ result, fromStr s = .ret result) ∧
    ∀ t, fromStr s = .ret (.ok t) →
      t ≠ unknown ∧ (∀ p s', t = decimal p s' → s' ≤ p) ∧ fromStr t.display = .ret (.ok t) ∧
        ∀ s' : String, Relation.ReflTransGen Respelled s.toList s'.toList →
          fromStr s' = .ret (.ok t) := by
  have hresult : ∃ result, fromStr s = .ret result := by
    rcases fromStr_cases s with ⟨e, he⟩ | ⟨name, args, hspells⟩
    · exact ⟨_, he⟩
    · exact ⟨_, fromStr_of_spells hspells⟩
  refine ⟨hresult, fun t ht => ?_⟩
  have hnamed : t.Named := by
    rcases fromStr_cases s with ⟨e, he⟩ | ⟨name, args, hspells⟩
    · rw [he] at ht
      cases ht
    · rw [fromStr_of_spells hspells] at ht
      exact named_of_ofName (Exec.ret.inj ht)
  refine ⟨?_, ?_, fromStr_display hnamed, ?_⟩
  · rintro rfl
    exact hnamed
  · rintro p s' rfl
    exact hnamed
  · intro s' hs'
    have hall : ∀ l, Relation.ReflTransGen Respelled s.toList l →
        fromStr (String.ofList l) = .ret (.ok t) := by
      intro l hl
      induction hl with
      | refl => rwa [String.ofList_toList]
      | tail _ hstep ih =>
        refine Respelled.fromStr_eq ?_ ih
        rwa [String.toList_ofList, String.toList_ofList]
    have h := hall _ hs'
    rwa [String.ofList_toList] at h

end PrimitiveDataType

end RarmDb
