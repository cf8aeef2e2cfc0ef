import Mathlib

/-!
# Bytes, hexadecimal and delimited text

`utf8` is the byte form of a string, `leBytes32` the little-endian form of a 32-bit integer
and `hexEncode` the lower-case hexadecimal form of a byte string, which loses nothing
(`hexEncode_injective`).

A text made of fields that are each followed by a delimiter can be read back field by field:
`cut_field` cuts the first one off, and `cancel_field` splits two equal such texts after it, so
the fields are determined by the text (`terminated_injective`).
-/

namespace Text

open List

/-- The UTF-8 bytes of a string. -/
def utf8 (s : String) : List UInt8 :=
  s.toList.flatMap String.utf8EncodeChar

@[simp] theorem utf8_append (s t : String) : utf8 (s ++ t) = utf8 s ++ utf8 t := by
  rw [utf8, String.toList_append, flatMap_append, utf8, utf8]

theorem utf8_injective : Function.Injective utf8 := by
  intro s t h
  have hbytes : s.toList.utf8Encode = t.toList.utf8Encode := congrArg List.toByteArray h
  rw [String.utf8Encode_toList, String.utf8Encode_toList] at hbytes
  exact String.toByteArray_inj.mp hbytes

/-- The text with its ASCII capitals in lower case. -/
def toLowercase (s : String) : String :=
  String.ofList (s.toList.map Char.toLower)

/-- The Unicode `White_Space` characters. -/
def isWhitespace (c : Char) : Bool :=
  let n := c.toNat
  (9 ≤ n && n ≤ 13) || n == 0x20 || n == 0x85 || n == 0xA0 || n == 0x1680 ||
    (0x2000 ≤ n && n ≤ 0x200A) || n == 0x2028 || n == 0x2029 || n == 0x202F || n == 0x205F ||
    n == 0x3000

/-- The text without leading and trailing white space. -/
def trim (s : String) : String :=
  String.ofList (((s.toList.dropWhile isWhitespace).reverse.dropWhile isWhitespace).reverse)

/-- Cut a list at every delimiter. What follows the last one is a field of its own. -/
def cut {α : Type*} [DecidableEq α] (delimiter : α) : List α → List (List α)
  | [] => [[]]
  | c :: cs =>
    if c = delimiter then [] :: cut delimiter cs
    else
      match cut delimiter cs with
      | [] => [[c]]
      | field :: rest => (c :: field) :: rest

/-- The line without a carriage return at its end. -/
def dropCarriageReturn (line : List Char) : List Char :=
  if line.getLast? = some '\r' then line.dropLast else line

/-- The lines of a text, without their line ends. A final line end starts no further line, and a
last line without a line end keeps its carriage return. -/
def lines (s : String) : List String :=
  let fields := cut '\n' s.toList
  let unended := fields.getLast?.toList.filter (· ≠ [])
  (fields.dropLast.map dropCarriageReturn ++ unended).map String.ofList

/-- What follows `start` in a text that starts with it. -/
def afterStart (start s : String) : Option String :=
  if start.toList.isPrefixOf s.toList then some (String.ofList (s.toList.drop start.length))
  else none

/-- What stands before `finish` in a text that ends with it. -/
def beforeEnd (finish s : String) : Option String :=
  if finish.toList.isSuffixOf s.toList then
    some (String.ofList (s.toList.take (s.length - finish.length)))
  else none

/-- Whether `part` occurs in the text. -/
def contains (part s : String) : Bool :=
  s.toList.tails.any fun rest => part.toList.isPrefixOf rest

/-- The four little-endian bytes of a 32-bit two's-complement integer. -/
def leBytes32 (n : Int) : List UInt8 :=
  (List.range 4).map fun i => UInt8.ofNat ((n % 2 ^ 32).toNat / 2 ^ (8 * i))

theorem leBytes32_inj {m n : Int} (hm : 0 ≤ m ∧ m < 2 ^ 16) (hn : 0 ≤ n ∧ n < 2 ^ 16)
    (h : leBytes32 m = leBytes32 n) : m = n := by
  have hbytes (i : Nat) (hi : i < 4) : (m % 2 ^ 32).toNat / 2 ^ (8 * i) % 2 ^ 8 =
      (n % 2 ^ 32).toNat / 2 ^ (8 * i) % 2 ^ 8 := by
    have hbyte := map_inj_left.mp h i (mem_range.mpr hi)
    simpa using congrArg UInt8.toNat hbyte
  have hlow := hbytes 0 (by decide)
  have hhigh := hbytes 1 (by decide)
  omega

/-- The two hexadecimal digits of a byte, high nibble first. -/
def hexByte (b : UInt8) : List Char :=
  [Nat.digitChar (b.toNat / 16), Nat.digitChar (b.toNat % 16)]

/-- Lower-case hexadecimal text of a byte string. -/
def hexEncode (bytes : List UInt8) : String :=
  String.ofList (bytes.flatMap hexByte)

theorem digitChar_injective_of_lt :
    ∀ m < 16, ∀ n < 16, Nat.digitChar m = Nat.digitChar n → m = n := by
  decide

theorem hexByte_injective : Function.Injective hexByte := by
  intro a b h
  simp only [hexByte, List.cons.injEq, and_true] at h
  have ha := a.toNat_lt
  have hb := b.toNat_lt
  have hhigh := digitChar_injective_of_lt _ (by omega) _ (by omega) h.1
  have hlow := digitChar_injective_of_lt _ (by omega) _ (by omega) h.2
  apply UInt8.toNat_inj.mp
  omega

/-- Distinct byte strings have distinct hexadecimal texts. -/
theorem hexEncode_injective : Function.Injective hexEncode := by
  intro xs ys h
  have hchars : xs.flatMap hexByte = ys.flatMap hexByte := by
    simpa [hexEncode] using congrArg String.toList h
  clear h
  induction xs generalizing ys with
  | nil =>
    cases ys with
    | nil => rfl
    | cons y ys => simp [hexByte] at hchars
  | cons x xs ih =>
    cases ys with
    | nil => simp [hexByte] at hchars
    | cons y ys =>
      rw [flatMap_cons, flatMap_cons] at hchars
      obtain ⟨hhead, htail⟩ := List.append_inj hchars rfl
      rw [hexByte_injective hhead, ih htail]

theorem trim_eq_self {s : String} (h : ∀ c ∈ s.toList, isWhitespace c = false) : trim s = s := by
  have hkept (chars : List Char) (hchars : ∀ c ∈ chars, isWhitespace c = false) :
      chars.dropWhile isWhitespace = chars := by
    refine dropWhile_eq_self_iff.mpr fun hlen => ?_
    simp [hchars _ (getElem_mem hlen)]
  rw [trim, hkept _ h, hkept _ fun c hc => h c (mem_reverse.mp hc), reverse_reverse,
    String.ofList_toList]

variable {c : Char}

theorem mem_of_mem_trim {s : String} (h : c ∈ (trim s).toList) : c ∈ s.toList := by
  rw [trim, String.toList_ofList, mem_reverse] at h
  have hback := mem_reverse.mp ((dropWhile_sublist _).subset h)
  exact (dropWhile_sublist _).subset hback

theorem isWhitespace_digitChar : ∀ n < 16, isWhitespace (Nat.digitChar n) = false := by
  decide

theorem exists_digit_of_mem_hexEncode {bytes : List UInt8} (h : c ∈ (hexEncode bytes).toList) :
    ∃ n < 16, c = Nat.digitChar n := by
  rw [hexEncode, String.toList_ofList, mem_flatMap] at h
  obtain ⟨b, -, hdigit⟩ := h
  have hb := b.toNat_lt
  rw [hexByte, mem_pair] at hdigit
  rcases hdigit with hhigh | hlow
  · exact ⟨b.toNat / 16, by omega, hhigh⟩
  · exact ⟨b.toNat % 16, by omega, hlow⟩

theorem trim_hexEncode (bytes : List UInt8) : trim (hexEncode bytes) = hexEncode bytes := by
  refine trim_eq_self fun c hc => ?_
  obtain ⟨n, hn, rfl⟩ := exists_digit_of_mem_hexEncode hc
  exact isWhitespace_digitChar n hn

/-- The digits of lower-case hexadecimal text. -/
def isHexDigit (c : Char) : Bool :=
  c.isDigit || ('a' ≤ c && c ≤ 'f')

theorem isHexDigit_digitChar : ∀ n < 16, isHexDigit (Nat.digitChar n) = true := by
  decide

theorem isHexDigit_of_mem_hexEncode {bytes : List UInt8} (h : c ∈ (hexEncode bytes).toList) :
    isHexDigit c = true := by
  obtain ⟨n, hn, rfl⟩ := exists_digit_of_mem_hexEncode h
  exact isHexDigit_digitChar n hn

theorem length_hexEncode (bytes : List UInt8) :
    (hexEncode bytes).toList.length = 2 * bytes.length := by
  rw [hexEncode, String.toList_ofList, length_flatMap]
  induction bytes with
  | nil => rfl
  | cons b bytes ih =>
    rw [map_cons, sum_cons, ih, length_cons]
    show 2 + 2 * bytes.length = 2 * (bytes.length + 1)
    omega

/-- The value of a hexadecimal digit of either case. -/
def hexDigitValue (c : Char) : Option Nat :=
  if c.isDigit then some (c.toNat - 48)
  else if 'a' ≤ c ∧ c ≤ 'f' then some (c.toNat - 87)
  else if 'A' ≤ c ∧ c ≤ 'F' then some (c.toNat - 55)
  else none

/-- The bytes that pairs of hexadecimal digits stand for. -/
def hexDecodeChars : List Char → Option (List UInt8)
  | [] => some []
  | [_] => none
  | high :: low :: rest => do
      let h ← hexDigitValue high
      let l ← hexDigitValue low
      let bytes ← hexDecodeChars rest
      pure (UInt8.ofNat (16 * h + l) :: bytes)

/-- The bytes of a hexadecimal text. -/
def hexDecode (s : String) : Option (List UInt8) :=
  hexDecodeChars s.toList

theorem hexDigitValue_digitChar : ∀ n < 16, hexDigitValue (Nat.digitChar n) = some n := by
  decide

theorem hexDecode_hexEncode (bytes : List UInt8) : hexDecode (hexEncode bytes) = some bytes := by
  rw [hexDecode, hexEncode, String.toList_ofList]
  induction bytes with
  | nil => rfl
  | cons b bytes ih =>
    have hb := b.toNat_lt
    have hhigh := hexDigitValue_digitChar (b.toNat / 16) (by omega)
    have hlow := hexDigitValue_digitChar (b.toNat % 16) (by omega)
    have hbyte : UInt8.ofNat (16 * (b.toNat / 16) + b.toNat % 16) = b := by
      rw [Nat.div_add_mod, UInt8.ofNat_toNat]
    rw [flatMap_cons, hexByte, cons_append, singleton_append, hexDecodeChars,
      hhigh, hlow, ih]
    show some (UInt8.ofNat (16 * (b.toNat / 16) + b.toNat % 16) :: bytes) = some (b :: bytes)
    rw [hbyte]

/-- The number a text of decimal digits stands for. -/
def parseDecimal (s : String) : Option Nat :=
  if s.toList ≠ [] ∧ s.toList.all Char.isDigit then some (Nat.ofDigitChars 10 s.toList 0) else none

theorem isDigit_of_mem_toString {n : Nat} (h : c ∈ (toString n).toList) :
    c.isDigit = true := by
  rw [Nat.toString_eq_ofList_toDigits, String.toList_ofList] at h
  exact Nat.isDigit_of_mem_toDigits (by decide) (by decide) h

/-- Reading a printed number gives the number back. -/
theorem parseDecimal_toString (n : Nat) : parseDecimal (toString n) = some n := by
  have hne : (toString n).toList ≠ [] := by
    rw [Nat.toString_eq_ofList_toDigits, String.toList_ofList]
    exact Nat.toDigits_ne_nil
  have hdigits : (toString n).toList.all Char.isDigit = true :=
    all_eq_true.mpr fun c hc => isDigit_of_mem_toString hc
  rw [parseDecimal, if_pos ⟨hne, hdigits⟩, Nat.toString_eq_ofList_toDigits,
    String.toList_ofList, Nat.ofDigitChars_ten_toDigits]

/-- A number in decimal, with zeros in front up to the width. -/
def padDecimal (width n : Nat) : List Char :=
  List.leftpad width '0' (Nat.toDigits 10 n)

theorem ofDigitChars_padDecimal (width n : Nat) :
    Nat.ofDigitChars 10 (padDecimal width n) 0 = n := by
  rw [padDecimal, List.leftpad, Nat.ofDigitChars_append, Nat.ofDigitChars_replicate_zero,
    Nat.mul_zero, Nat.ofDigitChars_ten_toDigits]

/-- Padded numbers of one width can be read back. -/
theorem padDecimal_injective (width : Nat) : Function.Injective (padDecimal width) := by
  intro m n h
  rw [← ofDigitChars_padDecimal width m, h, ofDigitChars_padDecimal]

theorem length_padDecimal {width n : Nat} (hwidth : 0 < width) (h : n < 10 ^ width) :
    (padDecimal width n).length = width := by
  have hdigits : (Nat.toDigits 10 n).length ≤ width :=
    (Nat.length_toDigits_le_iff (by omega) hwidth).mpr h
  rw [padDecimal, length_leftpad]
  omega

theorem isDigit_of_mem_padDecimal {width n : Nat} (h : c ∈ padDecimal width n) :
    c.isDigit = true := by
  rw [padDecimal, List.leftpad, mem_append] at h
  rcases h with hzero | hdigit
  · rw [(mem_replicate.mp hzero).2]
    rfl
  · exact Nat.isDigit_of_mem_toDigits (by omega) (by omega) hdigit

/-- A negative integer is printed with a minus sign in front. -/
theorem toString_negSucc_toList (m : Nat) :
    (toString (Int.negSucc m)).toList = '-' :: (toString (m + 1)).toList := by
  show ("-" ++ toString (m + 1)).toList = '-' :: (toString (m + 1)).toList
  rw [String.toList_append]
  rfl

theorem isDigit_or_minus_of_mem_toString {n : Int} (h : c ∈ (toString n).toList) :
    c.isDigit = true ∨ c = '-' := by
  cases n with
  | ofNat m => exact Or.inl (isDigit_of_mem_toString (n := m) h)
  | negSucc m =>
    rw [toString_negSucc_toList, mem_cons] at h
    rcases h with rfl | hdigit
    · exact Or.inr rfl
    · exact Or.inl (isDigit_of_mem_toString hdigit)

theorem toString_ne_nil (n : Int) : (toString n).toList ≠ [] := by
  cases n with
  | ofNat m =>
    show (toString m).toList ≠ []
    rw [Nat.toString_eq_ofList_toDigits, String.toList_ofList]
    exact Nat.toDigits_ne_nil
  | negSucc m =>
    rw [toString_negSucc_toList]
    exact cons_ne_nil _ _

theorem toString_ne_empty (n : Int) : toString n ≠ "" :=
  fun h => toString_ne_nil n (congrArg String.toList h)

theorem blank_not_mem_toString (n : Int) : ' ' ∉ (toString n).toList := fun h =>
  absurd (isDigit_or_minus_of_mem_toString h) (by decide)

/-- Reading a printed integer as a number succeeds unless it is negative. -/
theorem parseDecimal_toString_int (n : Int) :
    parseDecimal (toString n) = if 0 ≤ n then some n.toNat else none := by
  cases n with
  | ofNat m => exact parseDecimal_toString m
  | negSucc m =>
    have hdigits : (toString (Int.negSucc m)).toList.all Char.isDigit = false := by
      rw [toString_negSucc_toList]
      rfl
    rw [parseDecimal, hdigits, if_neg (by simp), if_neg (by omega)]

theorem append_inj {s s' t t' : String} (hlength : s.length = s'.length) (h : s ++ t = s' ++ t') :
    s = s' ∧ t = t' := by
  rw [← String.toList_inj, String.toList_append, String.toList_append] at h
  obtain ⟨hfront, hback⟩ := List.append_inj h hlength
  exact ⟨String.toList_inj.mp hfront, String.toList_inj.mp hback⟩

theorem pieces_eq_of_flatten_eq {α : Type*} {pieces pieces' : List (Option (List α))}
    (hlayout : pieces.map (·.map List.length) = pieces'.map (·.map List.length))
    (h : (pieces.map (·.getD [])).flatten = (pieces'.map (·.getD [])).flatten) :
    pieces = pieces' := by
  induction pieces generalizing pieces' with
  | nil => exact (map_eq_nil_iff.mp hlayout.symm).symm
  | cons piece pieces ih =>
    cases pieces' with
    | nil => cases hlayout
    | cons piece' pieces' =>
      obtain ⟨hpiece, hrest⟩ := List.cons.inj hlayout
      cases piece with
      | none =>
        cases piece' with
        | none => rw [ih hrest h]
        | some text' => cases hpiece
      | some text =>
        cases piece' with
        | none => cases hpiece
        | some text' =>
          obtain ⟨htext, hjoin⟩ := List.append_inj h (Option.some.inj hpiece)
          rw [ih hrest hjoin]
          exact congrArg (some · :: pieces') htext

theorem pieces_eq_of_join_eq {pieces pieces' : List (Option String)}
    (hlayout : pieces.map (·.map String.length) = pieces'.map (·.map String.length))
    (h : String.join (pieces.map (·.getD "")) = String.join (pieces'.map (·.getD ""))) :
    pieces = pieces' := by
  have hjoin (pieces : List (Option String)) : (String.join (pieces.map (·.getD ""))).toList =
      ((pieces.map (·.map String.toList)).map (·.getD [])).flatten := by
    induction pieces with
    | nil => rfl
    | cons piece pieces ih =>
      rw [map_cons, String.join_cons, String.toList_append, ih]
      cases piece <;> rfl
  have hinj : Function.Injective (Option.map String.toList) :=
    Option.map_injective fun _ _ => String.toList_inj.mp
  refine map_injective_iff.mpr hinj (pieces_eq_of_flatten_eq ?_ ?_)
  · simpa [Function.comp_def, String.length_toList] using hlayout
  · rw [← hjoin, ← hjoin, h]

section Delimited

variable {α : Type*} {delimiter : α}

/-- The list is empty or starts with the delimiter. -/
def Delimited (delimiter : α) (rest : List α) : Prop :=
  rest = [] ∨ rest.head? = some delimiter

variable {field : List α}

theorem cancel_field {field' rest rest' : List α} (hfield : delimiter ∉ field)
    (hfield' : delimiter ∉ field') (hrest : Delimited delimiter rest)
    (hrest' : Delimited delimiter rest') (h : field ++ rest = field' ++ rest') :
    field = field' ∧ rest = rest' := by
  induction field generalizing field' with
  | nil =>
    cases field' with
    | nil => exact ⟨rfl, h⟩
    | cons c cs =>
      -- `rest` would start with a character of `field'`, which is not the delimiter.
      rw [nil_append, cons_append] at h
      subst h
      rcases hrest with hnil | hhead
      · cases hnil
      · simp only [head?_cons, Option.some.injEq] at hhead
        simp [hhead] at hfield'
  | cons c cs ih =>
    cases field' with
    | nil =>
      rw [nil_append, cons_append] at h
      subst h
      rcases hrest' with hnil | hhead
      · cases hnil
      · simp only [head?_cons, Option.some.injEq] at hhead
        simp [hhead] at hfield
    | cons c' cs' =>
      simp only [cons_append, List.cons.injEq] at h
      simp only [mem_cons, not_or] at hfield hfield'
      obtain ⟨hcs, hrests⟩ := ih hfield.2 hfield'.2 h.2
      exact ⟨by rw [h.1, hcs], hrests⟩

theorem terminated_injective {fields fields' : List (List α)}
    (hfields : ∀ field ∈ fields, delimiter ∉ field)
    (hfields' : ∀ field ∈ fields', delimiter ∉ field)
    (h : fields.flatMap (· ++ [delimiter]) = fields'.flatMap (· ++ [delimiter])) :
    fields = fields' := by
  induction fields generalizing fields' with
  | nil =>
    cases fields' with
    | nil => rfl
    | cons field' fields' => simp at h
  | cons field fields ih =>
    cases fields' with
    | nil => simp at h
    | cons field' fields' =>
      rw [forall_mem_cons] at hfields hfields'
      simp only [flatMap_cons, append_assoc] at h
      obtain ⟨hfield, hrest⟩ :=
        cancel_field hfields.1 hfields'.1 (Or.inr rfl) (Or.inr rfl) h
      rw [hfield, ih hfields.2 hfields'.2 (append_cancel_left hrest)]

variable [DecidableEq α]

attribute [local simp] cut in
theorem cut_field_end (h : delimiter ∉ field) : cut delimiter field = [field] := by
  induction field with
  | nil => rfl
  | cons c cs ih =>
    rw [mem_cons, not_or] at h
    have hne : c ≠ delimiter := Ne.symm h.1
    simp [ih h.2, hne]

theorem cut_field (h : delimiter ∉ field) (rest : List α) :
    cut delimiter (field ++ delimiter :: rest) = field :: cut delimiter rest := by
  induction field with
  | nil => rw [nil_append, cut, if_pos rfl]
  | cons c cs ih =>
    simp only [mem_cons, not_or] at h
    rw [cons_append, cut, if_neg (fun heq => h.1 heq.symm), ih h.2]

theorem cut_ne_nil (cs : List α) : cut delimiter cs ≠ [] := by
  cases cs with
  | nil => exact cons_ne_nil _ _
  | cons c cs =>
    rw [cut]
    split
    next => exact cons_ne_nil _ _
    next => split <;> exact cons_ne_nil _ _

theorem cut_append (before rest : List α) :
    cut delimiter (before ++ delimiter :: rest) = cut delimiter before ++ cut delimiter rest := by
  induction before with
  | nil =>
    show cut delimiter (delimiter :: rest) = [] :: cut delimiter rest
    rw [cut, if_pos rfl]
  | cons c before ih =>
    rw [cons_append, cut, cut, ih]
    by_cases hc : c = delimiter
    · rw [if_pos hc, if_pos hc, cons_append]
    · rw [if_neg hc, if_neg hc]
      cases hcut : cut delimiter before with
      | nil => exact absurd hcut (cut_ne_nil before)
      | cons field fields => rfl

theorem delimiter_not_mem_of_mem_cut {cs : List α} (h : field ∈ cut delimiter cs) :
    delimiter ∉ field := by
  induction cs generalizing field with
  | nil =>
    rw [cut, mem_singleton] at h
    rw [h]
    exact not_mem_nil
  | cons c cs ih =>
    rw [cut] at h
    split at h
    next =>
      rcases mem_cons.mp h with rfl | h
      · exact not_mem_nil
      · exact ih h
    next hc =>
      split at h
      next hcut =>
        rw [mem_singleton] at h
        simp [h, Ne.symm hc]
      next first rest hcut =>
        rw [hcut] at ih
        rcases mem_cons.mp h with rfl | h
        · rw [mem_cons, not_or]
          exact ⟨Ne.symm hc, ih mem_cons_self⟩
        · exact ih (mem_cons_of_mem _ h)

theorem mem_cut {cs : List α} {c : α} (h : c ∈ cs) :
    c = delimiter ∨ ∃ field ∈ cut delimiter cs, c ∈ field := by
  induction cs with
  | nil => cases h
  | cons d cs ih =>
    rw [cut]
    by_cases hd : d = delimiter
    · rw [if_pos hd]
      rcases mem_cons.mp h with rfl | htail
      · exact Or.inl hd
      · refine (ih htail).imp_right ?_
        rintro ⟨field, hfield, hc⟩
        exact ⟨field, mem_cons_of_mem _ hfield, hc⟩
    · rw [if_neg hd]
      cases hcut : cut delimiter cs with
      | nil => exact absurd hcut (cut_ne_nil cs)
      | cons first rest =>
        rw [hcut] at ih
        rcases mem_cons.mp h with rfl | htail
        · exact Or.inr ⟨c :: first, mem_cons_self, mem_cons_self⟩
        · refine (ih htail).imp_right ?_
          rintro ⟨field, hfield, hc⟩
          rcases mem_cons.mp hfield with rfl | hrest
          · exact ⟨d :: field, mem_cons_self, mem_cons_of_mem _ hc⟩
          · exact ⟨field, mem_cons_of_mem _ hrest, hc⟩

end Delimited

theorem eq_append_of_afterStart {start s rest : String} (h : afterStart start s = some rest) :
    s = start ++ rest := by
  rw [afterStart, Option.ite_none_right_eq_some, isPrefixOf_iff_prefix] at h
  obtain ⟨⟨tail, htail⟩, hrest⟩ := h
  rw [← htail, drop_left' String.length_toList, Option.some.injEq] at hrest
  rw [← String.toList_inj, String.toList_append, ← htail, ← hrest, String.toList_ofList]

theorem eq_append_of_beforeEnd {finish s front : String} (h : beforeEnd finish s = some front) :
    s = front ++ finish := by
  rw [beforeEnd, Option.ite_none_right_eq_some, isSuffixOf_iff_suffix] at h
  obtain ⟨⟨head, hhead⟩, hfront⟩ := h
  have hlength : s.length - finish.length = head.length := by
    rw [← String.length_toList, ← hhead, length_append, String.length_toList,
      Nat.add_sub_cancel]
  rw [hlength, ← hhead, take_left, Option.some.injEq] at hfront
  rw [← String.toList_inj, String.toList_append, ← hhead, ← hfront, String.toList_ofList]

/-- A text that starts with a given one can be read on from there. -/
theorem afterStart_append (start rest : String) :
    afterStart start (start ++ rest) = some rest := by
  have hstart : start.toList.isPrefixOf (start ++ rest).toList = true := by
    rw [String.toList_append, isPrefixOf_iff_prefix]
    exact prefix_append _ _
  rw [afterStart, if_pos hstart, String.toList_append, ← String.length_toList,
    drop_left, String.ofList_toList]

theorem beforeEnd_append (front finish : String) :
    beforeEnd finish (front ++ finish) = some front := by
  have hend : finish.toList.isSuffixOf (front ++ finish).toList = true := by
    rw [String.toList_append, isSuffixOf_iff_suffix]
    exact suffix_append _ _
  rw [beforeEnd, if_pos hend, String.length_append, Nat.add_sub_cancel, String.toList_append,
    ← String.length_toList, take_left, String.ofList_toList]

theorem lines_cons {line : List Char} (h : '\n' ∉ line) (rest : String) :
    lines (String.ofList line ++ "\n" ++ rest) =
      String.ofList (dropCarriageReturn line) :: lines rest := by
  have hchars : (String.ofList line ++ "\n" ++ rest).toList = line ++ '\n' :: rest.toList := by
    simp
  obtain ⟨field, fields, hfields⟩ :=
    exists_cons_of_ne_nil (@cut_ne_nil _ '\n' _ rest.toList)
  unfold lines
  rw [hchars, cut_field h, hfields]
  rfl

theorem contains_eq_false {part s : String} (hc : c ∈ part.toList) (h : c ∉ s.toList) :
    contains part s = false := by
  refine any_eq_false.mpr fun rest hrest hstart => h ?_
  have hprefix := (List.isPrefixOf_iff_prefix.mp hstart).subset hc
  exact ((mem_tails _ _).mp hrest).subset hprefix

theorem afterStart_eq_none {part s : String} (hc : c ∈ part.toList) (h : c ∉ s.toList) :
    afterStart part s = none :=
  if_neg fun hstart => h ((List.isPrefixOf_iff_prefix.mp hstart).subset hc)

/-- The line ends of a text are complete: it is empty, or it ends with a line feed. -/
def Ended (s : String) : Prop :=
  s = "" ∨ ∃ chars, s.toList = chars ++ ['\n']

theorem lines_append_line {s line : String} (hs : Ended s)
    (hline : ∀ c ∈ line.toList, isWhitespace c = false) :
    lines (s ++ (line ++ "\n")) = lines s ++ [line] := by
  have hnewline : '\n' ∉ line.toList := by
    intro hmem
    exact absurd (hline _ hmem) (by decide)
  have hreturn : dropCarriageReturn line.toList = line.toList := by
    unfold dropCarriageReturn
    rw [if_neg]
    intro hlast
    exact absurd (hline _ (mem_of_getLast? hlast)) (by decide)
  have htail : cut '\n' (line.toList ++ ['\n']) = [line.toList, []] := cut_field hnewline []
  rcases hs with rfl | ⟨chars, hchars⟩
  · simp [lines, htail, hreturn, cut]
  · have hbefore : cut '\n' (chars ++ ['\n']) = cut '\n' chars ++ [[]] := cut_append chars []
    have hafter : cut '\n' (chars ++ '\n' :: (line.toList ++ ['\n'])) =
        cut '\n' chars ++ [line.toList] ++ [[]] := by
      rw [cut_append, htail, append_assoc]
      rfl
    have hfull : (s ++ (line ++ "\n")).toList = chars ++ '\n' :: (line.toList ++ ['\n']) := by
      simp [hchars]
    rw [lines, hfull, hafter, lines, hchars, hbefore]
    simp [hreturn]

theorem newline_not_mem_of_mem_lines {s line : String} (h : line ∈ lines s) :
    '\n' ∉ line.toList := by
  rw [lines, mem_map] at h
  obtain ⟨chars, hchars, rfl⟩ := h
  rw [String.toList_ofList]
  rcases mem_append.mp hchars with hended | hunended
  · obtain ⟨field, hfield, rfl⟩ := mem_map.mp hended
    have hcut := delimiter_not_mem_of_mem_cut ((dropLast_sublist _).subset hfield)
    unfold dropCarriageReturn
    split
    · exact fun hmem => hcut ((dropLast_sublist _).subset hmem)
    · exact hcut
  · have hlast := (mem_filter.mp hunended).1
    rw [Option.mem_toList] at hlast
    exact delimiter_not_mem_of_mem_cut (mem_of_getLast? hlast)

end Text
