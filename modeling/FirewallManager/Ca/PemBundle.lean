import FirewallManager.Lib.Text

/-!
# PEM bundles

`split_pem_chain` collects lines up to an end marker, and `pem_to_der` decodes what stands between
the markers of a block. `Written` is a text with given lines, each ended by a line feed or by a
carriage return and a line feed. `pem_round_trip` says that a bundle of certificates is read back
certificate by certificate, with blank lines anywhere around the blocks.
-/

namespace FirewallManager

open List

/-! ## Reading -/

/-- The loop of `split_pem_chain`, with the lines of the current block. -/
def splitPemLines : String → List String → List String
  | _, [] => []
  | current, line :: rest =>
    let current := current ++ line ++ "\n"
    if Text.contains "-----END CERTIFICATE-----" line then current :: splitPemLines "" rest
    else splitPemLines current rest

/-- `split_pem_chain`. -/
def splitPemChain (bundle : String) : List String :=
  splitPemLines "" (Text.lines bundle)

/-- `pem_to_der`, with the decoder of the base64 crate. -/
def pemToDer (decode : String → Except String (List UInt8)) (pem : String) :
    Except String (List UInt8) :=
  decode (Text.trim (String.join
    ((Text.lines pem).filter fun line => (Text.afterStart "-----" line).isNone)))

/-! ## Writing -/

/-- The digits of base64. -/
def base64Digit (n : Nat) : Char :=
  if n < 26 then Char.ofNat (65 + n)
  else if n < 52 then Char.ofNat (71 + n)
  else if n < 62 then Char.ofNat (n - 4)
  else if n = 62 then '+'
  else '/'

/-- Standard base64, with padding. -/
def base64Encode : List UInt8 → List Char
  | [] => []
  | [a] => [base64Digit (a.toNat / 4), base64Digit (a.toNat % 4 * 16), '=', '=']
  | [a, b] =>
    [base64Digit (a.toNat / 4), base64Digit (a.toNat % 4 * 16 + b.toNat / 16),
      base64Digit (b.toNat % 16 * 4), '=']
  | a :: b :: c :: rest =>
    base64Digit (a.toNat / 4) :: base64Digit (a.toNat % 4 * 16 + b.toNat / 16) ::
      base64Digit (b.toNat % 16 * 4 + c.toNat / 64) :: base64Digit (c.toNat % 64) ::
        base64Encode rest

/-- A certificate in a bundle: blank lines, and the base64 text of the certificate in rows. Rows of
sixty-four characters are usual, and nothing depends on it. -/
structure PemEntry where
  blank : Nat
  der : List UInt8
  rows : List String
  rows_join : (String.join rows).toList = base64Encode der

/-- The lines up to the end marker. -/
def PemEntry.lines (entry : PemEntry) : List String :=
  List.replicate entry.blank "" ++ "-----BEGIN CERTIFICATE-----" :: entry.rows

/-- The lines of a bundle with blank lines at its end. -/
def bundleLines : List PemEntry → Nat → List String
  | [], blank => List.replicate blank ""
  | entry :: rest, blank =>
    entry.lines ++ "-----END CERTIFICATE-----" :: bundleLines rest blank

/-- The text has the given lines. The last one may be without a line end. -/
inductive Written : List String → String → Prop
  | nil : Written [] ""
  | last {line : String} (h : line ≠ "") : Written [line] line
  | lf {line text : String} {lines : List String} (h : Written lines text) :
      Written (line :: lines) (line ++ "\n" ++ text)
  | crlf {line text : String} {lines : List String} (h : Written lines text) :
      Written (line :: lines) (line ++ "\r\n" ++ text)

/-- No line end is in the line. -/
def Plain (line : String) : Prop :=
  '\n' ∉ line.toList ∧ '\r' ∉ line.toList

theorem dropCarriageReturn_of_not_mem {line : List Char} (h : '\r' ∉ line) :
    Text.dropCarriageReturn line = line :=
  if_neg fun hlast => h (mem_of_getLast? hlast)

theorem lines_of_written {lines : List String} {text : String} (h : Written lines text)
    (hplain : ∀ line ∈ lines, Plain line) : Text.lines text = lines := by
  induction h with
  | nil => rfl
  | @last line h =>
    have hline := (hplain line mem_cons_self).1
    have hne : line.toList ≠ [] := fun hnil => h (String.toList_inj.mp hnil)
    simp [Text.lines, Text.cut_field_end hline, hne]
  | @lf line text lines h ih =>
    rw [forall_mem_cons] at hplain
    have hcons := Text.lines_cons hplain.1.1 text
    rwa [String.ofList_toList, dropCarriageReturn_of_not_mem hplain.1.2, String.ofList_toList,
      ih hplain.2] at hcons
  | @crlf line text lines h ih =>
    rw [forall_mem_cons] at hplain
    have hline : '\n' ∉ line.toList ++ ['\r'] := by simp [hplain.1.1]
    have htext : line ++ "\r\n" ++ text =
        String.ofList (line.toList ++ ['\r']) ++ "\n" ++ text := by
      simp [← String.toList_inj]
    have hcons := Text.lines_cons hline text
    rw [htext, hcons, ih hplain.2]
    simp [Text.dropCarriageReturn]

/-- The lines with a line feed after each. -/
def unlines (lines : List String) : String :=
  String.join (lines.map (· ++ "\n"))

theorem unlines_cons (line : String) (lines : List String) :
    unlines (line :: lines) = line ++ "\n" ++ unlines lines := by
  rw [unlines, map_cons, String.join_cons]
  rfl

theorem written_unlines (lines : List String) : Written lines (unlines lines) := by
  induction lines with
  | nil => exact .nil
  | cons line lines ih =>
    rw [unlines_cons]
    exact .lf ih

/-! ## The round trip -/

/-- Neither white space nor a dash. -/
def BodyChar (c : Char) : Prop :=
  Text.isWhitespace c = false ∧ c ≠ '-'

theorem base64_bodyChar (der : List UInt8) : ∀ c ∈ base64Encode der, BodyChar c := by
  have hsmall : ∀ n < 64, Text.isWhitespace (base64Digit n) = false ∧ base64Digit n ≠ '-' := by
    decide
  have hdigit (n : Nat) : BodyChar (base64Digit n) := by
    by_cases hn : n < 64
    · exact hsmall n hn
    · have hslash : base64Digit n = '/' := by
        unfold base64Digit
        rw [if_neg, if_neg, if_neg, if_neg] <;> omega
      rw [hslash]
      exact ⟨by decide, by decide⟩
  have hpad : BodyChar '=' := ⟨by decide, by decide⟩
  induction der using base64Encode.induct with
  | case1 => simp [base64Encode]
  | case2 a => simp [base64Encode, hdigit, hpad]
  | case3 a b => simp [base64Encode, hdigit, hpad]
  | case4 a b c rest ih => simpa [base64Encode, hdigit] using ih

/-- A line that is no marker has body characters only. -/
def BodyLine (line : String) : Prop :=
  ∀ c ∈ line.toList, BodyChar c

namespace BodyLine

variable {line : String}

theorem dash_not_mem (h : BodyLine line) : '-' ∉ line.toList := fun hmem => (h _ hmem).2 rfl

theorem plain (h : BodyLine line) : Plain line :=
  ⟨fun hmem => absurd (h _ hmem).1 (by decide), fun hmem => absurd (h _ hmem).1 (by decide)⟩

end BodyLine

namespace PemEntry

variable (entry : PemEntry)

theorem bodyLine_of_mem_rows {row : String} (h : row ∈ entry.rows) : BodyLine row := by
  intro c hc
  refine base64_bodyChar entry.der c ?_
  rw [← entry.rows_join, String.toList_join]
  exact mem_flatMap.mpr ⟨row, h, hc⟩

theorem bodyLine_of_mem_lines {line : String} (h : line ∈ entry.lines) :
    line = "-----BEGIN CERTIFICATE-----" ∨ BodyLine line := by
  rcases mem_append.mp h with hblank | hrest
  · rw [eq_of_mem_replicate hblank]
    exact Or.inr nofun
  · exact (mem_cons.mp hrest).imp_right entry.bodyLine_of_mem_rows

theorem plain_of_mem_lines {line : String} (h : line ∈ entry.lines) : Plain line := by
  rcases entry.bodyLine_of_mem_lines h with rfl | hbody
  · exact ⟨by decide, by decide⟩
  · exact hbody.plain

theorem contains_of_mem_lines {line : String} (h : line ∈ entry.lines) :
    Text.contains "-----END CERTIFICATE-----" line = false := by
  rcases entry.bodyLine_of_mem_lines h with rfl | hbody
  · decide +kernel
  · exact Text.contains_eq_false (by decide) hbody.dash_not_mem

/-- The block that the splitter makes of the certificate. -/
def block : String :=
  unlines (entry.lines ++ ["-----END CERTIFICATE-----"])

theorem pemToDer_block (decode : String → Except String (List UInt8)) :
    pemToDer decode entry.block = decode (String.ofList (base64Encode entry.der)) := by
  have hplain : ∀ line ∈ entry.lines ++ ["-----END CERTIFICATE-----"], Plain line := by
    rw [forall_mem_append, forall_mem_singleton]
    exact ⟨fun line => entry.plain_of_mem_lines, by decide, by decide⟩
  have hrows : entry.rows.filter (fun line => (Text.afterStart "-----" line).isNone) =
      entry.rows := by
    refine filter_eq_self.mpr fun row hrow => ?_
    rw [Text.afterStart_eq_none (c := '-') (by decide)
      (entry.bodyLine_of_mem_rows hrow).dash_not_mem]
    rfl
  have hkept : (entry.lines ++ ["-----END CERTIFICATE-----"]).filter
      (fun line => (Text.afterStart "-----" line).isNone) =
        List.replicate entry.blank "" ++ entry.rows := by
    rw [filter_append, lines, filter_append, filter_replicate_of_pos (by decide),
      filter_cons_of_neg (by decide +kernel), hrows,
      filter_cons_of_neg (by decide +kernel), filter_nil, append_nil]
  have hjoin : String.join (List.replicate entry.blank "" ++ entry.rows) =
      String.ofList (base64Encode entry.der) := by
    rw [← String.toList_inj, String.toList_ofList, ← entry.rows_join, String.toList_join,
      String.toList_join, flatMap_append]
    simp
  rw [pemToDer, block, lines_of_written (written_unlines _) hplain, hkept, hjoin, Text.trim_eq_self]
  intro c hc
  rw [String.toList_ofList] at hc
  exact (base64_bodyChar entry.der c hc).1

end PemEntry

theorem splitPemLines_end {lines rest : List String} {current : String}
    (h : ∀ line ∈ lines, Text.contains "-----END CERTIFICATE-----" line = false) :
    splitPemLines current (lines ++ "-----END CERTIFICATE-----" :: rest) =
      (current ++ unlines (lines ++ ["-----END CERTIFICATE-----"])) :: splitPemLines "" rest := by
  induction lines generalizing current with
  | nil =>
    have hend : Text.contains "-----END CERTIFICATE-----" "-----END CERTIFICATE-----" = true := by
      decide +kernel
    rw [nil_append, nil_append, splitPemLines, if_pos hend, unlines_cons]
    simp [unlines, String.append_assoc]
  | cons line lines ih =>
    rw [forall_mem_cons] at h
    rw [cons_append, splitPemLines, h.1, if_neg Bool.false_ne_true, ih h.2, cons_append,
      unlines_cons]
    simp only [String.append_assoc]

theorem splitPemLines_blank (blank : Nat) (current : String) :
    splitPemLines current (List.replicate blank "") = [] := by
  induction blank generalizing current with
  | zero => rfl
  | succ blank ih => exact ih _

theorem splitPemLines_bundle (bundle : List PemEntry) (blank : Nat) :
    splitPemLines "" (bundleLines bundle blank) = bundle.map PemEntry.block := by
  induction bundle with
  | nil => exact splitPemLines_blank blank ""
  | cons entry bundle ih =>
    rw [bundleLines, splitPemLines_end fun line => entry.contains_of_mem_lines, ih]
    simp [PemEntry.block]

theorem plain_of_mem_bundleLines {bundle : List PemEntry} {blank : Nat} :
    ∀ line ∈ bundleLines bundle blank, Plain line := by
  induction bundle with
  | nil =>
    intro line hline
    rw [eq_of_mem_replicate hline]
    exact ⟨by decide, by decide⟩
  | cons entry bundle ih =>
    rw [bundleLines, forall_mem_append, forall_mem_cons]
    exact ⟨fun line => entry.plain_of_mem_lines, ⟨by decide, by decide⟩, ih⟩

/-- **The round trip of a bundle.** -/
theorem pem_round_trip (decode : String → Except String (List UInt8)) (bundle : List PemEntry)
    (blank : Nat) {text : String}
    (hdecode : ∀ entry ∈ bundle, decode (String.ofList (base64Encode entry.der)) = .ok entry.der)
    (htext : Written (bundleLines bundle blank) text) :
    (splitPemChain text).map (pemToDer decode) = bundle.map (.ok ·.der) := by
  rw [splitPemChain, lines_of_written htext plain_of_mem_bundleLines, splitPemLines_bundle,
    map_map]
  refine map_congr_left fun entry hentry => ?_
  rw [Function.comp_apply, entry.pemToDer_block, hdecode entry hentry]

/-- The number that a base64 digit stands for. -/
def base64Value (c : Char) : Option Nat :=
  (List.range 64).find? fun n => base64Digit n == c

/-- The bytes of a base64 text with padding. -/
def base64Bytes : List Char → Option (List UInt8)
  | [] => some []
  | [a, b, '=', '='] => do
    let a ← base64Value a
    let b ← base64Value b
    some [UInt8.ofNat (4 * a + b / 16)]
  | [a, b, c, '='] => do
    let a ← base64Value a
    let b ← base64Value b
    let c ← base64Value c
    some [UInt8.ofNat (4 * a + b / 16), UInt8.ofNat (b % 16 * 16 + c / 4)]
  | a :: b :: c :: d :: rest => do
    let a ← base64Value a
    let b ← base64Value b
    let c ← base64Value c
    let d ← base64Value d
    let bytes ← base64Bytes rest
    some (UInt8.ofNat (4 * a + b / 16) :: UInt8.ofNat (b % 16 * 16 + c / 4) ::
      UInt8.ofNat (c % 4 * 64 + d) :: bytes)
  | _ => none

/-- Read a base64 text. -/
def readBase64 (text : String) : Except String (List UInt8) :=
  match base64Bytes text.toList with
  | some bytes => .ok bytes
  | none => .error "Invalid symbol"

/-- A certificate of three bytes after a blank line. -/
def shortEntry : PemEntry where
  blank := 1
  der := [48, 1, 0]
  rows := ["MAEA"]
  rows_join := by decide +kernel

/-- A certificate of four bytes in two rows. -/
def paddedEntry : PemEntry where
  blank := 0
  der := [48, 130, 1, 10]
  rows := ["MIIB", "Cg=="]
  rows_join := by decide +kernel

/-- A bundle of two certificates with both line ends and none at its end. -/
theorem short_bundle_read :
    (splitPemChain ("" ++ "\n" ++ ("-----BEGIN CERTIFICATE-----" ++ "\r\n" ++ ("MAEA" ++ "\n" ++
        ("-----END CERTIFICATE-----" ++ "\n" ++ ("-----BEGIN CERTIFICATE-----" ++ "\n" ++
          ("MIIB" ++ "\n" ++ ("Cg==" ++ "\r\n" ++ "-----END CERTIFICATE-----")))))))).map
      (pemToDer readBase64) = [.ok [48, 1, 0], .ok [48, 130, 1, 10]] := by
  have hdecode : ∀ entry ∈ [shortEntry, paddedEntry],
      readBase64 (String.ofList (base64Encode entry.der)) = .ok entry.der :=
    forall_mem_cons.mpr ⟨by decide +kernel, forall_mem_singleton.mpr (by decide +kernel)⟩
  exact pem_round_trip readBase64 [shortEntry, paddedEntry] 0 hdecode
    (.lf (.crlf (.lf (.lf (.lf (.lf (.crlf (.last (by decide)))))))))

end FirewallManager
