import DarkFactory.Lib.PrefixFree
import DarkFactory.Sdd.Tree

/-! What `json.dumps` writes of texts and arrays is read back in one way only. -/

namespace DarkFactory.JsonText

open PrefixFree

/-! ## Escapes -/

def hexOf (c : Char) : Nat := if c.toNat < 58 then c.toNat - 48 else c.toNat - 87

def hexValue (digits : List Char) : Nat := digits.foldl (fun value c => 16 * value + hexOf c) 0

def readLow (high : Nat) : List Char → Option (Char × List Char)
  | _ :: _ :: a :: b :: c :: d :: rest =>
    some (Char.ofNat (65536 + (high - 55296) * 1024 + (hexValue [a, b, c, d] - 56320)), rest)
  | _ => none

def readUnit : List Char → Option (Char × List Char)
  | a :: b :: c :: d :: rest =>
    let unit := hexValue [a, b, c, d]
    if 55296 ≤ unit ∧ unit < 56320 then readLow unit rest else some (Char.ofNat unit, rest)
  | _ => none

def readEscape : List Char → Option (Char × List Char)
  | 'u' :: rest => readUnit rest
  | 'n' :: rest => some ('\n', rest)
  | 'r' :: rest => some ('\r', rest)
  | 't' :: rest => some ('\t', rest)
  | 'b' :: rest => some (Char.ofNat 8, rest)
  | 'f' :: rest => some (Char.ofNat 12, rest)
  | c :: rest => some (c, rest)
  | [] => none

def readChar : List Char → Option (Char × List Char)
  | [] => none
  | c :: rest => if c = Text.backslash then readEscape rest else some (c, rest)

section Digits

variable {n digit : Nat} {front back rest : List Char}

theorem hexOf_digitChar (small : digit < 16) : hexOf (Nat.digitChar digit) = digit := by
  have table : ∀ digit < 16, hexOf (Nat.digitChar digit) = digit := by decide
  exact table digit small

theorem hexValue_append : hexValue (front ++ back) = back.foldl (fun value c => 16 * value + hexOf c) (hexValue front) :=
  List.foldl_append

theorem hexValue_zeros (count : Nat) : hexValue (List.replicate count '0') = 0 := by
  induction count with
  | zero => rfl
  | succ count ih =>
    rw [List.replicate_succ', hexValue_append, ih]
    rfl

theorem hexValue_toDigits (n : Nat) : hexValue (Nat.toDigits 16 n) = n := by
  induction n using Nat.strongRecOn with
  | ind n ih =>
    by_cases small : n < 16
    · rw [Nat.toDigits_of_lt_base small, hexValue, List.foldl_cons, List.foldl_nil, hexOf_digitChar small]
      omega
    · have large : 16 ≤ n := by omega
      have last : n % 16 < 16 := Nat.mod_lt n (by omega)
      rw [Nat.toDigits_of_base_le (by omega) large, hexValue_append, ih (n / 16) (by omega), List.foldl_cons,
        List.foldl_nil, hexOf_digitChar last]
      omega

theorem toList_hexDigits (width n : Nat) : (Text.hexDigits width n).toList =
    List.replicate (width - (Nat.toDigits 16 n).length) '0' ++ Nat.toDigits 16 n := by
  simp only [Text.hexDigits, String.toList_append, String.toList_ofList, String.length_ofList]

theorem hexValue_hexDigits (width n : Nat) : hexValue (Text.hexDigits width n).toList = n := by
  have zeros := hexValue_zeros (width - (Nat.toDigits 16 n).length)
  rw [toList_hexDigits, hexValue_append, zeros]
  exact hexValue_toDigits n

/-- Four digits for a number of sixteen bits. -/
theorem hexDigits_four (fits : n < 65536) : ∃ a b c d, (Text.hexDigits 4 n).toList = [a, b, c, d] ∧
    hexValue [a, b, c, d] = n := by
  have short : (Nat.toDigits 16 n).length ≤ 4 := (Nat.length_toDigits_le_iff (by omega) (by omega)).mpr fits
  have four : (Text.hexDigits 4 n).toList.length = 4 := by
    rw [toList_hexDigits, List.length_append, List.length_replicate]
    omega
  obtain ⟨a, b, c, d, same⟩ := List.length_eq_four.mp four
  refine ⟨a, b, c, d, same, ?_⟩
  rw [← same]
  exact hexValue_hexDigits 4 n

end Digits

section Characters

variable {c : Char} {n : Nat} {rest : List Char}

theorem readUnit_plain (fits : n < 65536) (single : ¬ (55296 ≤ n ∧ n < 56320)) :
    readUnit ((Text.hexDigits 4 n).toList ++ rest) = some (Char.ofNat n, rest) := by
  obtain ⟨a, b, c, d, shown, value⟩ := hexDigits_four fits
  rw [shown]
  simp only [List.cons_append, List.nil_append]
  rw [readUnit, value, if_neg single]

theorem readUnit_pair {high low : Nat} (upper : 55296 ≤ high ∧ high < 56320) (fits : low < 65536) (first second : Char) :
    readUnit ((Text.hexDigits 4 high).toList ++ first :: second :: (Text.hexDigits 4 low).toList ++ rest) =
      some (Char.ofNat (65536 + (high - 55296) * 1024 + (low - 56320)), rest) := by
  obtain ⟨a, b, c, d, shown, value⟩ := hexDigits_four (show high < 65536 by omega)
  obtain ⟨e, f, g, h, showed, worth⟩ := hexDigits_four fits
  rw [shown, showed]
  simp only [List.cons_append, List.nil_append]
  rw [readUnit, value, if_pos upper, readLow, worth]

theorem scalar (c : Char) : c.toNat < 55296 ∨ 57343 < c.toNat ∧ c.toNat < 1114112 := by
  have valid := c.valid
  simp only [UInt32.isValidChar, Nat.isValidChar] at valid
  show c.val.toNat < 55296 ∨ 57343 < c.val.toNat ∧ c.val.toNat < 1114112
  omega

theorem readChar_escape : readChar (Text.backslash :: rest) = readEscape rest := by
  rw [readChar, if_pos rfl]

theorem unitMark : "\\u".toList = [Text.backslash, 'u'] := by decide

theorem halves {n high low : Nat} (large : 65536 ≤ n) (bound : n < 1114112)
    (highIs : 55296 + (n - 65536) / 1024 = high) (lowIs : 56320 + (n - 65536) % 1024 = low) :
    (55296 ≤ high ∧ high < 56320) ∧ low < 65536 ∧ 65536 + (high - 55296) * 1024 + (low - 56320) = n := by
  refine ⟨?_, ?_, ?_⟩
  · omega
  · omega
  · omega

/-- A code point above the basic plane is read from the two halves of its pair. -/
theorem readChar_pair {high low : Nat} (upper : 55296 ≤ high ∧ high < 56320) (fits : low < 65536)
    (value : 65536 + (high - 55296) * 1024 + (low - 56320) = c.toNat) :
    readChar (("\\u" ++ Text.hexDigits 4 high ++ ("\\u" ++ Text.hexDigits 4 low)).toList ++ rest) = some (c, rest) := by
  have written : ("\\u" ++ Text.hexDigits 4 high ++ ("\\u" ++ Text.hexDigits 4 low)).toList ++ rest =
      Text.backslash :: 'u' ::
        ((Text.hexDigits 4 high).toList ++ Text.backslash :: 'u' :: (Text.hexDigits 4 low).toList ++ rest) := by
    simp only [String.toList_append, unitMark, List.cons_append, List.nil_append, List.append_assoc]
  rw [written, readChar_escape, readEscape, readUnit_pair upper fits, value, Char.ofNat_toNat]

/-- What is written of a character is read as that character. -/
theorem readChar_jsonChar (c : Char) (rest : List Char) : readChar ((jsonChar c).toList ++ rest) = some (c, rest) := by
  have escaped (letter : Char) : (Text.backslash.toString ++ letter.toString).toList ++ rest =
      Text.backslash :: letter :: rest := by
    simp only [Char.toString_eq_singleton, String.toList_append, String.toList_singleton, List.cons_append, List.nil_append]
  unfold jsonChar
  by_cases special : c = Text.quotation ∨ c = Text.backslash
  · rw [if_pos special, escaped, readChar_escape]
    rcases special with rfl | rfl <;> rfl
  rw [if_neg special]
  by_cases line : c = '\n'
  · rw [if_pos line, line]
    rfl
  rw [if_neg line]
  by_cases back : c = '\r'
  · rw [if_pos back, back]
    rfl
  rw [if_neg back]
  by_cases tab : c = '\t'
  · rw [if_pos tab, tab]
    rfl
  rw [if_neg tab]
  by_cases bell : c.toNat = 8
  · have here : c = Char.ofNat 8 := by rw [← bell, Char.ofNat_toNat]
    rw [if_pos bell, here]
    rfl
  rw [if_neg bell]
  by_cases feed : c.toNat = 12
  · have here : c = Char.ofNat 12 := by rw [← feed, Char.ofNat_toNat]
    rw [if_pos feed, here]
    rfl
  rw [if_neg feed]
  by_cases plain : 32 ≤ c.toNat ∧ c.toNat ≤ 126
  · rw [if_pos plain]
    have single : c.toString.toList ++ rest = c :: rest := by
      rw [Char.toString_eq_singleton, String.toList_singleton, List.singleton_append]
    rw [single, readChar, if_neg fun slash => special (Or.inr slash)]
  rw [if_neg plain]
  have valid := scalar c
  by_cases small : c.toNat < 65536
  · have single : ¬ (55296 ≤ c.toNat ∧ c.toNat < 56320) := by omega
    have written : ("\\u" ++ Text.hexDigits 4 c.toNat).toList ++ rest =
        Text.backslash :: 'u' :: ((Text.hexDigits 4 c.toNat).toList ++ rest) := by
      rw [String.toList_append, unitMark]
      rfl
    rw [if_pos small, written, readChar_escape, readEscape, readUnit_plain small single, Char.ofNat_toNat]
  · have large : 65536 ≤ c.toNat := Nat.le_of_not_lt small
    have bound : c.toNat < 1114112 := by omega
    obtain ⟨upper, fits, value⟩ := halves large bound rfl rfl
    rw [if_neg small]
    exact readChar_pair upper fits value

theorem jsonChar_opens : Opens (fun c => (jsonChar c).toList) Text.quotation := by
  intro c
  have read := readChar_jsonChar c []
  cases written : (jsonChar c).toList with
  | nil =>
    rw [written] at read
    cases read
  | cons first more =>
    refine ⟨first, more, written, ?_⟩
    rintro rfl
    -- A quotation mark is read as itself, and is written with a backslash.
    have apart : Text.quotation ≠ Text.backslash := by decide
    rw [written, List.append_nil, readChar, if_neg apart] at read
    obtain ⟨rfl, -⟩ := Prod.mk.inj (Option.some.inj read)
    have shown : (jsonChar Text.quotation).toList = [Text.backslash, Text.quotation] := by decide
    rw [shown] at written
    exact apart (List.cons.inj written).1.symm

theorem code_jsonChar : Code fun c => (jsonChar c).toList := code_of_reader readChar_jsonChar

end Characters

/-! ## Texts and arrays -/

theorem toList_jsonString (text : String) :
    (jsonString text).toList = Text.quotation :: closed (fun c => (jsonChar c).toList) Text.quotation text.toList := by
  simp only [jsonString, String.toList_append, String.toList_join, List.flatMap_map, closed]
  rfl

theorem code_jsonString : Code fun text => (jsonString text).toList := by
  have free := ((code_closed code_jsonChar jsonChar_opens).headed Text.quotation).comap fun _ _ => String.toList_inj.mp
  simp only [toList_jsonString]
  exact free

def array (shown : List String) : String := "[" ++ Text.join "," shown ++ "]"

/-- Arrays of items that are told apart, none of which begins with a closing bracket, are told apart. -/
theorem code_array {α : Type} {write : α → String} (free : Code fun item => (write item).toList)
    (opens : Opens (fun item => (write item).toList) ']') : Code fun items : List α => (array (items.map write)).toList := by
  have lists := (code_separated free opens (show ',' ≠ ']' by decide)).headed '['
  have same (items : List α) : (array (items.map write)).toList =
      '[' :: separated (fun item => (write item).toList) ',' ']' items := by
    rw [separated_intercalate, array, Text.join, String.toList_append, String.toList_append, String.toList_intercalate,
      List.map_map]
    rfl
  simp only [same]
  exact lists

theorem jsonString_opens : Opens (fun text => (jsonString text).toList) ']' := by
  intro text
  exact ⟨_, _, toList_jsonString text, by decide⟩

theorem array_opens {α : Type} {items : α → List String} : Opens (fun item => (array (items item)).toList) ']' := by
  intro item
  refine ⟨'[', (Text.join "," (items item)).toList ++ [']'], ?_, by decide⟩
  show (array (items item)).toList = _
  rw [array, String.toList_append, String.toList_append]
  rfl

def rows (rows : List (List String)) : String := array (rows.map fun row => array (row.map jsonString))

theorem rows_inj {first second : List (List String)} : rows first = rows second ↔ first = second := by
  have free : Code fun items : List (List String) => (rows items).toList :=
    code_array (code_array code_jsonString jsonString_opens) array_opens
  exact ⟨fun same => free.injective (congrArg String.toList same), congrArg rows⟩

end DarkFactory.JsonText
