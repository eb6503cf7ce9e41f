import Mathlib.Tactic.Common

/-! UTF-8 text read from bytes, where what does not decode becomes U+FFFD. -/

namespace Utf8

def encode (text : String) : List UInt8 := text.toUTF8.data.toList

/-- The bounds of the bytes that may follow a first byte, none where it starts no character. -/
def followers (first : UInt8) : Option (List (UInt8 × UInt8)) :=
  if first < 0x80 then some []
  else if first < 0xC2 then none
  else if first < 0xE0 then some [(0x80, 0xBF)]
  else if first = 0xE0 then some [(0xA0, 0xBF), (0x80, 0xBF)]
  else if first = 0xED then some [(0x80, 0x9F), (0x80, 0xBF)]
  else if first < 0xF0 then some [(0x80, 0xBF), (0x80, 0xBF)]
  else if first = 0xF0 then some [(0x90, 0xBF), (0x80, 0xBF), (0x80, 0xBF)]
  else if first < 0xF4 then some [(0x80, 0xBF), (0x80, 0xBF), (0x80, 0xBF)]
  else if first = 0xF4 then some [(0x80, 0x8F), (0x80, 0xBF), (0x80, 0xBF)]
  else none

def fitting : List (UInt8 × UInt8) → List UInt8 → List UInt8
  | (low, high) :: bounds, byte :: bytes =>
    if low ≤ byte ∧ byte ≤ high then byte :: fitting bounds bytes else []
  | _, _ => []

/-- Each longest part that begins a character and does not complete it is replaced once. -/
def replaced : Nat → List UInt8 → List Char
  | 0, _ => []
  | _, [] => []
  | fuel + 1, first :: bytes =>
    match followers first with
    | none => '\uFFFD' :: replaced fuel bytes
    | some bounds =>
      let taken := fitting bounds bytes
      let rest := replaced fuel (bytes.drop taken.length)
      if taken.length < bounds.length then '\uFFFD' :: rest
      else
        match String.fromUTF8? ⟨(first :: taken).toArray⟩ with
        | some character => character.toList ++ rest
        | none => '\uFFFD' :: rest

/-- `decode("utf-8", errors="replace")`. -/
def decode (bytes : List UInt8) : String :=
  (String.fromUTF8? ⟨bytes.toArray⟩).getD (String.ofList (replaced bytes.length bytes))

@[simp] theorem decode_encode (text : String) : decode (encode text) = text := by
  have same : (⟨(encode text).toArray⟩ : ByteArray) = text.toUTF8 := by
    rw [encode, Array.toArray_toList]
  have back : String.fromUTF8? text.toUTF8 = some text := by
    unfold String.fromUTF8?
    rw [String.toUTF8_eq_toByteArray, dif_pos text.isValidUTF8]
    rfl
  unfold decode
  rw [same, back]
  rfl

theorem encode_injective {text other : String} (same : encode text = encode other) : text = other := by
  rw [← decode_encode text, same, decode_encode]

end Utf8
