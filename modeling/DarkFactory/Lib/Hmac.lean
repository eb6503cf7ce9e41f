import DarkFactory.Lib.Sha256

/-! HMAC with SHA-256, on the bytes of a key and a message. -/

namespace Sha256

def digestBytes (bytes : List Nat) : List Nat := (digest bytes).flatMap (bigEndian 4)

/-- A key as long as a block: a longer one is digested first. -/
def hmacKey (key : List Nat) : List Nat :=
  let short := if 64 < key.length then digestBytes key else key
  short ++ List.replicate (64 - short.length) 0

def hmac (key message : List Nat) : List Nat :=
  let padded := hmacKey key
  digest (padded.map (· ^^^ 0x5c) ++ digestBytes (padded.map (· ^^^ 0x36) ++ message))

def hmacHexdigest (key message : List Nat) : String := String.ofList ((hmac key message).flatMap hexWord)

theorem hmacHexdigest_hex {key message : List Nat} {c : Char} (member : c ∈ (hmacHexdigest key message).toList) :
    c ∈ hexDigits := by
  by_contra other
  simp only [hmacHexdigest, String.toList_ofList, hexWord, List.mem_flatMap, List.mem_map] at member
  obtain ⟨word, -, place, -, same⟩ := member
  exact hexDigit_ne other same

theorem hmacHexdigest_ne (key message : List Nat) : hmacHexdigest key message ≠ "" := by
  intro empty
  have none : (hmac key message).flatMap hexWord = [] := String.ofList_injective empty
  simp [hmac, digest, hexWord] at none

example : hmacHexdigest (encode "key") (encode "The quick brown fox jumps over the lazy dog") =
    "f7bc83f430538424b13298e6aa6fb143ef4d59a14946175997479dbc2d1a3cd8" := by
  decide +kernel

end Sha256
