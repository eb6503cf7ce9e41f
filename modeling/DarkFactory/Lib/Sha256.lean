import Mathlib.Tactic.Common

/-! SHA-256 on the bytes of a text, with words as naturals below `2 ^ 32`. -/

namespace Sha256

def mask : Nat := 4294967296

def rotr (n x : Nat) : Nat := x >>> n ||| x <<< (32 - n) % mask

def roundConstants : List Nat :=
  [0x428a2f98, 0x71374491, 0xb5c0fbcf, 0xe9b5dba5, 0x3956c25b, 0x59f111f1, 0x923f82a4, 0xab1c5ed5,
   0xd807aa98, 0x12835b01, 0x243185be, 0x550c7dc3, 0x72be5d74, 0x80deb1fe, 0x9bdc06a7, 0xc19bf174,
   0xe49b69c1, 0xefbe4786, 0x0fc19dc6, 0x240ca1cc, 0x2de92c6f, 0x4a7484aa, 0x5cb0a9dc, 0x76f988da,
   0x983e5152, 0xa831c66d, 0xb00327c8, 0xbf597fc7, 0xc6e00bf3, 0xd5a79147, 0x06ca6351, 0x14292967,
   0x27b70a85, 0x2e1b2138, 0x4d2c6dfc, 0x53380d13, 0x650a7354, 0x766a0abb, 0x81c2c92e, 0x92722c85,
   0xa2bfe8a1, 0xa81a664b, 0xc24b8b70, 0xc76c51a3, 0xd192e819, 0xd6990624, 0xf40e3585, 0x106aa070,
   0x19a4c116, 0x1e376c08, 0x2748774c, 0x34b0bcb5, 0x391c0cb3, 0x4ed8aa4a, 0x5b9cca4f, 0x682e6ff3,
   0x748f82ee, 0x78a5636f, 0x84c87814, 0x8cc70208, 0x90befffa, 0xa4506ceb, 0xbef9a3f7, 0xc67178f2]

structure Working where
  a : Nat
  b : Nat
  c : Nat
  d : Nat
  e : Nat
  f : Nat
  g : Nat
  h : Nat

def start : Working :=
  ⟨0x6a09e667, 0xbb67ae85, 0x3c6ef372, 0xa54ff53a, 0x510e527f, 0x9b05688c, 0x1f83d9ab, 0x5be0cd19⟩

def smallSigma0 (x : Nat) : Nat := rotr 7 x ^^^ rotr 18 x ^^^ x >>> 3
def smallSigma1 (x : Nat) : Nat := rotr 17 x ^^^ rotr 19 x ^^^ x >>> 10
def bigSigma0 (x : Nat) : Nat := rotr 2 x ^^^ rotr 13 x ^^^ rotr 22 x
def bigSigma1 (x : Nat) : Nat := rotr 6 x ^^^ rotr 11 x ^^^ rotr 25 x

def choose (e f g : Nat) : Nat := e &&& f ^^^ (mask - 1 - e) &&& g
def majority (a b c : Nat) : Nat := a &&& b ^^^ a &&& c ^^^ b &&& c

/-- The schedule word sixteen places on, from the window of the last sixteen. -/
def nextWord (window : List Nat) : Nat :=
  (smallSigma1 (window.getD 14 0) + window.getD 9 0 + smallSigma0 (window.getD 1 0) + window.getD 0 0) % mask

def rounds : List Nat → List Nat → Working → Working
  | [], _, s => s
  | k :: ks, window, ⟨a, b, c, d, e, f, g, h⟩ =>
    let first := (h + bigSigma1 e + choose e f g + k + window.getD 0 0) % mask
    let second := bigSigma0 a + majority a b c
    rounds ks (window.drop 1 ++ [nextWord window])
      ⟨(first + second) % mask, a, b, c, (d + first) % mask, e, f, g⟩

def compress (s : Working) (block : List Nat) : Working :=
  let t := rounds roundConstants block s
  ⟨(s.a + t.a) % mask, (s.b + t.b) % mask, (s.c + t.c) % mask, (s.d + t.d) % mask,
   (s.e + t.e) % mask, (s.f + t.f) % mask, (s.g + t.g) % mask, (s.h + t.h) % mask⟩

def bigEndian (width n : Nat) : List Nat := (List.range width).map fun i => n >>> (8 * (width - 1 - i)) % 256

def pad (bytes : List Nat) : List Nat :=
  bytes ++ [0x80] ++ List.replicate ((119 - bytes.length % 64) % 64) 0 ++ bigEndian 8 (8 * bytes.length)

def words : Nat → List Nat → List Nat
  | 0, _ => []
  | n + 1, bytes => (bytes.take 4).foldl (fun word byte => word * 256 + byte) 0 :: words n (bytes.drop 4)

def blocks : Nat → List Nat → List (List Nat)
  | 0, _ => []
  | n + 1, ws => ws.take 16 :: blocks n (ws.drop 16)

def digest (bytes : List Nat) : List Nat :=
  let padded := pad bytes
  let t := (blocks (padded.length / 64) (words (padded.length / 4) padded)).foldl compress start
  [t.a, t.b, t.c, t.d, t.e, t.f, t.g, t.h]

def encode (text : String) : List Nat := text.toUTF8.data.toList.map UInt8.toNat

def hexDigits : List Char := ['0', '1', '2', '3', '4', '5', '6', '7', '8', '9', 'a', 'b', 'c', 'd', 'e', 'f']

def hexDigit (n : Nat) : Char := (hexDigits[n]?).getD '0'

def hexWord (n : Nat) : List Char := (List.range 8).map fun i => hexDigit (n >>> (4 * (7 - i)) % 16)

def hex (text : String) : List Char := (digest (encode text)).flatMap hexWord

def hexdigest (text : String) : String := String.ofList (hex text)

theorem hexDigit_ne {n : Nat} {c : Char} (other : c ∉ hexDigits) : hexDigit n ≠ c := by
  unfold hexDigit
  cases found : hexDigits[n]? with
  | none =>
    rintro rfl
    exact other (by decide)
  | some digit =>
    rintro rfl
    exact other (List.mem_of_getElem? found)

/-- A digest is written in hexadecimal digits only. -/
theorem notMem_hex {c : Char} (text : String) (other : c ∉ hexDigits) : c ∉ hex text := by
  intro member
  simp only [hex, hexWord, List.mem_flatMap, List.mem_map] at member
  obtain ⟨word, -, place, -, same⟩ := member
  exact hexDigit_ne other same

theorem hexdigest_ne (text : String) : hexdigest text ≠ "" := by
  intro empty
  have none : hex text = [] := String.ofList_injective empty
  simp [hex, digest, hexWord] at none

example : hexdigest "abc" = "ba7816bf8f01cfea414140de5dae2223b00361a396177a9cb410ff61f20015ad" := by
  decide +kernel

end Sha256
