import Mathlib

/-! SHA-256 of a byte string, as lowercase hex. -/

namespace VivimOmega.Library.Sha256

def roundConstants : List UInt32 :=
  [0x428a2f98, 0x71374491, 0xb5c0fbcf, 0xe9b5dba5, 0x3956c25b, 0x59f111f1, 0x923f82a4, 0xab1c5ed5,
   0xd807aa98, 0x12835b01, 0x243185be, 0x550c7dc3, 0x72be5d74, 0x80deb1fe, 0x9bdc06a7, 0xc19bf174,
   0xe49b69c1, 0xefbe4786, 0x0fc19dc6, 0x240ca1cc, 0x2de92c6f, 0x4a7484aa, 0x5cb0a9dc, 0x76f988da,
   0x983e5152, 0xa831c66d, 0xb00327c8, 0xbf597fc7, 0xc6e00bf3, 0xd5a79147, 0x06ca6351, 0x14292967,
   0x27b70a85, 0x2e1b2138, 0x4d2c6dfc, 0x53380d13, 0x650a7354, 0x766a0abb, 0x81c2c92e, 0x92722c85,
   0xa2bfe8a1, 0xa81a664b, 0xc24b8b70, 0xc76c51a3, 0xd192e819, 0xd6990624, 0xf40e3585, 0x106aa070,
   0x19a4c116, 0x1e376c08, 0x2748774c, 0x34b0bcb5, 0x391c0cb3, 0x4ed8aa4a, 0x5b9cca4f, 0x682e6ff3,
   0x748f82ee, 0x78a5636f, 0x84c87814, 0x8cc70208, 0x90befffa, 0xa4506ceb, 0xbef9a3f7, 0xc67178f2]

def rotr (x n : UInt32) : UInt32 := (x >>> n) ||| (x <<< (32 - n))

def bigSigma0 (x : UInt32) : UInt32 := rotr x 2 ^^^ rotr x 13 ^^^ rotr x 22

def bigSigma1 (x : UInt32) : UInt32 := rotr x 6 ^^^ rotr x 11 ^^^ rotr x 25

def smallSigma0 (x : UInt32) : UInt32 := rotr x 7 ^^^ rotr x 18 ^^^ (x >>> 3)

def smallSigma1 (x : UInt32) : UInt32 := rotr x 17 ^^^ rotr x 19 ^^^ (x >>> 10)

def ch (x y z : UInt32) : UInt32 := (x &&& y) ^^^ (~~~x &&& z)

def maj (x y z : UInt32) : UInt32 := (x &&& y) ^^^ (x &&& z) ^^^ (y &&& z)

structure Registers where
  a : UInt32
  b : UInt32
  c : UInt32
  d : UInt32
  e : UInt32
  f : UInt32
  g : UInt32
  h : UInt32

def start : Registers :=
  ⟨0x6a09e667, 0xbb67ae85, 0x3c6ef372, 0xa54ff53a, 0x510e527f, 0x9b05688c, 0x1f83d9ab, 0x5be0cd19⟩

def round (r : Registers) (k w : UInt32) : Registers :=
  let t1 := r.h + bigSigma1 r.e + ch r.e r.f r.g + k + w
  let t2 := bigSigma0 r.a + maj r.a r.b r.c
  ⟨t1 + t2, r.a, r.b, r.c, r.d + t1, r.e, r.f, r.g⟩

/-- The schedule word that follows the sixteen in the window. -/
def nextWord (w : List UInt32) : UInt32 :=
  smallSigma1 (w.getD 14 0) + w.getD 9 0 + smallSigma0 (w.getD 1 0) + w.getD 0 0

def rounds : List UInt32 → List UInt32 → Registers → Registers
  | [], _, r => r
  | k :: ks, w, r => rounds ks (w.tail ++ [nextWord w]) (round r k (w.headD 0))

def compress (r : Registers) (block : List UInt32) : Registers :=
  let s := rounds roundConstants block r
  ⟨r.a + s.a, r.b + s.b, r.c + s.c, r.d + s.d, r.e + s.e, r.f + s.f, r.g + s.g, r.h + s.h⟩

def bigEndian (width n : ℕ) : List UInt8 :=
  (List.range width).reverse.map fun i => UInt8.ofNat (n / 256 ^ i)

def pad (m : List UInt8) : List UInt8 :=
  m ++ 0x80 :: List.replicate ((119 - m.length % 64) % 64) 0 ++ bigEndian 8 (8 * m.length)

def words : List UInt8 → List UInt32
  | a :: b :: c :: d :: rest =>
    ((a.toUInt32 <<< 24) ||| (b.toUInt32 <<< 16) ||| (c.toUInt32 <<< 8) ||| d.toUInt32) :: words rest
  | _ => []

def blocks : ℕ → List UInt32 → Registers → Registers
  | 0, _, r => r
  | n + 1, ws, r => blocks n (ws.drop 16) (compress r (ws.take 16))

def digest (m : List UInt8) : Registers :=
  let ws := words (pad m)
  blocks (ws.length / 16) ws start

def hexDigits : List Char := "0123456789abcdef".toList

def hexDigit (n : ℕ) : Char := hexDigits.getD (n % 16) '0'

def wordHex (w : UInt32) : List Char :=
  (List.range 8).reverse.map fun i => hexDigit (w.toNat / 16 ^ i)

def hex (r : Registers) : List Char :=
  [r.a, r.b, r.c, r.d, r.e, r.f, r.g, r.h].flatMap wordHex

def sha256 (m : List UInt8) : List Char := hex (digest m)

def IsDigest (cs : List Char) : Prop := cs.length = 64 ∧ ∀ c ∈ cs, c ∈ hexDigits

-- The list is gone through; the instance that search may find instead goes through all characters.
instance (cs : List Char) : Decidable (IsDigest cs) :=
  @instDecidableAnd _ _ (instDecidableEqNat _ _) (List.decidableBAll _ cs)

lemma hexDigit_mem (n : ℕ) : hexDigit n ∈ hexDigits := by
  have hlen : hexDigits.length = 16 := by decide
  have hlt : n % 16 < hexDigits.length := by omega
  rw [hexDigit, List.getD_eq_getElem?_getD, List.getElem?_eq_getElem hlt, Option.getD_some]
  exact List.getElem_mem hlt

lemma length_wordHex (w : UInt32) : (wordHex w).length = 8 := by
  simp [wordHex]

lemma isDigest_sha256 (m : List UInt8) : IsDigest (sha256 m) := by
  constructor
  · simp [sha256, hex, length_wordHex]
  · intro c hc
    obtain ⟨w, _, hw⟩ := List.mem_flatMap.mp hc
    obtain ⟨i, _, rfl⟩ := List.mem_map.mp hw
    exact hexDigit_mem _

/-- No two of the byte strings have one digest. -/
def CollisionFree (inputs : Set (List UInt8)) : Prop := Set.InjOn sha256 inputs

lemma CollisionFree.eq {inputs : Set (List UInt8)} (h : CollisionFree inputs) {m n : List UInt8}
    (hm : m ∈ inputs) (hn : n ∈ inputs) (he : sha256 m = sha256 n) : m = n :=
  h hm hn he

/-- The bytes of a text. -/
def utf8 (s : String) : List UInt8 := s.toByteArray.data.toList

lemma utf8_injective : Function.Injective utf8 := by
  intro s t h
  apply String.toByteArray_inj.mp
  exact ByteArray.ext (Array.ext' h)

lemma utf8_append (s t : String) : utf8 (s ++ t) = utf8 s ++ utf8 t := by
  simp [utf8]

def sha256Hex (m : List UInt8) : String := String.ofList (sha256 m)

def sha256Text (s : String) : String := sha256Hex (utf8 s)

lemma isDigest_sha256Hex (m : List UInt8) : IsDigest (sha256Hex m).toList := by
  rw [sha256Hex, String.toList_ofList]
  exact isDigest_sha256 m

example : sha256Text "abc" = "ba7816bf8f01cfea414140de5dae2223b00361a396177a9cb410ff61f20015ad" := by
  decide +kernel

end VivimOmega.Library.Sha256
