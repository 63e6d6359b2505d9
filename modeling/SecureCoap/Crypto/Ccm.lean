import SecureCoap.Crypto.Aes

/-!
# Authenticated encryption

AES in counter mode with a CBC checksum, for keys of 16 and nonces of 13 bytes. The ciphertext is as
long as the plaintext, which may have up to 65535 bytes, and is followed by a tag of 8 bytes.
-/

namespace SecureCoap

namespace Ccm

open Aes

def tagLength : Nat := 8

def maxLength : Nat := 0xFFFF

/-- Cuts bytes into `n` blocks, the last one filled up with zeros. -/
def cut : (n : Nat) → Bytes → List Block
  | 0, _ => []
  | n + 1, bs => .ofBytes bs :: cut n (bs.drop 16)

def blocks (bs : Bytes) : List Block := cut ((bs.length + 15) / 16) bs

/-! ### Checksum -/

/-- The first block of the checksum, which tells the lengths. -/
def firstBlock (nonce aad : Bytes) (length : Nat) : Block :=
  .ofBytes ((if aad.isEmpty then 0x19 else 0x59) :: nonce ++ Bytes.ofNat 2 length)

/-- The length of the additional data as it is written in front of it. -/
def aadLength (n : Nat) : Bytes :=
  if n < 0xFF00 then Bytes.ofNat 2 n
  else if n < 0x100000000 then 0xFF :: 0xFE :: Bytes.ofNat 4 n
  else 0xFF :: 0xFF :: Bytes.ofNat 8 n

def aadBlocks (aad : Bytes) : List Block :=
  if aad.isEmpty then [] else blocks (aadLength aad.length ++ aad)

def checksum (keys : Schedule) (nonce aad plaintext : Bytes) : Block :=
  (aadBlocks aad ++ blocks plaintext).foldl (fun x b => encryptBlock keys (x.xor b))
    (encryptBlock keys (firstBlock nonce aad plaintext.length))

/-! ### Key stream -/

/-- The block of the key stream with this number. -/
def keyBlock (keys : Schedule) (nonce : Bytes) (i : Nat) : Block :=
  encryptBlock keys (.ofBytes (0x01 :: nonce ++ Bytes.ofNat 2 i))

/-- Masks `n` blocks with the key stream from block `i` on. -/
def maskBlocks (keys : Schedule) (nonce : Bytes) : (n i : Nat) → Bytes → Bytes
  | 0, _, _ => []
  | n + 1, i, bs =>
    Bytes.xor (bs.take 16) (keyBlock keys nonce i).bytes
      ++ maskBlocks keys nonce n (i + 1) (bs.drop 16)

def mask (keys : Schedule) (nonce bs : Bytes) : Bytes :=
  maskBlocks keys nonce ((bs.length + 15) / 16) 1 bs

def tag (keys : Schedule) (nonce aad plaintext : Bytes) : Bytes :=
  ((checksum keys nonce aad plaintext).xor (keyBlock keys nonce 0)).bytes.take tagLength

/-! ### Encryption -/

/-- The ciphertext and tag of a plaintext, unless that is too long. -/
def encrypt (key nonce aad plaintext : Bytes) : Option Bytes :=
  if plaintext.length ≤ maxLength then
    let keys := schedule key
    some (mask keys nonce plaintext ++ tag keys nonce aad plaintext)
  else none

/-- The plaintext of a ciphertext and tag, if the tag is right. -/
def decrypt (key nonce aad ciphertext : Bytes) : Option Bytes :=
  if tagLength ≤ ciphertext.length ∧ ciphertext.length ≤ maxLength + tagLength then
    let keys := schedule key
    let plaintext := mask keys nonce (ciphertext.take (ciphertext.length - tagLength))
    if tag keys nonce aad plaintext = Bytes.takeRight tagLength ciphertext then some plaintext
    else none
  else none

end Ccm

end SecureCoap
