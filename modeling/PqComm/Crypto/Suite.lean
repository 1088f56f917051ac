import PqComm.Core.Packet

/-!
# The cryptographic primitives and what the library builds on them

The primitives come from mbedtls and liboqs.  They are the fields of a
`CryptoSuite`, with the output lengths their documentation promises, and every
development that needs more than lengths states it as a hypothesis.

On top of them stand the functions of `aead.c`, `hkdf.c` and the key
derivation shared by the handshake and the rekey protocol.
-/

namespace PqComm

open Lib

/-- The imported primitives.  Randomness is an explicit argument (`coins`), so
that every one of them is a function. -/
structure CryptoSuite where
  sha256 : Bytes → Bytes
  hmacSha256 : (key data : Bytes) → Bytes
  aeadSeal : (key nonce aad plain : Bytes) → Bytes × Bytes
  aeadOpen : (key nonce aad cipher tag : Bytes) → Option Bytes
  kemKeypair : (coins : Bytes) → Option (Bytes × Bytes)
  kemEncaps : (publicKey coins : Bytes) → Option (Bytes × Bytes)
  kemDecaps : (secretKey ciphertext : Bytes) → Option Bytes
  length_sha256 : ∀ data, (sha256 data).length = 32
  length_hmacSha256 : ∀ key data, (hmacSha256 key data).length = 32
  length_aeadSeal :
    ∀ key nonce aad plain,
      (aeadSeal key nonce aad plain).1.length = plain.length ∧
        (aeadSeal key nonce aad plain).2.length = 16
  length_aeadOpen :
    ∀ key nonce aad cipher tag plain,
      aeadOpen key nonce aad cipher tag = some plain →
        plain.length = cipher.length
  length_kemKeypair :
    ∀ coins publicKey secretKey,
      kemKeypair coins = some (publicKey, secretKey) →
        publicKey.length = 1184 ∧ secretKey.length = 2400
  length_kemEncaps :
    ∀ publicKey coins ciphertext secret,
      kemEncaps publicKey coins = some (ciphertext, secret) →
        ciphertext.length = 1088 ∧ secret.length = 32
  length_kemDecaps :
    ∀ secretKey ciphertext secret,
      kemDecaps secretKey ciphertext = some secret → secret.length = 32

/-- The cipher opens what it sealed. -/
def AeadInverts (C : CryptoSuite) : Prop :=
  ∀ key nonce aad plain,
    C.aeadOpen key nonce aad (C.aeadSeal key nonce aad plain).1
      (C.aeadSeal key nonce aad plain).2 = some plain

def kemPkSize : Nat := 1184
def kemSkSize : Nat := 2400
def kemCtSize : Nat := 1088
def kemSsSize : Nat := 32

/-- The bytes of a C string literal. -/
def asciiBytes (text : List Char) : Bytes :=
  text.map fun c => UInt8.ofNat c.toNat

section

variable (C : CryptoSuite)

/-! ## `aead.c` -/

/-- `aead_encrypt`, which refuses what does not fit in its stack buffer. -/
def aeadEncrypt (key nonce aad plain : Bytes) : Option (Bytes × Bytes) :=
  if plain.length + aeadTagSize > maxPacketSize then
    none
  else
    some (C.aeadSeal key nonce aad plain)

/-- `aead_decrypt`. -/
def aeadDecrypt (key nonce aad cipher tag : Bytes) : Option Bytes :=
  if cipher.length + aeadTagSize > maxPacketSize then
    none
  else
    C.aeadOpen key nonce aad cipher tag

/-! ## `hkdf.c` -/

/-- `hkdf_extract`, with the all-zero salt in place of an empty one. -/
def hkdfExtract (salt ikm : Bytes) : Bytes :=
  C.hmacSha256 (if salt.length = 0 then zeros 32 else salt) ikm

/-- The loop of `hkdf_expand`: `remaining` bytes are still to be produced,
`block` is the previous `T` (empty at first).  One unit of fuel is one
iteration. -/
def hkdfExpandLoop (prk info : Bytes) :
    Nat → Nat → Bytes → UInt8 → Option Bytes
  | 0, _, _, _ => some []
  | fuel + 1, remaining, block, counter =>
      if remaining = 0 then
        some []
      else if counter = 0 then
        none
      else
        let next := C.hmacSha256 prk (block ++ info ++ [counter])
        let copy := min remaining 32
        (hkdfExpandLoop prk info fuel (remaining - copy) next
          (counter + 1)).map (next.take copy ++ ·)

/-- `hkdf_expand`.  Every iteration produces at least one byte, so the output
length is fuel enough. -/
def hkdfExpand (prk info : Bytes) (okmLen : Nat) : Option Bytes :=
  if prk.length < 32 then
    none
  else if okmLen = 0 ∨ okmLen > 8160 then
    none
  else
    hkdfExpandLoop C prk info okmLen okmLen [] 1

/-- `LABEL_SESSION`. -/
def labelSession : Bytes :=
  asciiBytes
    ['S', 'C', 'v', '1', ' ', 's', 'e', 's', 's', 'i', 'o', 'n', ' ',
      'k', 'e', 'y']

/-- `LABEL_CHANNEL0` to `LABEL_CHANNEL5`, by their last character. -/
def labelChannel (digit : Char) : Bytes :=
  asciiBytes
    ['S', 'C', 'v', '1', ' ', 'c', 'h', 'a', 'n', 'n', 'e', 'l', ' ',
      'k', 'e', 'y', ' ', digit]

/-- `derive_session_keys`: the session key and the six channel keys. -/
def deriveSessionKeys (secret context : Bytes) :
    Option (Bytes × List Bytes) :=
  if secret.length = 0 ∨ context.length = 0 then
    none
  else do
    let prk := hkdfExtract C context secret
    let sessionKey ← hkdfExpand C prk labelSession 32
    let channelKeys ←
      ['0', '1', '2', '3', '4', '5'].mapM fun digit =>
        hkdfExpand C prk (labelChannel digit) 32
    return (sessionKey, channelKeys)

/-! ## What the callers rely on -/

theorem length_of_aeadEncrypt
    {key nonce aad plain cipher tag : Bytes}
    (sealed : aeadEncrypt C key nonce aad plain = some (cipher, tag)) :
    cipher.length = plain.length ∧ tag.length = 16 := by
  unfold aeadEncrypt at sealed
  split at sealed
  · cases sealed
  · have lengths := C.length_aeadSeal key nonce aad plain
    simp only [Option.some.injEq] at sealed
    simpa only [sealed] using lengths

/-- `hkdf_expand` for one hash block is the single block `T(1)`. -/
theorem hkdfExpand_block
    {prk : Bytes} (info : Bytes) (long : 32 ≤ prk.length) :
    hkdfExpand C prk info 32 = some (C.hmacSha256 prk (info ++ [1])) := by
  have whole :
      (C.hmacSha256 prk (info ++ [1])).take 32 =
        C.hmacSha256 prk (info ++ [1]) :=
    List.take_of_length_le (Nat.le_of_eq (C.length_hmacSha256 _ _))
  simp [hkdfExpand, hkdfExpandLoop, Nat.not_lt.mpr long, whole]

/-- The key material `derive_session_keys` computes when it succeeds. -/
def sessionKeyMaterial (secret context : Bytes) : Bytes × List Bytes :=
  let prk := hkdfExtract C context secret
  (C.hmacSha256 prk (labelSession ++ [1]),
    ['0', '1', '2', '3', '4', '5'].map fun digit =>
      C.hmacSha256 prk (labelChannel digit ++ [1]))

/-- Key derivation succeeds on every nonempty secret and context. -/
theorem deriveSessionKeys_eq
    {secret context : Bytes}
    (secretNonempty : secret.length ≠ 0)
    (contextNonempty : context.length ≠ 0) :
    deriveSessionKeys C secret context =
      some (sessionKeyMaterial C secret context) := by
  have long : 32 ≤ (hkdfExtract C context secret).length := by
    exact Nat.le_of_eq (C.length_hmacSha256 _ _).symm
  simp only [deriveSessionKeys, secretNonempty, contextNonempty, or_self,
    if_false, hkdfExpand_block C _ long]
  rfl

end

/-! ## A suite to compute with

A checksum in place of the hash, a stream of one byte with a checksum tag in
place of the cipher, and a KEM whose secret is the checksum of public key and
ciphertext.  Decryption inverts encryption, a changed tag is refused and
decapsulation returns the encapsulated secret; nothing is secret. -/

/-- Cut or pad to exactly `n` bytes. -/
def fitTo (n : Nat) (bytes : Bytes) : Bytes :=
  (bytes ++ zeros n).take n

@[simp]
theorem length_fitTo (n : Nat) (bytes : Bytes) :
    (fitTo n bytes).length = n := by
  simp [fitTo]

theorem take_fitTo {n m : Nat} (le : n ≤ m) (bytes : Bytes) :
    (fitTo m bytes).take n = fitTo n bytes := by
  simp only [fitTo, zeros, List.take_append, List.take_replicate,
    List.take_take, Nat.min_eq_left le, List.length_take]
  congr 2
  omega

def checksum (data : Bytes) : Nat :=
  data.foldl (fun sum byte => (sum * 257 + byte.toNat + 1) % (2 ^ 239 - 87)) 1

/-- Only the length and the first 96 bytes enter, which is cheap. -/
def sampleHash (data : Bytes) : Bytes :=
  leBytes 32 (checksum (data.take 96) * 65536 + data.length)

def sampleTag (key nonce aad cipher : Bytes) : Bytes :=
  leBytes 16 (checksum (key ++ nonce ++ aad ++ cipher))

def sampleMask (key text : Bytes) : Bytes :=
  text.map (· ^^^ key.getD 0 0)

def sampleSuite : CryptoSuite where
  sha256 := sampleHash
  hmacSha256 key data := sampleHash (key ++ data)
  aeadSeal key nonce aad plain :=
    let cipher := sampleMask key plain
    (cipher, sampleTag key nonce aad cipher)
  aeadOpen key nonce aad cipher tag :=
    if tag = sampleTag key nonce aad cipher then
      some (sampleMask key cipher)
    else
      none
  kemKeypair coins :=
    some (fitTo kemPkSize coins, fitTo kemSkSize coins)
  kemEncaps publicKey coins :=
    some (fitTo kemCtSize coins,
      sampleHash (publicKey.take 32 ++ (fitTo kemCtSize coins).take 32))
  kemDecaps secretKey ciphertext :=
    some (sampleHash (secretKey.take 32 ++ ciphertext.take 32))
  length_sha256 := fun _ => length_leBytes _ _
  length_hmacSha256 := fun _ _ => length_leBytes _ _
  length_aeadSeal := fun _ _ _ _ =>
    ⟨List.length_map _, length_leBytes _ _⟩
  length_aeadOpen := by
    intro key nonce aad cipher tag plain opened
    split at opened
    · cases opened
      exact List.length_map _
    · cases opened
  length_kemKeypair := by
    intro coins publicKey secretKey made
    cases made
    exact ⟨length_fitTo _ _, length_fitTo _ _⟩
  length_kemEncaps := by
    intro publicKey coins ciphertext secret made
    cases made
    exact ⟨length_fitTo _ _, length_leBytes _ _⟩
  length_kemDecaps := by
    intro secretKey ciphertext secret made
    cases made
    exact length_leBytes _ _

/-- Decapsulation gives the secret of the public key. -/
theorem kemDecaps_sampleSuite (coins ciphertext : Bytes) :
    sampleSuite.kemDecaps (fitTo kemSkSize coins) ciphertext =
      some (sampleHash
        ((fitTo kemPkSize coins).take 32 ++ ciphertext.take 32)) := by
  have same :
      (fitTo kemSkSize coins).take 32 = (fitTo kemPkSize coins).take 32 := by
    rw [take_fitTo (by decide), take_fitTo (by decide)]
  simp only [sampleSuite, same]

theorem aeadInverts_sampleSuite : AeadInverts sampleSuite := by
  intro key nonce aad plain
  have restored : sampleMask key (sampleMask key plain) = plain := by
    rw [sampleMask, sampleMask, List.map_map]
    refine (List.map_congr_left ?_).trans (List.map_id plain)
    intro byte _
    rw [Function.comp_apply, UInt8.xor_assoc, UInt8.xor_self, UInt8.xor_zero]
    rfl
  simp [sampleSuite, restored]

end PqComm
