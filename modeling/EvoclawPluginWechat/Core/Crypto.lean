import EvoclawPluginWechat.Core.Wire
import EvoclawPluginWechat.Library.Base64
import EvoclawPluginWechat.Library.Cbc

/-!
`wechat/crypto.rs` and `wechat/signature.rs`. AES-256 and SHA-1 are parameters of the
development, and so are the texts with which the crates below report an error.
-/
namespace EvoclawPluginWechat

/-- `[u8; 32]`. -/
structure AesKey where
  bytes : List UInt8
  size : bytes.length = 32
  deriving DecidableEq

/-- `[u8; 16]`. -/
abbrev AesBlock := Cbc.Block 16

structure CryptoCrates where
  aes256 : Cbc.BlockCipher AesKey 16
  sha1 : List UInt8 → List UInt8
  /-- The `DecodeError` for this text. -/
  base64Error : String → String
  unpadError : String
  /-- The `Utf8Error` for these bytes. -/
  utf8Error : List UInt8 → String

/-- `std::str::from_utf8`. -/
def fromUtf8 (bytes : List UInt8) : Option String := String.fromUTF8? bytes.toByteArray

/-- `(n as u32).to_be_bytes()`. -/
def toBeBytes (n : Nat) : List UInt8 :=
  [UInt8.ofNat (n / 2 ^ 24), UInt8.ofNat (n / 2 ^ 16), UInt8.ofNat (n / 2 ^ 8), UInt8.ofNat n]

def fromBeBytes (bytes : List UInt8) : Nat := bytes.foldl (fun n b => n * 256 + b.toNat) 0

def usizeCheckedAdd (a b : Nat) : Option Nat := if a + b < 2 ^ 64 then some (a + b) else none

namespace Crypto
variable (crates : CryptoCrates)

/-- The first 16 bytes of the key. -/
def iv (aesKey : AesKey) : AesBlock := ⟨aesKey.bytes.take 16, by simp [aesKey.size]⟩

def decodeAesKey (encodingAesKey : String) : Except PluginError AesKey :=
  if encodingAesKey.utf8ByteSize ≠ 43 then
    .error (.config ("EncodingAESKey must be 43 chars (got " ++
      toString encodingAesKey.utf8ByteSize ++ ")"))
  else
    let padded := encodingAesKey ++ "="
    match Base64.decode padded.toList with
    | none => .error (.config ("EncodingAESKey base64 decode: " ++ crates.base64Error padded))
    | some key =>
        if size : key.length = 32 then .ok ⟨key, size⟩
        else .error (.config ("decoded AES key must be 32 bytes (got " ++
          toString key.length ++ ")"))

/-- What `decrypt` makes of the plaintext: random bytes, the length, the message, the AppID. -/
def openFrame (plain : List UInt8) (expectedAppId : String) : Except PluginError String :=
  if plain.length < 20 then
    .error (.decryptFailed ("plaintext too short (" ++ toString plain.length ++ " bytes)"))
  else
    let msgLen := fromBeBytes ((plain.drop 16).take 4)
    let xmlStart := 20
    match usizeCheckedAdd xmlStart msgLen with
    | none => .error (.decryptFailed "msg_len overflow")
    | some xmlEnd =>
        if xmlEnd > plain.length then
          .error (.decryptFailed ("msg_len " ++ toString msgLen ++ " exceeds plaintext (" ++
            toString plain.length ++ " bytes)"))
        else
          let xmlBytes := (plain.take xmlEnd).drop xmlStart
          let appIdBytes := plain.drop xmlEnd
          match fromUtf8 xmlBytes with
          | none => .error (.decryptFailed ("utf-8: " ++ crates.utf8Error xmlBytes))
          | some xml =>
              match fromUtf8 appIdBytes with
              | none => .error (.decryptFailed ("app_id utf-8: " ++ crates.utf8Error appIdBytes))
              | some appId =>
                  if appId ≠ expectedAppId then
                    .error (.decryptFailed ("AppID mismatch: payload claims '" ++ appId ++
                      "', config says '" ++ expectedAppId ++ "'"))
                  else .ok xml

def decrypt (encryptB64 : String) (aesKey : AesKey) (expectedAppId : String) :
    Except PluginError String :=
  match Base64.decode encryptB64.toList with
  | none => .error (.decryptFailed ("base64: " ++ crates.base64Error encryptB64))
  | some cipher =>
      if cipher.length % 16 ≠ 0 ∨ cipher = [] then
        .error (.decryptFailed ("ciphertext length " ++ toString cipher.length ++
          " is not a positive 16-byte multiple"))
      else
        match Cbc.unpad 16 (Cbc.decrypt crates.aes256 aesKey (iv aesKey) cipher) with
        | none => .error (.decryptFailed ("cbc/pkcs7: " ++ crates.unpadError))
        | some plain => openFrame crates plain expectedAppId

/-- The plaintext of a message, before padding. -/
def frame (random : AesBlock) (xml appId : String) : List UInt8 :=
  let xmlBytes := utf8 xml.toList
  random.bytes ++ (toBeBytes xmlBytes.length ++ (xmlBytes ++ utf8 appId.toList))

/-- With the random bytes drawn. -/
def encrypt (random : AesBlock) (xml : String) (aesKey : AesKey) (appId : String) :
    Except PluginError String :=
  let cipher := Cbc.encrypt crates.aes256 aesKey (iv aesKey) (Cbc.pad 16 (frame random xml appId))
  .ok (String.ofList (Base64.encode cipher))

end Crypto

namespace Signature
variable (crates : CryptoCrates)

/-- `{b:02x}` for each byte. -/
def hex (bytes : List UInt8) : String :=
  String.ofList (bytes.flatMap fun b =>
    [Nat.digitChar (b.toNat / 16), Nat.digitChar (b.toNat % 16)])

def sha1Hex (bytes : List UInt8) : String := hex (crates.sha1 bytes)

/-- The parts in lexicographic order, put together and hashed. -/
def signatureOf (parts : List String) : String :=
  let sorted := parts.mergeSort fun a b => decide (a ≤ b)
  sha1Hex crates (utf8 (sorted.flatMap String.toList))

def plainSignature (token timestamp nonce : String) : String :=
  signatureOf crates [token, timestamp, nonce]

def msgSignature (token timestamp nonce encrypt : String) : String :=
  signatureOf crates [token, timestamp, nonce, encrypt]

/-- `u8::to_ascii_lowercase`. -/
def toAsciiLowercase (b : UInt8) : UInt8 := if 65 ≤ b ∧ b ≤ 90 then b + 32 else b

def verify (expected supplied : String) : Bool :=
  let expectedBytes := utf8 expected.toList
  let suppliedBytes := utf8 supplied.toList
  if expectedBytes.length ≠ suppliedBytes.length then false
  else
    let diff := (expectedBytes.zip suppliedBytes).foldl
      (fun diff b => diff ||| (toAsciiLowercase b.1 ^^^ toAsciiLowercase b.2)) 0
    diff == 0

theorem verify_self (s : String) : verify s s = true := by
  have zero : ∀ bytes : List UInt8, (bytes.zip bytes).foldl
      (fun diff b => diff ||| (toAsciiLowercase b.1 ^^^ toAsciiLowercase b.2)) 0 = 0 := by
    intro bytes
    induction bytes with
    | nil => rfl
    | cons b bytes ih =>
        rw [List.zip_cons_cons, List.foldl_cons, UInt8.xor_self, UInt8.or_self]
        exact ih
  simp [verify, zero]

end Signature
end EvoclawPluginWechat
