import EvoclawPluginWechat.Core.Crypto

/-!
The plaintext frame of an encrypted message: what `decrypt` accepts, and what it makes of
a message that was padded for another block length than its own.
-/
namespace EvoclawPluginWechat

theorem toByteArray_inj {xs ys : List UInt8} : xs.toByteArray = ys.toByteArray ↔ xs = ys := by
  constructor
  · intro same
    simpa using congrArg ByteArray.data same
  · rintro rfl
    rfl

theorem fromUtf8_eq_some {bytes : List UInt8} {s : String} :
    fromUtf8 bytes = some s ↔ bytes = utf8 s.toList := by
  have encoded : (utf8 s.toList).toByteArray = s.toByteArray := String.utf8Encode_toList
  rw [← toByteArray_inj, encoded, fromUtf8, String.fromUTF8?]
  split
  · next valid =>
      rw [Option.some.injEq, ← String.toByteArray_inj]
      rfl
  · next invalid =>
      refine ⟨fun h => (by cases h), fun same => ?_⟩
      rw [same] at invalid
      exact absurd s.isValidUTF8 invalid

section BeBytes

theorem fromBeBytes_lt (a b c d : UInt8) : fromBeBytes [a, b, c, d] < 2 ^ 32 := by
  have := a.toNat_lt
  have := b.toNat_lt
  have := c.toNat_lt
  have := d.toNat_lt
  simp only [fromBeBytes, List.foldl_cons, List.foldl_nil]
  omega

theorem fromBeBytes_toBeBytes {n : Nat} (h : n < 2 ^ 32) : fromBeBytes (toBeBytes n) = n := by
  simp only [fromBeBytes, toBeBytes, List.foldl_cons, List.foldl_nil, UInt8.toNat_ofNat']
  omega

theorem toBeBytes_fromBeBytes (a b c d : UInt8) :
    toBeBytes (fromBeBytes [a, b, c, d]) = [a, b, c, d] := by
  have ha := a.toNat_lt
  have hb := b.toNat_lt
  have hc := c.toNat_lt
  have hd := d.toNat_lt
  simp only [toBeBytes, fromBeBytes, List.foldl_cons, List.foldl_nil, List.cons.injEq, and_true,
    ← UInt8.toNat_inj, UInt8.toNat_ofNat']
  omega

theorem length_toBeBytes (n : Nat) : (toBeBytes n).length = 4 := rfl

end BeBytes

namespace Crypto
variable {crates : CryptoCrates}

theorem openFrame_split {random : AesBlock} {four rest : List UInt8} (size : four.length = 4)
    {expectedAppId xml : String} (word : fromBeBytes four < 2 ^ 32) :
    openFrame crates (random.bytes ++ (four ++ rest)) expectedAppId = .ok xml ↔
      fromBeBytes four ≤ rest.length ∧ rest.take (fromBeBytes four) = utf8 xml.toList ∧
        rest.drop (fromBeBytes four) = utf8 expectedAppId.toList := by
  have length : (random.bytes ++ (four ++ rest)).length = 20 + rest.length := by
    rw [List.length_append, List.length_append, random.size, size]
    omega
  have header : ((random.bytes ++ (four ++ rest)).drop 16).take 4 = four := by
    rw [List.drop_left' random.size, List.take_left' size]
  have body : (random.bytes ++ (four ++ rest)).drop 20 = rest := by
    rw [← List.append_assoc, List.drop_left' (by rw [List.length_append, random.size, size])]
  have noOverflow : usizeCheckedAdd 20 (fromBeBytes four) = some (20 + fromBeBytes four) :=
    if_pos (by omega)
  simp only [openFrame, length, header, noOverflow, List.drop_take, Nat.add_sub_cancel_left,
    ← List.drop_drop, body]
  rw [if_neg (by omega)]
  by_cases fits : fromBeBytes four ≤ rest.length
  · rw [if_neg (by omega), ← fromUtf8_eq_some, ← fromUtf8_eq_some]
    cases fromUtf8 (rest.take (fromBeBytes four)) with
    | none => simp
    | some x =>
        cases fromUtf8 (rest.drop (fromBeBytes four)) with
        | none => simp
        | some appId =>
            by_cases same : appId = expectedAppId
            · simp [same, fits]
            · simp [same]
  · rw [if_pos (by omega)]
    simp [fits]

/-- The plaintexts `decrypt` accepts, and nothing else. -/
theorem openFrame_ok_iff {plain : List UInt8} {expectedAppId xml : String} :
    openFrame crates plain expectedAppId = .ok xml ↔
      (utf8 xml.toList).length < 2 ^ 32 ∧
      ∃ random : AesBlock, plain = frame random xml expectedAppId := by
  constructor
  · intro ok
    have long : 20 ≤ plain.length := by
      by_contra short
      rw [openFrame, if_pos (by omega)] at ok
      cases ok
    have size : ((plain.drop 16).take 4).length = 4 := by
      rw [List.length_take, List.length_drop]
      omega
    let random : AesBlock := ⟨plain.take 16, by rw [List.length_take]; omega⟩
    have split : plain = random.bytes ++ ((plain.drop 16).take 4 ++ (plain.drop 16).drop 4) := by
      rw [List.take_append_drop, List.take_append_drop]
    obtain ⟨a, b, c, d, four⟩ : ∃ a b c d, (plain.drop 16).take 4 = [a, b, c, d] :=
      List.length_eq_four.mp size
    rw [split, openFrame_split size (by rw [four]; exact fromBeBytes_lt a b c d)] at ok
    obtain ⟨fits, xmlBytes, appIdBytes⟩ := ok
    have count : (utf8 xml.toList).length = fromBeBytes [a, b, c, d] := by
      rw [← xmlBytes, List.length_take, four]
      rw [four] at fits
      omega
    refine ⟨count ▸ fromBeBytes_lt a b c d, random, ?_⟩
    rw [frame, count, toBeBytes_fromBeBytes, ← xmlBytes, ← appIdBytes, List.take_append_drop,
      ← four]
    exact split
  · rintro ⟨word, random, rfl⟩
    have value := fromBeBytes_toBeBytes word
    rw [frame, openFrame_split (length_toBeBytes _) (by rw [value]; exact word), value]
    refine ⟨?_, List.take_left, List.drop_left⟩
    rw [List.length_append]
    omega

theorem decrypt_encode {cipher : List UInt8} {aesKey : AesKey} {expectedAppId : String}
    (nonempty : cipher ≠ []) (whole : 16 ∣ cipher.length) :
    decrypt crates (String.ofList (Base64.encode cipher)) aesKey expectedAppId =
      match Cbc.unpad 16 (Cbc.decrypt crates.aes256 aesKey (iv aesKey) cipher) with
      | none => .error (.decryptFailed ("cbc/pkcs7: " ++ crates.unpadError))
      | some plain => openFrame crates plain expectedAppId := by
  have blocks : ¬ (cipher.length % 16 ≠ 0 ∨ cipher = []) := by
    rintro (ragged | empty)
    · exact ragged (Nat.mod_eq_zero_of_dvd whole)
    · exact nonempty empty
  rw [decrypt, String.toList_ofList, Base64.decode_encode]
  exact if_neg blocks

/-- The frame as a sender encrypts it who pads to a multiple of `k` bytes. -/
def sealed (crates : CryptoCrates) (k : Nat) (random : AesBlock) (xml : String) (aesKey : AesKey)
    (appId : String) : String :=
  String.ofList (Base64.encode
    (Cbc.encrypt crates.aes256 aesKey (iv aesKey) (Cbc.pad k (frame random xml appId))))

theorem length_frame (random : AesBlock) (xml appId : String) :
    (frame random xml appId).length =
      20 + ((utf8 xml.toList).length + (utf8 appId.toList).length) := by
  simp only [frame, List.length_append, random.size, length_toBeBytes]
  omega

theorem decrypt_sealed {k : Nat} (blocks : 16 ∣ k) (pos : 0 < k) (byte : k < 256)
    (random : AesBlock) (xml : String) (aesKey : AesKey) (appId expectedAppId : String) :
    decrypt crates (sealed crates k random xml aesKey appId) aesKey expectedAppId =
      if Cbc.padLength k (frame random xml appId) ≤ 16 then
        openFrame crates (frame random xml appId) expectedAppId
      else .error (.decryptFailed ("cbc/pkcs7: " ++ crates.unpadError)) := by
  have whole := Nat.dvd_trans blocks (Cbc.dvd_length_pad pos (frame random xml appId))
  have length := Cbc.length_encrypt crates.aes256 aesKey (iv aesKey) whole
  have nonempty : Cbc.encrypt crates.aes256 aesKey (iv aesKey)
      (Cbc.pad k (frame random xml appId)) ≠ [] := by
    intro empty
    rw [empty, Cbc.pad, List.length_append, length_frame, List.length_nil] at length
    omega
  rw [sealed, decrypt_encode nonempty (length ▸ whole), Cbc.decrypt_encrypt _ _ (by decide) _ whole,
    Cbc.unpad_pad 16 pos byte]
  split_ifs
  · rfl
  · rfl

/-- The platform pads a message to a multiple of 32 bytes. -/
def wechatSealed (crates : CryptoCrates) (random : AesBlock) (xml : String) (aesKey : AesKey)
    (appId : String) : String :=
  sealed crates 32 random xml aesKey appId

/-- A message of the platform is decrypted exactly when its padding is one that a block of
16 bytes can have. -/
theorem decrypt_wechatSealed_iff (random : AesBlock) (xml : String) (aesKey : AesKey)
    (appId : String) :
    decrypt crates (wechatSealed crates random xml aesKey appId) aesKey appId = .ok xml ↔
      (utf8 xml.toList).length < 2 ^ 32 ∧
        16 ≤ (20 + (utf8 xml.toList).length + (utf8 appId.toList).length) % 32 := by
  have room : Cbc.padLength 32 (frame random xml appId) ≤ 16 ↔
      16 ≤ (20 + (utf8 xml.toList).length + (utf8 appId.toList).length) % 32 := by
    rw [Cbc.padLength, length_frame, Nat.add_assoc]
    omega
  rw [wechatSealed, decrypt_sealed (by decide) (by decide) (by decide), ← room]
  split_ifs with fits
  · rw [openFrame_ok_iff, and_iff_left ⟨random, rfl⟩, and_iff_left fits]
  · simp [fits]

/-- The padding of this message is 24 bytes long. -/
theorem wechatSealed_rejected : ∃ xml appId : String,
    xml = "<xml><MsgType>text</MsgType></xml>" ∧ appId = "wx1234567890abcdef" ∧
      ∀ crates random aesKey, decrypt crates (wechatSealed crates random xml aesKey appId) aesKey
        appId = .error (.decryptFailed ("cbc/pkcs7: " ++ crates.unpadError)) := by
  refine ⟨_, _, rfl, rfl, fun crates random aesKey => ?_⟩
  have long : ¬ Cbc.padLength 32 (frame random "<xml><MsgType>text</MsgType></xml>"
      "wx1234567890abcdef") ≤ 16 := by
    rw [Cbc.padLength, length_frame]
    decide
  rw [wechatSealed, decrypt_sealed (by decide) (by decide) (by decide), if_neg long]

end Crypto
end EvoclawPluginWechat
