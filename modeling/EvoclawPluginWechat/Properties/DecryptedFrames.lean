import EvoclawPluginWechat.Core.Caches
import EvoclawPluginWechat.Properties.MessageFrames

/-!
`decrypt` as a whole: the texts it accepts, the one kind of error it gives for all others,
and its slices, which stay inside their buffers.
-/
namespace EvoclawPluginWechat

/-- `&bytes[start..stop]`, where `none` is the panic. -/
def byteSlice (bytes : List UInt8) (start stop : Nat) : Option (List UInt8) :=
  if start ≤ stop ∧ stop ≤ bytes.length then some ((bytes.take stop).drop start) else none

theorem byteSlice_of_le {bytes : List UInt8} {start stop : Nat} (order : start ≤ stop)
    (inside : stop ≤ bytes.length) :
    byteSlice bytes start stop = some ((bytes.take stop).drop start) :=
  if_pos ⟨order, inside⟩

namespace Crypto

section Indexed
variable (crates : CryptoCrates)

/-- `openFrame` with the indices and slices of the source, each of which may panic. -/
def openFrameIndexed (plain : List UInt8) (expectedAppId : String) :
    Outcome (Except PluginError String) :=
  if plain.length < 20 then
    .returned (.error (.decryptFailed
      ("plaintext too short (" ++ toString plain.length ++ " bytes)")))
  else
    match plain[16]?, plain[17]?, plain[18]?, plain[19]? with
    | some a, some b, some c, some d =>
        let msgLen := fromBeBytes [a, b, c, d]
        let xmlStart := 20
        match usizeCheckedAdd xmlStart msgLen with
        | none => .returned (.error (.decryptFailed "msg_len overflow"))
        | some xmlEnd =>
            if xmlEnd > plain.length then
              .returned (.error (.decryptFailed ("msg_len " ++ toString msgLen ++
                " exceeds plaintext (" ++ toString plain.length ++ " bytes)")))
            else
              match byteSlice plain xmlStart xmlEnd with
              | none => .panicked
              | some xmlBytes =>
                  match fromUtf8 xmlBytes with
                  | none => .returned (.error (.decryptFailed
                      ("utf-8: " ++ crates.utf8Error xmlBytes)))
                  | some xml =>
                      match byteSlice plain xmlEnd plain.length with
                      | none => .panicked
                      | some appIdBytes =>
                          match fromUtf8 appIdBytes with
                          | none => .returned (.error (.decryptFailed
                              ("app_id utf-8: " ++ crates.utf8Error appIdBytes)))
                          | some appId =>
                              if appId ≠ expectedAppId then
                                .returned (.error (.decryptFailed
                                  ("AppID mismatch: payload claims '" ++ appId ++
                                    "', config says '" ++ expectedAppId ++ "'")))
                              else .returned (.ok xml)
    | _, _, _, _ => .panicked

/-- The same for `decrypt`: the initialisation vector is a slice of the key, and must be of
the size of a block. -/
def decryptIndexed (encryptB64 : String) (aesKey : AesKey) (expectedAppId : String) :
    Outcome (Except PluginError String) :=
  match Base64.decode encryptB64.toList with
  | none => .returned (.error (.decryptFailed ("base64: " ++ crates.base64Error encryptB64)))
  | some cipher =>
      if cipher.length % 16 ≠ 0 ∨ cipher = [] then
        .returned (.error (.decryptFailed ("ciphertext length " ++ toString cipher.length ++
          " is not a positive 16-byte multiple")))
      else
        match byteSlice aesKey.bytes 0 16 with
        | none => .panicked
        | some ivBytes =>
            if size : ivBytes.length = 16 then
              match Cbc.unpad 16 (Cbc.decrypt crates.aes256 aesKey ⟨ivBytes, size⟩ cipher) with
              | none => .returned (.error (.decryptFailed ("cbc/pkcs7: " ++ crates.unpadError)))
              | some plain => openFrameIndexed crates plain expectedAppId
            else .panicked

end Indexed

variable {crates : CryptoCrates}

theorem lengthBytes_of_long {plain : List UInt8} (long : 20 ≤ plain.length) :
    ∃ a b c d, (plain.drop 16).take 4 = [a, b, c, d] ∧ plain[16]? = some a ∧
      plain[17]? = some b ∧ plain[18]? = some c ∧ plain[19]? = some d := by
  have size : ((plain.drop 16).take 4).length = 4 := by
    rw [List.length_take, List.length_drop]
    omega
  obtain ⟨a, b, c, d, four⟩ := List.length_eq_four.mp size
  have byteAt : ∀ i, i < 4 → plain[16 + i]? = [a, b, c, d][i]? := by
    intro i small
    rw [← four, List.getElem?_take_of_lt small, List.getElem?_drop]
  exact ⟨a, b, c, d, four, byteAt 0 (by omega), byteAt 1 (by omega), byteAt 2 (by omega),
    byteAt 3 (by omega)⟩

theorem openFrameIndexed_eq (plain : List UInt8) (expectedAppId : String) :
    openFrameIndexed crates plain expectedAppId =
      .returned (openFrame crates plain expectedAppId) := by
  unfold openFrameIndexed openFrame
  by_cases short : plain.length < 20
  · rw [if_pos short, if_pos short]
  · obtain ⟨a, b, c, d, four, ha, hb, hc, hd⟩ := lengthBytes_of_long (Nat.not_lt.mp short)
    simp only [if_neg short, ha, hb, hc, hd, four]
    have word := fromBeBytes_lt a b c d
    have noOverflow : usizeCheckedAdd 20 (fromBeBytes [a, b, c, d]) =
        some (20 + fromBeBytes [a, b, c, d]) := if_pos (by omega)
    simp only [noOverflow]
    by_cases fits : 20 + fromBeBytes [a, b, c, d] > plain.length
    · rw [if_pos fits, if_pos fits]
    · rw [if_neg fits, if_neg fits, byteSlice_of_le (by omega) (Nat.not_lt.mp fits),
        byteSlice_of_le (Nat.not_lt.mp fits) (Nat.le_refl _), List.take_length]
      simp only
      cases fromUtf8 ((plain.take (20 + fromBeBytes [a, b, c, d])).drop 20) with
      | none => rfl
      | some xml =>
          cases fromUtf8 (plain.drop (20 + fromBeBytes [a, b, c, d])) with
          | none => rfl
          | some appId =>
              simp only
              split_ifs
              · rfl
              · rfl

theorem decryptIndexed_eq (encryptB64 : String) (aesKey : AesKey) (expectedAppId : String) :
    decryptIndexed crates encryptB64 aesKey expectedAppId =
      .returned (decrypt crates encryptB64 aesKey expectedAppId) := by
  unfold decryptIndexed decrypt
  cases Base64.decode encryptB64.toList with
  | none => rfl
  | some cipher =>
      simp only
      by_cases ragged : cipher.length % 16 ≠ 0 ∨ cipher = []
      · rw [if_pos ragged, if_pos ragged]
      · have first : byteSlice aesKey.bytes 0 16 = some (iv aesKey).bytes :=
          byteSlice_of_le (by omega) (by rw [aesKey.size]; omega)
        rw [if_neg ragged, if_neg ragged, first]
        simp only [dif_pos (iv aesKey).size]
        cases Cbc.unpad 16 (Cbc.decrypt crates.aes256 aesKey (iv aesKey) cipher) with
        | none => rfl
        | some plain => exact openFrameIndexed_eq plain expectedAppId

/-- The text is base64 of whole blocks, and what they decrypt to is a frame of the message. -/
def Framed (crates : CryptoCrates) (encryptB64 : String) (aesKey : AesKey)
    (expectedAppId xml : String) : Prop :=
  ∃ cipher, Base64.decode encryptB64.toList = some cipher ∧ cipher ≠ [] ∧ 16 ∣ cipher.length ∧
    ∃ (random body : List UInt8) (n : Nat),
      Cbc.unpad 16 (Cbc.decrypt crates.aes256 aesKey (iv aesKey) cipher) =
        some (random ++ (toBeBytes n ++ (body ++ utf8 expectedAppId.toList))) ∧
      random.length = 16 ∧ n < 2 ^ 32 ∧ n = body.length ∧ body = utf8 xml.toList

theorem openFrame_ok_iff_split {plain : List UInt8} {expectedAppId xml : String} :
    openFrame crates plain expectedAppId = .ok xml ↔
      ∃ (random body : List UInt8) (n : Nat),
        plain = random ++ (toBeBytes n ++ (body ++ utf8 expectedAppId.toList)) ∧
        random.length = 16 ∧ n < 2 ^ 32 ∧ n = body.length ∧ body = utf8 xml.toList := by
  rw [openFrame_ok_iff]
  constructor
  · rintro ⟨word, random, rfl⟩
    exact ⟨random.bytes, utf8 xml.toList, _, rfl, random.size, word, rfl, rfl⟩
  · rintro ⟨random, body, n, rfl, size, word, rfl, rfl⟩
    exact ⟨word, ⟨random, size⟩, rfl⟩

theorem decrypt_ok_iff {encryptB64 : String} {aesKey : AesKey} {expectedAppId xml : String} :
    decrypt crates encryptB64 aesKey expectedAppId = .ok xml ↔
      Framed crates encryptB64 aesKey expectedAppId xml := by
  unfold Framed decrypt
  cases Base64.decode encryptB64.toList with
  | none => simp
  | some cipher =>
      simp only [Option.some.injEq, exists_eq_left']
      by_cases ragged : cipher.length % 16 ≠ 0 ∨ cipher = []
      · rw [if_pos ragged]
        refine ⟨fun h => (by cases h), ?_⟩
        rintro ⟨nonempty, whole, _⟩
        obtain odd | empty := ragged
        · exact absurd (Nat.mod_eq_zero_of_dvd whole) odd
        · exact absurd empty nonempty
      · have whole : 16 ∣ cipher.length := Nat.dvd_of_mod_eq_zero (by tauto)
        have nonempty : cipher ≠ [] := fun empty => ragged (.inr empty)
        rw [if_neg ragged, and_iff_right nonempty, and_iff_right whole]
        cases Cbc.unpad 16 (Cbc.decrypt crates.aes256 aesKey (iv aesKey) cipher) with
        | none => simp
        | some plain =>
            simp only [Option.some.injEq]
            exact openFrame_ok_iff_split

theorem openFrame_error {plain : List UInt8} {expectedAppId : String} {e : PluginError}
    (h : openFrame crates plain expectedAppId = .error e) :
    ∃ reason, e = .decryptFailed reason := by
  unfold openFrame at h
  simp only at h
  split at h
  · exact ⟨_, (Except.error.inj h).symm⟩
  split at h
  · exact ⟨_, (Except.error.inj h).symm⟩
  split at h
  · exact ⟨_, (Except.error.inj h).symm⟩
  split at h
  · exact ⟨_, (Except.error.inj h).symm⟩
  split at h
  · exact ⟨_, (Except.error.inj h).symm⟩
  split at h
  · exact ⟨_, (Except.error.inj h).symm⟩
  · cases h

theorem decrypt_error {encryptB64 : String} {aesKey : AesKey} {expectedAppId : String}
    {e : PluginError} (h : decrypt crates encryptB64 aesKey expectedAppId = .error e) :
    ∃ reason, e = .decryptFailed reason := by
  unfold decrypt at h
  split at h
  · exact ⟨_, (Except.error.inj h).symm⟩
  split at h
  · exact ⟨_, (Except.error.inj h).symm⟩
  split at h
  · exact ⟨_, (Except.error.inj h).symm⟩
  · exact openFrame_error h

/-- Exactly the frames are accepted, all else is one kind of error, and nothing panics. -/
theorem decrypt_accepts_frames (crates : CryptoCrates) (encryptB64 : String) (aesKey : AesKey)
    (expectedAppId : String) :
    (∀ xml, decrypt crates encryptB64 aesKey expectedAppId = .ok xml ↔
      Framed crates encryptB64 aesKey expectedAppId xml) ∧
    ((¬ ∃ xml, Framed crates encryptB64 aesKey expectedAppId xml) →
      ∃ reason, decrypt crates encryptB64 aesKey expectedAppId =
        .error (.decryptFailed reason)) ∧
    decryptIndexed crates encryptB64 aesKey expectedAppId =
      .returned (decrypt crates encryptB64 aesKey expectedAppId) := by
  refine ⟨fun xml => decrypt_ok_iff, fun unframed => ?_, decryptIndexed_eq _ _ _⟩
  cases result : decrypt crates encryptB64 aesKey expectedAppId with
  | ok xml => exact absurd ⟨xml, decrypt_ok_iff.mp result⟩ unframed
  | error e =>
      obtain ⟨reason, rfl⟩ := decrypt_error result
      exact ⟨reason, rfl⟩

end Crypto
end EvoclawPluginWechat
