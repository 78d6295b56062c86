import EvoclawPluginWechat.Properties.StartUpChecks

/-!
The keys a key generator can produce, against the ones `decode_aes_key` takes: 43 symbols
are 258 bits, and the decoder wants zeros in the last two.
-/
namespace EvoclawPluginWechat

/-- 43 characters of the base64 alphabet. -/
def EncodingKey (key : String) : Prop :=
  key.toList.length = 43 ∧ ∀ c ∈ key.toList, Base64.isSymbol c = true

def keyBits (key : String) : List Bool := key.toList.flatMap Base64.symbolBits

/-- Every key decodes to its first 256 bits, and nothing else decodes. -/
def KeyLaw (crates : CryptoCrates) (key : String) : Prop :=
  (EncodingKey key → ∃ aesKey, Crypto.decodeAesKey crates key = .ok aesKey ∧
    aesKey.bytes.flatMap Base64.byteBits = (keyBits key).take 256) ∧
  (¬ EncodingKey key → ∃ e, Crypto.decodeAesKey crates key = .error e)

theorem utf8ByteSize_of_encodingKey {key : String} (h : EncodingKey key) :
    key.utf8ByteSize = 43 := by
  have size : (String.ofList key.toList).utf8ByteSize = key.toList.length :=
    utf8ByteSize_ofList fun c hc => .inl (h.2 c hc)
  rwa [String.ofList_toList, h.1] at size

theorem encodingKey_of_canonical {key : String} (size : key.utf8ByteSize = 43)
    (h : CanonicalKey key) : EncodingKey key := by
  have length : (String.ofList key.toList).utf8ByteSize = key.toList.length :=
    utf8ByteSize_ofList fun c hc => .inl (h.symbols c hc)
  rw [String.ofList_toList, size] at length
  exact ⟨length.symm, h.symbols⟩

theorem decodeAesKey_size {crates : CryptoCrates} {key : String} {aesKey : AesKey}
    (h : Crypto.decodeAesKey crates key = .ok aesKey) : key.utf8ByteSize = 43 := by
  by_contra other
  rw [Crypto.decodeAesKey, if_pos other] at h
  cases h

theorem decode_of_decodeAesKey {crates : CryptoCrates} {key : String} {aesKey : AesKey}
    (h : Crypto.decodeAesKey crates key = .ok aesKey) :
    Base64.decode (key.toList ++ ['=']) = some aesKey.bytes := by
  have padded : (key ++ "=").toList = key.toList ++ ['='] := String.toList_append
  rw [Crypto.decodeAesKey, if_neg (not_not_intro (decodeAesKey_size h))] at h
  simp only [padded] at h
  cases bytes : Base64.decode (key.toList ++ ['=']) with
  | none =>
      rw [bytes] at h
      cases h
  | some bs =>
      rw [bytes] at h
      simp only at h
      split_ifs at h
      cases h
      rfl

theorem decodeAesKey_ok {crates : CryptoCrates} {key : String} {aesKey : AesKey}
    (h : Crypto.decodeAesKey crates key = .ok aesKey) :
    EncodingKey key ∧ aesKey.bytes.flatMap Base64.byteBits = (keyBits key).take 256 := by
  have size := decodeAesKey_size h
  have encoding := encodingKey_of_canonical size ((decodeAesKey_iff crates size).mp ⟨aesKey, h⟩)
  exact ⟨encoding,
    Base64.decode_unpadded_bits (n := 10) encoding.1 (decode_of_decodeAesKey h) aesKey.size⟩

theorem error_of_not_ok {ε α : Type} {result : Except ε α} (h : ¬ ∃ a, result = .ok a) :
    ∃ e, result = .error e := by
  cases result with
  | ok a => exact absurd ⟨a, rfl⟩ h
  | error e => exact ⟨e, rfl⟩

theorem canonicalKey_iff {key : String} (h : EncodingKey key) :
    CanonicalKey key ↔ ∀ v, key.toList.getLast?.bind Base64.value = some v → v % 4 = 0 := by
  constructor
  · rintro ⟨_, v, last, zeros⟩ w same
    obtain rfl := Option.some.inj (last.symm.trans same)
    exact zeros
  · intro zeros
    have nonempty : key.toList ≠ [] := by
      intro empty
      have := h.1
      rw [empty] at this
      cases this
    have symbol := h.2 _ (List.getLast_mem nonempty)
    rw [← Base64.isSome_value, Option.isSome_iff_exists] at symbol
    obtain ⟨v, value⟩ := symbol
    have last : key.toList.getLast?.bind Base64.value = some v := by
      rw [List.getLast?_eq_getLast_of_ne_nil nonempty, Option.bind_some, value]
    exact ⟨h.2, v, last, zeros v last⟩

/-- The law is that of all strings but the keys with bits left over. -/
theorem key_decodes_iff (crates : CryptoCrates) (key : String) :
    KeyLaw crates key ↔ (EncodingKey key →
      ∀ v, key.toList.getLast?.bind Base64.value = some v → v % 4 = 0) := by
  constructor
  · rintro ⟨decodes, _⟩ encoding
    obtain ⟨aesKey, decoded, _⟩ := decodes encoding
    rw [← canonicalKey_iff encoding, ← decodeAesKey_iff crates
      (utf8ByteSize_of_encodingKey encoding)]
    exact ⟨aesKey, decoded⟩
  · intro zeros
    constructor
    · intro encoding
      have canonical := (canonicalKey_iff encoding).mpr (zeros encoding)
      obtain ⟨aesKey, decoded⟩ :=
        (decodeAesKey_iff crates (utf8ByteSize_of_encodingKey encoding)).mpr canonical
      exact ⟨aesKey, decoded, (decodeAesKey_ok decoded).2⟩
    · intro other
      apply error_of_not_ok
      rintro ⟨aesKey, decoded⟩
      exact other (decodeAesKey_ok decoded).1

def looseKey : String := "AAAAAAAAAAAAAAAAAAAAAAAAAAAAAAAAAAAAAAAAAAB"

theorem looseKey_rejected : EncodingKey looseKey ∧ ∀ crates,
    (∃ e, Crypto.decodeAesKey crates looseKey = .error e) ∧ ¬ KeyLaw crates looseKey := by
  have encoding : EncodingKey looseKey := ⟨rfl, List.all_eq_true.mp rfl⟩
  have rejected : ∀ crates, ¬ ∃ aesKey, Crypto.decodeAesKey crates looseKey = .ok aesKey := by
    intro crates ok
    have zeros := (canonicalKey_iff encoding).mp
      ((decodeAesKey_iff crates (utf8ByteSize_of_encodingKey encoding)).mp ok)
    exact absurd (zeros 1 (by decide)) (by decide)
  refine ⟨encoding, fun crates => ⟨error_of_not_ok (rejected crates), fun law => ?_⟩⟩
  obtain ⟨aesKey, decoded, _⟩ := law.1 encoding
  exact rejected crates ⟨aesKey, decoded⟩

end EvoclawPluginWechat
