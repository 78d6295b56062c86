import EvoclawPluginWechat.Core.Webhook
import EvoclawPluginWechat.Properties.MessageFrames
import EvoclawPluginWechat.Properties.ReplyEnvelopes

/-!
The envelope of an encrypted reply, read with the inbound path: the string search finds the
text that was signed, the signature verifies, and the text decrypts to the reply.
-/
namespace EvoclawPluginWechat
open Xml

section Characters

/-- A character that is in no markup and that `trim` leaves alone. -/
def Plain (c : Char) : Prop := c ≠ '<' ∧ c ≠ '>' ∧ isWhitespace c = false

instance (c : Char) : Decidable (Plain c) := inferInstanceAs (Decidable (_ ∧ _))

theorem plain_digitChar {n : Nat} (h : n < 16) : Plain (Nat.digitChar n) := by
  have all : ∀ n < 16, Plain (Nat.digitChar n) := by decide
  exact all n h

theorem plain_hex (bytes : List UInt8) : ∀ c ∈ (Signature.hex bytes).toList, Plain c := by
  intro c h
  rw [Signature.hex, String.toList_ofList, List.mem_flatMap] at h
  obtain ⟨b, _, hc⟩ := h
  have := b.toNat_lt
  simp only [List.mem_cons, List.not_mem_nil, or_false] at hc
  obtain rfl | rfl := hc
  · exact plain_digitChar (by omega)
  · exact plain_digitChar (by omega)

theorem plain_hex16 (n : UInt64) : ∀ c ∈ (Webhook.hex16 n).toList, Plain c := by
  intro c h
  rw [Webhook.hex16, String.toList_ofList, List.mem_map] at h
  obtain ⟨i, _, rfl⟩ := h
  exact plain_digitChar (by omega)

theorem plain_encode (bytes : List UInt8) : ∀ c ∈ Base64.encode bytes, Plain c :=
  Base64.forall_mem_encode (by decide) (by decide) bytes

theorem trim_plain {cs : List Char} (h : ∀ c ∈ cs, Plain c) : trim cs = cs := by
  apply trim_eq_self
  · exact fun c hc => (h c (List.mem_of_head? hc)).2.2
  · exact fun c hc => (h c (List.mem_of_getLast? hc)).2.2

end Characters

namespace Webhook
variable {crates : CryptoCrates}

def inSection (cs : List Char) : List Char := '<' :: (cdataStart ++ (cs ++ cdataEnd))

theorem stripCdata_inSection (cs : List Char) : stripCdata (inSection cs) = cs := by
  have opened : (inSection cs).dropPrefix? ('<' :: cdataStart) = some (cs ++ cdataEnd) :=
    List.dropPrefix?_append_of_beq (cs ++ cdataEnd) (BEq.rfl (a := '<' :: cdataStart))
  have closed : (cs ++ cdataEnd).dropSuffix? cdataEnd = some cs :=
    List.dropSuffix?_eq_some_iff.mpr ⟨cdataEnd, rfl, BEq.rfl⟩
  rw [stripCdata, opened, Option.bind_some, closed, Option.getD_some]

theorem trim_inSection (cs : List Char) : trim (inSection cs) = inSection cs := by
  apply trim_eq_self
  · intro c hc
    obtain rfl : '<' = c := Option.some.inj hc
    decide
  · intro c hc
    have ends : inSection cs = ('<' :: (cdataStart ++ (cs ++ [']', ']']))) ++ ['>'] := by
      simp [inSection, cdataEnd]
    rw [ends, List.getLast?_concat] at hc
    obtain rfl : '>' = c := Option.some.inj hc
    decide

/-- A document whose first child is an Encrypt element with this text in CDATA. -/
def firstEncrypt (text rest : List Char) : List Char :=
  '<' :: (['x', 'm', 'l', '>'] ++ (openTag ++ (inSection text ++ (closeTag ++ rest))))

theorem find_after_root {q : Char} {pat : List Char} (different : 'x' ≠ q) (ys : List Char) :
    Pattern.find ('<' :: q :: pat) ('<' :: (['x', 'm', 'l', '>'] ++ ys)) =
      (Pattern.find ('<' :: q :: pat) ys).map (· + 5) :=
  Pattern.find_segment (by decide) (by simp [different])

section Search
variable {text : List Char} (rest : List Char)

theorem find_openTag : Pattern.find openTag (firstEncrypt text rest) = some 5 := by
  rw [firstEncrypt, openTag, find_after_root (by decide), Pattern.find_of_start ⟨_, rfl⟩]
  rfl

theorem find_openTag_end : Pattern.find ['>'] ((firstEncrypt text rest).drop 5) = some 8 := by
  change Pattern.find ['>'] (['<', 'E', 'n', 'c', 'r', 'y', 'p', 't'] ++
    (['>'] ++ (inSection text ++ (closeTag ++ rest)))) = _
  rw [Pattern.find_append (by decide), Pattern.find_of_start ⟨_, rfl⟩]
  rfl

theorem find_closeTag (plain : ∀ c ∈ text, Plain c) :
    Pattern.find closeTag (firstEncrypt text rest) = some (14 + (inSection text).length) := by
  have bare : '<' ∉ cdataStart ++ (text ++ cdataEnd) := by
    simp only [List.mem_append, not_or]
    exact ⟨by decide, fun inText => (plain _ inText).1 rfl, by decide⟩
  rw [firstEncrypt, closeTag, find_after_root (by decide)]
  change (Pattern.find _ ('<' :: (['E', 'n', 'c', 'r', 'y', 'p', 't', '>'] ++
    ('<' :: ((cdataStart ++ (text ++ cdataEnd)) ++ (closeTag ++ rest)))))).map _ = _
  rw [Pattern.find_segment (by decide) (by simp), Pattern.find_segment bare (by simp [cdataStart]),
    ← closeTag, Pattern.find_of_start ⟨rest, rfl⟩]
  simp [inSection]
  omega

theorem between_tags : ((firstEncrypt text rest).take (14 + (inSection text).length)).drop 14 =
    inSection text := by
  have front : firstEncrypt text rest = ('<' :: (['x', 'm', 'l', '>'] ++ openTag)) ++
      (inSection text ++ (closeTag ++ rest)) := by simp [firstEncrypt]
  have fourteen : ('<' :: (['x', 'm', 'l', '>'] ++ openTag)).length = 14 := rfl
  rw [List.drop_take, Nat.add_sub_cancel_left, front, List.drop_left' fourteen, List.take_left]

end Search

theorem extractEncryptElement_first {text : List Char} (plain : ∀ c ∈ text, Plain c)
    {body : String} {rest : List Char} (shape : body.toList = firstEncrypt text rest) :
    extractEncryptElement body = .ok (String.ofList text) := by
  simp only [extractEncryptElement, shape, find_openTag, find_closeTag rest plain,
    find_openTag_end, Option.some_or]
  rw [if_neg (by omega)]
  change Except.ok (String.ofList (trim (stripCdata (trim
    (((firstEncrypt text rest).take (14 + (inSection text).length)).drop 14))))) = _
  rw [between_tags, trim_inSection, stripCdata_inSection, trim_plain plain]

/-- What is inside the `<xml>` of an encrypted reply. -/
def envelopeFields (encrypt sig : String) (ts : Int) (nonce : String) : List Token :=
  textField "Encrypt" encrypt ++ (textField "MsgSignature" sig ++
    (numberField "TimeStamp" ts ++ (textField "Nonce" nonce ++ [])))

theorem content_envelopeFields (encrypt sig : String) (ts : Int) (nonce : String) :
    Content (envelopeFields encrypt sig ts nonce) []
      [leaf "Encrypt" encrypt, leaf "MsgSignature" sig, leaf "TimeStamp" (toString ts),
        leaf "Nonce" nonce] := by
  apply content_textField (by decide)
  apply content_textField (by decide)
  apply content_numberField (by decide)
  exact content_textField (by decide) .nil

theorem escapeCdata_plain {s : String} (plain : ∀ c ∈ s.toList, Plain c) : escapeCdata s = s :=
  escapeCdata_of_notMem fun h => (plain _ h).2.1 rfl

set_option maxRecDepth 4000 in
theorem envelope_eq {encrypt sig nonce : String} (ts : Int)
    (plainEncrypt : ∀ c ∈ encrypt.toList, Plain c) (plainSig : ∀ c ∈ sig.toList, Plain c)
    (plainNonce : ∀ c ∈ nonce.toList, Plain c) :
    "<xml>" ++
      "<Encrypt><![CDATA[" ++ encrypt ++ "]]></Encrypt>" ++
      "<MsgSignature><![CDATA[" ++ sig ++ "]]></MsgSignature>" ++
      "<TimeStamp>" ++ toString ts ++ "</TimeStamp>" ++
      "<Nonce><![CDATA[" ++ nonce ++ "]]></Nonce>" ++
      "</xml>" =
    String.ofList (render (wrap "xml".toList (envelopeFields encrypt sig ts nonce) ++ [])) := by
  rw [← String.toList_inj, String.toList_ofList, render_wrap]
  simp only [envelopeFields, render_textField, render_numberField, escapeCdata_plain plainEncrypt,
    escapeCdata_plain plainSig, escapeCdata_plain plainNonce]
  generalize toString ts = a
  simp [render, cdataStart, cdataEnd]

theorem read_envelope (encrypt sig : String) (ts : Int) (nonce : String) :
    read (String.ofList (render (wrap "xml".toList (envelopeFields encrypt sig ts nonce) ++ []))) =
      some (.mk "xml" "" [leaf "Encrypt" encrypt, leaf "MsgSignature" sig,
        leaf "TimeStamp" (toString ts), leaf "Nonce" nonce]) := by
  rw [List.append_nil]
  exact read_document (by decide) (content_envelopeFields encrypt sig ts nonce)

theorem extract_envelope {encrypt : String} (plain : ∀ c ∈ encrypt.toList, Plain c)
    (sig : String) (ts : Int) (nonce : String) :
    extractEncryptElement (String.ofList
      (render (wrap "xml".toList (envelopeFields encrypt sig ts nonce) ++ []))) = .ok encrypt := by
  let others : List Token :=
    textField "MsgSignature" sig ++ (numberField "TimeStamp" ts ++ (textField "Nonce" nonce ++ []))
  have shape : render (wrap "xml".toList (envelopeFields encrypt sig ts nonce) ++ []) =
      firstEncrypt encrypt.toList (render others ++ render [.closing "xml".toList]) := by
    rw [render_wrap, envelopeFields, render_textField, escapeCdata_plain plain]
    simp [firstEncrypt, openTag, closeTag, inSection, render, Token.render, others]
  rw [extractEncryptElement_first plain (by rw [String.toList_ofList, shape]),
    String.ofList_toList]

theorem decrypt_encrypted {xml : String} (short : (utf8 xml.toList).length < 2 ^ 32)
    (random : AesBlock) (aesKey : AesKey) (appId : String) :
    Crypto.decrypt crates (Crypto.sealed crates 16 random xml aesKey appId) aesKey appId =
      .ok xml := by
  have fits : Cbc.padLength 16 (Crypto.frame random xml appId) ≤ 16 :=
    (Cbc.padLength_bounds (by decide) _).2
  rw [Crypto.decrypt_sealed (by decide) (by decide) (by decide), if_pos fits,
    Crypto.openFrame_ok_iff]
  exact ⟨short, random, rfl⟩

/-- The inbound path reads the envelope of an encrypted reply: the search yields the text
that was encrypted and signed, the other fields are the signature and what it was made
over, and the text decrypts to the reply. -/
theorem envelope_round_trip (crates : CryptoCrates) (cfg : Config) (aesKey : AesKey)
    (nonceCache : NonceCache) (draws : ReplyDraws) (innerXml : String)
    (short : (utf8 innerXml.toList).length < 2 ^ 32) :
    ∃ envelope encrypt sig ts nonce,
      wrapEncryptedEnvelope crates ⟨cfg, some aesKey, nonceCache⟩ draws innerXml =
        .ok envelope ∧
      Crypto.encrypt crates draws.random innerXml aesKey cfg.wechat.appId = .ok encrypt ∧
      read envelope = some (.mk "xml" "" [leaf "Encrypt" encrypt, leaf "MsgSignature" sig,
        leaf "TimeStamp" ts, leaf "Nonce" nonce]) ∧
      extractEncryptElement envelope = .ok encrypt ∧
      Signature.verify (Signature.msgSignature crates cfg.wechat.token ts nonce encrypt) sig =
        true ∧
      Crypto.decrypt crates encrypt aesKey cfg.wechat.appId = .ok innerXml := by
  let encrypt := Crypto.sealed crates 16 draws.random innerXml aesKey cfg.wechat.appId
  let ts := currentUnixSecs draws.wrapped
  let nonce := hex16 draws.nonce
  let sig := Signature.msgSignature crates cfg.wechat.token (toString ts) nonce encrypt
  have plainEncrypt : ∀ c ∈ encrypt.toList, Plain c := by
    simp only [encrypt, Crypto.sealed, String.toList_ofList]
    exact plain_encode _
  have plainSig : ∀ c ∈ sig.toList, Plain c := plain_hex _
  have plainNonce : ∀ c ∈ nonce.toList, Plain c := plain_hex16 _
  refine ⟨_, encrypt, sig, toString ts, nonce, ?_, rfl, read_envelope encrypt sig ts nonce,
    extract_envelope plainEncrypt sig ts nonce, Signature.verify_self _,
    decrypt_encrypted short _ _ _⟩
  rw [← envelope_eq ts plainEncrypt plainSig plainNonce]
  rfl

/-- A reply whose text holds the markers that the search looks for. -/
theorem envelope_round_trip_markers : ∃ innerXml : String,
    innerXml = "<xml><Content><![CDATA[你好 <Encrypt>]]]]><![CDATA[></Encrypt>]]></Content></xml>" ∧
    ∀ crates cfg aesKey nonceCache draws, ∃ envelope encrypt,
      wrapEncryptedEnvelope crates ⟨cfg, some aesKey, nonceCache⟩ draws innerXml =
        .ok envelope ∧
      extractEncryptElement envelope = .ok encrypt ∧
      Crypto.decrypt crates encrypt aesKey cfg.wechat.appId = .ok innerXml := by
  refine ⟨_, rfl, fun crates cfg aesKey nonceCache draws => ?_⟩
  obtain ⟨envelope, encrypt, _, _, _, wrapped, _, _, extracted, _, decrypted⟩ :=
    envelope_round_trip crates cfg aesKey nonceCache draws
      "<xml><Content><![CDATA[你好 <Encrypt>]]]]><![CDATA[></Encrypt>]]></Content></xml>" (by decide)
  exact ⟨envelope, encrypt, wrapped, extracted, decrypted⟩

end Webhook
end EvoclawPluginWechat
