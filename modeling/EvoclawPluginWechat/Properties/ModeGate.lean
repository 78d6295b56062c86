import EvoclawPluginWechat.Properties.SealedEnvelope

/-!
Which requests reach `dispatch_and_reply`: what is verified for an undecrypted body and
for a decrypted one in each mode, and that the reply to a decrypted message is encrypted.
-/
namespace EvoclawPluginWechat
namespace Webhook
variable {crates : CryptoCrates}

/-- `signature` is the token's over this timestamp and nonce. -/
def PlainSigned (crates : CryptoCrates) (state : HandlerState) (q : WebhookQuery)
    (ts nonce : String) : Prop :=
  ∃ sig, q.signature = some sig ∧
    Signature.verify (Signature.plainSignature crates state.cfg.wechat.token ts nonce) sig = true

/-- `msg_signature` is the token's over the Encrypt text, and the text decrypts to `xml`. -/
def Decrypted (crates : CryptoCrates) (state : HandlerState) (q : WebhookQuery)
    (ts nonce body xml : String) : Prop :=
  ∃ encrypt msgSig aesKey, extractEncryptElement body = .ok encrypt ∧
    q.msgSignature = some msgSig ∧
    Signature.verify (Signature.msgSignature crates state.cfg.wechat.token ts nonce encrypt)
      msgSig = true ∧
    state.aesKey = some aesKey ∧
    Crypto.decrypt crates encrypt aesKey state.cfg.wechat.appId = .ok xml

section Decode
variable {state : HandlerState} {q : WebhookQuery} {ts nonce body xml : String}
  {isEncrypted : Bool}

theorem decodeBody_plain (mode : state.cfg.wechat.encryptMode = .plain)
    (h : decodeBody crates state q ts nonce body = .dispatched xml isEncrypted) :
    isEncrypted = false ∧ xml = body ∧ PlainSigned crates state q ts nonce := by
  simp only [decodeBody, mode] at h
  cases signature : q.signature with
  | none =>
      rw [signature] at h
      cases h
  | some sig =>
      rw [signature] at h
      simp only at h
      split at h
      · next verified =>
          cases h
          exact ⟨rfl, rfl, sig, signature, verified⟩
      · cases h

theorem decodeEncrypted_dispatched
    (h : decodeEncrypted crates state q ts nonce body = .dispatched xml isEncrypted) :
    (isEncrypted = false ∧ xml = body ∧ state.cfg.wechat.encryptMode = .compatible ∧
        (∃ e, extractEncryptElement body = .error e) ∧ PlainSigned crates state q ts nonce) ∨
      (isEncrypted = true ∧ Decrypted crates state q ts nonce body xml) := by
  rw [decodeEncrypted] at h
  cases extracted : extractEncryptElement body with
  | error e =>
      simp only [extracted] at h
      split at h
      · next plain =>
          cases h
          obtain ⟨sig, signature, verified⟩ := (Option.any_eq_true _ _).mp plain.2
          exact .inl ⟨rfl, rfl, plain.1, ⟨e, rfl⟩, sig, signature, verified⟩
      · cases h
  | ok encrypt =>
      simp only [extracted] at h
      cases signature : q.msgSignature with
      | none =>
          rw [signature] at h
          cases h
      | some msgSig =>
          simp only [signature] at h
          split at h
          · next verified =>
              cases key : state.aesKey with
              | none =>
                  rw [key] at h
                  cases h
              | some aesKey =>
                  simp only [key] at h
                  split at h
                  · next decrypted =>
                      cases h
                      exact .inr ⟨rfl, encrypt, msgSig, aesKey, extracted, signature, verified,
                        key, decrypted⟩
                  · cases h
          · cases h

end Decode

theorem screen_dispatched {state : HandlerState} {readings : Readings} {q : WebhookQuery}
    {body xml : String} {isEncrypted : Bool}
    (entered : (screen crates state readings q body).1 =
      .returned (.dispatched xml isEncrypted)) :
    ∃ ts nonce, q.timestamp = some ts ∧ q.nonce = some nonce ∧
      decodeBody crates state q ts nonce body = .dispatched xml isEncrypted := by
  cases timestamp : q.timestamp with
  | none =>
      rw [screen, timestamp] at entered
      cases entered
  | some ts =>
      cases drawn : q.nonce with
      | none =>
          rw [screen, timestamp, drawn] at entered
          cases entered
      | some nonce =>
          refine ⟨ts, nonce, rfl, rfl, ?_⟩
          simp only [screen, timestamp, drawn] at entered
          split at entered
          · cases entered
          · cases entered
          · exact Outcome.returned.inj entered

/-- The echo goes back exactly to a sender who can sign with the token. -/
theorem verifyUrl_echo_iff {state : HandlerState} {q : WebhookQuery} {echo : String} :
    verifyUrl crates state q = ⟨200, none, echo⟩ ↔
      q.echostr = some echo ∧ ∃ ts nonce, q.timestamp = some ts ∧ q.nonce = some nonce ∧
        PlainSigned crates state q ts nonce := by
  constructor
  · intro h
    unfold verifyUrl at h
    split at h
    · next sig ts nonce echo' signature timestamp drawn given =>
        dsimp only at h
        split at h
        · next verified =>
            cases h
            exact ⟨given, ts, nonce, timestamp, drawn, sig, signature, verified⟩
        · cases h
    · cases h
  · rintro ⟨given, ts, nonce, timestamp, drawn, sig, signature, verified⟩
    rw [verifyUrl, signature, timestamp, drawn, given]
    exact if_pos verified

theorem wrapEncryptedEnvelope_ok {state : HandlerState} {aesKey : AesKey}
    (key : state.aesKey = some aesKey) (draws : ReplyDraws) (innerXml : String) :
    ∃ envelope, wrapEncryptedEnvelope crates state draws innerXml = .ok envelope := by
  simp only [wrapEncryptedEnvelope, key, Crypto.encrypt, bind, Except.bind]
  exact ⟨_, rfl⟩

theorem dispatchAndReply_encrypted {xmlReader : QuickXml} {computeText : ComputeText}
    {state : HandlerState} {aesKey : AesKey} (key : state.aesKey = some aesKey)
    (draws : ReplyDraws) (xml : String)
    (ok : (dispatchAndReply crates xmlReader computeText state draws xml true).status = 200)
    (nonempty : (dispatchAndReply crates xmlReader computeText state draws xml true).body ≠ "") :
    ∃ innerXml, wrapEncryptedEnvelope crates state draws innerXml =
      .ok (dispatchAndReply crates xmlReader computeText state draws xml true).body := by
  cases parsed : parseInbound xmlReader xml with
  | error e =>
      simp [dispatchAndReply, parsed] at ok
  | ok inbound =>
      cases reply : payload state.cfg computeText inbound with
      | none => simp [dispatchAndReply, parsed, reply] at nonempty
      | some reply' =>
          let plain := plainXml draws.built inbound.fromUserName inbound.toUserName reply'
          obtain ⟨envelope, wrapped⟩ := wrapEncryptedEnvelope_ok key draws plain
          refine ⟨plain, ?_⟩
          simp only [dispatchAndReply, parsed, reply, if_true]
          rw [wrapped]

theorem decodeBody_dispatched {state : HandlerState} {q : WebhookQuery}
    {ts nonce body xml : String} {isEncrypted : Bool}
    (h : decodeBody crates state q ts nonce body = .dispatched xml isEncrypted) :
    (isEncrypted = false ∧ xml = body ∧ PlainSigned crates state q ts nonce ∧
        (state.cfg.wechat.encryptMode = .plain ∨ state.cfg.wechat.encryptMode = .compatible ∧
          ∃ e, extractEncryptElement body = .error e)) ∨
      (isEncrypted = true ∧ Decrypted crates state q ts nonce body xml ∧
        (state.cfg.wechat.encryptMode = .compatible ∨ state.cfg.wechat.encryptMode = .safe)) := by
  cases mode : state.cfg.wechat.encryptMode with
  | plain =>
      obtain ⟨plain, same, signed⟩ := decodeBody_plain mode h
      exact .inl ⟨plain, same, signed, .inl rfl⟩
  | compatible =>
      rw [decodeBody, mode] at h
      obtain ⟨plain, same, _, failed, signed⟩ | ⟨encrypted, decrypted⟩ :=
        decodeEncrypted_dispatched h
      · exact .inl ⟨plain, same, signed, .inr ⟨rfl, failed⟩⟩
      · exact .inr ⟨encrypted, decrypted, .inl rfl⟩
  | safe =>
      rw [decodeBody, mode] at h
      obtain ⟨_, _, compatible, _⟩ | ⟨encrypted, decrypted⟩ := decodeEncrypted_dispatched h
      · rw [mode] at compatible
        cases compatible
      · exact .inr ⟨encrypted, decrypted, .inr rfl⟩

theorem handleMessage_dispatched {xmlReader : QuickXml} {computeText : ComputeText}
    {state : HandlerState} {readings : Readings} {draws : ReplyDraws} {q : WebhookQuery}
    {body xml : String} {isEncrypted : Bool}
    (entered : (screen crates state readings q body).1 =
      .returned (.dispatched xml isEncrypted)) :
    (handleMessage crates xmlReader computeText state readings draws q body).1 =
      .returned (dispatchAndReply crates xmlReader computeText state draws xml isEncrypted) := by
  have split : screen crates state readings q body =
      (.returned (.dispatched xml isEncrypted), (screen crates state readings q body).2) :=
    Prod.ext entered rfl
  rw [handleMessage, split]

def safeCfg : Config where
  server := { bind := "127.0.0.1:8080" }
  wechat := { token := "tok", appId := "wx1", encryptMode := .safe,
              encodingAesKey := "abcdefghijklmnopqrstuvwxyz0123456789ABCDEFE" }

def safeAesKey : AesKey :=
  ⟨(Base64.decode "abcdefghijklmnopqrstuvwxyz0123456789ABCDEFE=".toList).getD [], by decide⟩

theorem safeCfg_aesKey (crates : CryptoCrates) :
    Config.aesKey crates safeCfg = .ok (some safeAesKey) :=
  rfl

/-- The request for this Encrypt text, signed with the token of `safeCfg`. -/
def safeQuery (crates : CryptoCrates) (encrypt : String) : WebhookQuery where
  signature := none
  timestamp := some "1700000000"
  nonce := some "n-1"
  echostr := none
  msgSignature := some (Signature.msgSignature crates "tok" "1700000000" "n-1" encrypt)

def zeroBlock : AesBlock := ⟨List.replicate 16 0, rfl⟩

/-- The Encrypt text of a message to `safeCfg`, without random bytes. -/
def safeEncrypt (crates : CryptoCrates) (aesKey : AesKey) (xml : String) : String :=
  Crypto.sealed crates 16 zeroBlock xml aesKey "wx1"

def safeBody (encrypt : String) : String :=
  String.ofList (Xml.render
    (Xml.wrap "xml".toList (envelopeFields encrypt "" 1700000000 "") ++ []))

theorem screen_safe (crates : CryptoCrates) (aesKey : AesKey) (xml : String)
    (short : (utf8 xml.toList).length < 2 ^ 32) :
    (screen crates ⟨safeCfg, some aesKey, .new ∅⟩
      ⟨1700000000000000000, 5000000000, 5000000000⟩
      (safeQuery crates (safeEncrypt crates aesKey xml))
      (safeBody (safeEncrypt crates aesKey xml))).1 = .returned (.dispatched xml true) := by
  have plain : ∀ c ∈ (safeEncrypt crates aesKey xml).toList, Plain c := by
    simp only [safeEncrypt, Crypto.sealed, String.toList_ofList]
    exact plain_encode _
  have decrypted : Crypto.decrypt crates (safeEncrypt crates aesKey xml) aesKey "wx1" = .ok xml :=
    decrypt_encrypted short _ _ _
  generalize safeEncrypt crates aesKey xml = encrypt at plain decrypted
  have extracted : extractEncryptElement (safeBody encrypt) = .ok encrypt :=
    extract_envelope plain _ _ _
  have fresh : (checkReplay (.new ∅) 1700000000000000000 5000000000 5000000000 "1700000000"
      "n-1").1 = .returned (.ok ()) := by decide
  simp only [screen, safeQuery]
  split
  · next h => rw [h] at fresh; cases fresh
  · next h => rw [h] at fresh; cases fresh
  · simp only [decodeBody, safeCfg, decodeEncrypted, extracted, Signature.verify_self, if_true]
    rw [decrypted]

end Webhook
end EvoclawPluginWechat
