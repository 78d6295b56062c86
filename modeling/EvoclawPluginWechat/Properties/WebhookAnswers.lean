import EvoclawPluginWechat.Core.WebhookRun
import EvoclawPluginWechat.Properties.InboundParsing
import EvoclawPluginWechat.Properties.ModeGate

/-!
What a server that has started answers. Whatever is posted, the answer is one of a few refusals
that say nothing of the message, the empty acknowledgement, or a reply that is read back, out of
its envelope where it has one, as the payload for the sender of the message. What is computed
for a text is given here, and an envelope holds less than 4 GiB.
-/
namespace EvoclawPluginWechat
open Xml

namespace Webhook
variable {crates : CryptoCrates} {xmlReader : QuickXml}

def refusals : List Response :=
  [⟨400, none, "missing timestamp/nonce"⟩, ⟨403, none, "replay rejected"⟩,
    ⟨400, none, "missing signature"⟩, ⟨403, none, "signature mismatch"⟩,
    ⟨400, none, "no encrypt element"⟩, ⟨400, none, "missing msg_signature"⟩,
    ⟨400, none, "decrypt failed"⟩, ⟨400, none, "bad xml"⟩]

section Reading

/-- A reply as a reader of XML sees it. -/
def replyElement (built : Int) (toUser fromUser : String) : ReplyPayload → Element
  | .text s => .mk "xml" "" [leaf "ToUserName" toUser, leaf "FromUserName" fromUser,
      leaf "CreateTime" (toString (currentUnixSecs built)), leaf "MsgType" "text",
      leaf "Content" s]
  | .news article => .mk "xml" "" [leaf "ToUserName" toUser, leaf "FromUserName" fromUser,
      leaf "CreateTime" (toString (currentUnixSecs built)), leaf "MsgType" "news",
      leaf "ArticleCount" "1", .mk "Articles" "" [articleElement article]]

theorem read_plainXml (built : Int) (toUser fromUser : String) (reply : ReplyPayload) :
    read (plainXml built toUser fromUser reply) =
      some (replyElement built toUser fromUser reply) := by
  cases reply with
  | text s =>
      rw [plainXml, buildTextReply_eq, List.append_nil]
      exact read_document (by decide) (content_textReply built toUser fromUser s)
  | news article =>
      have one : "1" = toString ((1 : Nat) : Int) := by decide
      have count : "1" = toString ([article].length : Int) := one
      rw [plainXml, buildNewsReply_eq, List.append_nil, replyElement, count]
      apply read_document (by decide)
      apply content_textField (by decide)
      apply content_textField (by decide)
      apply content_numberField (by decide)
      apply content_textField (by decide)
      apply content_numberField (by decide)
      exact .wrap (by decide) (content_articleItems [article]) .nil

/-- The reply in a body, which is in an envelope if the message came in one. -/
def openReply (crates : CryptoCrates) (cfg : Config) (aesKey : Option AesKey)
    (isEncrypted : Bool) (body : String) : Option String :=
  if isEncrypted then
    (extractEncryptElement body).toOption.bind fun encrypt => aesKey.bind fun aesKey =>
      (Crypto.decrypt crates encrypt aesKey cfg.wechat.appId).toOption
  else some body

theorem extract_wrapped {cfg : Config} {aesKey : AesKey} {nonceCache : NonceCache}
    {draws : ReplyDraws} {innerXml envelope : String}
    (wrapped : wrapEncryptedEnvelope crates ⟨cfg, some aesKey, nonceCache⟩ draws innerXml =
      .ok envelope) :
    extractEncryptElement envelope =
      .ok (Crypto.sealed crates 16 draws.random innerXml aesKey cfg.wechat.appId) := by
  let encrypt := Crypto.sealed crates 16 draws.random innerXml aesKey cfg.wechat.appId
  let ts := currentUnixSecs draws.wrapped
  have plainEncrypt : ∀ c ∈ encrypt.toList, Plain c := by
    simp only [encrypt, Crypto.sealed, String.toList_ofList]
    exact plain_encode _
  let sig := Signature.msgSignature crates cfg.wechat.token (toString ts) (hex16 draws.nonce)
    encrypt
  have plainSig : ∀ c ∈ sig.toList, Plain c := plain_hex _
  have plainNonce : ∀ c ∈ (hex16 draws.nonce).toList, Plain c := plain_hex16 _
  have same : wrapEncryptedEnvelope crates ⟨cfg, some aesKey, nonceCache⟩ draws innerXml =
      .ok (String.ofList (render (wrap "xml".toList
        (envelopeFields encrypt sig ts (hex16 draws.nonce)) ++ []))) := by
    rw [← envelope_eq ts plainEncrypt plainSig plainNonce]
    rfl
  obtain rfl := Except.ok.inj (wrapped.symm.trans same)
  exact extract_envelope plainEncrypt sig ts (hex16 draws.nonce)

/-- The length word of the frame holds the message's length. -/
def Sealable (innerXml : String) : Prop := (utf8 innerXml.toList).length < 2 ^ 32

theorem openReply_wrapped {cfg : Config} {aesKey : AesKey} {nonceCache : NonceCache}
    {draws : ReplyDraws} {innerXml envelope : String} (short : Sealable innerXml)
    (wrapped : wrapEncryptedEnvelope crates ⟨cfg, some aesKey, nonceCache⟩ draws innerXml =
      .ok envelope) :
    openReply crates cfg (some aesKey) true envelope = some innerXml := by
  have opened : Crypto.decrypt crates (Crypto.sealed crates 16 draws.random innerXml aesKey
      cfg.wechat.appId) aesKey cfg.wechat.appId = .ok innerXml := decrypt_encrypted short _ _ _
  rw [openReply, if_pos rfl, extract_wrapped wrapped]
  exact congrArg Except.toOption opened

end Reading

section Posts
variable {cfg : Config} {aesKey : Option AesKey}

/-- The message in a request, as the platform meant it. -/
def Carries (crates : CryptoCrates) (cfg : Config) (aesKey : Option AesKey) (p : Post)
    (xml : String) (isEncrypted : Bool) : Prop :=
  ∃ ts nonce, p.query.timestamp = some ts ∧ p.query.nonce = some nonce ∧
    decodeBody crates ⟨cfg, aesKey, .new ∅⟩ p.query ts nonce p.body = .dispatched xml isEncrypted

/-- What comes back for a request. -/
inductive Answered (crates : CryptoCrates) (xmlReader : QuickXml) (cfg : Config)
    (aesKey : Option AesKey) (computeText : ComputeText) (draws : ReplyDraws) (p : Post) :
    Outcome Response → Prop
  | refused {response : Response} : response ∈ refusals →
      Answered crates xmlReader cfg aesKey computeText draws p (.returned response)
  | acknowledged {xml : String} {isEncrypted : Bool} {inbound : InboundXml} :
      Carries crates cfg aesKey p xml isEncrypted → parseInbound xmlReader xml = .ok inbound →
      payload cfg computeText inbound = none →
      Answered crates xmlReader cfg aesKey computeText draws p (.returned ⟨200, none, ""⟩)
  | replied {xml body : String} {isEncrypted : Bool} {inbound : InboundXml}
      {reply : ReplyPayload} : Carries crates cfg aesKey p xml isEncrypted →
      parseInbound xmlReader xml = .ok inbound → payload cfg computeText inbound = some reply →
      ((isEncrypted = true →
          Sealable (plainXml draws.built inbound.fromUserName inbound.toUserName reply)) →
        (openReply crates cfg aesKey isEncrypted body).bind read =
          some (replyElement draws.built inbound.fromUserName inbound.toUserName reply)) →
      Answered crates xmlReader cfg aesKey computeText draws p
        (.returned ⟨200, some "application/xml; charset=utf-8", body⟩)

theorem key_of_started (key : cfg.aesKey crates = .ok aesKey)
    (mode : cfg.wechat.encryptMode ≠ .plain) : ∃ k, aesKey = some k := by
  have decoded : (Crypto.decodeAesKey crates cfg.wechat.encodingAesKey).map some = .ok aesKey := by
    rw [← key, Config.aesKey]
    cases h : cfg.wechat.encryptMode with
    | plain => exact absurd h mode
    | compatible | safe => rfl
  cases h : Crypto.decodeAesKey crates cfg.wechat.encodingAesKey with
  | error e =>
      rw [h] at decoded
      cases decoded
  | ok k =>
      rw [h] at decoded
      exact ⟨k, (Except.ok.inj decoded).symm⟩

theorem refusal_of_decodeEncrypted {nonceCache : NonceCache} {q : WebhookQuery}
    {ts nonce body : String} {response : Response} {k : AesKey}
    (h : decodeEncrypted crates ⟨cfg, some k, nonceCache⟩ q ts nonce body = .rejected response) :
    response ∈ refusals := by
  simp only [decodeEncrypted] at h
  split at h
  · split at h
    · cases h
    · cases h
      decide
  · split at h
    · cases h
      decide
    · split at h
      · split at h
        · cases h
        · cases h
          decide
      · cases h
        decide

theorem refusal_of_decode {nonceCache : NonceCache} {q : WebhookQuery} {ts nonce body : String}
    {response : Response} (key : cfg.aesKey crates = .ok aesKey)
    (h : decodeBody crates ⟨cfg, aesKey, nonceCache⟩ q ts nonce body = .rejected response) :
    response ∈ refusals := by
  cases mode : cfg.wechat.encryptMode with
  | plain =>
      simp only [decodeBody, mode] at h
      split at h
      · cases h
        decide
      · split at h
        · cases h
        · cases h
          decide
  | compatible | safe =>
      obtain ⟨k, rfl⟩ := key_of_started key (by rw [mode]; exact fun h => by cases h)
      simp only [decodeBody, mode] at h
      exact refusal_of_decodeEncrypted h

theorem refusal_of_screen {nonceCache : NonceCache} {readings : Readings} {q : WebhookQuery}
    {body : String} {response : Response} (key : cfg.aesKey crates = .ok aesKey)
    (h : (screen crates ⟨cfg, aesKey, nonceCache⟩ readings q body).1 =
      .returned (.rejected response)) : response ∈ refusals := by
  rw [screen] at h
  split at h
  · split at h
    · cases h
    · cases h
      decide
    · exact refusal_of_decode key (Outcome.returned.inj h)
  · cases h
    decide

theorem Carries.key {p : Post} {xml : String} (carries : Carries crates cfg aesKey p xml true) :
    ∃ k, aesKey = some k := by
  obtain ⟨_, _, _, _, decoded⟩ := carries
  obtain ⟨plain, _⟩ | ⟨_, ⟨_, _, k, _, _, _, key, _⟩, _⟩ := decodeBody_dispatched decoded
  · cases plain
  · exact ⟨k, key⟩

theorem answered_dispatch {computeText : ComputeText} {draws : ReplyDraws} {p : Post}
    {nonceCache : NonceCache} {xml : String} {isEncrypted : Bool}
    (carries : Carries crates cfg aesKey p xml isEncrypted) :
    Answered crates xmlReader cfg aesKey computeText draws p (.returned
      (dispatchAndReply crates xmlReader computeText ⟨cfg, aesKey, nonceCache⟩ draws xml
        isEncrypted)) := by
  rw [dispatchAndReply]
  cases parsed : parseInbound xmlReader xml with
  | error e =>
      have bad : (⟨400, none, "bad xml"⟩ : Response) ∈ refusals := by decide
      exact .refused bad
  | ok inbound =>
      dsimp only
      cases chosen : payload cfg computeText inbound with
      | none => exact .acknowledged carries parsed chosen
      | some reply =>
          have written := read_plainXml draws.built inbound.fromUserName inbound.toUserName reply
          dsimp only
          cases isEncrypted with
          | false => exact .replied carries parsed chosen fun _ => written
          | true =>
              obtain ⟨k, rfl⟩ := carries.key
              let state : HandlerState := ⟨cfg, some k, nonceCache⟩
              have key : state.aesKey = some k := rfl
              obtain ⟨envelope, wrapped⟩ := wrapEncryptedEnvelope_ok key draws
                (plainXml draws.built inbound.fromUserName inbound.toUserName reply)
              rw [if_pos rfl, wrapped]
              refine .replied carries parsed chosen fun short => ?_
              rw [openReply_wrapped (short rfl) wrapped, Option.bind_some, written]

end Posts

end Webhook

namespace WebhookRun
open Webhook
variable (crates : CryptoCrates) (xmlReader : QuickXml) (cfg : Config) (aesKey : Option AesKey)
  (computeText : Post → ComputeText) (draws : Post → ReplyDraws)

/-- What a request gets now. -/
def response (s : WebhookRun) (p : Post) : Outcome Response :=
  (handleMessage crates xmlReader (computeText p) ⟨cfg, aesKey, s.nonceCache⟩
    ⟨p.wall, s.now, s.now + p.lag⟩ (draws p) p.query p.body).1

/-- The requests of a run, each with its response. -/
def responses (s : WebhookRun) : List Act → List (Post × Outcome Response)
  | [] => []
  | .post p :: as =>
      (p, s.response crates xmlReader cfg aesKey computeText draws p) ::
        responses (s.step crates cfg aesKey (.post p)) as
  | a :: as => responses (s.step crates cfg aesKey a) as

structure Up (s : WebhookRun) : Prop where
  clean : s.nonceCache.poisoned = false
  started : 0 ≤ s.now

section
variable {s : WebhookRun}

theorem checkReplay_up {cache : NonceCache} {now : Int} (clean : cache.poisoned = false)
    (started : 0 ≤ now) (wall insertNow : Int) (ts nonce : String) :
    ∃ checked kept, checkReplay cache wall now insertNow ts nonce = (.returned checked, kept) ∧
      kept.poisoned = false := by
  have cutoff := Instant.sub_of_nonneg (d := Duration.fromSecs replayWindowSecs.toNat) started
    (by decide)
  rw [checkReplay]
  split
  · exact ⟨_, _, rfl, clean⟩
  · split
    · exact ⟨_, _, rfl, clean⟩
    · rw [if_neg (by simp [clean]), cutoff]
      dsimp only
      split
      · exact ⟨_, _, rfl, rfl⟩
      · exact ⟨_, _, rfl, rfl⟩

theorem Up.screened (up : s.Up) (p : Post) :
    ∃ decision kept, s.screen crates cfg aesKey p = (.returned decision, kept) ∧
      kept.poisoned = false := by
  rw [screen, Webhook.screen]
  cases p.query.timestamp with
  | none => exact ⟨_, _, rfl, up.clean⟩
  | some ts =>
      cases p.query.nonce with
      | none => exact ⟨_, _, rfl, up.clean⟩
      | some nonce =>
          obtain ⟨checked, kept, looked, clean⟩ :=
            checkReplay_up up.clean up.started p.wall (s.now + p.lag) ts nonce
          dsimp only
          rw [looked]
          cases checked with
          | error e => exact ⟨_, _, rfl, clean⟩
          | ok _ => exact ⟨_, _, rfl, clean⟩

theorem Up.step (up : s.Up) (a : Act) : (s.step crates cfg aesKey a).Up := by
  have started := up.started
  cases a with
  | tick d => exact ⟨up.clean, by change 0 ≤ s.now + d; omega⟩
  | post p =>
      obtain ⟨decision, kept, screened, clean⟩ := up.screened crates cfg aesKey p
      refine ⟨?_, by change 0 ≤ s.now + p.lag; omega⟩
      change (s.screen crates cfg aesKey p).2.poisoned = false
      rw [screened]
      exact clean
  | gcCaches =>
      have cutoff := Instant.sub_of_nonneg (d := Duration.fromSecs replayWindowSecs.toNat) started
        (by decide)
      refine ⟨?_, started⟩
      obtain ⟨_, swept⟩ := sweepCache_of_sub up.clean cutoff
      exact congrArg (fun swept => swept.2.poisoned) swept

variable {crates xmlReader cfg aesKey computeText draws}

theorem Up.response (up : s.Up) (key : cfg.aesKey crates = .ok aesKey) (p : Post) :
    Answered crates xmlReader cfg aesKey (computeText p) (draws p) p
      (s.response crates xmlReader cfg aesKey computeText draws p) := by
  obtain ⟨decision, kept, screened, _⟩ := up.screened crates cfg aesKey p
  rw [screen] at screened
  rw [WebhookRun.response, handleMessage, screened]
  cases decision with
  | rejected response => exact .refused (refusal_of_screen key (congrArg Prod.fst screened))
  | dispatched xml isEncrypted =>
      obtain ⟨ts, nonce, timestamp, drawn, decoded⟩ :=
        screen_dispatched (congrArg Prod.fst screened)
      exact answered_dispatch ⟨ts, nonce, timestamp, drawn, decoded⟩

/-- Whatever is posted, in whatever order and however often. -/
theorem every_post_answered (key : cfg.aesKey crates = .ok aesKey) {now : Int} (started : 0 ≤ now)
    (as : List Act) : ∀ x ∈ (new now).responses crates xmlReader cfg aesKey computeText draws as,
      Answered crates xmlReader cfg aesKey (computeText x.1) (draws x.1) x.1 x.2 := by
  have up : (new now).Up := ⟨rfl, started⟩
  generalize new now = s at up
  induction as generalizing s with
  | nil => exact fun x h => by cases h
  | cons a as ih =>
      have rest := ih _ (up.step crates cfg aesKey a)
      cases a with
      | tick _ | gcCaches => exact rest
      | post p => exact List.forall_mem_cons.mpr ⟨up.response key p, rest⟩

def sealedPost (crates : CryptoCrates) : Post where
  wall := 1700000000000000000
  lag := 0
  query := safeQuery crates (safeEncrypt crates safeAesKey (buildTextReply 0 "gh_abc" "fan" "hi"))
  body := safeBody (safeEncrypt crates safeAesKey (buildTextReply 0 "gh_abc" "fan" "hi"))

def noDraws : ReplyDraws := ⟨0, zeroBlock, 0, 0⟩

theorem sealedPost_dispatched (crates : CryptoCrates) :
    (Webhook.screen crates ⟨safeCfg, some safeAesKey, .new ∅⟩
      ⟨(sealedPost crates).wall, 5000000000, 5000000000 + (sealedPost crates).lag⟩
      (sealedPost crates).query (sealedPost crates).body).1 =
      .returned (.dispatched (buildTextReply 0 "gh_abc" "fan" "hi") true) :=
  screen_safe crates safeAesKey _ (by decide +kernel)

theorem sealedPost_parsed (xmlReader : QuickXml) : ∃ inbound,
    parseInbound xmlReader (buildTextReply 0 "gh_abc" "fan" "hi") = .ok inbound ∧
      inbound.toUserName = "gh_abc" ∧ inbound.fromUserName = "fan" ∧
      payload safeCfg (fun _ _ _ => .text "pong") inbound = some (.text "pong") := by
  obtain ⟨extra, parsed⟩ := parseInbound_textReply xmlReader 0 "gh_abc" "fan" "hi"
  have receiver : lastSection "gh_abc" = "gh_abc" := by decide
  have sender : lastSection "fan" = "fan" := by decide
  refine ⟨_, parsed, receiver, sender, ?_⟩
  rw [payload, if_pos rfl]
  dsimp only [Option.getD_some]
  rw [if_neg (by decide)]

theorem sealedPost_replied (crates : CryptoCrates) (xmlReader : QuickXml) : ∃ body,
    (new 5000000000).response crates xmlReader safeCfg (some safeAesKey)
        (fun _ _ _ _ => .text "pong") (fun _ => noDraws) (sealedPost crates) =
      .returned ⟨200, some "application/xml; charset=utf-8", body⟩ := by
  obtain ⟨inbound, parsed, _, _, computes⟩ := sealedPost_parsed xmlReader
  have answer : ∃ body, dispatchAndReply crates xmlReader (fun _ _ _ => .text "pong")
      ⟨safeCfg, some safeAesKey, .new ∅⟩ noDraws (buildTextReply 0 "gh_abc" "fan" "hi") true =
      ⟨200, some "application/xml; charset=utf-8", body⟩ := by
    rw [dispatchAndReply, parsed]
    dsimp only
    rw [computes]
    exact ⟨_, rfl⟩
  obtain ⟨body, answer⟩ := answer
  exact ⟨body, (handleMessage_dispatched (sealedPost_dispatched crates)).trans
    (congrArg Outcome.returned answer)⟩

/-- The fan reads the reply in the envelope that comes back. -/
theorem every_post_answered_sealed : Config.validate (fun _ => .ok ()) safeCfg = .ok () ∧
    ∀ crates xmlReader, ∃ body,
    (new 5000000000).responses crates xmlReader safeCfg (some safeAesKey)
        (fun _ _ _ _ => .text "pong") (fun _ => noDraws) [.post (sealedPost crates)] =
      [(sealedPost crates, .returned ⟨200, some "application/xml; charset=utf-8", body⟩)] ∧
    (openReply crates safeCfg (some safeAesKey) true body).bind read =
      some (replyElement 0 "fan" "gh_abc" (.text "pong")) := by
  refine ⟨rfl, fun crates xmlReader => ?_⟩
  obtain ⟨inbound, parsed, receiver, sender, computes⟩ := sealedPost_parsed xmlReader
  obtain ⟨body, replied⟩ := sealedPost_replied crates xmlReader
  have all : ∀ x ∈ (new 5000000000).responses crates xmlReader safeCfg (some safeAesKey)
      (fun _ _ _ _ => .text "pong") (fun _ => noDraws) [.post (sealedPost crates)],
      Answered crates xmlReader safeCfg (some safeAesKey) (fun _ _ _ => .text "pong") noDraws
        x.1 x.2 :=
    every_post_answered (safeCfg_aesKey crates) (by decide) [.post (sealedPost crates)]
  rw [responses, replied] at all
  refine ⟨body, by rw [responses, replied]; rfl, ?_⟩
  have answered := all _ List.mem_cons_self
  obtain ⟨ts, nonce, timestamp, drawn, decoded⟩ :=
    screen_dispatched (sealedPost_dispatched crates)
  generalize returned : (⟨200, some "application/xml; charset=utf-8", body⟩ : Response) = response
    at answered
  cases answered with
  | refused refusal =>
      subst returned
      simp [refusals] at refusal
  | acknowledged _ _ _ => cases returned
  | replied carries parsed' chosen reads =>
      -- what is answered is what was read above: the message is one
      obtain ⟨ts', nonce', timestamp', drawn', decoded'⟩ := carries
      cases timestamp.symm.trans timestamp'
      cases drawn.symm.trans drawn'
      cases decoded.symm.trans decoded'
      cases parsed.symm.trans parsed'
      cases computes.symm.trans chosen
      cases returned
      rw [receiver, sender] at reads
      have short : Sealable (plainXml noDraws.built "fan" "gh_abc" (.text "pong")) := by
        unfold Sealable
        decide +kernel
      exact reads fun _ => short

end

end WebhookRun
end EvoclawPluginWechat
