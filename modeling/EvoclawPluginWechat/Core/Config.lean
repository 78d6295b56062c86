import EvoclawPluginWechat.Core.Crypto
import EvoclawPluginWechat.Core.DigestCache

/-!
`config.rs`: the configuration with the defaults of its optional fields, and the check
that `Config::from_path` makes. The parser of `server.bind` is a parameter.
-/
namespace EvoclawPluginWechat

structure ServerCfg where
  bind : String
  endpointPath : String := "/wechat"

inductive EncryptMode
  | plain
  | compatible
  | safe
  deriving DecidableEq

/-- `{:?}`. -/
def EncryptMode.debug : EncryptMode → String
  | .plain => "Plain"
  | .compatible => "Compatible"
  | .safe => "Safe"

structure WechatCfg where
  token : String
  appId : String
  encodingAesKey : String := ""
  encryptMode : EncryptMode := .plain

structure EvoclawCfg where
  timeoutMs : Nat := 4500
  workerCount : Nat := 4
  startupGraceMs : Nat := 2000

structure ReplyCfg where
  fallback : String := "我还在想这个问题,请换个简单的问法,或稍后再试一次。"
  welcome : String := ""
  echoUnknownEvent : Bool := false
  maxChars : Nat := 600

/-- The section `[digest]`, with the two paths that are checked. -/
structure DigestSection extends DigestCfg where
  dataDir : String := "/tmp/evoclaw/data"
  latestSubdir : String := "latest"

def DigestSection.default : DigestSection := { enabled := false, maxAgeSecs := 36 * 3600 }

structure TagWords where
  words : List String
  tag : String

structure IntentDictCfg where
  helpWords : List String := []
  actionWords : List String := []
  dates : List TagWords := []
  countries : List TagWords := []
  cities : List TagWords := []
  categories : List TagWords := []
  times : List TagWords := []

structure IntentCfg where
  enabled : Bool := false
  aiFallback : Bool := true
  aiTimeoutMs : Nat := 1500
  aiPromptOverride : String := ""
  dict : IntentDictCfg := {}

structure DateLabelsCfg where
  today : String := "今天"
  tomorrow : String := "明天"
  weekend : String := "周末"
  week : String := "本周"

structure NewsCardCfg where
  picUrl : String := ""
  url : String := ""
  titleTemplate : String := "\x7bdate\x7d\x7bcity\x7d有 \x7bcount\x7d 场活动"
  descriptionSeparator : String := " · "
  descriptionMaxChars : Nat := 80
  defaultCityLabel : String := ""
  defaultCountryLabel : String := ""
  dateLabels : DateLabelsCfg := {}

structure RouterCfg where
  helpText : String := "支持的问法:\n" ++ "• 时间(今天 / 明天 / 周末)\n" ++
    "• 国家或城市(请在 wechat.toml 的 intent.dict 里配置)\n" ++
    "• 类别(艺术 / 音乐 / 美食 …)\n" ++ "• 回复 help 查看本菜单"
  unknownFallback : String := "我没太理解 :( 请换个说法,或回复 help 查看菜单。"
  emptyResultTemplate : String := "最近 \x7bdays\x7d 天没找到匹配的活动 :("
  eventsInCard : Nat := 3
  newsCard : NewsCardCfg := {}

structure SessionCfg where
  dir : Option String := none
  maxTurns : Nat := 20
  ttlDays : Nat := 30
  gcIntervalSecs : Nat := 3600
  cidLockIdleSecs : Nat := 300

structure Config where
  server : ServerCfg
  wechat : WechatCfg
  evoclaw : EvoclawCfg := {}
  reply : ReplyCfg := {}
  digest : DigestSection := .default
  intent : IntentCfg := {}
  router : RouterCfg := {}
  session : SessionCfg := {}

namespace Config

def refuse (condition : Bool) (text : String) : Except PluginError Unit :=
  if condition then .error (.config text) else .ok ()

/-- Every entry of one section of the dictionary, from index `i` on. -/
def checkTagWords (dictSection : String) : Nat → List TagWords → Except PluginError Unit
  | _, [] => .ok ()
  | i, tw :: rest => do
      let entry := "intent.dict." ++ dictSection ++ "[" ++ toString i ++ "]"
      refuse (tw.tag == "") (entry ++ ".tag must be non-empty")
      refuse tw.words.isEmpty (entry ++ ".words must be non-empty")
      checkTagWords dictSection (i + 1) rest

def validateWechat (wechat : WechatCfg) : Except PluginError Unit := do
  refuse (wechat.token == "" || wechat.token == "REPLACE_ME")
    "wechat.token must be set (see 公众平台 → 基本配置)"
  match wechat.encryptMode with
  | .plain => .ok ()
  | .compatible | .safe => do
      refuse (wechat.encodingAesKey.utf8ByteSize != 43)
        ("encrypt_mode=" ++ wechat.encryptMode.debug ++
          " requires a 43-char encoding_aes_key (got " ++
          toString wechat.encodingAesKey.utf8ByteSize ++ ")")
      refuse (wechat.appId == "" || wechat.appId == "wx_REPLACE_ME")
        "wechat.app_id is required for encrypted modes"

def validateDigest (digest : DigestSection) : Except PluginError Unit := do
  if digest.enabled then
    refuse (digest.dataDir == "") "digest.data_dir must be non-empty when digest.enabled = true"
    refuse (digest.latestSubdir == "") "digest.latest_subdir must be non-empty"
    refuse (digest.maxAgeSecs == 0)
      "digest.max_age_secs must be >= 1 (recommended 36*3600 = 129600)"

def IntentDictCfg.isEmpty (dict : IntentDictCfg) : Bool :=
  dict.helpWords.isEmpty && dict.actionWords.isEmpty && dict.dates.isEmpty &&
    dict.countries.isEmpty && dict.cities.isEmpty && dict.categories.isEmpty &&
    dict.times.isEmpty

def validateIntent (intent : IntentCfg) (timeoutMs : Nat) : Except PluginError Unit := do
  if intent.enabled then
    refuse (intent.aiTimeoutMs == 0 || decide (intent.aiTimeoutMs > timeoutMs))
      ("intent.ai_timeout_ms (" ++ toString intent.aiTimeoutMs ++ ") must be 1..=" ++
        toString timeoutMs ++ " (i.e. ≤ evoclaw.timeout_ms)")
    refuse (IntentDictCfg.isEmpty intent.dict && !intent.aiFallback)
      ("intent.enabled = true but dictionary is empty AND ai_fallback = false — " ++
        "the intent layer can never match anything in this configuration")
    checkTagWords "dates" 0 intent.dict.dates
    checkTagWords "countries" 0 intent.dict.countries
    checkTagWords "cities" 0 intent.dict.cities
    checkTagWords "categories" 0 intent.dict.categories
    checkTagWords "times" 0 intent.dict.times

def refuseInsecure (field url : String) : Except PluginError Unit :=
  refuse (url != "" && !"https://".toList.isPrefixOf url.toList)
    ("router.news_card." ++ field ++ " '" ++ url ++ "' must be HTTPS")

def validateRouter (router : RouterCfg) : Except PluginError Unit := do
  refuse (router.eventsInCard == 0) "router.events_in_card must be >= 1"
  refuse (router.newsCard.descriptionMaxChars == 0)
    "router.news_card.description_max_chars must be >= 1"
  refuseInsecure "pic_url" router.newsCard.picUrl
  refuseInsecure "url" router.newsCard.url

def validateSession (session : SessionCfg) : Except PluginError Unit := do
  if let some dir := session.dir then
    refuse (dir == "") "session.dir must be non-empty when set"
    refuse (session.maxTurns == 0) "session.max_turns must be >= 1"
    refuse (session.ttlDays == 0) "session.ttl_days must be >= 1"

/-- `parseBind` is `str::parse::<SocketAddr>`, with the text of its error. -/
def validate (parseBind : String → Except String Unit) (cfg : Config) :
    Except PluginError Unit := do
  match parseBind cfg.server.bind with
  | .ok () => .ok ()
  | .error e => .error (.config ("server.bind '" ++ cfg.server.bind ++
      "' is not a valid SocketAddr: " ++ e))
  validateWechat cfg.wechat
  refuse (cfg.evoclaw.timeoutMs == 0 || decide (cfg.evoclaw.timeoutMs > 4900))
    ("evoclaw.timeout_ms (" ++ toString cfg.evoclaw.timeoutMs ++
      ") must be 1..=4900 (WeChat hard limit is 5s)")
  refuse (cfg.evoclaw.workerCount == 0) "evoclaw.worker_count must be >= 1"
  refuse (cfg.reply.maxChars == 0)
    "reply.max_chars must be >= 1 (recommended 600 for safe WeChat byte budget)"
  validateDigest cfg.digest
  validateIntent cfg.intent cfg.evoclaw.timeoutMs
  validateRouter cfg.router
  validateSession cfg.session

/-- The key `run_server` decodes before it serves. -/
def aesKey (crates : CryptoCrates) (cfg : Config) : Except PluginError (Option AesKey) :=
  match cfg.wechat.encryptMode with
  | .plain => .ok none
  | .compatible | .safe => (Crypto.decodeAesKey crates cfg.wechat.encodingAesKey).map some

end Config
end EvoclawPluginWechat
