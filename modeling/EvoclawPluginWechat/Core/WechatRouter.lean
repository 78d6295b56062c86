import EvoclawPluginWechat.Core.Intent
import EvoclawPluginWechat.Core.Wxml

/-!
`wechat/router.rs`: the reply to an intent, given the digest and the day.
-/
namespace EvoclawPluginWechat
namespace WechatRouter

inductive Reply
  | text (s : String)
  | news (article : NewsArticle)
  | fallbackToLlm

/-- What the digest is asked for. -/
def eventsFilter (filter : EventFilter) (cfg : RouterCfg) : EventFilter :=
  { filter with limit := some cfg.eventsInCard }

/-- `""` where there is no date filter to speak of. -/
def dateLabel (date : Option DateTag) (cfg : RouterCfg) : String :=
  match date with
  | none => ""
  | some .today => cfg.newsCard.dateLabels.today
  | some .tomorrow => cfg.newsCard.dateLabels.tomorrow
  | some .weekend => cfg.newsCard.dateLabels.weekend
  | some .week => cfg.newsCard.dateLabels.week
  | some .all => ""

/-- The placeholders are replaced one after the other, each in the result of the last. -/
def renderTitle (cfg : RouterCfg) (filter : EventFilter) (count : Nat) : String :=
  let counted := replaceAll cfg.newsCard.titleTemplate "\x7bcount\x7d" (toString count)
  let placed := replaceAll counted "\x7bcountry\x7d"
    (filter.country.getD cfg.newsCard.defaultCountryLabel)
  let named := replaceAll placed "\x7bcity\x7d" (filter.city.getD cfg.newsCard.defaultCityLabel)
  replaceAll named "\x7bdate\x7d" (dateLabel filter.date cfg)

def renderDescription (titles : List String) (separator : String) (maxChars : Nat) : String :=
  let joined := separator.intercalate titles
  if joined.toList.length ≤ maxChars then joined
  else String.ofList (joined.toList.take (maxChars - 1)) ++ "…"

/-- The reply that carries these events. -/
def replyWith (cfg : RouterCfg) (filter : EventFilter) (snap : DigestSnapshot)
    (events : List Event) : Reply :=
  if events = [] then
    .text (replaceAll cfg.emptyResultTemplate "\x7bdays\x7d" (toString snap.daysCovered))
  else if cfg.newsCard.picUrl = "" ∨ cfg.newsCard.url = "" then
    .text ("\n".intercalate (events.map Event.title))
  else
    .news {
      title := renderTitle cfg filter events.length
      description := renderDescription (events.map Event.title)
        cfg.newsCard.descriptionSeparator cfg.newsCard.descriptionMaxChars
      picUrl := cfg.newsCard.picUrl
      url := cfg.newsCard.url }

variable (parseDate : String → Option NaiveDate)

def buildEventsReply (filter : EventFilter) (snap : DigestSnapshot) (cfg : RouterCfg)
    (today : NaiveDate) : Outcome Reply :=
  match snap.query parseDate (eventsFilter filter cfg) today with
  | .panicked => .panicked
  | .returned events => .returned (replyWith cfg filter snap events)

def route (intent : Intent) (snapshot : Option DigestSnapshot) (cfg : RouterCfg)
    (today : NaiveDate) : Outcome Reply :=
  match intent.kind with
  | .help => .returned (.text cfg.helpText)
  | .unknown => .returned (.text cfg.unknownFallback)
  | .generalQa => .returned .fallbackToLlm
  | .events =>
      match snapshot with
      | none => .returned (.text cfg.unknownFallback)
      | some snap => buildEventsReply parseDate intent.filter snap cfg today

end WechatRouter
end EvoclawPluginWechat
