import EvoclawPluginWechat.Core.Config
import EvoclawPluginWechat.Core.ConversationId
import EvoclawPluginWechat.Core.DigestQuery
import EvoclawPluginWechat.Library.Pattern

/-!
`intent/`: what a message asks for, by the dictionary and by the answer of the classifier.
Unicode lower case, chrono's parser and `serde_json` are parameters.
-/
namespace EvoclawPluginWechat

inductive IntentKind
  | help
  | events
  | generalQa
  | unknown
  deriving DecidableEq

structure Intent where
  kind : IntentKind
  filter : EventFilter

namespace Intent

def help : Intent := ⟨.help, {}⟩

def unknown : Intent := ⟨.unknown, {}⟩

def events (filter : EventFilter) : Intent := ⟨.events, filter⟩

end Intent

structure RawFilter where
  date : Option String := none
  country : Option String := none
  city : Option String := none
  category : Option String := none
  timeOfDay : Option String := none

structure RawIntent where
  kind : String
  filter : RawFilter := {}

/-- A call of `Bridge::ask`. -/
structure AskCall where
  conversationId : String
  openid : String
  text : String
  deriving DecidableEq

/-- What comes of a checkout and, with a bridge, of its `ask`: no answer when the time is up. -/
inductive Exchange
  | noBridge
  | asked (answer : Option (Except PluginError String))

/-- The calls that are made of the one there is to make. -/
def Exchange.calls (call : AskCall) : Exchange → List AskCall
  | .noBridge => []
  | .asked _ => [call]

structure TextCrates where
  /-- `str::to_lowercase`. -/
  toLowercase : String → String
  /-- `NaiveDate::parse_from_str` with the format `%Y-%m-%d`. -/
  parseDate : String → Option NaiveDate
  /-- `serde_json::from_str`, with the text of its error. -/
  rawIntent : String → Except String RawIntent

/-- `str::replace` of a non-empty pattern. -/
def replaceAll (s pat new : String) : String :=
  String.ofList (Pattern.replace pat.toList new.toList s.toList)

/-- `to_ascii_lowercase`. -/
def asciiLowercase (s : String) : String := String.ofList (s.toList.map Char.toLower)

def parseDateTag (s : String) : Option DateTag :=
  match asciiLowercase s with
  | "today" => some .today
  | "tomorrow" => some .tomorrow
  | "weekend" => some .weekend
  | "week" | "thisweek" | "this_week" => some .week
  | "all" => some .all
  | _ => none

namespace Dict

/-- `u8::is_ascii_alphanumeric`. -/
def isAsciiAlphanumeric (b : UInt8) : Bool :=
  (48 ≤ b && b ≤ 57) || (65 ≤ b && b ≤ 90) || (97 ≤ b && b ≤ 122)

/-- The word stands at byte `i`, with no letter or digit next to it. -/
def standsAt (needle bytes : List UInt8) (i : Nat) : Bool :=
  ((bytes.drop i).take needle.length == needle) &&
    (i == 0 || !(bytes[i - 1]?.any isAsciiAlphanumeric)) &&
    (i + needle.length == bytes.length || !(bytes[i + needle.length]?.any isAsciiAlphanumeric))

def wordMatches (haystackLower wordLower : String) : Bool :=
  let bytes := utf8 haystackLower.toList
  let needle := utf8 wordLower.toList
  if wordLower == "" then false
  else if !(needle.all (· < 128)) then
    (Pattern.find wordLower.toList haystackLower.toList).isSome
  else if needle.length > bytes.length then false
  else (List.range (bytes.length - needle.length + 1)).any (standsAt needle bytes)

variable (crates : TextCrates)

def containsAny (haystackLower : String) (words : List String) : Bool :=
  words.any fun w => wordMatches haystackLower (crates.toLowercase w)

/-- The tag of the first entry that has a word in the message. -/
def pickTag (haystackLower : String) (tags : List TagWords) : Option String :=
  (tags.find? fun t => containsAny crates haystackLower t.words).map TagWords.tag

def classify (userMsg : String) (dict : IntentDictCfg) : Option Intent :=
  let lower := crates.toLowercase userMsg
  if containsAny crates lower dict.helpWords then some .help
  else if !containsAny crates lower dict.actionWords then none
  else some (.events {
    date := (pickTag crates lower dict.dates).bind parseDateTag
    country := pickTag crates lower dict.countries
    city := pickTag crates lower dict.cities
    category := pickTag crates lower dict.categories
    timeOfDay := pickTag crates lower dict.times
    limit := none })

end Dict

namespace Ai

def defaultPrompt : String :=
  "\n".intercalate [
    "You are an intent classifier for a chatbot.",
    "Output a STRICT JSON object only — no markdown fences, no commentary.",
    "",
    "Schema:",
    "\x7b",
    "  \"kind\": \"help\" | \"events\" | \"general_qa\" | \"unknown\",",
    "  \"filter\": \x7b",
    "    \"date\":        \"today\" | \"tomorrow\" | \"weekend\" | \"week\" | \"all\" | null,",
    "    \"country\":     <string or null>,",
    "    \"city\":        <string or null>,",
    "    \"category\":    <string or null>,",
    "    \"time_of_day\": \"morning\" | \"afternoon\" | \"evening\" | null",
    "  \x7d",
    "\x7d",
    "",
    "Rules:",
    "- \"kind\": \"help\" iff the user explicitly wants the menu / instructions.",
    "- \"kind\": \"events\" iff the user asks WHAT IS HAPPENING / what to do / events / " ++
      "activities / things to see.",
    "- \"kind\": \"general_qa\" for any other question (weather, factual lookup, conversation).",
    "- \"kind\": \"unknown\" only if the message is too short/garbled to classify.",
    "- For country / city / category: copy the user's surface form into the field, or use null " ++
      "if not mentioned. Downstream code maps to canonical tags.",
    "- \"date\" / \"time_of_day\": pick from the enumerated values, or null.",
    "",
    "User message: \x7bmsg\x7d"]

/-- The text before and after a byte offset; `none` inside a character and past the end. -/
def splitAtByte : Nat → List Char → Option (List Char × List Char)
  | 0, cs => some ([], cs)
  | _ + 1, [] => none
  | n + 1, c :: cs =>
      if c.utf8Size ≤ n + 1 then
        (splitAtByte (n + 1 - c.utf8Size) cs).map fun parts => (c :: parts.1, parts.2)
      else none

/-- `&s[start..start + len]`, where `none` is the panic. -/
def slice (s : String) (start len : Nat) : Option String := do
  let (_, rest) ← splitAtByte start s.toList
  let (inner, _) ← splitAtByte len rest
  return String.ofList inner

/-- The loop of `extract_json`: how many bytes it reads, up to the closing brace that brings
`depth` to zero. -/
def scanObject (depth : Int) (inString escaped : Bool) : List UInt8 → Option Nat
  | [] => none
  | b :: bs =>
      (if escaped then scanObject depth inString false bs
      else if b = 92 ∧ inString then scanObject depth inString true bs
      else if b = 34 then scanObject depth (!inString) false bs
      else if b = 123 ∧ !inString then scanObject (wrapI32 (depth + 1)) inString false bs
      else if b = 125 ∧ !inString then
        if wrapI32 (depth - 1) = 0 then some 0
        else scanObject (wrapI32 (depth - 1)) inString false bs
      else scanObject depth inString false bs).map (· + 1)

def extractJson (raw : String) : Outcome (Option String) :=
  let bytes := utf8 raw.toList
  match bytes.findIdx? (· == 123) with
  | none => .returned none
  | some start =>
      match scanObject 0 false false (bytes.drop start) with
      | none => .returned none
      | some len =>
          match slice raw start len with
          | none => .panicked
          | some json => .returned (some json)

/-- `filter(|s| !s.trim().is_empty())`. -/
def nonBlank (field : Option String) : Option String := field.filter fun s => !isBlank s

def rawToIntent (r : RawIntent) : Intent where
  kind :=
    match asciiLowercase r.kind with
    | "help" => .help
    | "events" => .events
    | "general_qa" => .generalQa
    | _ => .unknown
  filter := {
    date := r.filter.date.bind parseDateTag
    country := nonBlank r.filter.country
    city := nonBlank r.filter.city
    category := nonBlank r.filter.category
    timeOfDay := nonBlank r.filter.timeOfDay
    limit := none }

def parseIntent (crates : TextCrates) (raw : String) : Outcome (Except String Intent) :=
  match extractJson raw with
  | .panicked => .panicked
  | .returned none => .returned (.error "no JSON object found")
  | .returned (some json) =>
      match crates.rawIntent json with
      | .error e => .returned (.error ("malformed JSON: " ++ e ++ " (in " ++ json ++ ")"))
      | .ok r => .returned (.ok (rawToIntent r))

end Ai

structure AiClassifier where
  promptTemplate : String

namespace AiClassifier

def new (promptTemplate : String) : AiClassifier :=
  ⟨if isBlank promptTemplate then Ai.defaultPrompt else promptTemplate⟩

def prompt (ai : AiClassifier) (userMsg : String) : String :=
  replaceAll ai.promptTemplate "\x7bmsg\x7d" userMsg

/-- `classify`, at a reading of the wall clock, with its calls. -/
def classify (crates : TextCrates) (ai : AiClassifier) (userMsg : String) (wall : Int)
    (exchange : Exchange) : Outcome Intent × List AskCall :=
  let call : AskCall :=
    ⟨ephemeralCid (currentUnixNanos wall), "intent-classifier", ai.prompt userMsg⟩
  let intent : Outcome Intent :=
    match exchange with
    | .asked (some (.ok raw)) =>
        match Ai.parseIntent crates raw with
        | .panicked => .panicked
        | .returned (.ok intent) => .returned intent
        | .returned (.error _) => .returned .unknown
    | _ => .returned .unknown
  (intent, exchange.calls call)

end AiClassifier
end EvoclawPluginWechat
