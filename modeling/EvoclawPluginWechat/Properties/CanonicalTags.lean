import EvoclawPluginWechat.Core.TextPayload

/-!
The tags a message is answered by. The dictionary puts its own tag for a word into the
filter; the classifier's answer goes into it as it stands.
-/
namespace EvoclawPluginWechat

/-- The dimensions of a filter that the digest compares with a tag for equality. -/
inductive Scope
  | country
  | city
  | category
  deriving DecidableEq

namespace Scope

def entries (dict : IntentDictCfg) : Scope → List TagWords
  | country => dict.countries
  | city => dict.cities
  | category => dict.categories

def answered (filter : RawFilter) : Scope → Option String
  | country => filter.country
  | city => filter.city
  | category => filter.category

def wanted (filter : EventFilter) : Scope → Option String
  | country => filter.country
  | city => filter.city
  | category => filter.category

end Scope

section
variable (crates : TextCrates)

/-- The form is one of the words, without regard to case. -/
def TagWords.lists (tw : TagWords) (form : String) : Bool :=
  tw.words.any fun word => crates.toLowercase word == crates.toLowercase form

def canonicalTag (entries : List TagWords) (form : String) : Option String :=
  (entries.find? fun tw => tw.lists crates form).map TagWords.tag

/-- What `serde_json` makes of the object in the answer. -/
def Ai.Reads (raw : String) (r : RawIntent) : Prop :=
  ∃ json, Ai.extractJson raw = .returned (some json) ∧ crates.rawIntent json = .ok r

/-- The filter with which the answer to a message queries the digest, where it does. -/
def queriedFilter (cfg : Config) (userMsg : String) (w : Surroundings) : Option EventFilter :=
  match (classifyIntent crates cfg userMsg w).1, w.snapshot with
  | .returned ⟨.events, filter⟩, some _ =>
      if cfg.intent.enabled then some (WechatRouter.eventsFilter filter cfg.router) else none
  | _, _ => none

end

variable {crates : TextCrates} {cfg : Config} {userMsg raw : String} {w : Surroundings}

theorem Ai.parseIntent_ok_iff {i : Intent} :
    Ai.parseIntent crates raw = .returned (.ok i) ↔
      ∃ r, Ai.Reads crates raw r ∧ Ai.rawToIntent r = i := by
  rw [Ai.parseIntent]
  constructor
  · intro h
    split at h
    · cases h
    · cases h
    · next json found =>
        split at h
        · cases h
        · next r read =>
            cases h
            exact ⟨r, ⟨json, found, read⟩, rfl⟩
  · rintro ⟨r, ⟨json, found, read⟩, rfl⟩
    rw [found]
    dsimp only
    rw [read]

theorem queriedFilter_eq_some {filter : EventFilter}
    (h : queriedFilter crates cfg userMsg w = some filter) :
    ∃ i snap, (classifyIntent crates cfg userMsg w).1 = .returned i ∧ i.kind = .events ∧
      w.snapshot = some snap ∧ cfg.intent.enabled = true ∧
      filter = WechatRouter.eventsFilter i.filter cfg.router := by
  unfold queriedFilter at h
  split at h
  · next asked snap intent stored =>
      split at h
      · next on => exact ⟨_, snap, intent, rfl, stored, on, (Option.some.inj h).symm⟩
      · cases h
  · cases h

/-- `queriedFilter` is what the code asks the digest with: the answer is made of the events
that `query` finds under this filter. -/
theorem computeReply_of_queried {filter : EventFilter}
    (h : queriedFilter crates cfg userMsg w = some filter) :
    ∃ (i : Intent) (snap : DigestSnapshot), w.snapshot = some snap ∧
      (computeReply crates cfg userMsg w).1 =
        match snap.query crates.parseDate filter w.today with
        | .panicked => .panicked
        | .returned events =>
            .returned (WechatRouter.replyWith cfg.router i.filter snap events) := by
  obtain ⟨⟨kind, filter'⟩, snap, intent, rfl, stored, on, rfl⟩ := queriedFilter_eq_some h
  refine ⟨⟨.events, filter'⟩, snap, stored, ?_⟩
  rw [computeReply, if_pos on]
  cases classified : classifyIntent crates cfg userMsg w with
  | mk outcome asks =>
      rw [classified] at intent
      dsimp only at intent
      subst intent
      rw [stored]
      rfl

section Dictionary
variable {dict : IntentDictCfg} {scope : Scope} {entries : List TagWords} {lower form : String}

theorem classifyIntent_of_answer {r : RawIntent} (on : cfg.intent.enabled = true)
    (fallback : cfg.intent.aiFallback = true)
    (missed : Dict.classify crates userMsg cfg.intent.dict = none)
    (answer : w.classifier = .asked (some (.ok raw))) (read : Ai.Reads crates raw r) :
    (classifyIntent crates cfg userMsg w).1 = .returned (Ai.rawToIntent r) := by
  have parsed : Ai.parseIntent crates raw = .returned (.ok (Ai.rawToIntent r)) :=
    Ai.parseIntent_ok_iff.mpr ⟨r, read, rfl⟩
  rw [classifyIntent, missed]
  dsimp only
  rw [if_pos fallback, aiClassifier, on, fallback]
  simp only [Bool.and_self, if_true, AiClassifier.classify, answer, parsed]

theorem wanted_of_dictionary {i : Intent} (h : Dict.classify crates userMsg dict = some i)
    (events : i.kind = .events) :
    scope.wanted i.filter =
      Dict.pickTag crates (crates.toLowercase userMsg) (scope.entries dict) := by
  unfold Dict.classify at h
  dsimp only at h
  split at h
  · cases h
    cases events
  · split at h
    · cases h
    · cases h
      cases scope <;> rfl

theorem firstTag_eq_some {p : TagWords → Bool} {pre post : List TagWords} {tw : TagWords}
    (split : entries = pre ++ tw :: post) (here : p tw = true)
    (earlier : ∀ x ∈ pre, p x = false) : (entries.find? p).map TagWords.tag = some tw.tag := by
  have first : entries.find? p = some tw := by
    rw [List.find?_eq_some_iff_append]
    exact ⟨here, pre, post, split, fun x hx => by simp [earlier x hx]⟩
  rw [first, Option.map_some]

/-- A form found in the message stands for the tag of the entry that lists it first, unless a
word of an earlier entry is found as well. -/
theorem pickTag_of_found {pre post : List TagWords} {tw : TagWords}
    (split : entries = pre ++ tw :: post) (listed : tw.lists crates form = true)
    (found : Dict.wordMatches lower (crates.toLowercase form) = true)
    (earlier : ∀ x ∈ pre, Dict.containsAny crates lower x.words = false) :
    Dict.pickTag crates lower entries = some tw.tag := by
  have here : Dict.containsAny crates lower tw.words = true := by
    obtain ⟨word, mem, same⟩ := List.any_eq_true.mp listed
    exact List.any_eq_true.mpr ⟨word, mem, (eq_of_beq same) ▸ found⟩
  exact firstTag_eq_some split here earlier

theorem canonicalTag_of_listed {pre post : List TagWords} {tw : TagWords}
    (split : entries = pre ++ tw :: post) (listed : tw.lists crates form = true)
    (earlier : ∀ x ∈ pre, x.lists crates form = false) :
    canonicalTag crates entries form = some tw.tag :=
  firstTag_eq_some split listed earlier

/-- The dictionary names the tag of every form it finds, where the entries have no words in
common with what stands in the message besides. -/
theorem dictionary_names_tag {i : Intent} {pre post : List TagWords} {tw : TagWords}
    (h : Dict.classify crates userMsg dict = some i) (events : i.kind = .events)
    (split : scope.entries dict = pre ++ tw :: post) (listed : tw.lists crates form = true)
    (found : Dict.wordMatches (crates.toLowercase userMsg) (crates.toLowercase form) = true)
    (earlier : ∀ x ∈ pre, Dict.containsAny crates (crates.toLowercase userMsg) x.words = false) :
    scope.wanted i.filter = canonicalTag crates (scope.entries dict) form := by
  rw [wanted_of_dictionary h events, pickTag_of_found split listed found earlier]
  refine (canonicalTag_of_listed split listed fun x hx => ?_).symm
  refine Bool.eq_false_iff.mpr fun other => ?_
  obtain ⟨word, mem, same⟩ := List.any_eq_true.mp other
  have matched : Dict.containsAny crates (crates.toLowercase userMsg) x.words = true :=
    List.any_eq_true.mpr ⟨word, mem, (eq_of_beq same) ▸ found⟩
  rw [earlier x hx] at matched
  cases matched

end Dictionary

theorem nonBlank_eq_some {field : Option String} {tag : String} :
    Ai.nonBlank field = some tag ↔ field = some tag ∧ isBlank tag = false := by
  rw [Ai.nonBlank, Option.filter_eq_some_iff, Bool.not_eq_true']

theorem wanted_rawToIntent (scope : Scope) (r : RawIntent) :
    scope.wanted (Ai.rawToIntent r).filter = Ai.nonBlank (scope.answered r.filter) := by
  cases scope <;> rfl

theorem answer_names_tag_iff (scope : Scope) {r : RawIntent} {filter : EventFilter}
    (fallback : cfg.intent.aiFallback = true)
    (missed : Dict.classify crates userMsg cfg.intent.dict = none)
    (answer : w.classifier = .asked (some (.ok raw))) (read : Ai.Reads crates raw r)
    (queried : queriedFilter crates cfg userMsg w = some filter) :
    (∀ form tag, scope.answered r.filter = some form →
        canonicalTag crates (scope.entries cfg.intent.dict) form = some tag →
        scope.wanted filter = some tag) ↔
      ∀ form tag, scope.answered r.filter = some form →
        canonicalTag crates (scope.entries cfg.intent.dict) form = some tag →
        form = tag ∧ isBlank form = false := by
  obtain ⟨i, _, intent, _, _, on, rfl⟩ := queriedFilter_eq_some queried
  rw [classifyIntent_of_answer on fallback missed answer read] at intent
  cases intent
  have limited : ∀ filter, scope.wanted (WechatRouter.eventsFilter filter cfg.router) =
      scope.wanted filter := fun _ => by cases scope <;> rfl
  rw [limited, wanted_rawToIntent]
  refine forall_congr' fun form => forall_congr' fun tag => ?_
  refine imp_congr_right fun given => imp_congr_right fun _ => ?_
  rw [nonBlank_eq_some, given, Option.some.injEq]
  exact ⟨fun ⟨same, blank⟩ => ⟨same, same ▸ blank⟩, fun ⟨same, blank⟩ => ⟨same, same ▸ blank⟩⟩

/-- A dictionary of one city, written in two ways, for a message without an action word. -/
def oneCityCfg : Config where
  server := { bind := "127.0.0.1:8080" }
  wechat := { token := "token", appId := "wx1" }
  intent := {
    enabled := true
    dict := { actionWords := ["活动"], cities := [⟨["迪拜", "dubai"], "Dubai"⟩] } }

def cityQuestion : String := "今晚迪拜有什么"

def answerOf (city : String) : String :=
  "\x7b\"kind\":\"events\",\"filter\":\x7b\"city\":\"" ++ city ++ "\"\x7d\x7d"

/-- Crates that know the two answers below. -/
def cityCrates : TextCrates where
  toLowercase := asciiLowercase
  parseDate _ := none
  rawIntent json :=
    if json = answerOf "Dubai" then .ok ⟨"events", { city := some "Dubai" }⟩
    else if json = answerOf "迪拜" then .ok ⟨"events", { city := some "迪拜" }⟩
    else .error "expected value"

def answeredBy (raw : String) : Surroundings where
  wall := 0
  classifier := .asked (some (.ok raw))
  snapshot := some ⟨⟨1, "2026-05-16", []⟩, ⟨1, []⟩⟩
  today := ⟨739387, by decide⟩
  bridge := .noBridge

theorem answer_names_tag_iff_dubai : ∃ filter,
    queriedFilter cityCrates oneCityCfg cityQuestion (answeredBy (answerOf "Dubai")) =
      some filter ∧
    canonicalTag cityCrates (Scope.city.entries oneCityCfg.intent.dict) "Dubai" = some "Dubai" ∧
    Scope.city.wanted filter = some "Dubai" := by
  have read : Ai.Reads cityCrates (answerOf "Dubai") ⟨"events", { city := some "Dubai" }⟩ :=
    ⟨_, rfl, rfl⟩
  have queried : queriedFilter cityCrates oneCityCfg cityQuestion (answeredBy (answerOf "Dubai")) =
      some { city := some "Dubai", limit := some 3 } := by
    rw [queriedFilter, classifyIntent_of_answer rfl rfl rfl rfl read]
    rfl
  have names := answer_names_tag_iff .city rfl rfl rfl read queried
  have listed : canonicalTag cityCrates (Scope.city.entries oneCityCfg.intent.dict) "Dubai" =
      some "Dubai" := rfl
  refine ⟨_, queried, listed, names.mpr ?_ _ _ rfl listed⟩
  rintro form tag given canonical
  cases given
  cases listed.symm.trans canonical
  exact ⟨rfl, rfl⟩

/-- The classifier copies the city as the fan writes it, and no event of the city is found;
with an action word in the message the dictionary names the tag. -/
theorem answer_names_surface_form :
    oneCityCfg.validate (fun _ => .ok ()) = .ok () ∧
    Dict.classify cityCrates cityQuestion oneCityCfg.intent.dict = none ∧
    Ai.Reads cityCrates (answerOf "迪拜") ⟨"events", { city := some "迪拜" }⟩ ∧
    canonicalTag cityCrates (Scope.city.entries oneCityCfg.intent.dict) "迪拜" = some "Dubai" ∧
    (∃ filter,
      queriedFilter cityCrates oneCityCfg cityQuestion (answeredBy (answerOf "迪拜")) =
        some filter ∧ Scope.city.wanted filter ≠ some "Dubai" ∧
      ∀ e dateRange, e.city = some "Dubai" →
        matchesFilter cityCrates.parseDate e filter dateRange = false) ∧
    (Dict.classify cityCrates (cityQuestion ++ "活动") oneCityCfg.intent.dict).bind
      (fun i => Scope.city.wanted i.filter) = some "Dubai" := by
  have read : Ai.Reads cityCrates (answerOf "迪拜") ⟨"events", { city := some "迪拜" }⟩ :=
    ⟨_, rfl, rfl⟩
  have queried : queriedFilter cityCrates oneCityCfg cityQuestion (answeredBy (answerOf "迪拜")) =
      some { city := some "迪拜", limit := some 3 } := by
    rw [queriedFilter, classifyIntent_of_answer rfl rfl rfl rfl read]
    rfl
  refine ⟨rfl, rfl, read, rfl, ⟨_, queried, by decide, fun e dateRange city => ?_⟩, rfl⟩
  have other : scopeMatches (some "迪拜") e.city = false := by
    rw [city]
    decide
  simp [matchesFilter, other]

end EvoclawPluginWechat
