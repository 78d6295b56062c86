import EvoclawPluginWechat.Properties.RetryCost

/-!
The `{count}` of a news card: it counts the events that the card lists, and the digest may
have more that match.
-/
namespace EvoclawPluginWechat
namespace WechatRouter

section
variable (parseDate : String → Option NaiveDate)

/-- All events of the digest that match the filter, however many are listed. -/
def matchingEvents (filter : EventFilter) (snap : DigestSnapshot) (today : NaiveDate) :
    Outcome (List Event) :=
  match filter.date.elim (some none) fun tag => dateTagRange tag today with
  | none => .panicked
  | some dateRange =>
      .returned (snap.digestData.events.filter fun e => matchesFilter parseDate e filter dateRange)

/-- The count that `build_events_reply` calls `render_title` with, when it does. -/
def titleCount (filter : EventFilter) (snap : DigestSnapshot) (cfg : RouterCfg)
    (today : NaiveDate) : Option Nat :=
  match snap.query parseDate (eventsFilter filter cfg) today with
  | .panicked => none
  | .returned events =>
      if events = [] then none
      else if cfg.newsCard.picUrl = "" ∨ cfg.newsCard.url = "" then none
      else some events.length

end

variable {parseDate : String → Option NaiveDate} {filter : EventFilter} {snap : DigestSnapshot}
  {cfg : RouterCfg} {today : NaiveDate} {article : NewsArticle}

theorem query_eventsFilter {events : List Event}
    (h : snap.query parseDate (eventsFilter filter cfg) today = .returned events) :
    ∃ all, matchingEvents parseDate filter snap today = .returned all ∧
      events = all.take cfg.eventsInCard := by
  unfold DigestSnapshot.query at h
  unfold matchingEvents
  have same : (eventsFilter filter cfg).date = filter.date := rfl
  rw [same] at h
  cases range : filter.date.elim (some none) fun tag => dateTagRange tag today with
  | none =>
      rw [range] at h
      cases h
  | some dateRange =>
      rw [range] at h
      exact ⟨_, rfl, (Outcome.returned.inj h).symm⟩

theorem titleCount_of_card {events : List Event}
    (queried : snap.query parseDate (eventsFilter filter cfg) today = .returned events)
    (card : replyWith cfg filter snap events = .news article) :
    titleCount parseDate filter snap cfg today = some events.length ∧
      article.title = renderTitle cfg filter events.length := by
  unfold replyWith at card
  split at card
  · cases card
  · next found =>
      split at card
      · cases card
      · next linked =>
          have title := congrArg NewsArticle.title (Reply.news.inj card)
          refine ⟨?_, title.symm⟩
          rw [titleCount, queried]
          dsimp only
          rw [if_neg found, if_neg linked]

theorem card_inv {intent : Intent}
    (news : route parseDate intent (some snap) cfg today = .returned (.news article)) :
    ∃ events, snap.query parseDate (eventsFilter intent.filter cfg) today = .returned events ∧
      replyWith cfg intent.filter snap events = .news article := by
  unfold route at news
  split at news
  · cases news
  · cases news
  · cases news
  · simp only [buildEventsReply] at news
    split at news
    · cases news
    · next events queried => exact ⟨events, queried, Outcome.returned.inj news⟩

/-- The card counts all the events that match just when it has room for them. -/
theorem card_counts_all_iff {intent : Intent}
    (news : route parseDate intent (some snap) cfg today = .returned (.news article)) :
    ∃ all count, matchingEvents parseDate intent.filter snap today = .returned all ∧
      titleCount parseDate intent.filter snap cfg today = some count ∧
      article.title = renderTitle cfg intent.filter count ∧
      (count = all.length ↔ all.length ≤ cfg.eventsInCard) := by
  obtain ⟨events, queried, card⟩ := card_inv news
  obtain ⟨all, matching, rfl⟩ := query_eventsFilter queried
  obtain ⟨passed, title⟩ := titleCount_of_card queried card
  refine ⟨all, _, matching, passed, title, ?_⟩
  rw [List.length_take]
  omega

/-- A digest of so many art weeks. -/
def artWeeks (n : Nat) : DigestSnapshot :=
  ⟨⟨1, "2026-05-16", []⟩, ⟨1, List.replicate n artWeek⟩⟩

theorem someDay_inRange : NaiveDate.InRange 739387 := by decide

def someDay : NaiveDate := ⟨739387, someDay_inRange⟩

theorem card_counts_all_iff_two : ∃ article,
    route (fun _ => none) (.events {}) (some (artWeeks 2)) cardCfg.router someDay =
      .returned (.news article) ∧
    titleCount (fun _ => none) {} (artWeeks 2) cardCfg.router someDay = some 2 ∧
    article.title = renderTitle cardCfg.router {} 2 := by
  obtain ⟨article, news⟩ : ∃ article, route (fun _ => none) (.events {}) (some (artWeeks 2))
      cardCfg.router someDay = .returned (.news article) := ⟨_, rfl⟩
  obtain ⟨all, count, matching, passed, title, law⟩ := card_counts_all_iff news
  cases matching
  obtain rfl : count = 2 := law.mpr (by decide)
  exact ⟨article, news, passed, title⟩

/-- Four events match, the card lists three, and that is what its title says. -/
theorem four_counted_as_three : cardCfg.validate (fun _ => .ok ()) = .ok () ∧
    ∃ article all,
      route (fun _ => none) (.events {}) (some (artWeeks 4)) cardCfg.router someDay =
        .returned (.news article) ∧
      matchingEvents (fun _ => none) {} (artWeeks 4) someDay = .returned all ∧ all.length = 4 ∧
      titleCount (fun _ => none) {} (artWeeks 4) cardCfg.router someDay = some 3 ∧
      article.title = "有 3 场活动" := by
  refine ⟨rfl, _, _, rfl, rfl, rfl, rfl, ?_⟩
  decide +kernel

end WechatRouter
end EvoclawPluginWechat
