import EvoclawPluginWechat.Properties.RetryCost
import EvoclawPluginWechat.Properties.StartUpChecks

/-!
The time-outs on the way of a message. The check bounds each of them; a message that the
classifier takes for a general question pays for both.
-/
namespace EvoclawPluginWechat
open Transition Webhook

/-- The time-outs, in milliseconds, that an exchange may wait out. -/
def Exchange.waits (timeoutMs : Nat) : Exchange → List Nat
  | .noBridge => []
  | .asked _ => [timeoutMs]

section
variable (crates : TextCrates) (cfg : Config)

/-- On the way of `classify_intent`. -/
def classifyWaits (userMsg : String) (w : Surroundings) : List Nat :=
  match Dict.classify crates userMsg cfg.intent.dict with
  | some _ => []
  | none =>
      if cfg.intent.aiFallback then
        match aiClassifier cfg.intent with
        | some _ => w.classifier.waits cfg.intent.aiTimeoutMs
        | none => []
      else []

/-- Past the cache: the classification, and the answer where the router leaves it to a bridge. -/
def payloadWaits (userMsg : String) (w : Surroundings) : List Nat :=
  let classified := if cfg.intent.enabled then classifyWaits crates cfg userMsg w else []
  match (computeReply crates cfg userMsg w).1 with
  | .returned .fallbackToLlm => classified ++ w.bridge.waits cfg.evoclaw.timeoutMs
  | _ => classified

/-- On the way of `compute_text_payload`. -/
def textPayloadWaits (s : CacheRun) (fromUser userMsg : String) (msgId : Option String)
    (w : Surroundings) : List Nat :=
  match (lookupPayload s (cacheKey fromUser msgId)).1 with
  | .returned none => payloadWaits crates cfg userMsg w
  | _ => []

/-- The dictionary does not know the message, the classifier takes it for a general question,
and there is a bridge to put it to. -/
structure PaysTwice (userMsg : String) (w : Surroundings) : Prop where
  on : cfg.intent.enabled = true
  missed : Dict.classify crates userMsg cfg.intent.dict = none
  fallback : cfg.intent.aiFallback = true
  general : ∃ raw r, w.classifier = .asked (some (.ok raw)) ∧ Ai.Reads crates raw r ∧
    (Ai.rawToIntent r).kind = .generalQa
  bridge : w.bridge ≠ .noBridge

end

variable {crates : TextCrates} {cfg : Config} {cid fromUser userMsg : String}
  {msgId : Option String} {s : CacheRun} {w : Surroundings}

namespace Config

structure Timeouts (cfg : Config) : Prop where
  answer : cfg.evoclaw.timeoutMs ≤ 4900
  classifier : cfg.intent.enabled = true → cfg.intent.aiTimeoutMs ≤ cfg.evoclaw.timeoutMs

theorem timeouts_of_validate {parseBind : String → Except String Unit}
    (h : cfg.validate parseBind = .ok ()) : Timeouts cfg := by
  unfold validate at h
  cases bind : parseBind cfg.server.bind with
  | error e =>
      rw [bind] at h
      cases h
  | ok _ =>
      rw [bind] at h
      obtain ⟨_, h⟩ := andThen_ok h
      obtain ⟨_, h⟩ := andThen_ok h
      obtain ⟨answer, h⟩ := andThen_ok h
      obtain ⟨_, h⟩ := andThen_ok h
      obtain ⟨_, h⟩ := andThen_ok h
      obtain ⟨_, h⟩ := andThen_ok h
      obtain ⟨intent, _⟩ := andThen_ok h
      have answer := refuse_ok answer
      simp only [Bool.or_eq_false_iff, decide_eq_false_iff_not, Nat.not_lt] at answer
      refine ⟨answer.2, fun on => ?_⟩
      rw [validateIntent, if_pos on] at intent
      have classifier := refuse_ok (andThen_ok intent).1
      simp only [Bool.or_eq_false_iff, decide_eq_false_iff_not, Nat.not_lt] at classifier
      exact classifier.2

end Config

theorem sum_waits_le (timeoutMs : Nat) (e : Exchange) : (e.waits timeoutMs).sum ≤ timeoutMs := by
  cases e with
  | noBridge => exact Nat.zero_le _
  | asked answer => simp [Exchange.waits]

theorem length_waits (timeoutMs : Nat) (call : AskCall) (e : Exchange) :
    (e.waits timeoutMs).length = (e.calls call).length := by
  cases e with
  | noBridge => rfl
  | asked answer => rfl

theorem length_classifyWaits :
    (classifyWaits crates cfg userMsg w).length =
      (classifyIntent crates cfg userMsg w).2.length := by
  unfold classifyWaits classifyIntent
  cases Dict.classify crates userMsg cfg.intent.dict with
  | some i => rfl
  | none =>
      dsimp only
      split_ifs
      · cases aiClassifier cfg.intent with
        | none => rfl
        | some ai => exact length_waits _ _ _
      · rfl

theorem length_payloadWaits :
    (payloadWaits crates cfg userMsg w).length =
      (computePayload crates cfg cid fromUser userMsg w).2.length := by
  have classified : (if cfg.intent.enabled then classifyWaits crates cfg userMsg w else []).length =
      (computeReply crates cfg userMsg w).2.length := by
    unfold computeReply
    split_ifs
    · rw [length_classifyWaits]
      split
      · next panic => rw [panic]
      · next done => rw [done]
    · rfl
  unfold payloadWaits computePayload
  cases reply : computeReply crates cfg userMsg w with
  | mk outcome asks =>
      rw [reply] at classified
      dsimp only at classified ⊢
      cases outcome with
      | panicked => exact classified
      | returned routed =>
          cases routed with
          | text s => exact classified
          | news article => exact classified
          | fallbackToLlm =>
              dsimp only
              rw [List.length_append, classified, List.length_append]
              exact congrArg _ (length_waits _ _ _)

theorem PaysTwice.waits (h : PaysTwice crates cfg userMsg w) :
    payloadWaits crates cfg userMsg w = [cfg.intent.aiTimeoutMs, cfg.evoclaw.timeoutMs] := by
  obtain ⟨raw, r, answer, read, general⟩ := h.general
  have intent : (classifyIntent crates cfg userMsg w).1 = .returned (Ai.rawToIntent r) :=
    classifyIntent_of_answer h.on h.fallback h.missed answer read
  have reply : (computeReply crates cfg userMsg w).1 = .returned .fallbackToLlm := by
    refine (computeReply_returned_iff h.on).mpr ⟨_, intent, ?_⟩
    rw [WechatRouter.route.eq_def, general]
  have classified : classifyWaits crates cfg userMsg w = [cfg.intent.aiTimeoutMs] := by
    rw [classifyWaits, h.missed]
    dsimp only
    rw [if_pos h.fallback, aiClassifier, h.on, h.fallback, answer]
    rfl
  have answered : w.bridge.waits cfg.evoclaw.timeoutMs = [cfg.evoclaw.timeoutMs] := by
    cases bridge : w.bridge with
    | noBridge => exact absurd bridge h.bridge
    | asked answer => rfl
  rw [payloadWaits, reply, if_pos h.on, classified, answered]
  rfl

/-- A message left to a bridge after a classification is a general question to the
classifier. -/
theorem paysTwice_of_fallback (on : cfg.intent.enabled = true)
    (reply : (computeReply crates cfg userMsg w).1 = .returned .fallbackToLlm)
    (bridge : w.bridge ≠ .noBridge) : PaysTwice crates cfg userMsg w := by
  obtain ⟨i, intent, routed⟩ := (computeReply_returned_iff on).mp reply
  have general := route_fallback routed
  have known : i.kind ≠ .unknown := fun h => by cases general.symm.trans h
  obtain found | ⟨missed, fallback, raw, r, answer, read, rfl⟩ :=
    (classifyIntent_eq_iff on known).mp intent
  · exact absurd general (classify_not_generalQa found)
  · exact ⟨on, missed, fallback, ⟨raw, r, answer, read, general⟩, bridge⟩

theorem sum_classifyWaits_le :
    (classifyWaits crates cfg userMsg w).sum ≤ cfg.intent.aiTimeoutMs := by
  unfold classifyWaits
  split
  · exact Nat.zero_le _
  · split_ifs
    · split
      · exact sum_waits_le _ _
      · exact Nat.zero_le _
    · exact Nat.zero_le _

/-- All other messages wait out one time-out at most. -/
theorem sum_payloadWaits_le (timeouts : Config.Timeouts cfg)
    (once : ¬ PaysTwice crates cfg userMsg w) :
    (payloadWaits crates cfg userMsg w).sum ≤ cfg.evoclaw.timeoutMs := by
  have answer := sum_waits_le cfg.evoclaw.timeoutMs w.bridge
  unfold payloadWaits
  dsimp only
  by_cases on : cfg.intent.enabled = true
  · have classified : (classifyWaits crates cfg userMsg w).sum ≤ cfg.evoclaw.timeoutMs :=
      Nat.le_trans sum_classifyWaits_le (timeouts.classifier on)
    rw [if_pos on]
    split
    · next reply =>
        have none : w.bridge = .noBridge := by
          by_contra bridge
          exact once (paysTwice_of_fallback on reply bridge)
        rw [none, Exchange.waits, List.append_nil]
        exact classified
    · exact classified
  · rw [if_neg on]
    split
    · rwa [List.nil_append]
    · exact Nat.zero_le _

/-- The window is kept by every message that pays once, and by those that pay twice where the
two time-outs together fit into it. -/
theorem waits_fit_iff {parseBind : String → Except String Unit}
    (valid : cfg.validate parseBind = .ok ()) (s : CacheRun) (fromUser userMsg : String)
    (msgId : Option String) (w : Surroundings) :
    (textPayloadWaits crates cfg s fromUser userMsg msgId w).sum ≤ 5000 ↔
      ((lookupPayload s (cacheKey fromUser msgId)).1 = .returned none →
        PaysTwice crates cfg userMsg w →
        cfg.intent.aiTimeoutMs + cfg.evoclaw.timeoutMs ≤ 5000) := by
  have timeouts := Config.timeouts_of_validate valid
  unfold textPayloadWaits
  split
  · next missed =>
      rw [missed]
      simp only [forall_const]
      by_cases twice : PaysTwice crates cfg userMsg w
      · rw [twice.waits]
        simp [twice]
      · have once := sum_payloadWaits_le timeouts twice
        have answer := timeouts.answer
        exact iff_of_true (by omega) fun h => absurd h twice
  · next other =>
      exact iff_of_true (by decide) fun missed => absurd missed other

/-- The longest answer that goes with the default of the classification. -/
def fittingCfg : Config := { oneCityCfg with evoclaw := { timeoutMs := 3500 } }

theorem waits_fit_iff_fitting : fittingCfg.validate (fun _ => .ok ()) = .ok () ∧
    ∀ crates s fromUser userMsg msgId w,
      (textPayloadWaits crates fittingCfg s fromUser userMsg msgId w).sum ≤ 5000 := by
  have valid : fittingCfg.validate (fun _ => .ok ()) = .ok () := rfl
  refine ⟨valid, fun crates s fromUser userMsg msgId w => ?_⟩
  exact (waits_fit_iff valid s fromUser userMsg msgId w).mpr fun _ _ => Nat.le_refl 5000

def generalAnswer : String := "\x7b\"kind\":\"general_qa\",\"filter\":\x7b\x7d\x7d"

def generalCrates : TextCrates :=
  { cityCrates with
    rawIntent := fun json =>
      if json = generalAnswer then .ok ⟨"general_qa", {}⟩ else .error "expected value" }

/-- A classification, and then an answer that does not come. -/
def asksGenerally : Surroundings := { answeredBy generalAnswer with bridge := .asked none }

/-- With the default time-outs a general question may take six seconds. -/
theorem both_waited_out : oneCityCfg.validate (fun _ => .ok ()) = .ok () ∧
    textPayloadWaits generalCrates oneCityCfg startRun "fan" cityQuestion (some "77")
      asksGenerally = [1500, 4500] ∧
    ¬ (textPayloadWaits generalCrates oneCityCfg startRun "fan" cityQuestion (some "77")
      asksGenerally).sum ≤ 5000 := by
  have read : Ai.Reads generalCrates generalAnswer ⟨"general_qa", {}⟩ := ⟨_, rfl, rfl⟩
  have twice : PaysTwice generalCrates oneCityCfg cityQuestion asksGenerally :=
    ⟨rfl, rfl, rfl, ⟨_, _, rfl, read, rfl⟩, nofun⟩
  have waits : textPayloadWaits generalCrates oneCityCfg startRun "fan" cityQuestion (some "77")
      asksGenerally = [1500, 4500] := by
    have missed : (lookupPayload startRun (cacheKey "fan" (some "77"))).1 = .returned none := rfl
    rw [textPayloadWaits, missed]
    exact twice.waits
  refine ⟨rfl, waits, ?_⟩
  rw [waits]
  decide

end EvoclawPluginWechat
