import EvoclawPluginWechat.Core.Intent
import EvoclawPluginWechat.Properties.StartUpChecks

/-!
What a dictionary can match. A word that is not empty stands in the message that consists
of it; without a help or action word no message is classified, whatever tags there are.
-/
namespace EvoclawPluginWechat
namespace Dict

theorem standsAt_self (bytes : List UInt8) : standsAt bytes bytes 0 = true := by
  rw [standsAt, List.drop_zero, List.take_length, Nat.zero_add]
  simp

theorem wordMatches_self {word : String} (nonempty : word ≠ "") :
    wordMatches word word = true := by
  have nonempty' : (word == "") = false := beq_eq_false_iff_ne.mpr nonempty
  unfold wordMatches
  dsimp only
  rw [if_neg (by simp [nonempty'])]
  split_ifs with wide
  · rw [Pattern.find_of_start List.prefix_rfl]
    rfl
  · exact absurd ‹_› (Nat.lt_irrefl _)
  · rw [Nat.sub_self]
    exact List.any_eq_true.mpr ⟨0, by simp, standsAt_self _⟩

theorem ne_of_wordMatches {haystackLower word : String}
    (h : wordMatches haystackLower word = true) : word ≠ "" := by
  rintro rfl
  cases h

section
variable (crates : TextCrates)

def SomeWord (words : List String) : Prop := ∃ w ∈ words, crates.toLowercase w ≠ ""

def tagEntries (dict : IntentDictCfg) : List TagWords :=
  dict.dates ++ dict.countries ++ dict.cities ++ dict.categories ++ dict.times

/-- Some message is classified, and every tag has a message with one of its words. -/
def Reachable (dict : IntentDictCfg) : Prop :=
  (∃ msg i, classify crates msg dict = some i) ∧
    ∀ tw ∈ tagEntries dict, ∃ msg, containsAny crates (crates.toLowercase msg) tw.words = true

end

variable {crates : TextCrates} {dict : IntentDictCfg}

theorem containsAny_reachable_iff {words : List String} :
    (∃ msg, containsAny crates (crates.toLowercase msg) words = true) ↔ SomeWord crates words := by
  constructor
  · rintro ⟨msg, h⟩
    obtain ⟨w, hw, matched⟩ := List.any_eq_true.mp h
    exact ⟨w, hw, ne_of_wordMatches matched⟩
  · rintro ⟨w, hw, nonempty⟩
    exact ⟨w, List.any_eq_true.mpr ⟨w, hw, wordMatches_self nonempty⟩⟩

theorem classify_isSome_iff {msg : String} : (∃ i, classify crates msg dict = some i) ↔
    containsAny crates (crates.toLowercase msg) dict.helpWords = true ∨
      containsAny crates (crates.toLowercase msg) dict.actionWords = true := by
  unfold classify
  dsimp only
  split_ifs with help action
  · exact iff_of_true ⟨_, rfl⟩ (.inl help)
  · refine iff_of_false nofun ?_
    rintro (h | h)
    · exact help h
    · rw [h] at action
      cases action
  · exact iff_of_true ⟨_, rfl⟩ (.inr (by simpa using action))

theorem classify_reachable_iff : (∃ msg i, classify crates msg dict = some i) ↔
    SomeWord crates dict.helpWords ∨ SomeWord crates dict.actionWords := by
  rw [← containsAny_reachable_iff, ← containsAny_reachable_iff, ← exists_or]
  exact exists_congr fun msg => classify_isSome_iff

/-- The dictionary reaches all it lists when a help or action word is not empty, and a word of
each tag. -/
theorem reachable_iff (crates : TextCrates) (dict : IntentDictCfg) : Reachable crates dict ↔
    (SomeWord crates dict.helpWords ∨ SomeWord crates dict.actionWords) ∧
      ∀ tw ∈ tagEntries dict, SomeWord crates tw.words := by
  rw [Reachable, classify_reachable_iff]
  refine and_congr_right fun _ => forall_congr' fun tw => imp_congr_right fun _ => ?_
  exact containsAny_reachable_iff

/-- Tags, and no word that opens the way to them. -/
def gatelessCfg : Config where
  server := { bind := "127.0.0.1:8080" }
  wechat := { token := "token", appId := "wx1" }
  intent := {
    enabled := true
    aiFallback := false
    dict := { cities := [⟨["dubai"], "Dubai"⟩] } }

/-- An action word, and a tag whose one word is empty. -/
def emptyWordCfg : Config :=
  { gatelessCfg with intent :=
    { enabled := true
      aiFallback := false
      dict := { actionWords := ["events"], cities := [⟨[""], "Dubai"⟩] } } }

/-- Both pass the check. -/
theorem checked_but_unreachable :
    (gatelessCfg.validate (fun _ => .ok ()) = .ok () ∧
      ∀ crates msg, classify crates msg gatelessCfg.intent.dict = none) ∧
    (emptyWordCfg.validate (fun _ => .ok ()) = .ok () ∧
      ∀ crates, crates.toLowercase "" = "" → ∀ tw ∈ emptyWordCfg.intent.dict.cities, ∀ msg,
        containsAny crates (crates.toLowercase msg) tw.words = false) ∧
    ∀ crates, ¬ Reachable crates gatelessCfg.intent.dict := by
  have silent : ∀ crates msg, classify crates msg gatelessCfg.intent.dict = none :=
    fun _ _ => rfl
  refine ⟨⟨rfl, silent⟩, ⟨rfl, fun crates empty tw listed msg => ?_⟩, fun crates reachable => ?_⟩
  · obtain rfl := List.mem_singleton.mp listed
    rw [Bool.eq_false_iff]
    intro found
    obtain ⟨w, hw, nonempty⟩ := containsAny_reachable_iff.mp ⟨msg, found⟩
    obtain rfl := List.mem_singleton.mp hw
    exact nonempty empty
  · obtain ⟨msg, i, classified⟩ := reachable.1
    rw [silent] at classified
    cases classified

end Dict
end EvoclawPluginWechat
