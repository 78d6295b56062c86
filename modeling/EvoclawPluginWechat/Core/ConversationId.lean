import EvoclawPluginWechat.Core.Std

/-!
The two kinds of conversation ids: a fan's, stable from one message to the next, and
the one the classifier makes up for each of its questions.
-/
namespace EvoclawPluginWechat

def sanitize (s : String) : List Char :=
  s.toList.map fun c => if c.isAlphanum || c == '_' || c == '-' then c else '_'

/-- Every character is ASCII by then, so that `truncate` counts characters. -/
def buildConversationId (appId fromUser : String) : String :=
  String.ofList (("wx-".toList ++ sanitize appId ++ ['-'] ++ sanitize fromUser).take 256)

def ephemeralCid (nanos : Nat) : String := "_ephemeral_ic-" ++ toString nanos

theorem buildConversationId_ne_ephemeralCid (appId fromUser : String) (nanos : Nat) :
    buildConversationId appId fromUser ≠ ephemeralCid nanos := by
  intro same
  have heads := congrArg (fun s => s.toList.head?) same
  simp [buildConversationId, ephemeralCid] at heads

theorem ephemeralCid_injective {m n : Nat} (h : ephemeralCid m = ephemeralCid n) : m = n := by
  have digits := congrArg String.toList h
  simp only [ephemeralCid, String.toList_append, Nat.toString_eq_repr, Nat.toList_repr] at digits
  have value := congrArg (fun ds => Nat.ofDigitChars 10 ds 0) (List.append_cancel_left digits)
  simpa only [Nat.ofDigitChars_toDigits (b := 10) (by decide) (by decide)] using value

end EvoclawPluginWechat
