import EvoclawPluginWechat.Core.Config
import EvoclawPluginWechat.Core.ConversationId

/-!
What `build_conversation_id` keeps of a fan's OpenID. The cap of 256 characters leaves room
for as much of it as the app id does not take.
-/
namespace EvoclawPluginWechat

/-- The characters that `sanitize` leaves as they are, which are those of an OpenID. -/
def isIdChar (c : Char) : Bool := c.isAlphanum || c == '_' || c == '-'

theorem sanitize_eq_self {s : String} (h : s.toList.all isIdChar = true) :
    sanitize s = s.toList := by
  have same : sanitize s = s.toList.map id :=
    List.map_congr_left fun c hc => if_pos (List.all_eq_true.mp h c hc)
  rw [same, List.map_id]

theorem isIdChar_of_mem_sanitize {s : String} {c : Char} (h : c ∈ sanitize s) :
    isIdChar c = true := by
  obtain ⟨d, _, rfl⟩ := List.mem_map.mp h
  split_ifs with keep
  · exact keep
  · rfl

def cidPrefix (appId : String) : List Char := "wx-".toList ++ sanitize appId ++ ['-']

theorem length_cidPrefix (appId : String) : (cidPrefix appId).length = appId.length + 4 := by
  rw [cidPrefix, List.length_append, List.length_append, sanitize, List.length_map]
  change 3 + appId.length + 1 = _
  omega

theorem toList_buildConversationId (appId fromUser : String) :
    (buildConversationId appId fromUser).toList =
      (cidPrefix appId).take 256 ++ (sanitize fromUser).take (252 - appId.length) := by
  have room : 256 - (cidPrefix appId).length = 252 - appId.length := by
    rw [length_cidPrefix]
    omega
  rw [buildConversationId, String.toList_ofList, ← room]
  exact List.take_append

theorem buildConversationId_eq_iff {appId u v : String} (hu : u.toList.all isIdChar = true)
    (hv : v.toList.all isIdChar = true) :
    buildConversationId appId u = buildConversationId appId v ↔
      u.toList.take (252 - appId.length) = v.toList.take (252 - appId.length) := by
  rw [← String.toList_inj, toList_buildConversationId, toList_buildConversationId,
    sanitize_eq_self hu, sanitize_eq_self hv, List.append_cancel_left_eq]

/-- A conversation id may serve as a file name, and is none of the classifier's. -/
structure CidWellFormed (cid : String) : Prop where
  length : cid.length ≤ 256
  chars : cid.toList.all isIdChar = true
  sanitized : sanitize cid = cid.toList
  lasting : ¬ "_ephemeral_".toList <+: cid.toList

theorem cidWellFormed_build (appId fromUser : String) :
    CidWellFormed (buildConversationId appId fromUser) := by
  have chars : (buildConversationId appId fromUser).toList.all isIdChar = true := by
    apply List.all_eq_true.mpr
    intro c hc
    rw [buildConversationId, String.toList_ofList] at hc
    have hc := List.mem_of_mem_take hc
    simp only [List.mem_append] at hc
    obtain ((prefixed | app) | dash) | user := hc
    · have all : "wx-".toList.all isIdChar = true := rfl
      exact List.all_eq_true.mp all c prefixed
    · exact isIdChar_of_mem_sanitize app
    · rw [List.mem_singleton.mp dash]
      rfl
    · exact isIdChar_of_mem_sanitize user
  refine ⟨?_, chars, sanitize_eq_self chars, ?_⟩
  · rw [← String.length_toList, buildConversationId, String.toList_ofList]
    exact List.length_take_le ..
  · rintro ⟨rest, same⟩
    have heads := congrArg List.head? same
    simp [buildConversationId] at heads

theorem fans_kept_apart_iff (appId u v : String) (hu : u.toList.all isIdChar = true)
    (hv : v.toList.all isIdChar = true) :
    (buildConversationId appId u ≠ buildConversationId appId v ∧
        ∀ appId fromUser, CidWellFormed (buildConversationId appId fromUser)) ↔
      u.toList.take (252 - appId.length) ≠ v.toList.take (252 - appId.length) := by
  rw [ne_eq, buildConversationId_eq_iff hu hv]
  exact and_iff_left cidWellFormed_build

/-- Two OpenIDs of the usual kind, under a usual app id. -/
theorem fans_kept_apart_iff_usual :
    buildConversationId "wx0123456789abcdef" "oLVPpjqs9BhvzwPj5A-vTYAX3GLc" ≠
      buildConversationId "wx0123456789abcdef" "oLVPpjqs9BhvzwPj5A-vTYAX3GLd" ∧
    ∀ appId fromUser, CidWellFormed (buildConversationId appId fromUser) :=
  (fans_kept_apart_iff "wx0123456789abcdef" "oLVPpjqs9BhvzwPj5A-vTYAX3GLc"
    "oLVPpjqs9BhvzwPj5A-vTYAX3GLd" (by decide) (by decide)).mpr (by decide)

def longAppId : String := String.ofList (List.replicate 252 'a')

def longAppIdCfg : Config where
  server := { bind := "127.0.0.1:8080" }
  wechat := { token := "token", appId := longAppId }

/-- With an app id of 252 characters all fans share one session. -/
theorem fans_share_session :
    Config.validate (fun _ => .ok ()) longAppIdCfg = .ok () ∧ "fan" ≠ "other" ∧
      buildConversationId longAppIdCfg.wechat.appId "fan" =
        buildConversationId longAppIdCfg.wechat.appId "other" := by
  refine ⟨rfl, by decide, (buildConversationId_eq_iff (by decide) (by decide)).mpr ?_⟩
  have full : longAppIdCfg.wechat.appId.length = 252 := by
    change (String.ofList (List.replicate 252 'a')).length = 252
    rw [String.length_ofList, List.length_replicate]
  rw [full]
  rfl

end EvoclawPluginWechat
