import EvoclawPluginWechat.Core.Webhook
import EvoclawPluginWechat.Properties.ReplyEnvelopes

/-!
The size of `<Content>` in a text reply. The cap counts characters; what is written counts
in bytes, and longer by twelve for every end marker in the text.
-/
namespace EvoclawPluginWechat
open Xml

/-- A text reply, up to its last element. -/
def textReplyHead (wall : Int) (toUser fromUser : String) : String :=
  "<xml>" ++
  "<ToUserName><![CDATA[" ++ escapeCdata toUser ++ "]]></ToUserName>" ++
  "<FromUserName><![CDATA[" ++ escapeCdata fromUser ++ "]]></FromUserName>" ++
  "<CreateTime>" ++ toString (currentUnixSecs wall) ++ "</CreateTime>" ++
  "<MsgType><![CDATA[text]]></MsgType>"

/-- The characters of the text that the cap keeps. -/
def keptChars (text : String) (maxChars : Nat) : List Char :=
  if text.toList.length ≤ maxChars then text.toList else text.toList.take (maxChars - 1)

/-- Their bytes, the ellipsis where some are left out, and the seams that stand for the end
markers among them. -/
def contentBytes (text : String) (maxChars : Nat) : Nat :=
  ((keptChars text maxChars).map Char.utf8Size).sum +
    (if text.toList.length ≤ maxChars then 0 else 3) +
    12 * Pattern.occurrences cdataEnd (keptChars text maxChars)

theorem length_utf8 (cs : List Char) : (utf8 cs).length = (cs.map Char.utf8Size).sum := by
  rw [utf8, List.length_flatMap]
  simp only [String.length_utf8EncodeChar]

theorem buildTextReply_content (wall : Int) (toUser fromUser content : String) :
    buildTextReply wall toUser fromUser content =
      textReplyHead wall toUser fromUser ++
        ("<Content><![CDATA[" ++ (escapeCdata content ++ ("]]></Content>" ++ "</xml>"))) := by
  rw [← String.toList_inj]
  unfold buildTextReply textReplyHead
  generalize escapeCdata toUser = a, escapeCdata fromUser = b, escapeCdata content = c,
    toString (currentUnixSecs wall) = d
  simp only [String.toList_append, List.append_assoc]

theorem length_escapeCdata (s : String) : (utf8 (escapeCdata s).toList).length =
    (s.toList.map Char.utf8Size).sum + 12 * Pattern.occurrences cdataEnd s.toList := by
  have replaced := Pattern.sum_map_replace cdataEnd_ne_nil cdataSeam s.toList Char.utf8Size
  have marker : (cdataEnd.map Char.utf8Size).sum = 3 := by decide
  have seam : (cdataSeam.map Char.utf8Size).sum = 15 := by decide
  rw [marker, seam] at replaced
  rw [length_utf8, toList_escapeCdata]
  omega

theorem length_escapeCdata_capped (text : String) {maxChars : Nat} (pos : 0 < maxChars) :
    (utf8 (escapeCdata (Webhook.capReplyText text maxChars)).toList).length =
      contentBytes text maxChars := by
  rw [length_escapeCdata, contentBytes, Webhook.capReplyText, if_neg (by omega), keptChars]
  by_cases fits : text.toList.length ≤ maxChars
  · rw [if_pos fits, if_pos fits, if_pos fits, Nat.add_zero]
  · have cut : (String.ofList (text.toList.take (maxChars - 1)) ++ "…").toList =
        text.toList.take (maxChars - 1) ++ ['…'] := by
      rw [String.toList_append, String.toList_ofList]
      rfl
    have ellipsis : '…'.utf8Size = 3 := by decide
    rw [if_neg fits, if_neg fits, if_neg fits, cut,
      Pattern.occurrences_concat cdataEnd_ne_nil (by decide), List.map_append, List.sum_append,
      List.map_singleton, List.sum_singleton, ellipsis]

/-- The content stands in the reply in so many bytes. -/
theorem content_fits_iff (wall : Int) (toUser fromUser text : String) {maxChars : Nat}
    (pos : 0 < maxChars) :
    ∃ inner, buildTextReply wall toUser fromUser (Webhook.capReplyText text maxChars) =
        textReplyHead wall toUser fromUser ++
          ("<Content><![CDATA[" ++ (inner ++ ("]]></Content>" ++ "</xml>"))) ∧
      ((utf8 inner.toList).length ≤ 2048 ↔ contentBytes text maxChars ≤ 2048) := by
  refine ⟨_, buildTextReply_content wall toUser fromUser _, ?_⟩
  rw [length_escapeCdata_capped text pos]

theorem length_keptChars_le (text : String) (maxChars : Nat) :
    (keptChars text maxChars).length + (if text.toList.length ≤ maxChars then 0 else 1) ≤
      max maxChars 1 := by
  rw [keptChars]
  split_ifs with fits
  · omega
  · rw [List.length_take]
    omega

theorem sum_utf8Size_le {n : Nat} {cs : List Char} (h : ∀ c ∈ cs, c.utf8Size ≤ n) :
    (cs.map Char.utf8Size).sum ≤ n * cs.length := by
  induction cs with
  | nil => exact Nat.zero_le _
  | cons c cs ih =>
      have first := h c List.mem_cons_self
      have rest := ih fun d hd => h d (List.mem_cons_of_mem _ hd)
      rw [List.map_cons, List.sum_cons, List.length_cons, Nat.mul_succ]
      omega

/-- Without end markers and characters of four bytes each character has three bytes. -/
theorem contentBytes_le {text : String} {maxChars : Nat} (pos : 0 < maxChars)
    (narrow : ∀ c ∈ text.toList, c.utf8Size ≤ 3) (unmarked : ¬ cdataEnd <:+: text.toList) :
    contentBytes text maxChars ≤ 3 * maxChars := by
  have kept : keptChars text maxChars <+: text.toList := by
    rw [keptChars]
    split_ifs
    · exact List.prefix_rfl
    · exact List.take_prefix _ _
  have none : Pattern.occurrences cdataEnd (keptChars text maxChars) = 0 :=
    Pattern.occurrences_of_not_infix fun inside => unmarked (inside.trans kept.isInfix)
  have bytes := sum_utf8Size_le fun c hc => narrow c (kept.subset hc)
  have count := length_keptChars_le text maxChars
  rw [contentBytes, none]
  split_ifs at count ⊢
  · omega
  · omega

theorem content_fits_iff_hello : ∃ inner, buildTextReply 0 "fan" "gh_1"
      (Webhook.capReplyText "你好" 600) = textReplyHead 0 "fan" "gh_1" ++
        ("<Content><![CDATA[" ++ (inner ++ ("]]></Content>" ++ "</xml>"))) ∧
    (utf8 inner.toList).length ≤ 2048 := by
  have pos : 0 < 600 := by decide
  obtain ⟨inner, written, fits⟩ := content_fits_iff 0 "fan" "gh_1" "你好" pos
  exact ⟨inner, written, fits.mpr (by decide)⟩

def faces (n : Nat) : String := String.ofList (List.replicate n '😀')

theorem length_faces (n : Nat) : (faces n).toList.length = n := by
  rw [faces, String.toList_ofList, List.length_replicate]

theorem utf8Size_faces (n : Nat) : ((faces n).toList.map Char.utf8Size).sum = n * 4 := by
  rw [faces, String.toList_ofList, List.map_replicate, List.sum_replicate_nat]
  rfl

/-- Far fewer characters than the cap allows. -/
theorem faces_too_long : (faces 513).toList.length ≤ 600 ∧
    ∃ inner, buildTextReply 0 "fan" "gh_1" (Webhook.capReplyText (faces 513) 600) =
        textReplyHead 0 "fan" "gh_1" ++
          ("<Content><![CDATA[" ++ (inner ++ ("]]></Content>" ++ "</xml>"))) ∧
      ¬ (utf8 inner.toList).length ≤ 2048 := by
  have count := length_faces 513
  have short : (faces 513).toList.length ≤ 600 := by omega
  refine ⟨short, _, buildTextReply_content 0 "fan" "gh_1" _, ?_⟩
  rw [length_escapeCdata_capped _ (by decide), contentBytes, keptChars, if_pos short,
    utf8Size_faces]
  omega

end EvoclawPluginWechat
