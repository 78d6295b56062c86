import EvoclawPluginWechat.Core.WechatRouter
import EvoclawPluginWechat.Library.Template

/-!
The four replacements of `render_title` against one pass over the template.
-/
namespace EvoclawPluginWechat
open Template

inductive Placeholder
  | count
  | country
  | city
  | date
  deriving DecidableEq

namespace Placeholder

def all : List Placeholder := [.count, .country, .city, .date]

def body : Placeholder → String
  | .count => "count\x7d"
  | .country => "country\x7d"
  | .city => "city\x7d"
  | .date => "date\x7d"

def token (p : Placeholder) : String := "\x7b" ++ p.body

def titlePlaceholders : Placeholders Placeholder Char where
  mark := '\x7b'
  body p := p.body.toList
  mark_notMem p := by cases p <;> decide
  eq_of_prefix p q := by cases p <;> cases q <;> decide
  all := all
  mem_all p := by cases p <;> decide

/-- What `render_title` puts in its place. -/
def value (cfg : RouterCfg) (filter : EventFilter) (count : Nat) : Placeholder → String
  | .count => toString count
  | .country => filter.country.getD cfg.newsCard.defaultCountryLabel
  | .city => filter.city.getD cfg.newsCard.defaultCityLabel
  | .date => WechatRouter.dateLabel filter.date cfg

end Placeholder

namespace WechatRouter
open Placeholder
variable (cfg : RouterCfg) (filter : EventFilter) (count : Nat)

/-- The title, all placeholders of the template replaced at once. -/
def titleInOnePass : String :=
  String.ofList (titlePlaceholders.onePass (fun p => (value cfg filter count p).toList)
    cfg.newsCard.titleTemplate.toList)

/-- The title, the placeholders replaced in this order. -/
def renderTitleIn (order : List Placeholder) : String :=
  order.foldl (fun s p => replaceAll s p.token (value cfg filter count p))
    cfg.newsCard.titleTemplate

theorem renderTitle_eq : renderTitle cfg filter count = renderTitleIn cfg filter count all := rfl

theorem renderTitleIn_eq (order : List Placeholder) :
    renderTitleIn cfg filter count order =
      String.ofList (titlePlaceholders.chain (fun p => (value cfg filter count p).toList) order
        cfg.newsCard.titleTemplate.toList) := by
  induction order using List.reverseRecOn with
  | nil => exact String.ofList_toList.symm
  | append_singleton order p ih =>
      have token_eq : p.token.toList = titlePlaceholders.token p := by cases p <;> rfl
      rw [Placeholders.chain_concat, renderTitleIn, List.foldl_append, ← renderTitleIn, ih]
      simp only [List.foldl_cons, List.foldl_nil, replaceAll, String.toList_ofList, token_eq]

/-- Titles are made in one pass, in whatever order, exactly if no placeholder arises in the
template once the others are filled in. -/
theorem title_simultaneous_iff :
    (renderTitle cfg filter count = titleInOnePass cfg filter count ∧
      ∀ order : List Placeholder, order.Perm all →
        renderTitleIn cfg filter count order = renderTitle cfg filter count ∧
        titlePlaceholders.OwnOnly (fun p => (value cfg filter count p).toList) order
          cfg.newsCard.titleTemplate.toList) ↔
      ∀ p, ¬ titlePlaceholders.Arises
        (Placeholders.valuesBut (fun p => (value cfg filter count p).toList) p) p
        (titlePlaceholders.parse cfg.newsCard.titleTemplate.toList) := by
  rw [← Placeholders.simultaneous_iff]
  constructor
  · rintro ⟨onePass, orders⟩ order nodup complete
    have perm : order.Perm all :=
      (List.perm_ext_iff_of_nodup nodup (by decide)).mpr fun p =>
        iff_of_true (complete p) (titlePlaceholders.mem_all p)
    obtain ⟨same, own⟩ := orders order perm
    have whole := same.trans onePass
    rw [renderTitleIn_eq, titleInOnePass, String.ofList_inj] at whole
    exact ⟨whole, own⟩
  · intro simultaneous
    have each : ∀ order : List Placeholder, order.Perm all →
        renderTitleIn cfg filter count order = titleInOnePass cfg filter count ∧
        titlePlaceholders.OwnOnly (fun p => (value cfg filter count p).toList) order
          cfg.newsCard.titleTemplate.toList := by
      intro order perm
      obtain ⟨whole, own⟩ := simultaneous order (perm.nodup_iff.mpr (by decide))
        fun p => perm.mem_iff.mpr (titlePlaceholders.mem_all p)
      exact ⟨by rw [renderTitleIn_eq, whole, titleInOnePass], own⟩
    have source : renderTitle cfg filter count = titleInOnePass cfg filter count :=
      (renderTitle_eq cfg filter count).trans (each all (List.Perm.refl _)).1
    exact ⟨source, fun order perm => ⟨(each order perm).1.trans source.symm, (each order perm).2⟩⟩

/-- A template with a country, and a filter whose country reads as the date's placeholder. -/
def countryCfg : RouterCfg :=
  { newsCard := { titleTemplate := "\x7bcountry\x7d近期 \x7bcount\x7d 个活动" } }

def braceFilter : EventFilter := { country := some "\x7bdate\x7d", date := some .today }

/-- The country is expanded to the label of the day. -/
theorem country_expanded_again :
    renderTitle countryCfg braceFilter 2 = "今天近期 2 个活动" ∧
      renderTitle countryCfg braceFilter 2 ≠ titleInOnePass countryCfg braceFilter 2 := by
  have chained : renderTitle countryCfg braceFilter 2 = "今天近期 2 个活动" := by decide
  have whole : titleInOnePass countryCfg braceFilter 2 = "\x7bdate\x7d近期 2 个活动" := by decide
  refine ⟨chained, ?_⟩
  rw [chained, whole]
  decide

end WechatRouter
end EvoclawPluginWechat
