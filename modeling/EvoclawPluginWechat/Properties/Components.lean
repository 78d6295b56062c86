import EvoclawPluginWechat.Properties.PluginSteps

/-!
The parts of the plugin run as they do alone: what holds of every run of the serializer
or of a bridge holds of the ones inside the plugin.
-/
namespace EvoclawPluginWechat
open Transition

theorem Worker.bridge_step {ι : Type} [DecidableEq ι] {W : Wire} {w w' : Worker ι}
    {a : Worker.Act ι} (h : w.step W a = some w') :
    w'.bridge = w.bridge ∨ ∃ op, w.bridge.step W op = some w'.bridge := by
  cases a with
  | bridge op =>
      by_cases reads : ∃ line, op = .readLine line
      · obtain ⟨line, rfl⟩ := reads
        cases h
      · rw [step_bridge fun line hl => reads ⟨line, hl⟩] at h
        obtain ⟨s, hs, rfl⟩ := Option.map_eq_some_iff.mp h
        exact .inr ⟨op, hs⟩
  | answer out =>
      simp only [step, Option.ite_none_right_eq_some, Option.some.injEq] at h
      obtain ⟨_, rfl⟩ := h
      exact .inl rfl
  | deliver =>
      simp only [step] at h
      split at h
      · obtain ⟨s, hs, rfl⟩ := Option.map_eq_some_iff.mp h
        exact .inr ⟨_, hs⟩
      · cases h
  | exit =>
      cases h
      exact .inr ⟨.breakPipe, rfl⟩

namespace Plugin
variable {n : Nat} {W : Wire} {cfg : HandlerCfg} {s s' : Plugin n}

theorem Move.serializer_after {a : Act} (m : Move W cfg s a s') :
    s'.serializer = s.serializer ∨ ∃ op, s.serializer.step op = some s'.serializer := by
  cases m with
  | quiet serializer _ _ => exact .inl serializer
  | inner _ inner => exact .inl inner.serializer
  | acquire _ _ hser | lockOwned _ _ hser | grant _ _ hser | release _ _ hser | gc hser _ =>
      exact .inr ⟨_, hser⟩
  | receive _ | startAsk _ _ _ _ | dropAsk _ _ _ | worker _ _ => exact .inl rfl

variable [NeZero n] {allow : Plugin n → Act → Prop}

theorem serializer_reachable (h : Reachable (step W cfg) allow (· = (new : Plugin n)) s) :
    Reachable ConvSerializer.step anyStep (· = .new) s.serializer := by
  refine h.simulate Plugin.serializer (P := fun _ => True) ?_
    (fun _ _ _ _ _ _ => trivial) fun s a t _ _ hstep => ?_
  · rintro _ rfl
    exact ⟨trivial, rfl⟩
  · obtain same | ⟨op, hop⟩ := (move_of_step hstep).serializer_after
    · exact .inl same
    · exact .inr ⟨op, trivial, hop⟩

theorem bridge_reachable (h : Reachable (step W cfg) allow (· = (new : Plugin n)) s)
    (b : BridgeId) : Reachable (Bridge.step W) anyStep (· = .new) (s.workers b).bridge := by
  refine h.simulate (fun s => (s.workers b).bridge) (P := fun _ => True) ?_
    (fun _ _ _ _ _ _ => trivial) fun s a t _ _ hstep => ?_
  · rintro _ rfl
    exact ⟨trivial, rfl⟩
  · have worker : (t.workers b).bridge = (s.workers b).bridge ∨
        ∃ op, (s.workers b).step W op = some (t.workers b) := by
      obtain same | ⟨op, _, _, hop⟩ | ⟨_, _, _, _, _, _, _, _, hop⟩ :=
        (move_of_step hstep).worker_after b
      · exact .inl (congrArg Worker.bridge same)
      · exact .inr ⟨op, hop⟩
      · exact .inr ⟨_, hop⟩
    obtain same | ⟨op, hop⟩ := worker
    · exact .inl same
    · exact (Worker.bridge_step hop).imp id fun ⟨op, hop⟩ => ⟨op, trivial, hop⟩

end Plugin
end EvoclawPluginWechat
