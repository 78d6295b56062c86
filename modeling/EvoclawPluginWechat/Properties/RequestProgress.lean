import EvoclawPluginWechat.Properties.FinishedRequests
import EvoclawPluginWechat.Properties.RequestCost
import Mathlib.Algebra.Order.BigOperators.Group.Finset

/-!
Requests come to their end: there is always a step to take as long as one of them is not
over, and only so many steps can be taken.
-/
namespace EvoclawPluginWechat
open Transition

namespace Bridge
variable {ι : Type} [DecidableEq ι] {s : Bridge ι}

theorem some_step (W : Wire) {i : ι} {msg : InboundMessage} {p : AskPhase}
    (hp : s.place i = some (msg, p)) (flight : p.isDone = false) :
    ∃ op : Act ι, op.asker = some i ∧ op.isWrite = false ∧ (s.step W op).isSome = true := by
  obtain ⟨cell, ha⟩ := place_eq_some.mp hp
  cases p with
  | called =>
      refine ⟨.checkAlive i, rfl, rfl, ?_⟩
      cases live : s.alive <;> simp [step, ha, live]
  | checked => exact ⟨.insert i, rfl, rfl, by simp [step, ha]⟩
  | queued | writing _ | flushing | awaiting => exact ⟨.drop i, rfl, rfl, by simp [step, ha]⟩
  | writeFailed _ => exact ⟨.markDead i, rfl, rfl, by simp [step, ha]⟩
  | leaving _ => exact ⟨.dropGuard i, rfl, rfl, by simp [step, ha]⟩
  | done _ => cases flight

end Bridge

namespace ConvSerializer
variable {s s' : ConvSerializer}

/-- What a sweep has still to look at is in the map. -/
def SweepKeys (s : ConvSerializer) : Prop :=
  ∀ sw, s.sweep = some sw → sw.todo.Nodup ∧ ∀ cid ∈ sw.todo, (s.locks.lookup cid).isSome = true

/-- How many steps a sweep takes at most. -/
def sweepLeft (s : ConvSerializer) : Nat := s.sweep.elim 0 fun sw => sw.todo.length + 1

/-- The steps a sweep takes once it has begun. -/
def Act.inSweep : Act → Bool
  | .gcVisit _ | .gcEnd => true
  | _ => false

theorem sweepKeys_step (hs : SweepKeys s) {a : Act} (h : s.step a = some s') : SweepKeys s' := by
  have kept : s'.sweep = s.sweep → s'.locks = s.locks → SweepKeys s' := by
    intro sweep locks sw hsw
    rw [locks]
    exact hs sw (sweep.symm.trans hsw)
  cases a with
  | acquire t cid now =>
      simp only [step, acquire, Option.ite_none_right_eq_some, outerFree, Bool.and_eq_true] at h
      obtain ⟨⟨⟨idle, _⟩, _⟩, h⟩ := h
      intro sw hsw
      split at h
      · cases h
        cases (Option.isNone_iff_eq_none.mp idle).symm.trans hsw
      · cases h
        cases (Option.isNone_iff_eq_none.mp idle).symm.trans hsw
  | lockOwned t =>
      simp only [step, lockOwned] at h
      split at h
      · cases h; exact kept rfl rfl
      · cases h
  | grant t =>
      simp only [step, grant] at h
      split at h
      · split at h
        · cases h; exact kept rfl rfl
        · cases h
      · cases h
  | release t =>
      simp only [step, release] at h
      split at h
      · cases h; exact kept rfl rfl
      · cases h
  | gcBegin idle now =>
      simp only [step, gcBegin] at h
      split at h
      · split at h
        · cases h
          intro sw hsw
          cases hsw
          refine ⟨s.locks.nodupKeys, fun cid hc => ?_⟩
          exact AList.lookup_isSome.mpr (AList.mem_keys.mpr hc)
        · cases h; exact kept rfl rfl
      · cases h
  | gcVisit cid =>
      obtain ⟨sw, e, hsw, he, ⟨_, rfl⟩ | ⟨_, rfl⟩⟩ := gcVisit_eq_some h
      · obtain ⟨nodup, there⟩ := hs sw hsw
        intro sw' hsw'
        cases hsw'
        exact ⟨nodup.erase cid, fun c hc => there c (List.mem_of_mem_erase hc)⟩
      · obtain ⟨nodup, there⟩ := hs sw hsw
        intro sw' hsw'
        cases hsw'
        refine ⟨nodup.erase cid, fun c hc => ?_⟩
        have old := (nodup.mem_erase_iff).mp hc
        rw [Table.lookup_erase_eq, if_neg old.1]
        exact there c old.2
  | gcEnd =>
      simp only [step, gcEnd] at h
      split at h
      · split at h
        · cases h
          rintro sw hsw
          cases hsw
        · cases h
      · cases h

theorem sweepKeys_reachable (h : Reachable step anyStep (· = new) s) : SweepKeys s :=
  h.invariant (fun _ hs => by rintro sw hsw; rw [hs] at hsw; cases hsw)
    fun _ _ _ hs _ hm => sweepKeys_step hs hm

theorem sweep_step (hs : SweepKeys s) {sw : Sweep} (hsw : s.sweep = some sw) :
    ∃ op : Act, op.inSweep = true ∧ (s.step op).isSome = true := by
  cases todo : sw.todo with
  | nil => exact ⟨.gcEnd, rfl, by simp [step, gcEnd, hsw, todo]⟩
  | cons cid rest =>
      have here : cid ∈ sw.todo := by rw [todo]; exact List.mem_cons_self
      obtain ⟨e, he⟩ := Option.isSome_iff_exists.mp ((hs sw hsw).2 cid here)
      refine ⟨.gcVisit cid, rfl, ?_⟩
      cases keep : s.keeps sw.cutoff e <;> simp [step, gcVisit, hsw, he, here, keep]

theorem sweepLeft_of_inSweep {a : Act} (sweeps : a.inSweep = true) (h : s.step a = some s') :
    s'.sweepLeft + 1 ≤ s.sweepLeft := by
  cases a with
  | gcVisit cid =>
      have visited : ∃ sw, s.sweep = some sw ∧ cid ∈ sw.todo ∧
          ∃ sw', s'.sweep = some sw' ∧ sw'.todo = sw.todo.erase cid := by
        simp only [step, gcVisit] at h
        split at h
        · next sw e hsw he =>
            split at h
            · next here =>
                split at h
                · cases h; exact ⟨sw, hsw, here, _, rfl, rfl⟩
                · cases h; exact ⟨sw, hsw, here, _, rfl, rfl⟩
            · cases h
        · cases h
      obtain ⟨sw, hsw, here, sw', hsw', todo⟩ := visited
      have shorter := List.length_erase_of_mem here
      have some := List.length_pos_of_mem here
      simp only [sweepLeft, hsw, hsw', Option.elim_some, todo, shorter]
      omega
  | gcEnd =>
      simp only [step, gcEnd] at h
      split at h
      · next sw hsw =>
          split at h
          · cases h
            simp [sweepLeft, hsw]
          · cases h
      · cases h
  | _ => cases sweeps

theorem sweep_of_other {a : Act} (sweeps : a.inSweep = false)
    (begins : ∀ idle now, a ≠ .gcBegin idle now) (h : s.step a = some s') :
    s'.sweep = s.sweep := by
  cases a with
  | acquire t cid now =>
      simp only [step, acquire] at h
      split at h
      · split at h
        · cases h; rfl
        · cases h; rfl
      · cases h
  | lockOwned t =>
      simp only [step, lockOwned] at h
      split at h
      · cases h; rfl
      · cases h
  | grant t =>
      simp only [step, grant] at h
      split at h
      · split at h
        · cases h; rfl
        · cases h
      · cases h
  | release t =>
      simp only [step, release] at h
      split at h
      · cases h; rfl
      · cases h
  | gcBegin idle now => exact absurd rfl (begins idle now)
  | gcVisit _ | gcEnd => cases sweeps

end ConvSerializer

namespace Plugin
variable {n : Nat} [NeZero n] {W : Wire} {cfg : HandlerCfg} {s s' : Plugin n}
variable {t : TaskId} {r : Request}

theorem effect_request {a : Act} (hs : Owned s) (e : Effect W cfg s a s')
    (mine : a.request = some t) : ∃ r, s.requests t = some r := by
  cases e with
  | outside nobody _ _ _ _ => cases nobody.symm.trans mine
  | receive _ => cases mine
  | pool nocall nocancel hp =>
      cases mine
      obtain ⟨ph, _, before, _⟩ := (BridgePool.move_of_step hp).charge nocall nocancel
      obtain ⟨r, hr, _⟩ := hs.called _ _ ph before
      exact ⟨r, hr⟩
  | @ask b op i w hi hw =>
      obtain rfl : i.1 = t := by
        rw [Act.request, hi] at mine
        exact Option.some.inj mine
      cases Worker.move_of_step hw with
      | bridge _ m =>
          obtain ⟨msg, p, _, before, _⟩ := m.charge hi
          obtain ⟨r, hr, _⟩ := hs.asked b i.1 i.2 (msg, p) before
          exact ⟨r, hr⟩
  | serializer mine' hr _ _ _ _ _ _ _ | alone mine' hr _ _ | call mine' hr _ _ _ =>
      cases mine'.symm.trans mine
      exact ⟨_, hr⟩
  | cancel hr _ _ | startAsk hr _ _ _ | dropAsk hr _ _ =>
      cases mine
      exact ⟨_, hr⟩

/-- The steps within a sweep of the serializer. -/
def Act.sweeps : Act → Bool
  | .gcVisit _ | .gcEnd => true
  | _ => false

def Act.leaves : Act → Bool
  | .disconnect _ => true
  | _ => false

/-- The steps of the plugin itself; the world sends messages, goes away before they are answered,
kills processes, lets time pass and has the tables swept. Partial writes are not needed to go
on. -/
def Act.isOwn (a : Act) : Bool := a.request.isSome && !a.isWrite && !a.leaves || a.sweeps

theorem not_sweeps_of_request {a : Act} (mine : a.request = some t) : a.sweeps = false := by
  cases a with
  | gcVisit _ | gcEnd => cases mine
  | _ => rfl

def ownSteps (_s : Plugin n) (a : Act) : Prop := a.isOwn = true

theorem isOwn_of_request {a : Act} (mine : a.request = some t) (whole : a.isWrite = false)
    (stays : a.leaves = false) : a.isOwn = true := by
  simp [Act.isOwn, mine, whole, stays]

/-- Some step of the plugin itself can be taken. -/
def CanStep (W : Wire) (cfg : HandlerCfg) (s : Plugin n) : Prop :=
  ∃ a, a.isOwn = true ∧ (s.step W cfg a).isSome = true

omit [NeZero n] in
theorem isSome_map {α β : Type} {x : Option α} (f : α → β) (h : x.isSome = true) :
    (x.map f).isSome = true := by
  rwa [Option.isSome_map]

theorem canStep_call (hs : Owned s) {stage : Stage} {ph : CheckoutPhase n}
    (hc : s.pool.calls (t, stage) = some ph) (more : 0 < ph.stepsLeft) : CanStep W cfg s := by
  obtain ⟨op, inLoop, enabled⟩ :=
    BridgePool.some_step s.alive s.now hs.locked hc more
  refine ⟨.pool op, isOwn_of_request rfl rfl rfl, ?_⟩
  cases op with
  | call _ | cancel _ => cases inLoop
  | _ => exact isSome_map _ enabled

theorem canStep_ask {b : BridgeId} {i : AskId} {x : InboundMessage × AskPhase}
    (hx : s.placeOf b i = some x) (flight : x.2.isDone = false) : CanStep W cfg s := by
  obtain ⟨op, hi, whole, enabled⟩ := Bridge.some_step W hx flight
  have mine : (Act.worker b (.bridge op)).request = some i.1 := by
    rw [Act.request, hi]
    rfl
  refine ⟨.worker b (.bridge op), isOwn_of_request mine whole rfl, ?_⟩
  cases op with
  | call _ _ | readLine _ | readerEnd | readerFlag | readerDrain | breakPipe => cases hi
  | _ => exact isSome_map _ (isSome_map _ enabled)

omit [NeZero n] in
theorem askResult_of_done {b : BridgeId} {i : AskId} {x : InboundMessage × AskPhase}
    (hx : s.placeOf b i = some x) (ended : x.2.isDone = true) :
    ∃ result, s.askResult b i = some result := by
  obtain ⟨msg, p⟩ := x
  obtain ⟨cell, ha⟩ := Bridge.place_eq_some.mp hx
  cases p with
  | done result => exact ⟨result, by rw [askResult, ha]⟩
  | _ => cases ended

/-- Who is inside the critical section of a conversation can go on. -/
theorem canStep_inside (hs : Owned s) (hr : s.requests t = some r)
    (inside : r.phase.hold = some .inside) (held : (s.serializer.handles.lookup t).isSome = true) :
    CanStep W cfg s := by
  obtain ⟨fromUser, userMsg, msgId, phase⟩ := r
  have own := hs.by hr
  cases phase with
  | entered => exact ⟨.lookupReply t, rfl, by simp [step, hr]⟩
  | routing _ => exact ⟨.route t .news, rfl, by simp [step, hr]⟩
  | computed _ => exact ⟨.storeReply t, rfl, by simp [step, hr]⟩
  | leaving _ =>
      obtain ⟨k, hk⟩ := Option.isSome_iff_exists.mp held
      refine ⟨.release t, rfl, ?_⟩
      simp [step, hr, runSerializer, ConvSerializer.step, ConvSerializer.release, hk]
  | checkout stage =>
      obtain ⟨ph, hc, kept⟩ := own.calling stage rfl
      cases ph with
      | dropped => exact absurd rfl kept
      | returned result =>
          refine ⟨.checkedOut t 0, rfl, ?_⟩
          cases result with
          | error e => simp [step, hr, startAsk, hc]
          | ok b =>
              have fresh : (s.workers b).bridge.asks (t, stage) = none := by
                refine Option.eq_none_iff_forall_ne_some.mpr fun a ha => ?_
                have asked := (own.asked b stage _ (Bridge.place_of ha)).1
                have less : (RequestPhase.asking stage b).budget n <
                    (RequestPhase.checkout stage).budget n := RequestPhase.Next.ask.budget_lt n
                exact absurd asked (Nat.not_le_of_lt less)
              simp [step, hr, startAsk, hc, runWorker, Worker.step, Bridge.step, fresh]
      | ticket _ | reading _ _ | slotDead _ _ | writeWait _ _ | locked _ _ | spawning _ _
      | spawnFailed _ _ => exact canStep_call hs hc (Nat.succ_pos _)
  | asking stage b =>
      obtain ⟨x, hx⟩ := own.asking stage b rfl
      cases ended : x.2.isDone with
      | false => exact canStep_ask hx ended
      | true =>
          obtain ⟨result, hres⟩ := askResult_of_done hx ended
          exact ⟨.finishAsk t, rfl, by simp [step, hr, hres]⟩
  | abandoned stage b =>
      obtain ⟨x, hx⟩ := own.asking stage b rfl
      cases ended : x.2.isDone with
      | false => exact canStep_ask hx ended
      | true =>
          obtain ⟨result, hres⟩ := askResult_of_done hx ended
          exact ⟨.unwind t, rfl, by simp [step, hr, hres]⟩
  | _ => cases inside

/-- A request that never gets into the serializer, since a panic of the sweep has poisoned
its outer mutex: the task that handles it panics. -/
def LockedOut (s : Plugin n) (r : Request) : Prop :=
  s.serializer.poisoned = true ∧ r.phase = .dispatched

/-- There is no deadlock: as long as a request is not over, there is a step to take. -/
theorem canStep_of_unfinished (h : Reachable (step W cfg) anyStep (· = (new : Plugin n)) s)
    (hr : s.requests t = some r) (unfinished : r.phase.ended = false)
    (admitted : ¬ s.LockedOut r) : CanStep W cfg s := by
  have hs := owned_reachable h
  have attended := attended_reachable h
  have handle : ∀ {t r hold}, s.requests t = some r → r.phase.hold = some hold →
      ∃ m, s.serializer.handles.lookup t = some ⟨r.cid cfg, m, hold⟩ :=
    fun hr hold => attended.handle _ _ _ hr hold
  have inside : ∀ {t r}, s.requests t = some r → r.phase.hold = some .inside →
      CanStep W cfg s := fun hr hold => by
    obtain ⟨m, hm⟩ := handle hr hold
    exact canStep_inside hs hr hold (by rw [hm]; rfl)
  obtain ⟨fromUser, userMsg, msgId, phase⟩ := r
  cases phase with
  | dispatched =>
      cases sweep : s.serializer.sweep with
      | some sw =>
          -- the request waits for the outer lock, which the sweep holds
          have keys := ConvSerializer.sweepKeys_reachable (serializer_reachable h)
          obtain ⟨op, inSweep, enabled⟩ := ConvSerializer.sweep_step keys sweep
          cases op with
          | gcVisit cid => exact ⟨.gcVisit cid, rfl, isSome_map _ enabled⟩
          | gcEnd => exact ⟨.gcEnd, rfl, isSome_map _ enabled⟩
          | _ => cases inSweep
      | none =>
          have clean : s.serializer.poisoned = false :=
            Bool.eq_false_iff.mpr fun poisoned => admitted ⟨poisoned, rfl⟩
          have fresh : s.serializer.handles.lookup t = none := by
            refine Option.eq_none_iff_forall_ne_some.mpr fun k hk => ?_
            cases (hs.by hr).held k hk
          refine ⟨.acquire t, rfl, ?_⟩
          simp only [step, hr, runSerializer, ConvSerializer.step, ConvSerializer.acquire,
            ConvSerializer.outerFree, sweep, clean, fresh, Option.isNone_none, Bool.not_false,
            Bool.and_self, if_true]
          split
          · rfl
          · rfl
  | acquired =>
      obtain ⟨m, hm⟩ := handle hr rfl
      refine ⟨.lockOwned t, rfl, ?_⟩
      simp [step, hr, runSerializer, ConvSerializer.step, ConvSerializer.lockOwned, hm]
  | waiting =>
      cases grant : s.step W cfg (.grant t) with
      | some s' => exact ⟨.grant t, rfl, by rw [grant]; rfl⟩
      | none =>
          obtain ⟨_, _, _, _, _, _, hr', hold⟩ := owner_of_refused h hr rfl grant
          exact inside hr' hold
  | finished _ => cases unfinished
  | entered | routing _ | checkout _ | asking _ _ | computed _ | abandoned _ _ | leaving _ =>
      exact inside hr rfl

/-- Only finitely many requests have come so far. -/
theorem finitely_many (h : Reachable (step W cfg) anyStep (· = (new : Plugin n)) s) :
    ∃ tasks : Finset TaskId, ∀ t r, s.requests t = some r → t ∈ tasks := by
  refine h.invariant (P := fun s => ∃ tasks : Finset TaskId, ∀ t r, s.requests t = some r →
    t ∈ tasks) ?_ fun s a s' hs _ hm => ?_
  · rintro _ rfl
    exact ⟨∅, fun t r h => by cases h⟩
  · obtain ⟨tasks, all⟩ := hs
    have turn := turn_of_step hm
    by_cases comes : ∃ t fromUser userMsg msgId, a = .receive t fromUser userMsg msgId
    · obtain ⟨t, _, _, _, rfl⟩ := comes
      refine ⟨insert t tasks, fun t' r hr => ?_⟩
      obtain ⟨_, _, _, _, same, _⟩ | ⟨r₀, hr₀, _⟩ := turn.request_before hr
      · cases same
        exact Finset.mem_insert_self _ _
      · exact Finset.mem_insert_of_mem (all t' r₀ hr₀)
    · refine ⟨tasks, fun t r hr => ?_⟩
      obtain ⟨_, fromUser, userMsg, msgId, came, _⟩ | ⟨r₀, hr₀, _⟩ := turn.request_before hr
      · exact absurd ⟨t, fromUser, userMsg, msgId, came⟩ comes
      · exact all t r₀ hr₀

/-- What is left to do for these requests and the sweep that is under way. -/
def totalLeft (tasks : Finset TaskId) (s : Plugin n) : Nat :=
  ∑ t ∈ tasks, s.stepsLeft t + s.serializer.sweepLeft

/-- The requests that are not over are among these. -/
structure Covers (tasks : Finset TaskId) (s : Plugin n) : Prop where
  owned : Owned s
  others : ∀ t, t ∉ tasks → ∀ r, s.requests t = some r → r.phase.ended = true

theorem covers_step {tasks : Finset TaskId} {a : Act} (hs : Covers tasks s)
    (own : a.isOwn = true) (h : s.step W cfg a = some s') : Covers tasks s' := by
  refine ⟨owned_step hs.owned h, fun t outside r hr => ?_⟩
  obtain ⟨_, _, _, _, rfl, _⟩ | ⟨r₀, hr₀, _, same | next⟩ := (turn_of_step h).request_before hr
  · cases own
  · rw [same]
    exact hs.others t outside r₀ hr₀
  · have ended := hs.others t outside r₀ hr₀
    rw [next.not_ended] at ended
    cases ended

theorem effect_sweepLeft {a : Act} (e : Effect W cfg s a s') (mine : a.request = some t) :
    s'.serializer.sweepLeft = s.serializer.sweepLeft := by
  have same : ∀ {op : ConvSerializer.Act} {ser : ConvSerializer}, op.inSweep = false →
      (∀ idle now, op ≠ .gcBegin idle now) → s.serializer.step op = some ser →
      ser.sweepLeft = s.serializer.sweepLeft := fun quiet begins hser => by
    rw [ConvSerializer.sweepLeft, ConvSerializer.sweep_of_other quiet begins hser]
    rfl
  cases e with
  | outside nobody _ _ _ _ => cases nobody.symm.trans mine
  | serializer _ _ _ hser _ _ _ _ which =>
      obtain ⟨rfl, _⟩ | ⟨rfl, _⟩ | ⟨rfl, _⟩ | ⟨rfl, _⟩ := which
      · exact same rfl (fun _ _ => ConvSerializer.Act.noConfusion) hser
      · exact same rfl (fun _ _ => ConvSerializer.Act.noConfusion) hser
      · exact same rfl (fun _ _ => ConvSerializer.Act.noConfusion) hser
      · exact same rfl (fun _ _ => ConvSerializer.Act.noConfusion) hser
  | alone _ _ _ alone => rw [alone.serializer]
  | receive _ | pool _ _ _ | ask _ _ | call _ _ _ _ _ | cancel _ _ _ | startAsk _ _ _ _
  | dropAsk _ _ _ => rfl

theorem totalLeft_pays {tasks : Finset TaskId} :
    Pays (step W cfg) (ownSteps : Plugin n → Act → Prop) (Covers tasks) (totalLeft tasks)
      fun _ => true := by
  intro s a s' hs own h
  have e := effect_of_step h
  have pays := effect_pays hs.owned e
  have each : ∀ t ∈ tasks, s'.stepsLeft t ≤ s.stepsLeft t := fun t _ => by
    have paid := pays t
    omega
  cases mine : a.request with
  | some t =>
      obtain ⟨r, hr⟩ := effect_request hs.owned e mine
      have charged : a.chargedTo t = true := by
        have parts : a.isWrite = false ∧ a.leaves = false := by
          simpa [Act.isOwn, mine, not_sweeps_of_request mine, ownSteps] using own
        simp [Act.chargedTo, mine, parts.1]
      have paid := pays t
      rw [if_pos charged] at paid
      have among : t ∈ tasks := by
        by_contra outside
        have ended := hs.others t outside r hr
        have none : s.stepsLeft t = 0 := by
          rw [stepsLeft_of hr]
          cases hp : r.phase with
          | finished _ => rfl
          | _ =>
              rw [hp] at ended
              cases ended
        omega
      have less := Finset.sum_lt_sum each ⟨t, among, paid⟩
      rw [totalLeft, totalLeft, effect_sweepLeft e mine, if_pos rfl]
      omega
  | none =>
      have sum := Finset.sum_le_sum each
      have swept : s'.serializer.sweepLeft + 1 ≤ s.serializer.sweepLeft := by
        cases a with
        | gcVisit _ | gcEnd =>
            obtain ⟨ser, hser, rfl⟩ := runSerializer_eq_some.mp h
            exact ConvSerializer.sweepLeft_of_inSweep rfl hser
        | _ => simp [Act.isOwn, Act.sweeps, mine, ownSteps] at own
      rw [totalLeft, totalLeft, if_pos rfl]
      omega

theorem exists_covering (h : Reachable (step W cfg) anyStep (· = (new : Plugin n)) s) :
    ∃ tasks : Finset TaskId, Covers tasks s ∧
      ∀ t, t ∈ tasks ↔ ∃ r, s.requests t = some r ∧ r.phase.ended = false := by
  classical
  obtain ⟨all, mem⟩ := finitely_many h
  have which : ∀ t, t ∈ all.filter (fun t => ∃ r, s.requests t = some r ∧ r.phase.ended = false) ↔
      ∃ r, s.requests t = some r ∧ r.phase.ended = false := fun t => by
    rw [Finset.mem_filter]
    refine ⟨And.right, fun there => ⟨?_, there⟩⟩
    obtain ⟨r, hr, _⟩ := there
    exact mem t r hr
  refine ⟨_, ⟨owned_reachable h, fun t outside r hr => ?_⟩, which⟩
  by_contra unfinished
  exact outside ((which t).mpr ⟨r, hr, Bool.eq_false_iff.mpr unfinished⟩)

theorem totalLeft_le (h : Reachable (step W cfg) anyStep (· = (new : Plugin n)) s)
    (tasks : Finset TaskId) :
    totalLeft tasks s ≤ tasks.card * (28 * n + 28) + s.serializer.sweepLeft := by
  obtain ⟨_, as, rfl, run⟩ := h
  have each : ∀ t ∈ tasks, s.stepsLeft t ≤ 28 * n + 28 := fun t _ => by
    have paid := stepsLeft_le run t
    omega
  have sum := Finset.sum_le_card_nsmul tasks _ _ each
  rw [Nat.nsmul_eq_mul] at sum
  exact Nat.add_le_add_right sum _

/-- Left to itself, the plugin brings every request to its end. Whatever it does next, it can
go on only so far; where it can do nothing more, every request is over, but for those that
a panic of the sweep keeps out of the serializer; and it gets there. -/
theorem every_schedule_ends (h : Reachable (step W cfg) anyStep (· = (new : Plugin n)) s) :
    ∃ tasks : Finset TaskId,
      (∀ t, t ∈ tasks ↔ ∃ r, s.requests t = some r ∧ r.phase.ended = false) ∧
      (∀ as s', Run (step W cfg) ownSteps s as s' →
        as.length ≤ tasks.card * (28 * n + 28) + s.serializer.sweepLeft ∧
        (Stuck (step W cfg) ownSteps s' → ∀ t r, s'.requests t = some r →
          r.phase.ended = true ∨ s'.LockedOut r)) ∧
      ∃ as s', Run (step W cfg) ownSteps s as s' ∧ Stuck (step W cfg) ownSteps s' := by
  obtain ⟨tasks, covers, which⟩ := exists_covering h
  refine ⟨tasks, which, fun as s' run => ⟨?_, fun stuck t r hr => ?_⟩,
    exists_stuck (fun _ _ _ hs own hm => covers_step hs own hm) totalLeft_pays covers⟩
  · have most := run.length_le (fun _ _ _ hs own hm => covers_step hs own hm) totalLeft_pays
      covers
    exact most.trans (totalLeft_le h tasks)
  · by_contra neither
    obtain ⟨unfinished, admitted⟩ := not_or.mp neither
    have reached := h.run (run.mono fun _ _ _ => trivial)
    obtain ⟨a, own, enabled⟩ :=
      canStep_of_unfinished reached hr (Bool.eq_false_iff.mpr unfinished) admitted
    rw [stuck a own] at enabled
    cases enabled

/-- A message is being written to the subprocess; what follows takes it to its end. -/
theorem every_schedule_ends_one_message : ∃ s : Plugin 1,
    exec (step serdeJson plainCfg) new (writesTurn serdeJson plainCfg 0 "fan" "hi" 0) = some s ∧
      ∃ as s', Run (step serdeJson plainCfg) ownSteps s as s' ∧
        Stuck (step serdeJson plainCfg) ownSteps s' := by
  have run : (exec (step serdeJson plainCfg) (new : Plugin 1)
      (writesTurn serdeJson plainCfg 0 "fan" "hi" 0)).isSome = true := by decide +kernel
  obtain ⟨s, hrun⟩ := Option.isSome_iff_exists.mp run
  obtain ⟨_, _, _, ends⟩ := every_schedule_ends ⟨new, _, rfl, run_iff_exec.mpr hrun⟩
  exact ⟨s, hrun, ends⟩

end Plugin
end EvoclawPluginWechat
