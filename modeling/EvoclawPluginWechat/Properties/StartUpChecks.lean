import EvoclawPluginWechat.Core.StartUp

/-!
What `Config::validate` promises for `run_server`, and what it leaves open: the characters
of the AES key and the path of the endpoint.
-/
namespace EvoclawPluginWechat

namespace Config
variable {parseBind : String → Except String Unit} {cfg : Config}

theorem andThen_ok {check rest : Except PluginError Unit}
    (h : (do check; rest) = Except.ok ()) : check = .ok () ∧ rest = .ok () := by
  match check, h with
  | .ok (), h => exact ⟨rfl, h⟩

theorem refuse_ok {condition : Bool} {text : String} (h : refuse condition text = .ok ()) :
    condition = false := by
  cases condition with
  | true => cases h
  | false => rfl

/-- The clauses of the check that the start-up rests on. -/
structure Checked (parseBind : String → Except String Unit) (cfg : Config) : Prop where
  bind : parseBind cfg.server.bind = .ok ()
  workers : cfg.evoclaw.workerCount ≠ 0
  keySize : cfg.wechat.encryptMode ≠ .plain → cfg.wechat.encodingAesKey.utf8ByteSize = 43

theorem keySize_of_validateWechat {wechat : WechatCfg} (h : validateWechat wechat = .ok ())
    (encrypted : wechat.encryptMode ≠ .plain) : wechat.encodingAesKey.utf8ByteSize = 43 := by
  obtain ⟨_, h⟩ := andThen_ok h
  cases mode : wechat.encryptMode with
  | plain => exact absurd mode encrypted
  | compatible | safe =>
      rw [mode] at h
      obtain ⟨size, _⟩ := andThen_ok h
      simpa using refuse_ok size

theorem checked_of_validate (h : cfg.validate parseBind = .ok ()) : Checked parseBind cfg := by
  unfold validate at h
  cases bind : parseBind cfg.server.bind with
  | error e =>
      rw [bind] at h
      cases h
  | ok _ =>
      rw [bind] at h
      obtain ⟨_, h⟩ := andThen_ok h
      obtain ⟨wechat, h⟩ := andThen_ok h
      obtain ⟨_, h⟩ := andThen_ok h
      obtain ⟨workers, _⟩ := andThen_ok h
      exact ⟨bind, by simpa using refuse_ok workers, keySize_of_validateWechat wechat⟩

end Config

/-- The 43 characters are symbols of the alphabet, and the last one has no bits left over. -/
structure CanonicalKey (key : String) : Prop where
  symbols : ∀ c ∈ key.toList, Base64.isSymbol c = true
  lastBits : ∃ v, key.toList.getLast?.bind Base64.value = some v ∧ v % 4 = 0

theorem utf8Size_of_isSymbol {c : Char} (h : Base64.isSymbol c = true) : c.utf8Size = 1 := by
  simp only [Base64.isSymbol, Bool.or_eq_true, beq_iff_eq, Ascii.isAlphanum_iff] at h
  have value : c.toNat = c.val.toNat := rfl
  rw [Char.utf8Size_eq_one_iff, UInt32.le_iff_toNat_le]
  change c.val.toNat ≤ 127
  obtain (alphanumeric | rfl) | rfl := h
  · omega
  · decide
  · decide

theorem utf8ByteSize_ofList {cs : List Char}
    (h : ∀ c ∈ cs, Base64.isSymbol c = true ∨ c = '=') :
    (String.ofList cs).utf8ByteSize = cs.length := by
  induction cs with
  | nil => rfl
  | cons c cs ih =>
      have one : c.utf8Size = 1 := by
        obtain symbol | rfl := h c List.mem_cons_self
        · exact utf8Size_of_isSymbol symbol
        · rfl
      rw [← List.singleton_append, String.ofList_append, String.utf8ByteSize_append,
        ih fun d hd => h d (List.mem_cons_of_mem _ hd)]
      simp [one, Nat.add_comm]

theorem decodeAesKey_iff (crates : CryptoCrates) {key : String} (size : key.utf8ByteSize = 43) :
    (∃ aesKey, Crypto.decodeAesKey crates key = .ok aesKey) ↔ CanonicalKey key := by
  have chars : (∀ c ∈ key.toList, Base64.isSymbol c = true ∨ c = '=') →
      key.toList.length = 4 * 10 + 3 := by
    intro h
    rw [← utf8ByteSize_ofList h, String.ofList_toList, size]
  have padded : (key ++ "=").toList = key.toList ++ ['='] := String.toList_append
  rw [Crypto.decodeAesKey, if_neg (not_not_intro size)]
  constructor
  · rintro ⟨aesKey, decoded⟩
    simp only [padded] at decoded
    cases bytes : Base64.decode (key.toList ++ ['=']) with
    | none =>
        rw [bytes] at decoded
        cases decoded
    | some bs =>
        rw [bytes] at decoded
        simp only at decoded
        split_ifs at decoded with full
        have accepted := Base64.mem_of_decode bytes
        have length := chars fun c hc => accepted c (List.mem_append_left _ hc)
        obtain ⟨symbols, lastBits⟩ := (Base64.decode_unpadded_iff length).mp ⟨bs, bytes, full⟩
        exact ⟨symbols, lastBits⟩
  · intro canonical
    have length := chars fun c hc => .inl (canonical.symbols c hc)
    obtain ⟨bs, decoded, full⟩ :=
      (Base64.decode_unpadded_iff length).mpr ⟨canonical.symbols, canonical.lastBits⟩
    simp only [padded, decoded]
    exact ⟨⟨bs, full⟩, dif_pos full⟩

theorem aesKey_ok_iff {crates : CryptoCrates} {cfg : Config}
    (size : cfg.wechat.encryptMode ≠ .plain → cfg.wechat.encodingAesKey.utf8ByteSize = 43) :
    (∃ aesKey, cfg.aesKey crates = .ok aesKey) ↔
      (cfg.wechat.encryptMode ≠ .plain → CanonicalKey cfg.wechat.encodingAesKey) := by
  cases mode : cfg.wechat.encryptMode with
  | plain =>
      refine iff_of_true ⟨none, ?_⟩ fun h => absurd rfl h
      rw [Config.aesKey, mode]
  | compatible | safe =>
      have encrypted : cfg.wechat.encryptMode ≠ .plain := by simp [mode]
      rw [← decodeAesKey_iff crates (size encrypted)]
      simp only [Config.aesKey, mode, ne_eq, reduceCtorEq, not_false_eq_true, forall_const]
      cases Crypto.decodeAesKey crates cfg.wechat.encodingAesKey with
      | error e => simp [Except.map]
      | ok aesKey => simp [Except.map]

theorem routes_ok_iff (axum : Axum) (path : String) :
    (∃ router, (axum.route axum.new path).bind (axum.route · "/healthz") = some router) ↔
      path.toList.head? = some '/' ∧ path ≠ "/healthz" ∧ axum.pattern path = true := by
  constructor
  · rintro ⟨_, routed⟩
    obtain ⟨router, first, second⟩ := Option.bind_eq_some_iff.mp routed
    have rooted : path.toList.head? = some '/' := by
      by_contra rootless
      cases (axum.slash _ _ rootless).symm.trans first
    refine ⟨rooted, ?_, ?_⟩
    · rintro rfl
      cases (axum.again _ _ _ first).symm.trans second
    · rw [← axum.first path rooted, first]
      rfl
  · rintro ⟨rooted, other, wellFormed⟩
    rw [← axum.first path rooted] at wellFormed
    obtain ⟨router, first⟩ := Option.isSome_iff_exists.mp wellFormed
    obtain ⟨router', second⟩ := Option.isSome_iff_exists.mp (axum.healthz router path first other)
    exact ⟨router', by rw [first, Option.bind_some, second]⟩

/-- The steps fail one by one; the routes do so by a panic. -/
theorem runServer_ok_iff {parseBind : String → Except String Unit} {axum : Axum}
    {crates : CryptoCrates} {cfg : Config} :
    (∃ server, runServer parseBind axum crates cfg = .returned (.ok server)) ↔
      parseBind cfg.server.bind = .ok () ∧ (∃ aesKey, cfg.aesKey crates = .ok aesKey) ∧
        cfg.evoclaw.workerCount ≠ 0 ∧
        ∃ router, (axum.route axum.new cfg.server.endpointPath).bind (axum.route · "/healthz") =
          some router := by
  rw [runServer]
  cases parseBind cfg.server.bind with
  | error e => simp
  | ok _ =>
      cases cfg.aesKey crates with
      | error e => simp
      | ok aesKey =>
          rw [poolSize]
          by_cases empty : cfg.evoclaw.workerCount = 0
          · simp [empty]
          · cases (axum.route axum.new cfg.server.endpointPath).bind (axum.route · "/healthz") with
            | none => simp [empty]
            | some router => simp [empty]

theorem panicked_of_routes {parseBind : String → Except String Unit} {axum : Axum}
    {crates : CryptoCrates} {cfg : Config} {aesKey : Option AesKey}
    (bind : parseBind cfg.server.bind = .ok ()) (key : cfg.aesKey crates = .ok aesKey)
    (workers : cfg.evoclaw.workerCount ≠ 0)
    (unrouted : ∀ router, (axum.route axum.new cfg.server.endpointPath).bind
      (axum.route · "/healthz") ≠ some router) :
    runServer parseBind axum crates cfg = .panicked := by
  have none := Option.eq_none_iff_forall_ne_some.mpr unrouted
  simp only [runServer, bind, key, poolSize, if_neg workers, none]

theorem check_implies_start_iff {parseBind : String → Except String Unit} (axum : Axum)
    (crates : CryptoCrates) {cfg : Config} (valid : cfg.validate parseBind = .ok ()) :
    (∃ server, runServer parseBind axum crates cfg = .returned (.ok server)) ↔
      (cfg.wechat.encryptMode ≠ .plain → CanonicalKey cfg.wechat.encodingAesKey) ∧
        cfg.server.endpointPath.toList.head? = some '/' ∧
        cfg.server.endpointPath ≠ "/healthz" ∧
        axum.pattern cfg.server.endpointPath = true := by
  have checked := Config.checked_of_validate valid
  rw [runServer_ok_iff, aesKey_ok_iff checked.keySize, routes_ok_iff]
  constructor
  · rintro ⟨_, key, _, path⟩
    exact ⟨key, path⟩
  · rintro ⟨key, path⟩
    exact ⟨checked.bind, key, checked.workers, path⟩

def defaultCfg : Config where
  server := { bind := "127.0.0.1:8080" }
  wechat := { token := "token", appId := "wx1" }

def literalPath (path : String) : Bool :=
  path.toList.all fun c => !("*:\x7b\x7d".toList.contains c)

/-- A router for such paths, by those that it has. -/
def literalRouter : Axum where
  Router := List String
  new := []
  route router path :=
    if path.toList.head? = some '/' ∧ path ∉ router ∧ literalPath path then some (path :: router)
    else none
  pattern := literalPath
  slash _ _ rootless := if_neg fun all => rootless all.1
  again _ _ _ routed := by
    obtain ⟨_, routed⟩ := Option.ite_none_right_eq_some.mp routed
    obtain rfl := Option.some.inj routed
    exact if_neg fun all => all.2.1 List.mem_cons_self
  first path rooted := by cases literalPath path <;> simp [rooted]
  healthz _ path routed other := by
    obtain ⟨_, routed⟩ := Option.ite_none_right_eq_some.mp routed
    obtain rfl := Option.some.inj routed
    rw [if_pos ⟨by decide, fun mem => other (List.mem_singleton.mp mem).symm, by decide⟩,
      Option.isSome_some]

theorem check_implies_start_iff_default : defaultCfg.validate (fun _ => .ok ()) = .ok () ∧
    ∀ crates, ∃ server, runServer (fun _ => .ok ()) literalRouter crates defaultCfg =
      .returned (.ok server) :=
  ⟨rfl, fun crates => (check_implies_start_iff literalRouter crates rfl).mpr
    ⟨fun encrypted => absurd rfl encrypted, rfl, by decide, by decide⟩⟩

/-- The last character of this key has bits left over. -/
def looseKeyCfg : Config where
  server := { bind := "127.0.0.1:8080" }
  wechat :=
    { token := "token", appId := "wx1", encryptMode := .safe
      encodingAesKey := "AAAAAAAAAAAAAAAAAAAAAAAAAAAAAAAAAAAAAAAAAAB" }

def clashingPathCfg : Config :=
  { defaultCfg with server := { bind := "127.0.0.1:8080", endpointPath := "/healthz" } }

def slashlessPathCfg : Config :=
  { defaultCfg with server := { bind := "127.0.0.1:8080", endpointPath := "wechat" } }

/-- All three configurations pass the check, and none of them serves. -/
theorem checked_but_not_started :
    (looseKeyCfg.validate (fun _ => .ok ()) = .ok () ∧ ∀ axum crates, ¬ ∃ server,
      runServer (fun _ => .ok ()) axum crates looseKeyCfg = .returned (.ok server)) ∧
    (clashingPathCfg.validate (fun _ => .ok ()) = .ok () ∧ ∀ axum crates,
      runServer (fun _ => .ok ()) axum crates clashingPathCfg = .panicked) ∧
    (slashlessPathCfg.validate (fun _ => .ok ()) = .ok () ∧ ∀ axum crates,
      runServer (fun _ => .ok ()) axum crates slashlessPathCfg = .panicked) := by
  refine ⟨⟨rfl, fun axum crates => ?_⟩, ⟨rfl, fun axum crates => ?_⟩, rfl, fun axum crates => ?_⟩
  · rw [runServer_ok_iff, aesKey_ok_iff fun _ => rfl]
    rintro ⟨_, key, _⟩
    obtain ⟨v, last, zeros⟩ := (key (by decide)).lastBits
    obtain rfl : 1 = v := Option.some.inj (Eq.trans rfl last)
    cases zeros
  · refine panicked_of_routes rfl rfl (by decide) fun router routed => ?_
    have other := ((routes_ok_iff axum "/healthz").mp ⟨router, routed⟩).2.1
    exact other rfl
  · refine panicked_of_routes rfl rfl (by decide) fun router routed => ?_
    have rooted := ((routes_ok_iff axum "wechat").mp ⟨router, routed⟩).1
    revert rooted
    decide

end EvoclawPluginWechat
