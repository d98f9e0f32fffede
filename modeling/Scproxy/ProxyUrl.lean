import Scproxy.ProxyConfig

namespace Scproxy

inductive Scheme
  | socks5
  | socks
  | http
  deriving DecidableEq

namespace Scheme

def text : Scheme → String
  | socks5 => "socks5"
  | socks => "socks"
  | http => "http"

/-- The route a scheme selects. -/
def config : Scheme → String → Option (String × String) → ProxyConfig
  | socks5 => .socks5
  | socks => .socks5
  | http => .http

end Scheme

/-- The URL of a proxy, with the credentials before the address. -/
def proxyUrl (scheme : Scheme) (auth : Option (String × String)) (hostPort : String) : String :=
  match auth with
  | some (user, password) => scheme.text ++ "://" ++ (user ++ ":" ++ password ++ "@" ++ hostPort)
  | none => scheme.text ++ "://" ++ hostPort

/-- A host name and a port, as the code accepts them besides socket addresses. -/
def IsNamedHost (hostPort : String) : Prop :=
  ∃ host port n, hostPort = host ++ ":" ++ port ∧ host ≠ "" ∧
    (∀ c ∈ host.toList, isWhitespace c = false ∧ c ∉ [':', '/', '?', '#', '[', ']']) ∧
    IsUnsigned 0xFFFF port n

def IsHostPort (hostPort : String) : Prop :=
  '@' ∉ hostPort.toList ∧ (isSocketAddr hostPort = true ∨ IsNamedHost hostPort)

/-- A user that can be told from its password. -/
def IsCredentials (auth : Option (String × String)) : Prop :=
  ∀ user password, auth = some (user, password) → user ≠ "" ∧ ':' ∉ user.toList

theorem colon_not_mem_of_isUnsigned {limit n : Nat} {port : String} (h : IsUnsigned limit port n) :
    ':' ∉ port.toList := by
  obtain ⟨digits, _, hdigits, hport | hport, _⟩ := h
  · rw [hport]
    intro hmem
    cases hdigits _ hmem
  · rw [hport]
    intro hmem
    rcases List.mem_cons.mp hmem with heq | hmem
    · cases heq
    · cases hdigits _ hmem

theorem checkHostPort_eq_ok {hostPort : String} :
    ProxyConfig.checkHostPort hostPort = .ok () ↔
      isSocketAddr hostPort = true ∨ IsNamedHost hostPort := by
  unfold ProxyConfig.checkHostPort
  by_cases hsocket : isSocketAddr hostPort = true
  · simp [hsocket]
  · rw [if_neg hsocket, bind_eq_ok, or_iff_right hsocket]
    constructor
    · rintro ⟨⟨host, port⟩, hsplit, h⟩
      obtain ⟨hl, _⟩ := rsplitOnce_eq_some.mp (optionContext_eq_ok.mp hsplit)
      dsimp only at h
      split at h
      next => cases h
      next hhost =>
        obtain ⟨n, hport, _⟩ := bind_eq_ok.mp h
        simp only [not_or, List.any_eq_true, decide_eq_true_eq, not_exists, not_and] at hhost
        refine ⟨host, port, n, ?_, hhost.1, fun c hc => ⟨?_, hhost.2.1 c hc⟩,
          parseUnsigned_eq_ok.mp (withContext_rootCause_eq_ok hport)⟩
        · rw [← String.toList_inj]
          simpa using hl
        · exact Bool.eq_false_iff.mpr (hhost.2.2 c hc)
    · rintro ⟨host, port, n, rfl, hne, hhost, hport⟩
      refine ⟨(host, port), ?_, ?_⟩
      · rw [optionContext_eq_ok, rsplitOnce_eq_some]
        exact ⟨by simp, colon_not_mem_of_isUnsigned hport⟩
      · dsimp only
        rw [if_neg, parseUnsigned_eq_ok.mpr hport]
        · rfl
        · simp only [not_or, List.any_eq_true, decide_eq_true_eq, not_exists, not_and]
          exact ⟨hne, fun c hc => (hhost c hc).2, fun c hc => Bool.eq_false_iff.mp (hhost c hc).1⟩

theorem parseAuth_eq_ok {rest hostPort : String} {auth : Option (String × String)}
    (h : ProxyConfig.parseAuth rest = .ok (auth, hostPort)) :
    '@' ∉ hostPort.toList ∧ IsCredentials auth := by
  unfold ProxyConfig.parseAuth at h
  split at h
  next hnone =>
    cases Except.ok.inj h
    exact ⟨rsplitOnce_eq_none.mp hnone, fun _ _ h => by cases h⟩
  next authStr hostPort' hsome =>
    dsimp only at h
    split at h
    next => cases h
    next hne =>
      cases Except.ok.inj h
      refine ⟨(rsplitOnce_eq_some.mp hsome).2, fun user password heq => ?_⟩
      cases Option.some.inj heq
      refine ⟨hne, ?_⟩
      cases hsplit : splitOnce ':' authStr with
      | none => exact splitOnce_eq_none.mp hsplit
      | some parts => exact (splitOnce_eq_some.mp hsplit).2

theorem parseAuth_credentials {user : String} (password : String) {hostPort : String}
    (hne : user ≠ "") (hcolon : ':' ∉ user.toList) (hat : '@' ∉ hostPort.toList) :
    ProxyConfig.parseAuth (user ++ ":" ++ password ++ "@" ++ hostPort) =
      .ok (some (user, password), hostPort) := by
  have hrsplit : rsplitOnce '@' (user ++ ":" ++ password ++ "@" ++ hostPort) =
      some (user ++ ":" ++ password, hostPort) :=
    rsplitOnce_eq_some.mpr ⟨by simp, hat⟩
  have hsplit : splitOnce ':' (user ++ ":" ++ password) = some (user, password) :=
    splitOnce_eq_some.mpr ⟨by simp, hcolon⟩
  simp only [ProxyConfig.parseAuth, hrsplit, hsplit, Option.getD_some, if_neg hne]

theorem parseAuth_none {hostPort : String} (hat : '@' ∉ hostPort.toList) :
    ProxyConfig.parseAuth hostPort = .ok (none, hostPort) := by
  simp only [ProxyConfig.parseAuth, rsplitOnce_eq_none.mpr hat]

theorem parseScheme_text (scheme : Scheme) (rest : String) :
    ProxyConfig.parseScheme (scheme.text ++ "://" ++ rest) = .ok (scheme.config, rest) := by
  have hsocks : stripPrefix "socks5://" ("socks" ++ "://" ++ rest) = none := by
    simp [stripPrefix]
  have hhttp5 : stripPrefix "socks5://" ("http" ++ "://" ++ rest) = none := by
    simp [stripPrefix]
  have hhttp : stripPrefix "socks://" ("http" ++ "://" ++ rest) = none := by
    simp [stripPrefix]
  have hself : ∀ head, stripPrefix head (head ++ rest) = some rest :=
    fun head => stripPrefix_eq_some.mpr rfl
  cases scheme with
  | socks5 =>
    have hstrip : stripPrefix "socks5://" ("socks5" ++ "://" ++ rest) = some rest := hself _
    simp only [ProxyConfig.parseScheme, Scheme.text, hstrip]
    rfl
  | socks =>
    have hstrip : stripPrefix "socks://" ("socks" ++ "://" ++ rest) = some rest := hself _
    simp only [ProxyConfig.parseScheme, Scheme.text, hsocks, hstrip]
    rfl
  | http =>
    have hstrip : stripPrefix "http://" ("http" ++ "://" ++ rest) = some rest := hself _
    simp only [ProxyConfig.parseScheme, Scheme.text, hhttp5, hhttp, hstrip]
    rfl

theorem parseScheme_eq_ok {value rest : String}
    {kind : String → Option (String × String) → ProxyConfig}
    (h : ProxyConfig.parseScheme value = .ok (kind, rest)) :
    ∃ scheme : Scheme, kind = scheme.config ∧ value = scheme.text ++ "://" ++ rest := by
  unfold ProxyConfig.parseScheme at h
  split at h
  next rest' hstrip =>
    cases Except.ok.inj h
    exact ⟨.socks5, rfl, stripPrefix_eq_some.mp hstrip⟩
  next =>
    split at h
    next rest' hstrip =>
      cases Except.ok.inj h
      exact ⟨.socks, rfl, stripPrefix_eq_some.mp hstrip⟩
    next =>
      split at h
      next rest' hstrip =>
        cases Except.ok.inj h
        exact ⟨.http, rfl, stripPrefix_eq_some.mp hstrip⟩
      next => cases h

theorem parse_of_parts {scheme : Scheme} {rest hostPort : String} {auth : Option (String × String)}
    (hauth : ProxyConfig.parseAuth rest = .ok (auth, hostPort)) (h : IsHostPort hostPort) :
    ProxyConfig.parse (scheme.text ++ "://" ++ rest) = .ok (scheme.config hostPort auth) := by
  have hscheme := parseScheme_text scheme rest
  have hdirect : scheme.text ++ "://" ++ rest ≠ "direct" := by
    intro heq
    rw [heq] at hscheme
    cases hscheme
  rw [ProxyConfig.parse, if_neg hdirect, hscheme]
  refine bind_eq_ok.mpr ⟨_, rfl, bind_eq_ok.mpr ⟨_, hauth, ?_⟩⟩
  exact bind_eq_ok.mpr ⟨(), checkHostPort_eq_ok.mpr h.2, rfl⟩

theorem parse_eq_ok {value : String} {config : ProxyConfig}
    (h : ProxyConfig.parse value = .ok config) :
    config = .direct ∨ ∃ (scheme : Scheme) (auth : Option (String × String)) (hostPort : String),
      config = scheme.config hostPort auth ∧ IsCredentials auth ∧ IsHostPort hostPort := by
  unfold ProxyConfig.parse at h
  split at h
  next =>
    cases Except.ok.inj h
    exact Or.inl rfl
  next =>
    obtain ⟨⟨kind, rest⟩, hscheme, h⟩ := bind_eq_ok.mp h
    obtain ⟨⟨auth, hostPort⟩, hauth, h⟩ := bind_eq_ok.mp h
    obtain ⟨_, hcheck, h⟩ := bind_eq_ok.mp h
    obtain ⟨scheme, rfl, _⟩ := parseScheme_eq_ok hscheme
    obtain ⟨hat, hcredentials⟩ := parseAuth_eq_ok hauth
    cases Except.ok.inj h
    exact Or.inr ⟨scheme, auth, hostPort, rfl, hcredentials, hat, checkHostPort_eq_ok.mp hcheck⟩

theorem parse_inverts_proxyUrl :
    (∀ (scheme : Scheme) (user password hostPort : String), user ≠ "" → ':' ∉ user.toList →
      IsHostPort hostPort →
      ProxyConfig.parse (proxyUrl scheme (some (user, password)) hostPort) =
        .ok (scheme.config hostPort (some (user, password)))) ∧
    (∀ (scheme : Scheme) (hostPort : String), IsHostPort hostPort →
      ProxyConfig.parse (proxyUrl scheme none hostPort) = .ok (scheme.config hostPort none)) ∧
    ∀ value config, ProxyConfig.parse value = .ok config → config ≠ .direct →
      ∃ (scheme : Scheme) (auth : Option (String × String)) (hostPort : String),
        config = scheme.config hostPort auth ∧
        (∀ user password, auth = some (user, password) → user ≠ "" ∧ ':' ∉ user.toList) ∧
        IsHostPort hostPort := by
  refine ⟨?_, ?_, ?_⟩
  · intro scheme user password hostPort hne hcolon h
    exact parse_of_parts (parseAuth_credentials password hne hcolon h.1) h
  · intro scheme hostPort h
    exact parse_of_parts (parseAuth_none h.1) h
  · intro value config h hdirect
    exact (parse_eq_ok h).resolve_left hdirect

example : ProxyConfig.parse (proxyUrl .socks (some ("a@b", "p:@/=")) "[::1]:80") =
    .ok (.socks5 "[::1]:80" (some ("a@b", "p:@/="))) := by decide

end Scproxy
