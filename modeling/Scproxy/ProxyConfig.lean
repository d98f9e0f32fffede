import Scproxy.StdParse

namespace Scproxy

/-- An `anyhow` error: the context added last comes first. -/
abbrev ErrorChain := List String

def withContext {α : Type} (message : String) : Except ErrorChain α → Except ErrorChain α
  | .ok a => .ok a
  | .error chain => .error (message :: chain)

def optionContext {α : Type} (message : String) : Option α → Except ErrorChain α
  | some a => .ok a
  | none => .error [message]

/-- A standard library error as the root of a chain. -/
def rootCause {α : Type} : Except String α → Except ErrorChain α
  | .ok a => .ok a
  | .error cause => .error [cause]

theorem bind_eq_ok {ε α β : Type} {x : Except ε α} {f : α → Except ε β} {b : β} :
    (x >>= f) = .ok b ↔ ∃ a, x = .ok a ∧ f a = .ok b := by
  cases x with
  | error e => simp [bind, Except.bind]
  | ok a => simp [bind, Except.bind]

theorem withContext_rootCause_eq_ok {α : Type} {message : String} {x : Except String α} {a : α}
    (h : withContext message (rootCause x) = .ok a) : x = .ok a := by
  cases x with
  | error cause => cases h
  | ok b =>
    cases Except.ok.inj h
    rfl

theorem optionContext_eq_ok {α : Type} {message : String} {x : Option α} {a : α} :
    optionContext message x = .ok a ↔ x = some a := by
  cases x with
  | none => simp [optionContext]
  | some b => simp [optionContext]

inductive ProxyConfig
  | direct
  | socks5 (addr : String) (auth : Option (String × String))
  | http (addr : String) (auth : Option (String × String))
  deriving DecidableEq

inductive ProxyTarget
  | domain (host : String) (port : UInt16)
  | ip (addr : IpAddr) (port : UInt16)
  deriving DecidableEq

namespace ProxyConfig

/-- The scheme, as the constructor it selects, and the rest of the URL. -/
def parseScheme (value : String) :
    Except ErrorChain ((String → Option (String × String) → ProxyConfig) × String) :=
  match stripPrefix "socks5://" value with
  | some rest => .ok (socks5, rest)
  | none =>
    match stripPrefix "socks://" value with
    | some rest => .ok (socks5, rest)
    | none =>
      match stripPrefix "http://" value with
      | some rest => .ok (http, rest)
      | none =>
        .error [s!"unsupported proxy '{value}'; use direct, socks5://, socks://, or http://"]

/-- Credentials before the last at sign, user and password split at the first colon. -/
def parseAuth (rest : String) : Except ErrorChain (Option (String × String) × String) :=
  match rsplitOnce '@' rest with
  | none => .ok (none, rest)
  | some (authStr, hostPort) =>
    let (user, pass) := (splitOnce ':' authStr).getD (authStr, "")
    if user = "" then .error ["empty username in proxy URL"] else .ok (some (user, pass), hostPort)

def checkHostPort (hostPort : String) : Except ErrorChain Unit :=
  if isSocketAddr hostPort then .ok ()
  else do
    let (host, port) ← optionContext s!"invalid proxy address: '{hostPort}'"
      (rsplitOnce ':' hostPort)
    if host = "" ∨ host.toList.any (fun c => c ∈ [':', '/', '?', '#', '[', ']']) ∨
        host.toList.any isWhitespace then
      .error [s!"invalid proxy hostname: '{host}'"]
    else do
      let _ ← withContext s!"invalid proxy port: '{port}'" (rootCause (parseUnsigned 0xFFFF port))
      .ok ()

def parse (value : String) : Except ErrorChain ProxyConfig :=
  if value = "direct" then .ok direct
  else do
    let (kind, rest) ← parseScheme value
    let (auth, hostPort) ← parseAuth rest
    checkHostPort hostPort
    .ok (kind hostPort auth)

end ProxyConfig

end Scproxy
