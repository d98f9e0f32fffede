import Scproxy.ProxyUrl
import Scproxy.RequestHead

namespace Scproxy

/-- What a server reads from a line of basic credentials. -/
def headerCredentials (line : List UInt8) : Option (String × String) := do
  let text ← fromUtf8 line
  let value ← stripPrefix "Proxy-Authorization: Basic " text
  let bytes ← base64Decode value.toList
  let credentials ← fromUtf8 bytes
  splitOnce ':' credentials

/-- The credentials in the last header line of a request head. -/
def requestCredentials (request : List UInt8) : Option (String × String) :=
  match (crlfSplit request).reverse with
  | [] :: [] :: line :: _ => headerCredentials line
  | _ => none

theorem headerCredentials_of_user {user : String} (password : String) (h : ':' ∉ user.toList) :
    headerCredentials (asBytes "Proxy-Authorization: Basic " ++
      asBytes (base64Encode (asBytes (user ++ ":" ++ password)))) = some (user, password) := by
  have hstrip : ∀ value, stripPrefix "Proxy-Authorization: Basic "
      ("Proxy-Authorization: Basic " ++ value) = some value :=
    fun value => stripPrefix_eq_some.mpr rfl
  have hdecode : ∀ input, base64Decode (base64Encode input).toList = some input := fun input =>
    base64Decode_eq_some.mpr String.toList_ofList
  have hsplit : splitOnce ':' (user ++ ":" ++ password) = some (user, password) :=
    splitOnce_eq_some.mpr ⟨by simp, h⟩
  rw [← asBytes_append, headerCredentials]
  simp only [fromUtf8_asBytes, Option.bind_eq_bind, Option.bind_some, hstrip, hdecode, hsplit]

theorem requestCredentials_connectRequest (target : ProxyTarget) {user : String}
    (password : String) (h : ':' ∉ user.toList) :
    requestCredentials (asBytes (connectRequest target (some (user, password)))) =
      some (user, password) := by
  have hmem : asBytes "Proxy-Authorization: Basic " ++
      asBytes (base64Encode (asBytes (user ++ ":" ++ password))) ∈
        credentialLines (some (user, password)) := List.mem_singleton.mpr rfl
  have hline := crlfSplit_of_not_hasCrlf (credentialLines_no_crlf hmem)
  have hsplit : (crlfSplit (asBytes (connectRequest target (some (user, password))))).reverse =
      [] :: [] :: (asBytes "Proxy-Authorization: Basic " ++
        asBytes (base64Encode (asBytes (user ++ ":" ++ password)))) ::
        (crlfSplit (requestLine target) ++
          crlfSplit (asBytes "Host: " ++ asBytes target.fmt)).reverse := by
    rw [asBytes_connectRequest, crlfSplit_flatMap]
    simp only [credentialLines, List.cons_append, List.nil_append, List.flatMap_cons,
      List.flatMap_nil, hline]
    simp [crlfSplit]
  rw [requestCredentials, hsplit]
  exact headerCredentials_of_user password h

def ProxyConfig.auth : ProxyConfig → Option (String × String)
  | .direct => none
  | .socks5 _ auth => auth
  | .http _ auth => auth

theorem Scheme.auth_config (scheme : Scheme) (addr : String) (auth : Option (String × String)) :
    (scheme.config addr auth).auth = auth := by
  cases scheme with
  | socks5 => rfl
  | socks => rfl
  | http => rfl

theorem colon_not_mem_user {value user password : String} {config : ProxyConfig}
    (h : ProxyConfig.parse value = .ok config) (hauth : config.auth = some (user, password)) :
    ':' ∉ user.toList := by
  rcases parse_eq_ok h with rfl | ⟨scheme, auth, hostPort, rfl, hcredentials, _⟩
  · cases hauth
  · rw [Scheme.auth_config] at hauth
    exact (hcredentials user password hauth).2

theorem base64Encode_canonical :
    (∀ input, (base64Encode input).toList.length = 4 * ((input.length + 2) / 3)) ∧
    (∀ input, ∃ body pads, (base64Encode input).toList = body ++ List.replicate pads '=' ∧
      pads ≤ 2 ∧ ∀ c ∈ body, c ∈ b64Alphabet ∧ c ≠ '=') ∧
    (∀ input, base64Decode (base64Encode input).toList = some input) ∧
    (∀ text input, base64Decode text = some input → text = (base64Encode input).toList) ∧
    Function.Injective base64Encode ∧
    ∀ value config user password, ProxyConfig.parse value = .ok config →
      config.auth = some (user, password) → ∀ target,
        requestCredentials (asBytes (connectRequest target (some (user, password)))) =
          some (user, password) := by
  have htext : ∀ input, (base64Encode input).toList = encodeChunks input :=
    fun input => String.toList_ofList
  have hdecode : ∀ input, base64Decode (base64Encode input).toList = some input :=
    fun input => base64Decode_eq_some.mpr (htext input)
  refine ⟨?_, ?_, hdecode, ?_, ?_, ?_⟩
  · intro input
    rw [htext, length_encodeChunks]
  · intro input
    obtain ⟨body, pads, hbody, hpads, halphabet⟩ := encodeChunks_eq_append input
    have hpad : '=' ∉ b64Alphabet := by decide
    refine ⟨body, pads, (htext input).trans hbody, hpads, fun c hc => ⟨halphabet c hc, ?_⟩⟩
    exact fun heq => hpad (heq ▸ halphabet c hc)
  · intro text input h
    rw [htext, base64Decode_eq_some.mp h]
  · intro a b h
    have := hdecode a
    rw [h, hdecode b] at this
    exact (Option.some.inj this).symm
  · intro value config user password h hauth target
    exact requestCredentials_connectRequest target password (colon_not_mem_user h hauth)

end Scproxy
