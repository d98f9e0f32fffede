import Scproxy.Base64
import Scproxy.Crlf
import Scproxy.ResponseQuestion

namespace Scproxy

theorem not_mem_asBytes_toString {b : UInt8} (n : Nat) (hb : b.toNat < 48) :
    b ∉ asBytes (toString n) := by
  intro h
  obtain ⟨c, hc, hcb⟩ := mem_toList_of_mem_asBytes (by omega) h
  have hmem : c ∈ Nat.toDigits 10 n := by
    rwa [Nat.toString_eq_repr, Nat.repr, String.toList_ofList] at hc
  have hdigit := Nat.isDigit_of_mem_toDigits (by decide) (by decide) hmem
  simp only [Char.isDigit, Bool.and_eq_true, decide_eq_true_eq] at hdigit
  have hge : 48 ≤ c.val.toNat := UInt32.le_iff_toNat_le.mp hdigit.1
  have hval : c.val.toNat = b.toNat := hcb
  omega

theorem encodeChunks_mem {input : List UInt8} {c : Char} (h : c ∈ encodeChunks input) :
    c = '=' ∨ c ∈ b64Alphabet := by
  obtain ⟨body, pads, hbody, _, halphabet⟩ := encodeChunks_eq_append input
  rw [hbody] at h
  rcases List.mem_append.mp h with h | h
  · exact Or.inr (halphabet c h)
  · exact Or.inl (List.eq_of_mem_replicate h)

theorem not_mem_asBytes_base64Encode (input : List UInt8) :
    (13 : UInt8) ∉ asBytes (base64Encode input) := by
  intro h
  obtain ⟨c, hc, hcb⟩ := mem_toList_of_mem_asBytes (by decide) h
  rw [base64Encode, String.toList_ofList] at hc
  have hall : ('=' :: b64Alphabet).all (fun c => c.toNat != 13) = true := by decide
  have hne := List.all_eq_true.mp hall c (List.mem_cons.mpr (encodeChunks_mem hc))
  rw [hcb] at hne
  cases hne

theorem asBytes_fmt_domain (host : String) (port : UInt16) :
    asBytes (ProxyTarget.domain host port).fmt =
      asBytes host ++ asBytes ":" ++ asBytes (toString port.toNat) := by
  rw [ProxyTarget.fmt, asBytes_append, asBytes_append]

theorem space_mem_authority_iff (host : String) (port : UInt16) :
    32 ∈ asBytes (ProxyTarget.domain host port).fmt ↔ 32 ∈ asBytes host := by
  have hport := not_mem_asBytes_toString (b := 32) port.toNat (by decide)
  have hcolon : (32 : UInt8) ∉ asBytes ":" := by decide
  rw [asBytes_fmt_domain]
  simp only [List.mem_append, hport, hcolon, or_false]

theorem hasCrlf_authority_iff (host : String) (port : UInt16) :
    HasCrlf (asBytes (ProxyTarget.domain host port).fmt) ↔ HasCrlf (asBytes host) := by
  have hport := not_hasCrlf_of_not_mem (not_mem_asBytes_toString (b := 13) port.toNat (by decide))
  have hcolon : asBytes ":" = [58] := by decide
  rw [asBytes_fmt_domain, hcolon, List.append_assoc, List.singleton_append, hasCrlf_append_cons (by decide) (by decide)]
  simp only [hport, or_false]

/-- One HTTP request head for `authority`, split at CRLF. The two empty parts
at the end are the empty line and what follows it. -/
def IsRequestHead (authority bytes : List UInt8) : Prop :=
  ∃ requestLine credentials,
    crlfSplit bytes = requestLine :: (asBytes "Host: " ++ authority) :: credentials ++ [[], []] ∧
    requestLine.splitOn 32 = [asBytes "CONNECT", authority, asBytes "HTTP/1.1"] ∧
    credentials.length ≤ 1 ∧
    (∀ line ∈ credentials, asBytes "Proxy-Authorization: Basic " <+: line) ∧
    ∀ line ∈ requestLine :: (asBytes "Host: " ++ authority) :: credentials, line ≠ []

def requestLine (target : ProxyTarget) : List UInt8 :=
  [32].intercalate [asBytes "CONNECT", asBytes target.fmt, asBytes "HTTP/1.1"]

def credentialLines : Option (String × String) → List (List UInt8)
  | none => []
  | some (user, pass) =>
    [asBytes "Proxy-Authorization: Basic " ++ asBytes (base64Encode (asBytes (user ++ ":" ++ pass)))]

theorem asBytes_authorization (auth : Option (String × String)) :
    asBytes (authorization auth) = (credentialLines auth).flatMap (· ++ [13, 10]) := by
  have hcrlf : asBytes "\r\n" = [13, 10] := by decide
  unfold authorization credentialLines
  cases auth with
  | none => exact asBytes_empty
  | some pair =>
    obtain ⟨user, pass⟩ := pair
    simp only [asBytes_append, hcrlf, List.flatMap_singleton]

theorem asBytes_connectRequest (target : ProxyTarget) (auth : Option (String × String)) :
    asBytes (connectRequest target auth) =
      (requestLine target :: (asBytes "Host: " ++ asBytes target.fmt) :: credentialLines auth ++
        [[]]).flatMap (· ++ [13, 10]) := by
  have hcrlf : asBytes "\r\n" = [13, 10] := by decide
  have hconnect : asBytes "CONNECT " = asBytes "CONNECT" ++ [32] := by decide
  have hversion : asBytes " HTTP/1.1\r\nHost: " =
      [32] ++ asBytes "HTTP/1.1" ++ [13, 10] ++ asBytes "Host: " := by decide
  rw [connectRequest]
  simp only [asBytes_append, asBytes_authorization, hcrlf, hconnect, hversion, requestLine,
    List.intercalate_cons_cons, List.intercalate_singleton, List.flatMap_append, List.flatMap_cons,
    List.flatMap_nil, List.append_assoc, List.nil_append, List.append_nil, List.cons_append]

theorem credentialLines_no_crlf {auth : Option (String × String)} {line : List UInt8}
    (h : line ∈ credentialLines auth) : ¬HasCrlf line := by
  cases auth with
  | none => simp [credentialLines] at h
  | some pair =>
    rw [List.mem_singleton.mp h]
    apply not_hasCrlf_of_not_mem
    have hname : (13 : UInt8) ∉ asBytes "Proxy-Authorization: Basic " := by decide
    rw [List.mem_append, not_or]
    exact ⟨hname, not_mem_asBytes_base64Encode _⟩

theorem credentialLines_length (auth : Option (String × String)) :
    (credentialLines auth).length ≤ 1 := by
  rcases auth with _ | ⟨user, pass⟩
  · exact Nat.zero_le 1
  · exact Nat.le_refl 1

theorem credentialLines_name {auth : Option (String × String)} {line : List UInt8}
    (h : line ∈ credentialLines auth) : asBytes "Proxy-Authorization: Basic " <+: line := by
  rcases auth with _ | ⟨user, pass⟩
  · simp [credentialLines] at h
  · rw [List.mem_singleton.mp h]
    exact List.prefix_append _ _

theorem requestLine_splitOn {target : ProxyTarget} (h : 32 ∉ asBytes target.fmt) :
    (requestLine target).splitOn 32 =
      [asBytes "CONNECT", asBytes target.fmt, asBytes "HTTP/1.1"] := by
  have hmethod : (32 : UInt8) ∉ asBytes "CONNECT" := by decide
  have hversion : (32 : UInt8) ∉ asBytes "HTTP/1.1" := by decide
  apply List.splitOn_intercalate
  · intro token htoken
    simp only [List.mem_cons, List.not_mem_nil, or_false] at htoken
    rcases htoken with rfl | rfl | rfl
    · exact hmethod
    · exact h
    · exact hversion
  · simp

theorem requestLine_hasCrlf_iff (target : ProxyTarget) :
    HasCrlf (requestLine target) ↔ HasCrlf (asBytes target.fmt) := by
  have hmethod : ¬HasCrlf (asBytes "CONNECT") := by decide
  have hversion : ¬HasCrlf (asBytes "HTTP/1.1") := by decide
  rw [requestLine, hasCrlf_intercalate (by decide) (by decide)]
  simp only [List.mem_cons, List.not_mem_nil, or_false, exists_eq_or_imp, exists_eq_left, hmethod,
    hversion, false_or]

theorem hostLine_hasCrlf_iff (target : ProxyTarget) :
    HasCrlf (asBytes "Host: " ++ asBytes target.fmt) ↔ HasCrlf (asBytes target.fmt) := by
  have hname : ¬HasCrlf (asBytes "Host:") := by decide
  have hsplit : asBytes "Host: " = asBytes "Host:" ++ [32] := by decide
  rw [hsplit, List.append_assoc, List.singleton_append,
    hasCrlf_append_cons (by decide) (by decide)]
  simp only [hname, false_or]

theorem connectRequest_isRequestHead_iff (target : ProxyTarget) (auth : Option (String × String)) :
    IsRequestHead (asBytes target.fmt) (asBytes (connectRequest target auth)) ↔
      32 ∉ asBytes target.fmt ∧ ¬HasCrlf (asBytes target.fmt) := by
  refine ⟨?_, ?_⟩
  · intro h
    obtain ⟨line, credentials, hsplit, htokens, _, _, _⟩ := h
    have hline : line = requestLine target := by
      have hjoin : [32].intercalate (line.splitOn 32) = line := List.intercalate_splitOn 32
      rw [← hjoin, htokens]
      rfl
    have htoken : asBytes target.fmt ∈ line.splitOn 32 := by simp [htokens]
    have hmem : line ∈ crlfSplit (asBytes (connectRequest target auth)) := by simp [hsplit]
    refine ⟨not_mem_of_mem_splitOn htoken, ?_⟩
    rw [← requestLine_hasCrlf_iff, ← hline]
    exact not_hasCrlf_of_mem_crlfSplit hmem
  · intro h
    obtain ⟨hspace, hcrlf⟩ := h
    have hrequest : requestLine target ≠ [] := by
      intro hnil
      have := requestLine_splitOn hspace
      rw [hnil] at this
      simp at this
    refine ⟨requestLine target, credentialLines auth, ?_, requestLine_splitOn hspace,
      credentialLines_length auth, fun line => credentialLines_name, ?_⟩
    · rw [asBytes_connectRequest, crlfSplit_lines]
      · simp
      · intro line hline
        simp only [List.cons_append, List.mem_cons, List.mem_append, List.not_mem_nil,
          or_false] at hline
        rcases hline with rfl | rfl | hline | rfl
        · rwa [requestLine_hasCrlf_iff]
        · rwa [hostLine_hasCrlf_iff]
        · exact credentialLines_no_crlf hline
        · exact not_hasCrlf_of_not_mem (by simp)
    · intro line hline
      rcases List.mem_cons.mp hline with rfl | hline
      · exact hrequest
      · rcases List.mem_cons.mp hline with rfl | hline
        · have hname : asBytes "Host: " ≠ [] := by decide
          simp [hname]
        · intro hnil
          have hname : asBytes "Proxy-Authorization: Basic " ≠ [] := by decide
          rw [hnil] at hline
          exact hname (List.prefix_nil.mp (credentialLines_name hline))

theorem connectRequest_head_iff {query : List UInt8} {id qtype : UInt16} {domain : String}
    (h : parseQuery query = .ok (some (id, domain, qtype))) (port : UInt16)
    (auth : Option (String × String)) :
    IsRequestHead (asBytes domain ++ asBytes ":" ++ asBytes (toString port.toNat))
      (asBytes (connectRequest (.domain domain port) auth)) ↔
    ∀ label ∈ questionLabels query, 32 ∉ asBytes label ∧ ¬[13, 10] <:+: asBytes label := by
  obtain ⟨q, rfl, rfl, rfl, rfl⟩ := parseQuery_sound h
  have hspace : 32 ∈ asBytes q.domain ↔ ∃ label ∈ q.labels, 32 ∈ asBytes label := by
    rw [Query.domain, asBytes_joinWith_dot, mem_intercalate (by decide)]
    simp
  have hcrlf : HasCrlf (asBytes q.domain) ↔ ∃ label ∈ q.labels, HasCrlf (asBytes label) := by
    rw [Query.domain, asBytes_joinWith_dot, hasCrlf_intercalate (by decide) (by decide)]
    simp
  rw [← asBytes_fmt_domain, connectRequest_isRequestHead_iff, space_mem_authority_iff,
    hasCrlf_authority_iff, questionLabels_bytes, hspace, hcrlf]
  simp only [HasCrlf, not_exists, not_and]
  exact forall₂_and.symm

theorem connectRequest_head_plainQuery :
    IsRequestHead (asBytes "a.b" ++ asBytes ":" ++ asBytes (toString 443))
      (asBytes (connectRequest (.domain "a.b" 443) (some ("user", "pass")))) := by
  have hparse : parseQuery plainQuery = .ok (some (0x1234, "a.b", 1)) := by decide +kernel
  have hlabels : questionLabels plainQuery = ["a", "b"] := by decide +kernel
  apply (connectRequest_head_iff hparse 443 (some ("user", "pass"))).mpr
  rw [hlabels]
  decide

/-- One label, with the bytes of `a HTTP/1.1`, CRLF, `X:b`. -/
def injectingQuery : List UInt8 :=
  [0x12, 0x34, 1, 0, 0, 1, 0, 0, 0, 0, 0, 0, 15] ++ asBytes "a HTTP/1.1\r\nX:b" ++ [0, 0, 1, 0, 1]

theorem connectRequest_head_injectingQuery :
    parseQuery injectingQuery = .ok (some (0x1234, "a HTTP/1.1\r\nX:b", 1)) ∧
    crlfSplit (asBytes (connectRequest (.domain "a HTTP/1.1\r\nX:b" 443) none)) =
      [asBytes "CONNECT a HTTP/1.1", asBytes "X:b:443 HTTP/1.1", asBytes "Host: a HTTP/1.1",
        asBytes "X:b:443", [], []] ∧
    ¬IsRequestHead (asBytes "a HTTP/1.1\r\nX:b" ++ asBytes ":" ++ asBytes (toString 443))
      (asBytes (connectRequest (.domain "a HTTP/1.1\r\nX:b" 443) none)) := by
  refine ⟨?_, ?_, ?_⟩
  · decide +kernel
  · decide +kernel
  · intro h
    obtain ⟨hspace, _⟩ := (connectRequest_isRequestHead_iff (.domain _ 443) none).mp h
    exact absurd hspace (by decide)

end Scproxy
