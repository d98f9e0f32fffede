import Scproxy.DnsResponse
import Scproxy.FakeDnsFifo

namespace Scproxy

/-- The shared mapping after a history of queries. -/
def Resolver.serve (mapping : FakeDns) (history : List (List UInt8)) : Except Panic FakeDns :=
  history.foldlM
    (fun mapping query => do
      let (mapping, _) ← Resolver.answer mapping query
      pure mapping)
    mapping

/-- The name an A query asks for. -/
def queriedName (query : List UInt8) : Option String :=
  match parseQuery query with
  | .ok (some (_, domain, kind)) => if kind = 1 then some domain else none
  | _ => none

theorem answer_mapping (mapping : FakeDns) (query : List UInt8) :
    ∃ response, Resolver.answer mapping query =
      .ok (mapping.resolveAll (queriedName query).toList, response) := by
  obtain ⟨result, hresult⟩ := parseQuery_total query
  unfold Resolver.answer queriedName
  rw [hresult]
  rcases result with _ | ⟨id, domain, kind⟩
  · exact ⟨none, rfl⟩
  · simp only [bind, Except.bind]
    by_cases hkind : kind = 1
    · rw [if_pos hkind, if_pos hkind]
      exact ⟨_, rfl⟩
    · rw [if_neg hkind, if_neg hkind]
      exact ⟨_, rfl⟩

theorem answer_a {query : List UInt8} {id : UInt16} {domain : String}
    (h : parseQuery query = .ok (some (id, domain, 1))) (mapping : FakeDns) :
    Resolver.answer mapping query = .ok ((mapping.resolve domain).1,
      some (buildAResponse id domain (mapping.resolve domain).2)) := by
  unfold Resolver.answer
  rw [h]
  rfl

theorem resolveAll_append (dns : FakeDns) (calls later : List String) :
    dns.resolveAll (calls ++ later) = (dns.resolveAll calls).resolveAll later :=
  List.foldl_append

theorem serve_eq_resolveAll (mapping : FakeDns) (history : List (List UInt8)) :
    Resolver.serve mapping history = .ok (mapping.resolveAll (history.filterMap queriedName)) := by
  induction history generalizing mapping with
  | nil => rfl
  | cons query history ih =>
    obtain ⟨response, hanswer⟩ := answer_mapping mapping query
    have hsplit : (query :: history).filterMap queriedName =
        (queriedName query).toList ++ history.filterMap queriedName := by
      cases hq : queriedName query with
      | none => rw [List.filterMap_cons_none hq]; rfl
      | some domain => rw [List.filterMap_cons_some hq]; rfl
    unfold Resolver.serve
    rw [List.foldlM_cons, hanswer, hsplit, resolveAll_append]
    exact ih _

theorem fifo_request_extends (cap : Nat) (calls log : List String) :
    log <+: calls.foldl (Fifo.request cap) log := by
  induction calls generalizing log with
  | nil => exact List.prefix_rfl
  | cons d calls ih =>
    refine List.IsPrefix.trans ?_ (ih _)
    unfold Fifo.request
    split
    next => exact List.prefix_rfl
    next => exact List.prefix_append _ _

/-- Once an address has been given out it always maps to some name. -/
theorem FifoRefines.lookup_allocated {dns : FakeDns} {log : List String} (h : FifoRefines dns log)
    {k : Nat} (hk : k < log.length) : ∃ domain, dns.lookup (slotAddr k) = some domain := by
  have hcap : 0 < poolSize.toNat := by
    rw [poolSize_toNat]
    omega
  obtain ⟨j, domain, hlive, hslot⟩ := Fifo.exists_live_of_slot hcap hk
  refine ⟨domain, (h.backward domain _).mpr ⟨j, hlive, ?_⟩⟩
  unfold slotAddr
  rw [hslot]

theorem FifoRefines.resolve_address {dns : FakeDns} {log : List String} (h : FifoRefines dns log)
    (domain : String) :
    ∃ k, (dns.resolve domain).2 = slotAddr k ∧
      k < (Fifo.request poolSize.toNat log domain).length := by
  by_cases hmem : domain ∈ log.drop (log.length - poolSize.toNat)
  · obtain ⟨k, hk⟩ := Fifo.mem_window_iff.mp hmem
    rw [h.resolve_hit hk, Fifo.request, if_pos hmem]
    exact ⟨k, rfl, hk.lt⟩
  · rw [Fifo.request, if_neg hmem, (h.resolve_miss ((h.unmapped_iff domain).mpr hmem)).2]
    exact ⟨log.length, rfl, by simp⟩

theorem FifoRefines.allocations_length {dns : FakeDns} {log : List String}
    (h : FifoRefines dns log) (calls : List String) :
    log.length + (dns.allocations calls).length =
      (calls.foldl (Fifo.request poolSize.toNat) log).length := by
  have hlen := congrArg List.length (h.allocations calls)
  simpa only [List.length_append, List.length_map, List.length_zipIdx] using hlen

/-- A name keeps its address through fewer than `POOL_SIZE` later allocations. -/
theorem FifoRefines.lookup_recent {dns : FakeDns} {log : List String} (h : FifoRefines dns log)
    {domain : String} (hmiss : dns.domainToIp.lookup domain = none) (calls : List String)
    (hfew : ((dns.resolve domain).1.allocations calls).length < poolSize.toNat) :
    ((dns.resolve domain).1.resolveAll calls).lookup (dns.resolve domain).2 = some domain := by
  obtain ⟨hnext, haddr⟩ := h.resolve_miss hmiss
  have hlen := hnext.allocations_length calls
  rw [List.length_append, List.length_singleton] at hlen
  rw [haddr]
  refine ((hnext.resolveAll calls).backward domain _).mpr ⟨log.length, ⟨?_, by omega⟩, rfl⟩
  obtain ⟨later, hlater⟩ := fifo_request_extends poolSize.toNat calls (log ++ [domain])
  rw [← hlater, List.getElem?_append_left (by simp), List.getElem?_concat_length]

/-- What becomes of the address in an A answer after further queries. -/
theorem answered_address {earlier later : List (List UInt8)} {query : List UInt8}
    {id : UInt16} {domain : String} {before mapping : FakeDns}
    (hbefore : Resolver.serve .new earlier = .ok before)
    (hquery : parseQuery query = .ok (some (id, domain, 1)))
    (hserve : Resolver.serve .new (earlier ++ query :: later) = .ok mapping) :
    FakeDns.isFakeIp (before.resolve domain).2 = true ∧
    (∃ d, mapping.lookup (before.resolve domain).2 = some d) ∧
    (before.domainToIp.lookup domain = none →
      ((before.resolve domain).1.allocations (later.filterMap queriedName)).length <
        poolSize.toNat →
      mapping.lookup (before.resolve domain).2 = some domain) := by
  have hname : queriedName query = some domain := by
    unfold queriedName
    rw [hquery]
    rfl
  rw [serve_eq_resolveAll] at hbefore hserve
  rw [List.filterMap_append, resolveAll_append, Except.ok.inj hbefore,
    List.filterMap_cons_some hname, FakeDns.resolveAll_cons] at hserve
  obtain ⟨log, hrefines⟩ : ∃ log, FifoRefines before log := by
    rw [← Except.ok.inj hbefore]
    exact ⟨_, fifoRefines_new.resolveAll _⟩
  obtain ⟨k, haddr, hk⟩ := hrefines.resolve_address domain
  have hfinal := (hrefines.resolve domain).resolveAll (later.filterMap queriedName)
  rw [Except.ok.inj hserve] at hfinal
  refine ⟨?_, ?_, ?_⟩
  · rw [haddr]
    exact isFakeIp_slotAddr k
  · have hle := (fifo_request_extends poolSize.toNat (later.filterMap queriedName)
      (Fifo.request poolSize.toNat log domain)).length_le
    rw [haddr]
    exact hfinal.lookup_allocated (Nat.lt_of_lt_of_le hk hle)
  · intro hmiss hfew
    rw [← Except.ok.inj hserve]
    exact hrefines.lookup_recent hmiss _ hfew

end Scproxy
