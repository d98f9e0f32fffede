import Scproxy.DnsTurns

namespace Scproxy

theorem allocations_append_grows (dns : FakeDns) (calls later : List String) :
    dns.allocations calls <+: dns.allocations (calls ++ later) := by
  induction calls generalizing dns with
  | nil => exact List.nil_prefix
  | cons domain calls ih =>
    simp only [List.cons_append, FakeDns.allocations]
    split
    · exact List.prefix_cons_inj _ |>.mpr (ih _)
    · exact ih _

/-- A name whose address leads back to it is given this address again. -/
theorem resolve_of_lookup {queries : List (List UInt8)} {mapping : FakeDns} {domain : String}
    {ip : Ipv4Addr} (hserve : Resolver.serve .new queries = .ok mapping)
    (hlookup : mapping.lookup ip = some domain) : mapping.resolve domain = (mapping, ip) := by
  rw [serve_eq_resolveAll] at hserve
  have hrefines := fifoRefines_new.resolveAll (queries.filterMap queriedName)
  rw [Except.ok.inj hserve] at hrefines
  obtain ⟨k, hlive, rfl⟩ := (hrefines.backward domain ip).mp hlookup
  exact hrefines.resolve_hit hlive

namespace DnsService

/-- The names that these queries asked addresses for. -/
def names (log : List (Nat × DnsAnswer)) : List String :=
  (log.map fun entry => entry.2.query).filterMap queriedName

/-- From whatever server a name gets its address, every server gives the same address again, and a
connection to it is one to this name, as long as fewer names than the pool holds were given
addresses since then. -/
theorem address_leads_back {s : DnsService} {before after : List (Nat × DnsAnswer)}
    {entry : Nat × DnsAnswer} {id : UInt16} {domain : String} (h : dnsService.Reachable s)
    (hsplit : s.answered = before ++ entry :: after)
    (hquery : parseQuery entry.2.query = .ok (some (id, domain, 1)))
    (hfresh : (FakeDns.new.resolveAll (names before)).domainToIp.lookup domain = none)
    (hfew : (((FakeDns.new.resolveAll (names before)).resolve domain).1.allocations
      (names after)).length < poolSize.toNat) :
    ∃ response ip, entry.2.response = some response ∧ lastAddress response = some ip ∧
      (∀ port, Resolver.target s.mapping ⟨ip, port⟩ = .ok (.domain domain port)) ∧
      ∀ later ∈ after, ∀ id', parseQuery later.2.query = .ok (some (id', domain, 1)) →
        ∃ response', later.2.response = some response' ∧ lastAddress response' = some ip := by
  have hs := sound_of_reachable h
  obtain ⟨m, m', hserve, hanswer⟩ := hs.answers before entry after hsplit
  have hm : m = FakeDns.new.resolveAll (names before) := by
    rw [serve_eq_resolveAll] at hserve
    exact (Except.ok.inj hserve).symm
  rw [← hm] at hfresh hfew
  rw [answer_a hquery] at hanswer
  simp only [Except.ok.injEq, Prod.mk.injEq] at hanswer
  have hrecent : ∀ mid rest mapping, after = mid ++ rest →
      Resolver.serve .new ((before.map fun entry => entry.2.query) ++
        entry.2.query :: mid.map fun entry => entry.2.query) = .ok mapping →
      FakeDns.isFakeIp (m.resolve domain).2 = true ∧
        mapping.lookup (m.resolve domain).2 = some domain := by
    intro mid rest mapping hafter hmapping
    obtain ⟨hfake, _, hlookup⟩ := answered_address hserve hquery hmapping
    refine ⟨hfake, hlookup hfresh (Nat.lt_of_le_of_lt ?_ hfew)⟩
    have hnames : names after = names mid ++ names rest := by
      rw [hafter, names, List.map_append, List.filterMap_append]
      rfl
    rw [hnames]
    exact (allocations_append_grows _ _ _).length_le
  refine ⟨_, _, hanswer.2.symm, lastAddress_buildAResponse _ _ _, fun port => ?_, ?_⟩
  · have hall := hs.serves
    rw [queries, hsplit, List.map_append, List.map_cons] at hall
    obtain ⟨hfake, hlookup⟩ := hrecent after [] s.mapping (List.append_nil _).symm hall
    unfold Resolver.target
    rw [if_pos hfake, hlookup]
  · intro later hlater id' hquery'
    obtain ⟨mid, rest, rfl⟩ := List.append_of_mem hlater
    have hsplit' : s.answered = (before ++ entry :: mid) ++ later :: rest := by
      rw [hsplit, List.append_assoc, List.cons_append]
    obtain ⟨m2, m2', hserve', hanswer'⟩ := hs.answers _ later rest hsplit'
    rw [answer_a hquery'] at hanswer'
    simp only [Except.ok.injEq, Prod.mk.injEq] at hanswer'
    refine ⟨_, hanswer'.2.symm, ?_⟩
    have hserved := hserve'
    rw [List.map_append, List.map_cons] at hserved
    have hlookup := (hrecent mid (later :: rest) m2 rfl hserved).2
    rw [lastAddress_buildAResponse, resolve_of_lookup hserve' hlookup]

/-- The two servers give the same address. -/
theorem address_leads_back_both : ∃ s first second ip, dnsService.Reachable s ∧
    s.answered = [(1, ⟨localClient 2000, plainQuery, some first⟩),
      (0, ⟨localClient 1000, plainQuery, some second⟩)] ∧
    lastAddress first = some ip ∧ lastAddress second = some ip ∧
    Resolver.target s.mapping ⟨ip, 443⟩ = .ok (.domain "a.b" 443) := by
  have hquery : parseQuery plainQuery = .ok (some (0x1234, "a.b", 1)) := by decide +kernel
  obtain ⟨s, hs, _, first, second, hanswered, _⟩ := both_answered
  have hnames : names [(0, ⟨localClient 1000, plainQuery, some second⟩)] = ["a.b"] := by
    have hname : queriedName plainQuery = some "a.b" := by decide +kernel
    exact List.filterMap_cons_some hname
  have hfew : (((FakeDns.new.resolveAll (names [])).resolve "a.b").1.allocations
      (names [(0, ⟨localClient 1000, plainQuery, some second⟩)])).length < poolSize.toNat := by
    rw [hnames]
    decide
  obtain ⟨response, ip, hresponse, haddress, htarget, hlater⟩ :=
    @address_leads_back s [] _ _ _ _ hs hanswered hquery rfl hfew
  cases hresponse
  obtain ⟨response', hresponse', haddress'⟩ := hlater _ (List.mem_singleton.mpr rfl) _ hquery
  cases hresponse'
  exact ⟨s, _, _, ip, hs, hanswered, haddress, haddress', htarget 443⟩

end DnsService

end Scproxy
