import Scproxy.FakeDns

namespace Scproxy

open Fifo in
/-- The two maps hold exactly the live entries of the allocation log, each at
the address of its slot, and the counter points at the next slot. -/
structure FifoRefines (dns : FakeDns) (log : List String) : Prop where
  offset : dns.nextOffset.toNat = log.length % poolSize.toNat
  forward : ∀ domain ip, dns.domainToIp.lookup domain = some ip ↔
    ∃ k, Live poolSize.toNat log k domain ∧ ip = slotAddr k
  backward : ∀ domain ip, dns.ipToDomain.lookup ip = some domain ↔
    ∃ k, Live poolSize.toNat log k domain ∧ ip = slotAddr k

theorem fifoRefines_new : FifoRefines .new [] := by
  refine ⟨rfl, ?_, ?_⟩ <;> simp [FakeDns.new, Fifo.Live]

theorem FifoRefines.nextOffset_lt {dns : FakeDns} {log : List String} (h : FifoRefines dns log) :
    dns.nextOffset.toNat < 131069 := by
  have ho := h.offset
  rw [poolSize_toNat] at ho
  omega

theorem FifoRefines.next_address {dns : FakeDns} {log : List String} (h : FifoRefines dns log) :
    (⟨poolStart + dns.nextOffset⟩ : Ipv4Addr) = slotAddr log.length := by
  have hlt := h.nextOffset_lt
  have ho := h.offset
  rw [poolSize_toNat] at ho
  apply Ipv4Addr.eq_of_toNat_eq
  rw [slotAddr_toNat, UInt32.toNat_add, poolStart_toNat]
  omega

theorem FifoRefines.next_offset {dns : FakeDns} {log : List String} (h : FifoRefines dns log) :
    ((dns.nextOffset + 1) % poolSize).toNat = (log.length + 1) % poolSize.toNat := by
  have hlt := h.nextOffset_lt
  have ho := h.offset
  rw [poolSize_toNat] at ho
  rw [UInt32.toNat_mod, UInt32.toNat_add, poolSize_toNat, UInt32.toNat_one, ho]
  omega

/-- Exactly the entry in the slot to be reused leaves the window. -/
theorem slotAddr_reused_iff {log : List String} {k : Nat} {domain : String}
    (hk : Fifo.Live poolSize.toNat log k domain) :
    slotAddr k = slotAddr log.length ↔ ¬log.length < k + poolSize.toNat := by
  have hlt := hk.lt
  constructor
  · intro he hb
    have := Fifo.index_eq_of_slot_eq (slotAddr_inj he) (by omega) hb
    omega
  · intro hb
    have he : log.length = k + poolSize.toNat := le_antisymm hk.2 (by omega)
    simp only [slotAddr, he, Nat.add_mod_right]

theorem FifoRefines.evicted_iff {dns : FakeDns} {log : List String} (h : FifoRefines dns log)
    {k : Nat} {domain : String} (hk : Fifo.Live poolSize.toNat log k domain) :
    dns.ipToDomain.lookup (slotAddr log.length) = some domain ↔
      ¬log.length < k + poolSize.toNat := by
  rw [← slotAddr_reused_iff hk]
  constructor
  · intro he
    obtain ⟨j, hj, hslot⟩ := (h.backward _ _).mp he
    have hdom := (h.forward domain (slotAddr k)).mpr ⟨k, hk, rfl⟩
    have hdom' := (h.forward domain (slotAddr log.length)).mpr ⟨j, hj, hslot⟩
    exact Option.some.inj (hdom.symm.trans hdom')
  · intro he
    exact (h.backward _ _).mpr ⟨k, hk, he.symm⟩

theorem FifoRefines.resolve_hit {dns : FakeDns} {log : List String} (h : FifoRefines dns log)
    {k : Nat} {domain : String} (hk : Fifo.Live poolSize.toNat log k domain) :
    dns.resolve domain = (dns, slotAddr k) := by
  have hl := (h.forward domain (slotAddr k)).mpr ⟨k, hk, rfl⟩
  simp only [FakeDns.resolve, hl]

/-- Evicting through the reverse map leaves the entries that stay live. -/
theorem FifoRefines.forward_evict {dns : FakeDns} {log : List String} (h : FifoRefines dns log)
    (domain : String) (ip : Ipv4Addr) :
    (dns.evict (slotAddr log.length)).lookup domain = some ip ↔
      ∃ k, (Fifo.Live poolSize.toNat log k domain ∧ log.length < k + poolSize.toNat) ∧
        ip = slotAddr k := by
  have hsplit : (dns.evict (slotAddr log.length)).lookup domain = some ip ↔
      dns.ipToDomain.lookup (slotAddr log.length) ≠ some domain ∧
        dns.domainToIp.lookup domain = some ip := by
    unfold FakeDns.evict
    cases dns.ipToDomain.lookup (slotAddr log.length) with
    | none => simp
    | some oldDomain =>
      simp only [HashMap.lookup_erase_eq_ite, ne_eq, Option.some.injEq]
      by_cases hd : domain = oldDomain
      · simp [hd]
      · simp [hd, Ne.symm hd]
  rw [hsplit, h.forward]
  constructor
  · rintro ⟨hstay, k, hk, hip⟩
    rw [ne_eq, h.evicted_iff hk, not_not] at hstay
    exact ⟨k, ⟨hk, hstay⟩, hip⟩
  · rintro ⟨k, ⟨hk, hstay⟩, hip⟩
    exact ⟨fun he => (h.evicted_iff hk).mp he hstay, k, hk, hip⟩

theorem FifoRefines.backward_evict {dns : FakeDns} {log : List String} (h : FifoRefines dns log)
    (domain : String) (ip : Ipv4Addr) :
    (dns.ipToDomain.erase (slotAddr log.length)).lookup ip = some domain ↔
      ∃ k, (Fifo.Live poolSize.toNat log k domain ∧ log.length < k + poolSize.toNat) ∧
        ip = slotAddr k := by
  rw [HashMap.lookup_erase_eq_ite]
  constructor
  · intro hl
    split at hl
    next => simp at hl
    next hne =>
      obtain ⟨k, hk, hip⟩ := (h.backward _ _).mp hl
      refine ⟨k, ⟨hk, ?_⟩, hip⟩
      by_contra hb
      exact hne (hip.trans ((slotAddr_reused_iff hk).mpr hb))
  · rintro ⟨k, ⟨hk, hstay⟩, hip⟩
    have hne : ip ≠ slotAddr log.length := fun he =>
      (slotAddr_reused_iff hk).mp (hip.symm.trans he) hstay
    rw [if_neg hne]
    exact (h.backward _ _).mpr ⟨k, hk, hip⟩

theorem FifoRefines.resolve_miss {dns : FakeDns} {log : List String} (h : FifoRefines dns log)
    {domain : String} (hmiss : dns.domainToIp.lookup domain = none) :
    FifoRefines (dns.resolve domain).1 (log ++ [domain]) ∧
      (dns.resolve domain).2 = slotAddr log.length := by
  have hdead : ∀ k, ¬Fifo.Live poolSize.toNat log k domain := by
    intro k hk
    have hl := (h.forward domain (slotAddr k)).mpr ⟨k, hk, rfl⟩
    simp [hmiss] at hl
  have hcap : 0 < poolSize.toNat := by rw [poolSize_toNat]; omega
  simp only [FakeDns.resolve, hmiss, h.next_address]
  refine ⟨⟨?_, ?_, ?_⟩, trivial⟩
  · rw [h.next_offset, List.length_append, List.length_singleton]
  · intro d ip
    simp only [Fifo.live_append_iff hcap, HashMap.lookup_insert_eq_ite]
    by_cases hd : d = domain
    · subst d
      rw [if_pos rfl]
      constructor
      · intro hip
        exact ⟨log.length, Or.inl ⟨rfl, rfl⟩, (Option.some.inj hip).symm⟩
      · rintro ⟨k, ⟨hk, _⟩ | ⟨hk, _⟩, hip⟩
        · rw [hip, hk]
        · exact absurd hk (hdead k)
    · rw [if_neg hd, h.forward_evict]
      simp only [hd, and_false, false_or]
  · intro d ip
    simp only [Fifo.live_append_iff hcap, HashMap.lookup_insert_eq_ite]
    by_cases hip : ip = slotAddr log.length
    · rw [if_pos hip]
      constructor
      · intro hd
        exact ⟨log.length, Or.inl ⟨rfl, (Option.some.inj hd).symm⟩, hip⟩
      · rintro ⟨k, ⟨_, hd⟩ | ⟨hk, hstay⟩, hk'⟩
        · rw [hd]
        · exact absurd hstay ((slotAddr_reused_iff hk).mp (hk'.symm.trans hip))
    · rw [if_neg hip, h.backward_evict]
      constructor
      · rintro ⟨k, hk, hk'⟩
        exact ⟨k, Or.inr hk, hk'⟩
      · rintro ⟨k, ⟨hk, _⟩ | hk, hk'⟩
        · rw [hk] at hk'
          exact absurd hk' hip
        · exact ⟨k, hk, hk'⟩

theorem FifoRefines.unmapped_iff {dns : FakeDns} {log : List String} (h : FifoRefines dns log)
    (domain : String) :
    dns.domainToIp.lookup domain = none ↔ domain ∉ log.drop (log.length - poolSize.toNat) := by
  rw [Fifo.mem_window_iff]
  constructor
  · rintro hnone ⟨k, hk⟩
    have hl := (h.forward domain (slotAddr k)).mpr ⟨k, hk, rfl⟩
    simp [hnone] at hl
  · intro hnot
    cases hl : dns.domainToIp.lookup domain with
    | none => rfl
    | some ip =>
      obtain ⟨k, hk, _⟩ := (h.forward domain ip).mp hl
      exact absurd ⟨k, hk⟩ hnot

/-- One call of `resolve` is one request to the abstract cache. -/
theorem FifoRefines.resolve {dns : FakeDns} {log : List String} (h : FifoRefines dns log)
    (domain : String) :
    FifoRefines (dns.resolve domain).1 (Fifo.request poolSize.toNat log domain) := by
  by_cases hmem : domain ∈ log.drop (log.length - poolSize.toNat)
  · obtain ⟨k, hk⟩ := Fifo.mem_window_iff.mp hmem
    rw [h.resolve_hit hk, Fifo.request, if_pos hmem]
    exact h
  · rw [Fifo.request, if_neg hmem]
    exact (h.resolve_miss ((h.unmapped_iff domain).mpr hmem)).1

theorem FifoRefines.resolveAll {dns : FakeDns} {log : List String} (h : FifoRefines dns log)
    (calls : List String) :
    FifoRefines (dns.resolveAll calls) (calls.foldl (Fifo.request poolSize.toNat) log) := by
  induction calls generalizing dns log with
  | nil => exact h
  | cons domain calls ih =>
    rw [FakeDns.resolveAll_cons, List.foldl_cons]
    exact ih (h.resolve domain)

/-- The calls that allocate are those the abstract cache logs, and allocation
`k` is given the address of slot `k`. -/
theorem FifoRefines.allocations {dns : FakeDns} {log : List String} (h : FifoRefines dns log)
    (calls : List String) :
    log.zipIdx.map (fun entry => (entry.1, slotAddr entry.2)) ++ dns.allocations calls =
      (calls.foldl (Fifo.request poolSize.toNat) log).zipIdx.map
        fun entry => (entry.1, slotAddr entry.2) := by
  induction calls generalizing dns log with
  | nil => simp [FakeDns.allocations]
  | cons domain calls ih =>
    rw [List.foldl_cons, ← ih (h.resolve domain)]
    by_cases hmem : domain ∈ log.drop (log.length - poolSize.toNat)
    · have hmapped := mt (h.unmapped_iff domain).mp (not_not.mpr hmem)
      simp only [FakeDns.allocations, Fifo.request, if_pos hmem, if_neg hmapped]
    · have hmiss := (h.unmapped_iff domain).mpr hmem
      have haddr := (h.resolve_miss hmiss).2
      simp only [FakeDns.allocations, Fifo.request, if_neg hmem, if_pos hmiss, haddr,
        List.zipIdx_append, List.map_append, List.append_assoc, Nat.zero_add,
        List.zipIdx_singleton, List.map_singleton, List.singleton_append]

theorem allocations_new (calls : List String) :
    FakeDns.new.allocations calls = (Fifo.run poolSize.toNat calls).zipIdx.map
      fun entry => (entry.1, slotAddr entry.2) := by
  rw [Fifo.run, ← fifoRefines_new.allocations calls, List.zipIdx_nil, List.map_nil,
    List.nil_append]

/-- What a log of allocations says about the state after them: the maps are
inverse to each other and hold the last `POOL_SIZE` allocations. -/
structure FifoView (dns : FakeDns) (log : List (String × Ipv4Addr)) : Prop where
  address : ∀ k domain ip, log[k]? = some (domain, ip) →
    ip.bits.toNat = poolStart.toNat + k % poolSize.toNat
  forward : ∀ domain ip, dns.domainToIp.lookup domain = some ip ↔
    (domain, ip) ∈ log.drop (log.length - poolSize.toNat)
  backward : ∀ domain ip, dns.ipToDomain.lookup ip = some domain ↔
    (domain, ip) ∈ log.drop (log.length - poolSize.toNat)
  hit : ∀ domain ip, (domain, ip) ∈ log.drop (log.length - poolSize.toNat) →
    dns.resolve domain = (dns, ip)
  offset_lt : dns.nextOffset.toNat < poolSize.toNat
  no_overflow : poolStart.toNat + dns.nextOffset.toNat < 2 ^ 32
  fake : ∀ domain ip, dns.lookup ip = some domain → FakeDns.isFakeIp ip = true
  reserved : dns.lookup dnsAddr = none

theorem mem_recent_iff {log : List String} {domain : String} {ip : Ipv4Addr} {cap : Nat} :
    (domain, ip) ∈ (log.zipIdx.map fun entry => (entry.1, slotAddr entry.2)).drop
      ((log.zipIdx.map fun entry => (entry.1, slotAddr entry.2)).length - cap) ↔
      ∃ k, Fifo.Live cap log k domain ∧ ip = slotAddr k := by
  rw [Fifo.mem_window_iff]
  unfold Fifo.Live
  simp only [List.length_map, List.length_zipIdx, List.getElem?_map, List.getElem?_zipIdx]
  refine exists_congr fun k => ?_
  cases log[k]? with
  | none => simp
  | some d =>
    simp only [Option.map_some, Option.some.injEq, Prod.mk.injEq, Nat.zero_add]
    constructor
    · rintro ⟨⟨hd, hip⟩, hb⟩
      exact ⟨⟨hd, hb⟩, hip.symm⟩
    · rintro ⟨⟨hd, hb⟩, hip⟩
      exact ⟨⟨hd, hip.symm⟩, hb⟩

theorem FifoRefines.view {dns : FakeDns} {log : List String} (h : FifoRefines dns log) :
    FifoView dns (log.zipIdx.map fun entry => (entry.1, slotAddr entry.2)) where
  address := by
    intro k domain ip hk
    simp only [List.getElem?_map, List.getElem?_zipIdx, Option.map_map] at hk
    obtain ⟨d, _, he⟩ := Option.map_eq_some_iff.mp hk
    obtain ⟨_, rfl⟩ := Prod.mk.inj he
    simp only [slotAddr_toNat, poolStart_toNat, poolSize_toNat, Nat.zero_add]
  forward domain ip := (h.forward domain ip).trans mem_recent_iff.symm
  backward domain ip := (h.backward domain ip).trans mem_recent_iff.symm
  hit := by
    intro domain ip hmem
    obtain ⟨k, hk, hip⟩ := mem_recent_iff.mp hmem
    rw [h.resolve_hit hk, hip]
  offset_lt := by
    rw [poolSize_toNat]
    exact h.nextOffset_lt
  no_overflow := by
    have := h.nextOffset_lt
    rw [poolStart_toNat]
    omega
  fake := by
    intro domain ip hl
    obtain ⟨k, _, hip⟩ := (h.backward domain ip).mp hl
    rw [hip]
    exact isFakeIp_slotAddr k
  reserved := by
    cases hl : dns.lookup dnsAddr with
    | none => rfl
    | some domain =>
      obtain ⟨k, _, hip⟩ := (h.backward domain dnsAddr).mp hl
      exact absurd hip.symm (slotAddr_ne_dnsAddr k)

/-- From an empty map every sequence of calls behaves as a cache that evicts
in allocation order: the log is that of the abstract cache, which a hit does
not touch, and it determines the state. -/
theorem resolveAll_refines_fifo (calls : List String) :
    FifoView (FakeDns.new.resolveAll calls) (FakeDns.new.allocations calls) ∧
      (FakeDns.new.allocations calls).map Prod.fst = Fifo.run poolSize.toNat calls ∧
      (∀ domain, (FakeDns.new.resolveAll calls).domainToIp.lookup domain ≠ none →
        FakeDns.new.allocations (calls ++ [domain]) = FakeDns.new.allocations calls) ∧
      (∀ domain, (FakeDns.new.resolveAll calls).domainToIp.lookup domain = none →
        FakeDns.new.allocations (calls ++ [domain]) = FakeDns.new.allocations calls ++
          [(domain, ((FakeDns.new.resolveAll calls).resolve domain).2)]) := by
  have href : FifoRefines (FakeDns.new.resolveAll calls) (Fifo.run poolSize.toNat calls) := by
    rw [Fifo.run]
    exact fifoRefines_new.resolveAll calls
  refine ⟨?_, ?_, ?_, ?_⟩
  · rw [allocations_new]
    exact href.view
  · have hfst : (Prod.fst ∘ fun entry : String × Nat => (entry.1, slotAddr entry.2)) = Prod.fst :=
      rfl
    rw [allocations_new, List.map_map, hfst, List.zipIdx_map_fst]
  · intro domain hmapped
    have hmem := not_not.mp (mt (href.unmapped_iff domain).mpr hmapped)
    rw [allocations_new, allocations_new, Fifo.run_concat, Fifo.request, if_pos hmem]
  · intro domain hmiss
    have hmem := (href.unmapped_iff domain).mp hmiss
    rw [allocations_new, allocations_new, Fifo.run_concat, Fifo.request, if_neg hmem,
      (href.resolve_miss hmiss).2, List.zipIdx_append, List.map_append, Nat.zero_add,
      List.zipIdx_singleton, List.map_singleton]

end Scproxy
