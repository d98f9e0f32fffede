import Scproxy.DnsGrammar

namespace Scproxy

/-- The queries the service understands, field by field. `counts` holds the
three other section counts and `tail` everything from QCLASS on. -/
structure Query where
  id : UInt16
  flags : UInt16
  qdcount : UInt16
  counts : List UInt8
  labels : List String
  qtype : UInt16
  tail : List UInt8
  not_response : flags &&& 0x8000 = 0
  qdcount_ne_zero : qdcount ≠ 0
  counts_length : counts.length = 6
  labels_valid : ∀ l ∈ labels, WireLabel l
  domain_length : (asBytes (joinWith '.' labels)).length ≤ 253
  tail_length : 2 ≤ tail.length

namespace Query

def domain (q : Query) : String := joinWith '.' q.labels

def bytes (q : Query) : List UInt8 :=
  be16 q.id ++ be16 q.flags ++ be16 q.qdcount ++ q.counts ++ wireName q.labels ++
    be16 q.qtype ++ q.tail

theorem bytes_drop_header (q : Query) :
    q.bytes.drop 12 = wireName q.labels ++ (be16 q.qtype ++ q.tail) := by
  have hlen : (be16 q.id ++ be16 q.flags ++ be16 q.qdcount ++ q.counts).length = 12 := by
    simp [be16, q.counts_length]
  rw [bytes, List.append_assoc, List.append_assoc, ← hlen, List.drop_left]

theorem bytes_drop_name (q : Query) :
    q.bytes.drop (12 + (wireName q.labels).length) = be16 q.qtype ++ q.tail := by
  rw [← List.drop_drop, bytes_drop_header, List.drop_left]

theorem bytes_length (q : Query) :
    q.bytes.length = 12 + (wireName q.labels).length + 2 + q.tail.length := by
  simp only [bytes, be16, List.length_append, List.length_cons, List.length_nil, q.counts_length]

/-- The position after the first question. -/
def questionEnd (q : Query) : Nat := 12 + (wireName q.labels).length + 4

end Query

theorem parseQuery_bytes (q : Query) :
    parseQuery q.bytes = .ok (some (q.id, q.domain, q.qtype)) := by
  have hlen := q.bytes_length
  have htail := q.tail_length
  have hname := q.bytes_drop_name
  have hnext : q.bytes.drop (12 + (wireName q.labels).length + 1) =
      UInt8.ofNat (q.qtype.toNat % 256) :: q.tail := by
    rw [← List.drop_drop, hname]
    rfl
  have h0 : index q.bytes 0 = .ok (UInt8.ofNat (q.id.toNat / 256)) := rfl
  have h1 : index q.bytes 1 = .ok (UInt8.ofNat (q.id.toNat % 256)) := rfl
  have h2 : index q.bytes 2 = .ok (UInt8.ofNat (q.flags.toNat / 256)) := rfl
  have h3 : index q.bytes 3 = .ok (UInt8.ofNat (q.flags.toNat % 256)) := rfl
  have h4 : index q.bytes 4 = .ok (UInt8.ofNat (q.qdcount.toNat / 256)) := rfl
  have h5 : index q.bytes 5 = .ok (UInt8.ofNat (q.qdcount.toNat % 256)) := rfl
  rw [parseQuery, if_neg (by omega), h0, h1, h2, h3]
  simp only [bind, Except.bind, fromBe16_be16]
  rw [if_neg (by simp [q.not_response]), h4, h5]
  simp only [fromBe16_be16]
  rw [if_neg q.qdcount_ne_zero, parseLabels_wireName q.labels_valid [] q.bytes_drop_header]
  simp only [List.nil_append]
  rw [if_neg (by omega), index_of_drop hname, index_of_drop hnext]
  simp only [fromBe16_be16]
  rw [if_neg (Nat.not_lt.mpr q.domain_length)]
  rfl

theorem exists_header {data : List UInt8} (h : 12 ≤ data.length) :
    ∃ i₀ i₁ f₀ f₁ q₀ q₁ counts rest, counts.length = 6 ∧
      data = [i₀, i₁, f₀, f₁, q₀, q₁] ++ counts ++ rest ∧ data.drop 12 = rest := by
  rcases data with _ | ⟨i₀, _ | ⟨i₁, _ | ⟨f₀, _ | ⟨f₁, _ | ⟨q₀, _ | ⟨q₁, body⟩⟩⟩⟩⟩⟩
  case cons.cons.cons.cons.cons.cons =>
    simp only [List.length_cons] at h
    refine ⟨i₀, i₁, f₀, f₁, q₀, q₁, body.take 6, body.drop 6, ?_, ?_, rfl⟩
    · rw [List.length_take]
      omega
    · rw [List.append_assoc, List.take_append_drop]
      rfl
  all_goals simp at h

theorem parseQuery_sound {data : List UInt8} {id qtype : UInt16} {domain : String}
    (h : parseQuery data = .ok (some (id, domain, qtype))) :
    ∃ q : Query, q.bytes = data ∧ q.id = id ∧ q.domain = domain ∧ q.qtype = qtype := by
  unfold parseQuery at h
  split at h
  next => simp at h
  next hlen =>
    obtain ⟨i₀, i₁, f₀, f₁, q₀, q₁, counts, rest, hcounts, hdata, hrest⟩ :=
      exists_header (Nat.not_lt.mp hlen)
    have h0 : index data 0 = .ok i₀ := by rw [hdata]; rfl
    have h1 : index data 1 = .ok i₁ := by rw [hdata]; rfl
    have h2 : index data 2 = .ok f₀ := by rw [hdata]; rfl
    have h3 : index data 3 = .ok f₁ := by rw [hdata]; rfl
    have h4 : index data 4 = .ok q₀ := by rw [hdata]; rfl
    have h5 : index data 5 = .ok q₁ := by rw [hdata]; rfl
    rw [h0, h1, h2, h3, h4, h5] at h
    simp only [bind, Except.bind] at h
    split at h
    next => simp at h
    next hflags =>
      split at h
      next => simp at h
      next hqd =>
        obtain ⟨result, hresult⟩ := parseLabels_total data 12 []
        rw [hresult] at h
        rcases result with _ | ⟨labels, pos⟩
        · simp at h
        · obtain ⟨ls, after, hvalid, hdrop, hls, hpos⟩ := parseLabels_sound hresult
          rw [List.nil_append] at hls
          subst hls
          simp only at h
          split at h
          next => simp at h
          next hroom =>
            have hafter : data.drop pos = after := by
              rw [hpos, ← List.drop_drop, hdrop, List.drop_left]
            have hafterLen : 4 ≤ after.length := by
              rw [← hafter, List.length_drop]
              omega
            rcases after with _ | ⟨t₀, _ | ⟨t₁, tail⟩⟩
            · simp at hafterLen
            · simp at hafterLen
            · have hsucc : data.drop (pos + 1) = t₁ :: tail := by
                rw [← List.drop_drop, hafter]
                rfl
              rw [index_of_drop hafter, index_of_drop hsucc] at h
              simp only at h
              split at h
              next => simp at h
              next hdomain =>
                have heq := Option.some.inj (Except.ok.inj h)
                simp only [Prod.mk.injEq] at heq
                obtain ⟨hid, hdom, hqtype⟩ := heq
                refine ⟨⟨fromBe16 i₀ i₁, fromBe16 f₀ f₁, fromBe16 q₀ q₁, counts, labels,
                  fromBe16 t₀ t₁, tail, ?_, hqd, hcounts, hvalid, Nat.not_lt.mp hdomain, ?_⟩,
                  ?_, hid, hdom, hqtype⟩
                · exact not_not.mp hflags
                · simpa using hafterLen
                · rw [hdata, ← hrest, hdrop]
                  simp [Query.bytes, be16_fromBe16]

theorem parseQuery_total (data : List UInt8) : ∃ result, parseQuery data = .ok result := by
  unfold parseQuery
  split
  next => exact ⟨_, rfl⟩
  next hlen =>
    obtain ⟨i₀, h0⟩ := index_of_lt (show 0 < data.length by omega)
    obtain ⟨i₁, h1⟩ := index_of_lt (show 1 < data.length by omega)
    obtain ⟨f₀, h2⟩ := index_of_lt (show 2 < data.length by omega)
    obtain ⟨f₁, h3⟩ := index_of_lt (show 3 < data.length by omega)
    obtain ⟨q₀, h4⟩ := index_of_lt (show 4 < data.length by omega)
    obtain ⟨q₁, h5⟩ := index_of_lt (show 5 < data.length by omega)
    obtain ⟨result, hresult⟩ := parseLabels_total data 12 []
    rw [h0, h1, h2, h3, h4, h5, hresult]
    simp only [bind, Except.bind]
    split
    next => exact ⟨_, rfl⟩
    next =>
      split
      next => exact ⟨_, rfl⟩
      next =>
        rcases result with _ | ⟨labels, pos⟩
        · exact ⟨_, rfl⟩
        · simp only
          split
          next => exact ⟨_, rfl⟩
          next =>
            obtain ⟨t₀, h6⟩ := index_of_lt (show pos < data.length by omega)
            obtain ⟨t₁, h7⟩ := index_of_lt (show pos + 1 < data.length by omega)
            rw [h6, h7]
            simp only
            split
            next => exact ⟨_, rfl⟩
            next => exact ⟨_, rfl⟩

/-- Bytes after the first question are not looked at. -/
theorem parseQuery_of_take (q : Query) {other : List UInt8}
    (htake : other.take q.questionEnd = q.bytes.take q.questionEnd) :
    parseQuery other = .ok (some (q.id, q.domain, q.qtype)) := by
  have htail := q.tail_length
  have hfront : (be16 q.id ++ be16 q.flags ++ be16 q.qdcount ++ q.counts ++ wireName q.labels ++
      be16 q.qtype).length = 12 + (wireName q.labels).length + 2 := by
    simp only [be16, List.length_append, List.length_cons, List.length_nil, q.counts_length]
  have hend : q.questionEnd = (be16 q.id ++ be16 q.flags ++ be16 q.qdcount ++ q.counts ++
      wireName q.labels ++ be16 q.qtype).length + 2 := by
    rw [hfront]
    rfl
  have hbytes : q.bytes.take q.questionEnd = be16 q.id ++ be16 q.flags ++ be16 q.qdcount ++
      q.counts ++ wireName q.labels ++ be16 q.qtype ++ q.tail.take 2 := by
    rw [hend, Query.bytes, List.take_length_add_append]
  have hother : other = be16 q.id ++ be16 q.flags ++ be16 q.qdcount ++ q.counts ++
      wireName q.labels ++ be16 q.qtype ++ (q.tail.take 2 ++ other.drop q.questionEnd) := by
    rw [← List.append_assoc, ← hbytes, ← htake, List.take_append_drop]
  have hroom : 2 ≤ (q.tail.take 2 ++ other.drop q.questionEnd).length := by
    rw [List.length_append, List.length_take]
    omega
  have hparse := parseQuery_bytes { q with
    tail := q.tail.take 2 ++ other.drop q.questionEnd, tail_length := hroom }
  rw [hother]
  exact hparse

/-- No query makes the parser panic, it accepts exactly the queries of the
grammar, and the bytes after the first question do not matter. -/
theorem parseQuery_grammar (data : List UInt8) :
    (∃ result, parseQuery data = .ok result) ∧
    (∀ id domain qtype, parseQuery data = .ok (some (id, domain, qtype)) ↔
      ∃ q : Query, q.bytes = data ∧ q.id = id ∧ q.domain = domain ∧ q.qtype = qtype) ∧
    (∀ q : Query, q.bytes = data → q.questionEnd ≤ data.length ∧
      ∀ other, other.take q.questionEnd = data.take q.questionEnd →
        parseQuery other = parseQuery data) ∧
    ∀ labels, (asBytes (joinWith '.' labels)).length ≤ 253 ↔ (wireName labels).length ≤ 255 := by
  refine ⟨parseQuery_total data, ?_, ?_, domain_length_iff⟩
  · intro id domain qtype
    constructor
    · exact parseQuery_sound
    · intro h
      obtain ⟨q, hbytes, hid, hdomain, hqtype⟩ := h
      rw [← hbytes, ← hid, ← hdomain, ← hqtype]
      exact parseQuery_bytes q
  · intro q hbytes
    subst hbytes
    refine ⟨?_, ?_⟩
    · have hlen := q.bytes_length
      have htail := q.tail_length
      unfold Query.questionEnd
      omega
    · intro other htake
      rw [parseQuery_of_take q htake, parseQuery_bytes]

end Scproxy
