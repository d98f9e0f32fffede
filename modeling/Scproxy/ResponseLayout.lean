import Scproxy.AnswerHistory
import Scproxy.ResponseQuestion

namespace Scproxy

theorem splitChar_of_not_mem {label : String} (h : 46 ∉ asBytes label) :
    splitChar '.' label = [label] := by
  have hmem : '.' ∉ label.toList := by
    intro hdot
    apply h
    rw [asBytes_eq_flatMap]
    exact List.mem_flatMap.mpr ⟨'.', hdot, by decide⟩
  rw [splitChar, List.splitOn_eq_singleton hmem, List.map_singleton, String.ofList_toList]

/-- Labels without a dot survive joining and splitting. -/
theorem encodeName_joinWith {labels : List String} (valid : ∀ l ∈ labels, WireLabel l)
    (plain : ∀ l ∈ labels, 46 ∉ asBytes l) : encodeName (joinWith '.' labels) = wireName labels := by
  rw [encodeName_eq, nameParts_joinWith valid]
  congr 1
  induction labels with
  | nil => rfl
  | cons label labels ih =>
    rw [List.flatMap_cons, splitChar_of_not_mem (plain label List.mem_cons_self),
      ih (fun l hl => valid l (List.mem_cons_of_mem _ hl))
        (fun l hl => plain l (List.mem_cons_of_mem _ hl)), List.singleton_append]

theorem resolve_maps (dns : FakeDns) (domain : String) :
    (dns.resolve domain).1.domainToIp.lookup domain = some (dns.resolve domain).2 := by
  unfold FakeDns.resolve
  cases hlookup : dns.domainToIp.lookup domain with
  | some ip => exact hlookup
  | none =>
    simp only
    rw [HashMap.lookup_insert_eq_ite, if_pos rfl]

/-- In every state of the pool, the address given for a name leads back to it. -/
theorem lookup_resolve (calls : List String) (domain : String) :
    ((FakeDns.new.resolveAll calls).resolve domain).1.lookup
      ((FakeDns.new.resolveAll calls).resolve domain).2 = some domain := by
  have hrefines := (fifoRefines_new.resolveAll calls).resolve domain
  obtain ⟨k, hlive, haddress⟩ := (hrefines.forward domain _).mp (resolve_maps _ domain)
  exact (hrefines.backward domain _).mpr ⟨k, hlive, haddress⟩

theorem answer_eq (mapping : FakeDns) (q : Query) :
    Resolver.answer mapping q.bytes =
      if q.qtype = 1 then
        .ok ((mapping.resolve q.domain).1,
          some (buildAResponse q.id q.domain (mapping.resolve q.domain).2))
      else .ok (mapping, some (buildEmptyResponse q.id q.domain q.qtype)) := by
  unfold Resolver.answer
  rw [parseQuery_bytes]
  rfl

/-- One address record: the name at offset 12, type A, class IN, and a TTL of 300. -/
def answerRecord (ip : Ipv4Addr) : List UInt8 :=
  be16 0xC00C ++ be16 1 ++ be16 1 ++ be32 300 ++ be16 4 ++ ip.octets

theorem buildAResponse_eq (id : UInt16) (domain : String) (ip : Ipv4Addr) :
    buildAResponse id domain ip = be16 id ++ be16 0x8180 ++ be16 1 ++ be16 1 ++ be16 0 ++ be16 0 ++
      encodeName domain ++ be16 1 ++ be16 1 ++ answerRecord ip := by
  simp [buildAResponse, buildEmptyResponse, answerRecord, be16]

/-- The whole answer to a query whose labels have no dot, in every state of the pool. -/
theorem answer_of_plain_labels (calls : List String) {query : List UInt8} {id qtype : UInt16}
    {domain : String} (h : parseQuery query = .ok (some (id, domain, qtype)))
    (hplain : ∀ label ∈ questionLabels query, 46 ∉ asBytes label) :
    ∃ mapping response name rest answers,
      Resolver.answer (FakeDns.new.resolveAll calls) query = .ok (mapping, some response) ∧
      name = wireName (questionLabels query) ∧ query.drop 12 = name ++ be16 qtype ++ rest ∧
      response = be16 id ++ be16 0x8180 ++ be16 1 ++ be16 (if qtype = 1 then 1 else 0) ++
        be16 0 ++ be16 0 ++ (name ++ be16 qtype ++ be16 1) ++ answers ∧
      (qtype ≠ 1 → answers = []) ∧
      (qtype = 1 → ∃ ip, mapping.lookup ip = some domain ∧ answers = answerRecord ip) ∧
      response.length ≤ 287 := by
  obtain ⟨q, hbytes, hid, hdomain, hqtype⟩ := parseQuery_sound h
  subst hbytes hid hdomain hqtype
  rw [questionLabels_bytes] at hplain ⊢
  have hname : encodeName q.domain = wireName q.labels :=
    encodeName_joinWith q.labels_valid hplain
  have hwire := (domain_length_iff q.labels).mp q.domain_length
  have hrest : q.bytes.drop 12 = wireName q.labels ++ be16 q.qtype ++ q.tail := by
    rw [q.bytes_drop_header, List.append_assoc]
  rw [answer_eq]
  by_cases ha : q.qtype = 1
  · rw [if_pos ha]
    refine ⟨_, _, wireName q.labels, q.tail,
      answerRecord ((FakeDns.new.resolveAll calls).resolve q.domain).2, rfl, rfl, hrest, ?_, ?_, ?_,
      ?_⟩
    · rw [buildAResponse_eq, hname, if_pos ha, ha]
      simp only [List.append_assoc]
    · exact fun hne => absurd ha hne
    · intro _
      exact ⟨_, lookup_resolve calls q.domain, rfl⟩
    · rw [buildAResponse_eq, hname]
      simp only [answerRecord, be16, be32, Ipv4Addr.octets, List.length_append, List.length_cons,
        List.length_nil]
      omega
  · rw [if_neg ha]
    refine ⟨_, _, wireName q.labels, q.tail, [], rfl, rfl, hrest, ?_, ?_, ?_, ?_⟩
    · rw [buildEmptyResponse, hname, if_neg ha]
      simp only [List.append_assoc, List.append_nil]
    · exact fun _ => rfl
    · exact fun hone => absurd hone ha
    · rw [buildEmptyResponse, hname]
      simp only [be16, List.length_append, List.length_cons, List.length_nil]
      omega

theorem answer_of_plain_labels_plainQuery :
    ∃ mapping response name rest answers,
      Resolver.answer (FakeDns.new.resolveAll ["c"]) plainQuery = .ok (mapping, some response) ∧
      name = wireName (questionLabels plainQuery) ∧
      plainQuery.drop 12 = name ++ be16 1 ++ rest ∧
      response = be16 0x1234 ++ be16 0x8180 ++ be16 1 ++ be16 (if (1 : UInt16) = 1 then 1 else 0) ++
        be16 0 ++ be16 0 ++ (name ++ be16 1 ++ be16 1) ++ answers ∧
      ((1 : UInt16) ≠ 1 → answers = []) ∧
      ((1 : UInt16) = 1 → ∃ ip, mapping.lookup ip = some "a.b" ∧ answers = answerRecord ip) ∧
      response.length ≤ 287 := by
  have hparse : parseQuery plainQuery = .ok (some (0x1234, "a.b", 1)) := by decide +kernel
  have hlabels : questionLabels plainQuery = ["a", "b"] := by decide +kernel
  apply answer_of_plain_labels ["c"] hparse
  rw [hlabels]
  decide

end Scproxy
