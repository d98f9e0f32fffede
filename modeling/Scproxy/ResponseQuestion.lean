import Mathlib.Data.List.Flatten
import Scproxy.DnsResponse

namespace Scproxy

theorem splitOn_intercalate_flatMap {α : Type} [BEq α] [ReflBEq α] (c : α) {ls : List (List α)}
    (h : ls ≠ []) : ([c].intercalate ls).splitOn c = ls.flatMap (·.splitOn c) := by
  induction ls with
  | nil => exact absurd rfl h
  | cons l ls ih =>
    cases ls with
    | nil => simp
    | cons l' ls =>
      rw [List.intercalate_cons_cons, List.append_assoc, List.singleton_append,
        List.splitOn_append_cons_self, ih (by simp)]
      rfl

theorem sublist_intercalate {α : Type} (sep : List α) {l : List α} {ls : List (List α)}
    (h : l ∈ ls) :
    l.Sublist (sep.intercalate ls) := by
  induction ls with
  | nil => simp at h
  | cons x ls ih =>
    cases ls with
    | nil =>
      rw [List.intercalate_singleton, List.mem_singleton.mp h]
    | cons y ls =>
      rw [List.intercalate_cons_cons]
      rcases List.mem_cons.mp h with rfl | h
      · rw [List.append_assoc]
        exact List.sublist_append_left _ _
      · exact (ih h).trans (List.sublist_append_right _ _)

theorem splitChar_joinWith (c : Char) {labels : List String} (h : labels ≠ []) :
    splitChar c (joinWith c labels) = labels.flatMap (splitChar c) := by
  have hne : labels.map String.toList ≠ [] := by simpa using h
  rw [splitChar, joinWith, String.toList_ofList, splitOn_intercalate_flatMap c hne,
    List.flatMap_map, List.map_flatMap]
  rfl

theorem joinWith_splitChar (c : Char) (s : String) : joinWith c (splitChar c s) = s := by
  have hmap : (splitChar c s).map String.toList = s.toList.splitOn c := by
    simp [splitChar, Function.comp_def]
  rw [joinWith, hmap, List.intercalate_splitOn, String.ofList_toList]

theorem splitChar_part_length {c : Char} {s part : String} (h : part ∈ splitChar c s) :
    (asBytes part).length ≤ (asBytes s).length := by
  have hsub : part.toList.Sublist s.toList := by
    have hmem : part.toList ∈ s.toList.splitOn c := by
      obtain ⟨cs, hcs, rfl⟩ := List.mem_map.mp h
      rwa [String.toList_ofList]
    have := sublist_intercalate [c] hmem
    rwa [List.intercalate_splitOn] at this
  rw [asBytes_eq_flatMap, asBytes_eq_flatMap]
  exact (hsub.flatMap _).length_le

def nameParts (domain : String) : List String := if domain = "" then [] else splitChar '.' domain

theorem encodeName_eq (domain : String) : encodeName domain = wireName (nameParts domain) := by
  unfold encodeName nameParts wireName
  split
  next => rfl
  next => rfl

theorem joinWith_nameParts (domain : String) : joinWith '.' (nameParts domain) = domain := by
  unfold nameParts
  split
  next h => rw [h]; rfl
  next => exact joinWith_splitChar '.' domain

theorem joinWith_ne_empty {labels : List String} (h : labels ≠ [])
    (valid : ∀ l ∈ labels, WireLabel l) : joinWith '.' labels ≠ "" := by
  intro hempty
  obtain ⟨l, hl⟩ := List.exists_mem_of_ne_nil labels h
  have hsub := sublist_intercalate ['.'] (List.mem_map_of_mem (f := String.toList) hl)
  have hnil : (['.'].intercalate (labels.map String.toList)) = [] := by
    simpa [joinWith] using congrArg String.toList hempty
  rw [hnil, List.sublist_nil] at hsub
  have hpos := (valid l hl).1
  rw [asBytes_eq_flatMap, hsub] at hpos
  simp at hpos

theorem nameParts_joinWith {labels : List String} (valid : ∀ l ∈ labels, WireLabel l) :
    nameParts (joinWith '.' labels) = labels.flatMap (splitChar '.') := by
  by_cases h : labels = []
  · subst h
    rfl
  · rw [nameParts, if_neg (joinWith_ne_empty h valid), splitChar_joinWith '.' h]

/-- The bytes that `encodeName` pushes for `label.len() as u8`. -/
def labelLengths (domain : String) : List UInt8 :=
  (nameParts domain).map fun label => UInt8.ofNat (asBytes label).length

def clearQr (message : List UInt8) : List UInt8 := message.modify 2 (· &&& 0x7F)

def questionLabels (query : List UInt8) : List String :=
  match parseLabels query 12 [] with
  | .ok (some (labels, _)) => labels
  | _ => []

theorem questionLabels_bytes (q : Query) : questionLabels q.bytes = q.labels := by
  rw [questionLabels, parseLabels_wireName q.labels_valid [] q.bytes_drop_header]
  rfl

theorem answer_layout (mapping : FakeDns) {query : List UInt8} {id qtype : UInt16}
    {domain : String} (h : parseQuery query = .ok (some (id, domain, qtype))) :
    ∃ mapping' response counts tail, Resolver.answer mapping query = .ok (mapping', some response) ∧
      counts.length = 6 ∧ 2 ≤ tail.length ∧
      clearQr response = be16 id ++ be16 0x0180 ++ be16 1 ++ counts ++ encodeName domain ++
        be16 qtype ++ tail := by
  unfold Resolver.answer
  rw [h]
  simp only [bind, Except.bind]
  split
  next hkind =>
    refine ⟨_, _, be16 1 ++ be16 0 ++ be16 0, be16 1 ++ be16 0xC00C ++ be16 1 ++ be16 1 ++
      be32 300 ++ be16 4 ++ (mapping.resolve domain).2.octets, rfl, rfl, by simp [be16], ?_⟩
    rw [hkind]
    simp [buildAResponse, buildEmptyResponse, clearQr, be16]
    rfl
  next =>
    refine ⟨_, _, be16 0 ++ be16 0 ++ be16 0, be16 1, rfl, rfl, by simp [be16], ?_⟩
    simp [buildEmptyResponse, clearQr, be16]
    rfl

theorem answer_echoes_question_iff {query : List UInt8} {id qtype : UInt16} {domain : String}
    (mapping : FakeDns) (h : parseQuery query = .ok (some (id, domain, qtype))) :
    (∃ mapping' response, Resolver.answer mapping query = .ok (mapping', some response) ∧
      parseQuery (clearQr response) = .ok (some (id, domain, qtype)) ∧
      ∀ n ∈ labelLengths domain, 1 ≤ n.toNat ∧ n.toNat ≤ 63) ↔
    ∀ label ∈ questionLabels query, ∀ part ∈ splitChar '.' label, part ≠ "" := by
  obtain ⟨q, rfl, rfl, rfl, rfl⟩ := parseQuery_sound h
  obtain ⟨mapping', response, counts, tail, hanswer, hcounts, htail, hresponse⟩ :=
    answer_layout mapping h
  rw [questionLabels_bytes]
  have hparts : nameParts q.domain = q.labels.flatMap (splitChar '.') :=
    nameParts_joinWith q.labels_valid
  refine ⟨?_, ?_⟩
  · rintro ⟨_, _, _, _, hlengths⟩ label hlabel part hpart rfl
    have hmem : "" ∈ nameParts q.domain := by
      rw [hparts]
      exact List.mem_flatMap.mpr ⟨label, hlabel, hpart⟩
    have hzero := (hlengths _ (List.mem_map_of_mem hmem)).1
    simp at hzero
  · intro hne
    have hvalid : ∀ part ∈ nameParts q.domain, WireLabel part := by
      intro part hpart
      rw [hparts] at hpart
      obtain ⟨label, hlabel, hpart⟩ := List.mem_flatMap.mp hpart
      have hle := splitChar_part_length hpart
      have hlabelLen := (q.labels_valid label hlabel).2
      refine ⟨?_, by omega⟩
      apply List.length_pos_iff.mpr
      intro hnil
      exact hne label hlabel part hpart (asBytes_injective (hnil.trans asBytes_empty.symm))
    have hecho := parseQuery_bytes ⟨q.id, 0x0180, 1, counts, nameParts q.domain, q.qtype, tail,
      rfl, by decide, hcounts, hvalid, by rw [joinWith_nameParts]; exact q.domain_length, htail⟩
    refine ⟨mapping', response, hanswer, ?_, ?_⟩
    · rw [hresponse, encodeName_eq]
      refine hecho.trans ?_
      show Except.ok (some (q.id, joinWith '.' (nameParts q.domain), q.qtype)) = _
      rw [joinWith_nameParts]
    · intro n hn
      obtain ⟨part, hpart, rfl⟩ := List.mem_map.mp hn
      obtain ⟨hpos, hle⟩ := hvalid part hpart
      rw [UInt8.toNat_ofNat']
      omega

def dottedQuery : List UInt8 :=
  [0x12, 0x34, 1, 0, 0, 1, 0, 0, 0, 0, 0, 0, 4, 97, 46, 46, 98, 0, 0, 1, 0, 1]

theorem answer_echoes_question_dottedQuery :
    parseQuery dottedQuery = .ok (some (0x1234, "a..b", 1)) ∧
    (Resolver.answer FakeDns.new dottedQuery).map (·.2.map (parseQuery ∘ clearQr)) =
      .ok (some (.ok (some (0x1234, "a", 0x0162)))) ∧
    labelLengths "a..b" = [1, 0, 1] := by
  refine ⟨?_, ?_, ?_⟩
  · decide +kernel
  · decide +kernel
  · decide +kernel

def plainQuery : List UInt8 :=
  [0x12, 0x34, 1, 0, 0, 1, 0, 0, 0, 0, 0, 0, 1, 97, 1, 98, 0, 0, 1, 0, 1]

theorem answer_echoes_question_plainQuery :
    ∃ mapping response, Resolver.answer FakeDns.new plainQuery = .ok (mapping, some response) ∧
      parseQuery (clearQr response) = .ok (some (0x1234, "a.b", 1)) ∧
      ∀ n ∈ labelLengths "a.b", 1 ≤ n.toNat ∧ n.toNat ≤ 63 := by
  have hparse : parseQuery plainQuery = .ok (some (0x1234, "a.b", 1)) := by decide +kernel
  have hlabels : questionLabels plainQuery = ["a", "b"] := by decide +kernel
  apply (answer_echoes_question_iff FakeDns.new hparse).mpr
  rw [hlabels]
  decide

end Scproxy
