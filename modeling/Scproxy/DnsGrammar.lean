import Scproxy.DnsQuery

namespace Scproxy

/-- A label on the wire has between 1 and 63 bytes. -/
def WireLabel (label : String) : Prop :=
  1 ≤ (asBytes label).length ∧ (asBytes label).length ≤ 63

def encodeLabel (label : String) : List UInt8 :=
  UInt8.ofNat (asBytes label).length :: asBytes label

/-- Length-prefixed labels and the root terminator. -/
def wireName (labels : List String) : List UInt8 := labels.flatMap encodeLabel ++ [0]

@[simp] theorem wireName_nil : wireName [] = [0] := rfl

theorem wireName_cons (label : String) (labels : List String) :
    wireName (label :: labels) = encodeLabel label ++ wireName labels := by
  simp [wireName]

theorem asBytes_joinWith_dot (labels : List String) :
    asBytes (joinWith '.' labels) = [46].intercalate (labels.map asBytes) := by
  induction labels with
  | nil => rfl
  | cons l labels ih =>
    cases labels with
    | nil => simp [joinWith]
    | cons l' labels =>
      have hcons : joinWith '.' (l :: l' :: labels) = l ++ "." ++ joinWith '.' (l' :: labels) := by
        apply String.toList_injective
        simp [joinWith, List.intercalate_cons_cons]
      rw [hcons, asBytes_append, asBytes_append, ih]
      exact List.intercalate_cons_cons.symm

/-- Each label but the last is followed by a dot, each has a length byte on the wire. -/
theorem wireName_length {labels : List String} (h : labels ≠ []) :
    (wireName labels).length = (asBytes (joinWith '.' labels)).length + 2 := by
  rw [asBytes_joinWith_dot]
  induction labels with
  | nil => exact absurd rfl h
  | cons label labels ih =>
    rw [wireName_cons, List.length_append, encodeLabel, List.length_cons, List.map_cons]
    cases labels with
    | nil => simp
    | cons next labels =>
      have hrest := ih (by simp)
      rw [List.map_cons] at hrest
      rw [hrest, List.map_cons, List.intercalate_cons_cons]
      simp only [List.length_append, List.length_cons, List.length_nil]
      omega

theorem domain_length_iff (labels : List String) :
    (asBytes (joinWith '.' labels)).length ≤ 253 ↔ (wireName labels).length ≤ 255 := by
  by_cases h : labels = []
  · subst h
    simp [joinWith]
  · rw [wireName_length h]
    omega

theorem drop_eq_cons {α : Type} {data : List α} {pos : Nat} (h : pos < data.length) :
    ∃ b tail, data.drop pos = b :: tail ∧ data.drop (pos + 1) = tail ∧
      data.length = pos + 1 + tail.length := by
  refine ⟨data[pos], data.drop (pos + 1), List.drop_eq_getElem_cons h, rfl, ?_⟩
  rw [List.length_drop]
  omega

set_option maxRecDepth 4000 in
theorem compression_bits_iff : ∀ n : Fin 256, n.val &&& 0xC0 ≠ 0 ↔ 64 ≤ n.val := by
  decide

/-- One round of the label loop, in terms of the bytes left to read. -/
theorem parseLabels_eq {data : List UInt8} {pos : Nat} {b : UInt8} {tail : List UInt8}
    (labels : List String) (h : data.drop pos = b :: tail) :
    parseLabels data pos labels =
      if b.toNat = 0 then .ok (some (labels, pos + 1))
      else if 64 ≤ b.toNat ∨ tail.length < b.toNat then .ok none
      else match fromUtf8 (tail.take b.toNat) with
        | none => .ok none
        | some label => parseLabels data (pos + 1 + b.toNat) (labels ++ [label]) := by
  have hlen := congrArg List.length h
  rw [List.length_drop, List.length_cons] at hlen
  have htail : data.drop (pos + 1) = tail := by
    rw [← List.drop_drop, h, List.drop_one, List.tail_cons]
  have hbits := compression_bits_iff ⟨b.toNat, b.toNat_lt⟩
  rw [parseLabels, dif_neg (by omega), index_of_drop h]
  simp only [bind, Except.bind]
  by_cases h0 : b.toNat = 0
  · rw [if_pos h0, if_pos h0]
  · rw [if_neg h0, if_neg h0]
    by_cases h64 : 64 ≤ b.toNat
    · rw [if_pos (hbits.mpr h64), if_pos (Or.inl h64)]
    · rw [if_neg (mt hbits.mp h64)]
      by_cases hshort : tail.length < b.toNat
      · rw [if_pos (by omega), if_pos (Or.inr hshort)]
      · have htake : (tail.take b.toNat).length = b.toNat := by
          rw [List.length_take]
          omega
        have hslice := slice_of_drop (htail.trans (List.take_append_drop b.toNat tail).symm)
          (by omega)
        rw [htake] at hslice
        simp only [if_neg (show ¬data.length < pos + 1 + b.toNat by omega), hslice]
        have hfits : ¬(64 ≤ b.toNat ∨ tail.length < b.toNat) := by omega
        exact (if_neg hfits).symm

theorem parseLabels_total (data : List UInt8) (pos : Nat) (labels : List String) :
    ∃ result, parseLabels data pos labels = .ok result := by
  induction hn : data.length - pos using Nat.strongRecOn generalizing pos labels with
  | _ n ih =>
    by_cases hpos : pos < data.length
    · obtain ⟨b, tail, hb, _, hlen⟩ := drop_eq_cons hpos
      rw [parseLabels_eq labels hb]
      split
      next => exact ⟨_, rfl⟩
      next =>
        split
        next => exact ⟨_, rfl⟩
        next =>
          split
          next => exact ⟨_, rfl⟩
          next => exact ih _ (by omega) _ _ rfl
    · rw [parseLabels, dif_pos (by omega)]
      exact ⟨_, rfl⟩

theorem parseLabels_wireName {data rest : List UInt8} {ls : List String}
    (valid : ∀ l ∈ ls, WireLabel l) {pos : Nat} (labels : List String)
    (h : data.drop pos = wireName ls ++ rest) :
    parseLabels data pos labels = .ok (some (labels ++ ls, pos + (wireName ls).length)) := by
  induction ls generalizing pos labels with
  | nil =>
    rw [parseLabels_eq labels h, if_pos (by rfl), List.append_nil]
    rfl
  | cons l ls ih =>
    obtain ⟨hl1, hl2⟩ := valid l (by simp)
    have hlen : (UInt8.ofNat (asBytes l).length).toNat = (asBytes l).length := by
      rw [UInt8.toNat_ofNat']
      omega
    rw [wireName_cons, encodeLabel, List.append_assoc, List.cons_append] at h
    have hnext : data.drop (pos + 1 + (asBytes l).length) = wireName ls ++ rest := by
      rw [Nat.add_assoc, ← List.drop_drop, h, Nat.add_comm 1, List.drop_succ_cons, List.drop_left]
    rw [parseLabels_eq labels h, hlen, if_neg (by omega), if_neg (by
      simp only [List.length_append]
      omega), List.take_left, fromUtf8_asBytes]
    simp only
    rw [ih (fun l hl => valid l (List.mem_cons_of_mem _ hl)) _ hnext, wireName_cons]
    simp only [List.append_assoc, List.singleton_append, List.length_append, encodeLabel,
      List.length_cons]
    rw [show pos + 1 + (asBytes l).length + (wireName ls).length =
      pos + ((asBytes l).length + 1 + (wireName ls).length) by omega]

theorem parseLabels_sound {data : List UInt8} {pos p : Nat} {acc labels : List String}
    (h : parseLabels data pos acc = .ok (some (labels, p))) :
    ∃ ls rest, (∀ l ∈ ls, WireLabel l) ∧ data.drop pos = wireName ls ++ rest ∧
      labels = acc ++ ls ∧ p = pos + (wireName ls).length := by
  induction hn : data.length - pos using Nat.strongRecOn generalizing pos acc with
  | _ n ih =>
    by_cases hpos : pos < data.length
    · obtain ⟨b, tail, hb, htail, hlen⟩ := drop_eq_cons hpos
      rw [parseLabels_eq acc hb] at h
      split at h
      next h0 =>
        obtain ⟨rfl, rfl⟩ := Prod.mk.inj (Option.some.inj (Except.ok.inj h))
        have hz : b = 0 := UInt8.toNat_inj.mp h0
        exact ⟨[], tail, by simp, by rw [hb, hz]; rfl, by simp, by simp⟩
      next h0 =>
        split at h
        next => simp at h
        next hb64 =>
          split at h
          next => simp at h
          next label hlabel =>
            obtain ⟨ls, rest, hv, hdrop, hls, hp⟩ := ih _ (by omega) h rfl
            have hbytes := fromUtf8_eq_some.mp hlabel
            have hblen : (asBytes label).length = b.toNat := by
              rw [hbytes, List.length_take]
              omega
            refine ⟨label :: ls, rest, ?_, ?_, ?_, ?_⟩
            · intro l hl
              rcases List.mem_cons.mp hl with rfl | hl
              · exact ⟨by omega, by omega⟩
              · exact hv l hl
            · rw [wireName_cons, encodeLabel, hblen, UInt8.ofNat_toNat, List.append_assoc,
                List.cons_append, ← hdrop, hb, ← List.drop_drop, htail, hbytes,
                List.take_append_drop]
            · rw [hls, List.append_assoc, List.singleton_append]
            · rw [hp, wireName_cons, encodeLabel]
              simp only [List.length_append, List.length_cons]
              omega
    · rw [parseLabels, dif_pos (by omega)] at h
      simp at h

end Scproxy
