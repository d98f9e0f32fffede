import Scproxy.HttpConnect

namespace Scproxy

/-- The value of a character of the RFC 4648 alphabet. -/
def b64Value (c : Char) : Option Nat :=
  if 'A' ≤ c ∧ c ≤ 'Z' then some (c.toNat - 'A'.toNat)
  else if 'a' ≤ c ∧ c ≤ 'z' then some (c.toNat - 'a'.toNat + 26)
  else if '0' ≤ c ∧ c ≤ '9' then some (c.toNat - '0'.toNat + 52)
  else if c = '+' then some 62
  else if c = '/' then some 63
  else none

/-- A quantum of four characters of the alphabet. -/
def decodeQuantum (c0 c1 c2 c3 : Char) : Option (List UInt8) := do
  let v0 ← b64Value c0
  let v1 ← b64Value c1
  let v2 ← b64Value c2
  let v3 ← b64Value c3
  some [.ofNat (v0 * 4 + v1 / 16), .ofNat (v1 % 16 * 16 + v2 / 4), .ofNat (v2 % 4 * 64 + v3)]

/-- A quantum with one padding character; the two bits left over are zero. -/
def decodeTwo (c0 c1 c2 : Char) : Option (List UInt8) := do
  let v0 ← b64Value c0
  let v1 ← b64Value c1
  let v2 ← b64Value c2
  if v2 % 4 = 0 then some [.ofNat (v0 * 4 + v1 / 16), .ofNat (v1 % 16 * 16 + v2 / 4)] else none

/-- A quantum with two padding characters; the four bits left over are zero. -/
def decodeOne (c0 c1 : Char) : Option (List UInt8) := do
  let v0 ← b64Value c0
  let v1 ← b64Value c1
  if v1 % 16 = 0 then some [.ofNat (v0 * 4 + v1 / 16)] else none

/-- The strict RFC 4648 decoder: whole quanta, padding in the last one only. -/
def base64Decode : List Char → Option (List UInt8)
  | [] => some []
  | c0 :: c1 :: c2 :: c3 :: rest =>
    if c3 = '=' then
      if rest = [] then if c2 = '=' then decodeOne c0 c1 else decodeTwo c0 c1 c2
      else none
    else do
      let bytes ← decodeQuantum c0 c1 c2 c3
      let more ← base64Decode rest
      some (bytes ++ more)
  | _ => none

/-- A run of consecutive characters in the alphabet. -/
theorem b64Alphabet_of_range {first last c : Char} (offset : Nat)
    (hrun : ∀ i ≤ last.toNat - first.toNat,
      b64Alphabet[i + offset]? = some (Char.ofNat (first.toNat + i)))
    (hc : first ≤ c ∧ c ≤ last) : b64Alphabet[c.toNat - first.toNat + offset]? = some c := by
  have hlo : first.toNat ≤ c.toNat := hc.1
  have hhi : c.toNat ≤ last.toNat := hc.2
  rw [hrun _ (by omega), Nat.add_sub_cancel' hlo, Char.ofNat_toNat]

theorem b64Alphabet_of_b64Value {v : Nat} {c : Char} (h : b64Value c = some v) :
    b64Alphabet[v]? = some c := by
  unfold b64Value at h
  split at h
  next hc =>
    cases Option.some.inj h
    exact @b64Alphabet_of_range 'A' 'Z' c 0 (by decide) hc
  next =>
    split at h
    next hc =>
      cases Option.some.inj h
      exact @b64Alphabet_of_range 'a' 'z' c 26 (by decide) hc
    next =>
      split at h
      next hc =>
        cases Option.some.inj h
        exact @b64Alphabet_of_range '0' '9' c 52 (by decide) hc
      next =>
        split at h
        next hc =>
          cases Option.some.inj h
          exact congrArg some hc.symm
        next =>
          split at h
          next hc =>
            cases Option.some.inj h
            exact congrArg some hc.symm
          next => cases h

theorem b64Alphabet_length : b64Alphabet.length = 64 := by
  decide

theorem b64Value_eq_some {v : Nat} {c : Char} :
    b64Value c = some v ↔ b64Alphabet[v]? = some c := by
  have hvalue : ∀ i : Fin 64, b64Alphabet[i.val]?.bind b64Value = some i.val := by
    decide +kernel
  refine ⟨b64Alphabet_of_b64Value, fun h => ?_⟩
  have hv : v < b64Alphabet.length := (List.getElem?_eq_some_iff.mp h).1
  have hbind := hvalue ⟨v, b64Alphabet_length ▸ hv⟩
  rwa [h] at hbind

theorem b64Value_lt {v : Nat} {c : Char} (h : b64Value c = some v) : v < 64 := by
  rw [← b64Alphabet_length]
  exact (List.getElem?_eq_some_iff.mp (b64Value_eq_some.mp h)).1

theorem ne_pad_of_b64Value {c : Char} {v : Nat} (h : b64Value c = some v) : c ≠ '=' := by
  rintro rfl
  cases h

theorem b64Digit_eq_iff {combined shift : Nat} {c : Char} :
    c = b64Digit combined shift ↔ b64Value c = some (combined / 2 ^ shift % 64) := by
  have hmask : (combined >>> shift) &&& 0x3F = combined / 2 ^ shift % 64 := by
    rw [Nat.shiftRight_eq_div_pow]
    exact Nat.and_two_pow_sub_one_eq_mod _ 6
  have hdigit : b64Alphabet[combined / 2 ^ shift % 64]? = some (b64Digit combined shift) := by
    rw [← hmask]
    exact List.getElem?_eq_getElem _
  rw [b64Value_eq_some, hdigit, Option.some.injEq, eq_comm]

theorem combine_eq (b0 : Nat) {b1 b2 : Nat} (h1 : b1 < 256) (h2 : b2 < 256) :
    combine b0 b1 b2 = b0 * 65536 + b1 * 256 + b2 := by
  have hlow : (b1 <<< 8) ||| b2 = b1 * 256 + b2 := by
    rw [← Nat.shiftLeft_add_eq_or_of_lt (by simpa using h2), Nat.shiftLeft_eq]
  have hhigh : (b0 <<< 16) ||| (b1 * 256 + b2) = b0 * 65536 + (b1 * 256 + b2) := by
    rw [← Nat.shiftLeft_add_eq_or_of_lt (by omega), Nat.shiftLeft_eq]
  rw [combine, Nat.or_assoc, hlow, hhigh, Nat.add_assoc]

theorem combine_two (b0 : Nat) {b1 : Nat} (h1 : b1 < 256) :
    combine b0 b1 0 = b0 * 65536 + b1 * 256 := by
  rw [combine_eq b0 h1 (by omega), Nat.add_zero]

theorem combine_one (b0 : Nat) : combine b0 0 0 = b0 * 65536 := by
  rw [combine_two b0 (by omega), Nat.zero_mul, Nat.add_zero]

theorem toNat_ofNat_of_lt {n : Nat} (h : n < 256) : (UInt8.ofNat n).toNat = n := by
  rw [UInt8.toNat_ofNat']
  omega

theorem decodeQuantum_eq_some {c0 c1 c2 c3 : Char} {bytes : List UInt8} :
    decodeQuantum c0 c1 c2 c3 = some bytes ↔ ∃ b0 b1 b2, bytes = [b0, b1, b2] ∧
      [c0, c1, c2, c3] = encodeChunks [b0, b1, b2] := by
  simp only [encodeChunks, List.append_nil, List.cons.injEq, and_true, b64Digit_eq_iff]
  constructor
  · intro h
    obtain ⟨v0, h0, h⟩ := Option.bind_eq_some_iff.mp h
    obtain ⟨v1, h1, h⟩ := Option.bind_eq_some_iff.mp h
    obtain ⟨v2, h2, h⟩ := Option.bind_eq_some_iff.mp h
    obtain ⟨v3, h3, h⟩ := Option.bind_eq_some_iff.mp h
    have := b64Value_lt h0
    have := b64Value_lt h1
    have := b64Value_lt h2
    have := b64Value_lt h3
    refine ⟨_, _, _, (Option.some.inj h).symm, ?_⟩
    rw [h0, h1, h2, h3, combine_eq _ (UInt8.toNat_lt _) (UInt8.toNat_lt _),
      toNat_ofNat_of_lt (by omega), toNat_ofNat_of_lt (by omega), toNat_ofNat_of_lt (by omega)]
    simp only [Option.some.injEq]
    omega
  · rintro ⟨b0, b1, b2, rfl, h0, h1, h2, h3⟩
    have := b0.toNat_lt
    have := b1.toNat_lt
    have := b2.toNat_lt
    rw [combine_eq _ (UInt8.toNat_lt _) (UInt8.toNat_lt _)] at h0 h1 h2 h3
    simp only [decodeQuantum, h0, h1, h2, h3, Option.bind_eq_bind, Option.bind_some,
      Option.some.injEq, List.cons.injEq, and_true, ← UInt8.toNat_inj, UInt8.toNat_ofNat']
    omega

theorem decodeTwo_eq_some {c0 c1 c2 : Char} {bytes : List UInt8} :
    decodeTwo c0 c1 c2 = some bytes ↔ ∃ b0 b1, bytes = [b0, b1] ∧
      [c0, c1, c2, '='] = encodeChunks [b0, b1] := by
  simp only [encodeChunks, List.cons.injEq, and_true, b64Digit_eq_iff]
  constructor
  · intro h
    obtain ⟨v0, h0, h⟩ := Option.bind_eq_some_iff.mp h
    obtain ⟨v1, h1, h⟩ := Option.bind_eq_some_iff.mp h
    obtain ⟨v2, h2, h⟩ := Option.bind_eq_some_iff.mp h
    have := b64Value_lt h0
    have := b64Value_lt h1
    have := b64Value_lt h2
    split at h
    next =>
      refine ⟨_, _, (Option.some.inj h).symm, ?_⟩
      rw [h0, h1, h2, combine_two _ (UInt8.toNat_lt _), toNat_ofNat_of_lt (by omega),
        toNat_ofNat_of_lt (by omega)]
      simp only [Option.some.injEq]
      omega
    next => cases h
  · rintro ⟨b0, b1, rfl, h0, h1, h2⟩
    have := b0.toNat_lt
    have := b1.toNat_lt
    rw [combine_two _ (UInt8.toNat_lt _)] at h0 h1 h2
    refine Option.bind_eq_some_iff.mpr ⟨_, h0, Option.bind_eq_some_iff.mpr ⟨_, h1,
      Option.bind_eq_some_iff.mpr ⟨_, h2, (if_pos (by omega)).trans ?_⟩⟩⟩
    simp only [Option.some.injEq, List.cons.injEq, and_true, ← UInt8.toNat_inj, UInt8.toNat_ofNat']
    omega

theorem decodeOne_eq_some {c0 c1 : Char} {bytes : List UInt8} :
    decodeOne c0 c1 = some bytes ↔ ∃ b0, bytes = [b0] ∧
      [c0, c1, '=', '='] = encodeChunks [b0] := by
  simp only [encodeChunks, List.cons.injEq, and_true, b64Digit_eq_iff]
  constructor
  · intro h
    obtain ⟨v0, h0, h⟩ := Option.bind_eq_some_iff.mp h
    obtain ⟨v1, h1, h⟩ := Option.bind_eq_some_iff.mp h
    have := b64Value_lt h0
    have := b64Value_lt h1
    split at h
    next =>
      refine ⟨_, (Option.some.inj h).symm, ?_⟩
      rw [h0, h1, combine_one, toNat_ofNat_of_lt (by omega)]
      simp only [Option.some.injEq]
      omega
    next => cases h
  · rintro ⟨b0, rfl, h0, h1⟩
    have := b0.toNat_lt
    rw [combine_one] at h0 h1
    refine Option.bind_eq_some_iff.mpr ⟨_, h0, Option.bind_eq_some_iff.mpr ⟨_, h1,
      (if_pos (by omega)).trans ?_⟩⟩
    simp only [Option.some.injEq, List.cons.injEq, and_true, ← UInt8.toNat_inj, UInt8.toNat_ofNat']
    omega

theorem b64Digit_ne_pad (combined shift : Nat) : b64Digit combined shift ≠ '=' :=
  ne_pad_of_b64Value (b64Digit_eq_iff.mp rfl)

theorem encodeChunks_triple (b0 b1 b2 : UInt8) (rest : List UInt8) :
    encodeChunks (b0 :: b1 :: b2 :: rest) = encodeChunks [b0, b1, b2] ++ encodeChunks rest := by
  simp [encodeChunks]

/-- The decoder accepts exactly the encodings. -/
theorem base64Decode_eq_some {text : List Char} {input : List UInt8} :
    base64Decode text = some input ↔ text = encodeChunks input := by
  constructor
  · intro h
    fun_induction base64Decode text generalizing input with
    | case1 =>
      cases Option.some.inj h
      rfl
    | case2 c0 c1 =>
      obtain ⟨b0, rfl, henc⟩ := decodeOne_eq_some.mp h
      exact henc
    | case3 c0 c1 c2 hc2 =>
      obtain ⟨b0, b1, rfl, henc⟩ := decodeTwo_eq_some.mp h
      exact henc
    | case4 => cases h
    | case5 c0 c1 c2 c3 rest hc3 ih =>
      obtain ⟨bytes, hbytes, h⟩ := Option.bind_eq_some_iff.mp h
      obtain ⟨more, hmore, h⟩ := Option.bind_eq_some_iff.mp h
      obtain ⟨b0, b1, b2, rfl, henc⟩ := decodeQuantum_eq_some.mp hbytes
      cases Option.some.inj h
      rw [ih hmore]
      show [c0, c1, c2, c3] ++ encodeChunks more = encodeChunks (b0 :: b1 :: b2 :: more)
      rw [encodeChunks_triple, henc]
    | case6 => cases h
  · rintro rfl
    fun_induction encodeChunks input with
    | case1 => rfl
    | case2 b0 combined =>
      rw [base64Decode, if_pos rfl, if_pos rfl, if_pos rfl]
      exact decodeOne_eq_some.mpr ⟨b0, rfl, rfl⟩
    | case3 b0 b1 combined =>
      rw [base64Decode, if_pos rfl, if_pos rfl, if_neg (b64Digit_ne_pad _ _)]
      exact decodeTwo_eq_some.mpr ⟨b0, b1, rfl, rfl⟩
    | case4 b0 b1 b2 rest combined ih =>
      have hquantum : decodeQuantum (b64Digit combined 18) (b64Digit combined 12)
          (b64Digit combined 6) (b64Digit combined 0) = some [b0, b1, b2] :=
        decodeQuantum_eq_some.mpr ⟨b0, b1, b2, rfl, rfl⟩
      show base64Decode (_ :: _ :: _ :: _ :: encodeChunks rest) = _
      rw [base64Decode, if_neg (b64Digit_ne_pad _ _), hquantum, ih]
      rfl

theorem length_encodeChunks (input : List UInt8) :
    (encodeChunks input).length = 4 * ((input.length + 2) / 3) := by
  fun_induction encodeChunks input with
  | case1 => rfl
  | case2 => simp
  | case3 => simp
  | case4 b0 b1 b2 rest combined ih =>
    simp only [List.length_append, List.length_cons, List.length_nil, ih]
    omega

theorem b64Digit_mem (combined shift : Nat) : b64Digit combined shift ∈ b64Alphabet :=
  List.get_mem _ _

theorem encodeChunks_eq_append (input : List UInt8) :
    ∃ body pads, encodeChunks input = body ++ List.replicate pads '=' ∧ pads ≤ 2 ∧
      ∀ c ∈ body, c ∈ b64Alphabet := by
  fun_induction encodeChunks input with
  | case1 => exact ⟨[], 0, rfl, by omega, by simp⟩
  | case2 b0 combined =>
    exact ⟨[b64Digit combined 18, b64Digit combined 12], 2, rfl, by omega, by simp [b64Digit_mem]⟩
  | case3 b0 b1 combined =>
    exact ⟨[b64Digit combined 18, b64Digit combined 12, b64Digit combined 6], 1, rfl, by omega,
      by simp [b64Digit_mem]⟩
  | case4 b0 b1 b2 rest combined ih =>
    obtain ⟨body, pads, hbody, hpads, hmem⟩ := ih
    refine ⟨[b64Digit combined 18, b64Digit combined 12, b64Digit combined 6,
      b64Digit combined 0] ++ body, pads, by rw [hbody, List.append_assoc], hpads, ?_⟩
    intro c hc
    rcases List.mem_append.mp hc with hc | hc
    · simp only [List.mem_cons, List.not_mem_nil, or_false] at hc
      rcases hc with rfl | rfl | rfl | rfl
      all_goals exact b64Digit_mem _ _
    · exact hmem c hc

end Scproxy
