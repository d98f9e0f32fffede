import Mathlib.Data.List.Basic

namespace Scproxy

def asBytes (s : String) : List UInt8 := s.toUTF8.data.toList

/-- UTF-8 validation as `str::from_utf8` does it, with the error dropped. -/
def fromUtf8 (bytes : List UInt8) : Option String := String.fromUTF8? bytes.toByteArray

/-- The parts before and after the first occurrence of a character. -/
def splitOnce (c : Char) (s : String) : Option (String × String) :=
  if c ∈ s.toList then
    some (String.ofList (s.toList.takeWhile (· != c)),
      String.ofList (s.toList.dropWhile (· != c)).tail)
  else none

/-- The parts before and after the last occurrence of a character. -/
def rsplitOnce (c : Char) (s : String) : Option (String × String) :=
  if c ∈ s.toList then
    some (String.ofList (s.toList.reverse.dropWhile (· != c)).tail.reverse,
      String.ofList (s.toList.reverse.takeWhile (· != c)).reverse)
  else none

def stripPrefix (head s : String) : Option String :=
  if head.toList <+: s.toList then some (String.ofList (s.toList.drop head.toList.length)) else none

/-- `str::split` on a character: the empty string has one empty part. -/
def splitChar (c : Char) (s : String) : List String := (s.toList.splitOn c).map String.ofList

def joinWith (c : Char) (parts : List String) : String :=
  String.ofList ([c].intercalate (parts.map String.toList))

/-- The Unicode White_Space property, which `char::is_whitespace` tests. -/
def isWhitespace (c : Char) : Bool :=
  let n := c.toNat
  (9 ≤ n && n ≤ 13) || n = 0x20 || n = 0x85 || n = 0xA0 || n = 0x1680 ||
    (0x2000 ≤ n && n ≤ 0x200A) || n = 0x2028 || n = 0x2029 || n = 0x202F || n = 0x205F || n = 0x3000

/-- `str::split_whitespace`. -/
def splitWhitespace (s : String) : List String :=
  ((s.toList.splitOnP isWhitespace).filter (· ≠ [])).map String.ofList

theorem asBytes_eq_flatMap (s : String) : asBytes s = s.toList.flatMap String.utf8EncodeChar := by
  have h := String.utf8Encode_toList (b := s)
  simp only [asBytes, String.toUTF8_eq_toByteArray, ← h, List.utf8Encode]
  simp

@[simp] theorem asBytes_append (s t : String) : asBytes (s ++ t) = asBytes s ++ asBytes t := by
  simp [asBytes]

@[simp] theorem asBytes_empty : asBytes "" = [] := rfl

theorem mem_utf8EncodeChar_ascii {b : UInt8} {c : Char} (hb : b.toNat < 128)
    (h : b ∈ String.utf8EncodeChar c) : c.toNat = b.toNat := by
  have hv : c.val.toNat < 2 ^ 32 := c.val.toNat_lt
  by_cases hc : c.val.toNat ≤ 127
  · simp only [String.utf8EncodeChar, if_pos hc, List.mem_singleton] at h
    rw [h, UInt8.toNat_ofNat']
    show c.val.toNat = _
    omega
  · simp only [String.utf8EncodeChar, if_neg hc] at h
    exfalso
    split at h
    next =>
      simp only [List.mem_cons, List.not_mem_nil, or_false] at h
      rcases h with rfl | rfl
      all_goals
        rw [UInt8.toNat_ofNat'] at hb
        omega
    next =>
      split at h
      next =>
        simp only [List.mem_cons, List.not_mem_nil, or_false] at h
        rcases h with rfl | rfl | rfl
        all_goals
          rw [UInt8.toNat_ofNat'] at hb
          omega
      next =>
        simp only [List.mem_cons, List.not_mem_nil, or_false] at h
        rcases h with rfl | rfl | rfl | rfl
        all_goals
          rw [UInt8.toNat_ofNat'] at hb
          omega

theorem mem_toList_of_mem_asBytes {b : UInt8} {s : String} (hb : b.toNat < 128)
    (h : b ∈ asBytes s) : ∃ c ∈ s.toList, c.toNat = b.toNat := by
  rw [asBytes_eq_flatMap] at h
  obtain ⟨c, hc, hbc⟩ := List.mem_flatMap.mp h
  exact ⟨c, hc, mem_utf8EncodeChar_ascii hb hbc⟩

theorem asBytes_injective : Function.Injective asBytes := by
  intro s t h
  apply String.toByteArray_inj.mp
  apply ByteArray.ext
  apply Array.toList_inj.mp
  simpa [asBytes] using h

theorem fromUtf8_eq_some {bytes : List UInt8} {s : String} :
    fromUtf8 bytes = some s ↔ asBytes s = bytes := by
  unfold fromUtf8 String.fromUTF8?
  constructor
  · intro h
    split at h
    next hv =>
      cases Option.some.inj h
      simp [asBytes, String.fromUTF8]
    next => simp at h
  · intro h
    have hb : bytes.toByteArray = s.toByteArray := by
      subst bytes
      apply ByteArray.ext
      simp [asBytes]
    rw [hb, dif_pos s.isValidUTF8]
    rfl

@[simp] theorem fromUtf8_asBytes (s : String) : fromUtf8 (asBytes s) = some s :=
  fromUtf8_eq_some.mpr rfl

theorem takeWhile_append_of_not_mem {c : Char} {a b : List Char} (h : c ∉ a) :
    (a ++ c :: b).takeWhile (· != c) = a ∧ (a ++ c :: b).dropWhile (· != c) = c :: b := by
  have hpos : ∀ x ∈ a, (x != c) = true := fun x hx => bne_iff_ne.mpr fun heq => h (heq ▸ hx)
  rw [List.takeWhile_append_of_pos hpos, List.dropWhile_append_of_pos hpos]
  simp

theorem splitOnce_eq_some {c : Char} {s a b : String} :
    splitOnce c s = some (a, b) ↔ s.toList = a.toList ++ c :: b.toList ∧ c ∉ a.toList := by
  unfold splitOnce
  constructor
  · intro h
    split at h
    next hc =>
      obtain ⟨before, after, hl, hbefore⟩ := List.eq_append_cons_of_mem hc
      obtain ⟨htake, hdrop⟩ := takeWhile_append_of_not_mem (b := after) hbefore
      rw [hl, htake, hdrop] at h
      cases Option.some.inj h
      simpa using ⟨hl, hbefore⟩
    next => cases h
  · rintro ⟨hl, ha⟩
    obtain ⟨htake, hdrop⟩ := takeWhile_append_of_not_mem (b := b.toList) ha
    rw [hl, htake, hdrop, if_pos (by simp)]
    simp

theorem splitOnce_eq_none {c : Char} {s : String} : splitOnce c s = none ↔ c ∉ s.toList := by
  simp [splitOnce]

/-- The last occurrence is the first one of the reversed text. -/
theorem rsplitOnce_eq_map (c : Char) (s : String) :
    rsplitOnce c s = (splitOnce c (String.ofList s.toList.reverse)).map fun parts =>
      (String.ofList parts.2.toList.reverse, String.ofList parts.1.toList.reverse) := by
  simp only [rsplitOnce, splitOnce, String.toList_ofList, List.mem_reverse]
  split
  next => simp
  next => rfl

theorem rsplitOnce_eq_some {c : Char} {s a b : String} :
    rsplitOnce c s = some (a, b) ↔ s.toList = a.toList ++ c :: b.toList ∧ c ∉ b.toList := by
  rw [rsplitOnce_eq_map, Option.map_eq_some_iff]
  constructor
  · rintro ⟨⟨first, second⟩, hsplit, heq⟩
    obtain ⟨hl, hc⟩ := splitOnce_eq_some.mp hsplit
    cases heq
    have hs := congrArg List.reverse hl
    simp only [String.toList_ofList, List.reverse_reverse] at hs
    simpa [hs] using hc
  · rintro ⟨hl, hc⟩
    refine ⟨(String.ofList b.toList.reverse, String.ofList a.toList.reverse), ?_, by simp⟩
    rw [splitOnce_eq_some, String.toList_ofList, hl]
    simpa using hc

theorem rsplitOnce_eq_none {c : Char} {s : String} : rsplitOnce c s = none ↔ c ∉ s.toList := by
  simp [rsplitOnce]

theorem stripPrefix_eq_some {head s rest : String} :
    stripPrefix head s = some rest ↔ s = head ++ rest := by
  unfold stripPrefix
  constructor
  · intro h
    split at h
    next hprefix =>
      obtain ⟨tail, htail⟩ := hprefix
      rw [← htail, List.drop_left] at h
      cases Option.some.inj h
      rw [← String.toList_inj, ← htail]
      simp
    next => cases h
  · rintro rfl
    simp

end Scproxy
