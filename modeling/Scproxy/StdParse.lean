import Scproxy.Net

namespace Scproxy

/-- `char::to_digit` for radix 10 and 16. -/
def toDigit (radix : Nat) (c : Char) : Option Nat :=
  let digit :=
    if '0' ≤ c ∧ c ≤ '9' then some (c.toNat - '0'.toNat)
    else if 'a' ≤ c ∧ c ≤ 'f' then some (c.toNat - 'a'.toNat + 10)
    else if 'A' ≤ c ∧ c ≤ 'F' then some (c.toNat - 'A'.toNat + 10)
    else none
  digit.filter (· < radix)

/-- `FromStr` of the unsigned integer types: an optional plus sign, leading
zeros allowed, and the error found first decides the message. -/
def parseUnsigned (limit : Nat) (s : String) : Except String Nat :=
  match s.toList with
  | [] => .error "cannot parse integer from empty string"
  | ['+'] => .error "invalid digit found in string"
  | '+' :: digits => accumulate 0 digits
  | digits => accumulate 0 digits
where
  accumulate : Nat → List Char → Except String Nat
    | acc, [] => .ok acc
    | acc, c :: rest =>
      match toDigit 10 c with
      | none => .error "invalid digit found in string"
      | some d =>
        if limit < acc * 10 + d then .error "number too large to fit in target type"
        else accumulate (acc * 10 + d) rest

/-- `FromStr` of the signed integer types, by their largest value. -/
def parseSigned (largest : Nat) (s : String) : Except String Int :=
  match s.toList with
  | [] => .error "cannot parse integer from empty string"
  | ['+'] | ['-'] => .error "invalid digit found in string"
  | '+' :: digits => (parseUnsigned.accumulate largest 0 digits).map Int.ofNat
  | '-' :: digits =>
    match parseUnsigned.accumulate (largest + 1) 0 digits with
    | .ok n => .ok (-n)
    | .error "number too large to fit in target type" =>
      .error "number too small to fit in target type"
    | .error message => .error message
  | digits => (parseUnsigned.accumulate largest 0 digits).map Int.ofNat

/-- The value of decimal digits read after `acc`. -/
def decimalFrom (acc : Nat) (digits : List Char) : Nat :=
  digits.foldl (fun acc c => acc * 10 + (c.toNat - '0'.toNat)) acc

/-- The texts that `FromStr` of an unsigned type with this limit accepts. -/
def IsUnsigned (limit : Nat) (s : String) (n : Nat) : Prop :=
  ∃ digits, digits ≠ [] ∧ (∀ c ∈ digits, c.isDigit = true) ∧
    (s.toList = digits ∨ s.toList = '+' :: digits) ∧ decimalFrom 0 digits = n ∧ n ≤ limit

theorem toDigit_ten_eq_some {c : Char} {d : Nat} :
    toDigit 10 c = some d ↔ c.isDigit = true ∧ d = c.toNat - '0'.toNat := by
  have hdigit : c.isDigit = true ↔ '0' ≤ c ∧ c ≤ '9' := by
    simp only [Char.isDigit, Bool.and_eq_true, decide_eq_true_eq]
    exact Iff.rfl
  unfold toDigit
  rw [hdigit]
  by_cases hc : '0' ≤ c ∧ c ≤ '9'
  · have hle : c.toNat ≤ '9'.toNat := hc.2
    have hlt : c.toNat - '0'.toNat < 10 := by
      have : '9'.toNat = 57 := rfl
      have : '0'.toNat = 48 := rfl
      omega
    rw [if_pos hc]
    simp only [Option.filter_some, hlt, decide_true, ↓reduceIte, Option.some.injEq, hc, true_and]
    exact eq_comm
  · rw [if_neg hc]
    simp only [hc, false_and, iff_false]
    intro h
    have hfilter := Option.filter_eq_some_iff.mp h
    have hlt : d < 10 := by simpa using hfilter.2
    have hsome := hfilter.1
    split at hsome
    · cases hsome
      omega
    · split at hsome
      · cases hsome
        omega
      · cases hsome

theorem le_decimalFrom (acc : Nat) (digits : List Char) : acc ≤ decimalFrom acc digits := by
  induction digits generalizing acc with
  | nil => exact Nat.le_refl _
  | cons c digits ih =>
    have := ih (acc * 10 + (c.toNat - '0'.toNat))
    exact Nat.le_trans (by omega) this

theorem accumulate_eq_ok {limit acc n : Nat} {digits : List Char} (hacc : acc ≤ limit) :
    parseUnsigned.accumulate limit acc digits = .ok n ↔
      (∀ c ∈ digits, c.isDigit = true) ∧ decimalFrom acc digits = n ∧ n ≤ limit := by
  induction digits generalizing acc with
  | nil =>
    simp only [parseUnsigned.accumulate, Except.ok.injEq, decimalFrom, List.foldl_nil]
    constructor
    · rintro rfl
      exact ⟨by simp, rfl, hacc⟩
    · exact fun h => h.2.1
  | cons c digits ih =>
    rw [parseUnsigned.accumulate]
    cases hd : toDigit 10 c with
    | none =>
      have hc : ¬ c.isDigit = true := fun hc => by
        rw [toDigit_ten_eq_some.mpr ⟨hc, rfl⟩] at hd
        cases hd
      simp [hc]
    | some d =>
      obtain ⟨hc, rfl⟩ := toDigit_ten_eq_some.mp hd
      have hle := le_decimalFrom (acc * 10 + (c.toNat - '0'.toNat)) digits
      have hcons : decimalFrom acc (c :: digits) =
        decimalFrom (acc * 10 + (c.toNat - '0'.toNat)) digits := rfl
      simp only [List.forall_mem_cons, hc, true_and, hcons]
      split
      next hlimit =>
        constructor
        · intro h
          cases h
        · intro h
          omega
      next hlimit => exact ih (by omega)

theorem parseUnsigned_eq_ok {limit n : Nat} {s : String} :
    parseUnsigned limit s = .ok n ↔ IsUnsigned limit s n := by
  have hplus : '+'.isDigit = false := rfl
  unfold parseUnsigned IsUnsigned
  split
  next hs => simp [hs]
  next hs =>
    simp only [hs, reduceCtorEq, false_iff]
    rintro ⟨digits, hne, hdigits, hd | hd, _⟩
    · exact absurd (hdigits '+' (by simp [← hd])) (by simp [hplus])
    · exact hne (by simpa using hd.symm)
  next digits hne hs =>
    rw [accumulate_eq_ok (Nat.zero_le _)]
    constructor
    · rintro ⟨hdigits, hvalue, hn⟩
      exact ⟨digits, by simpa using hne, hdigits, Or.inr hs, hvalue, hn⟩
    · rintro ⟨digits', _, hdigits, hd | hd, hvalue, hn⟩
      · exact absurd (hdigits '+' (by simp [← hd, hs])) (by simp [hplus])
      · rw [hs] at hd
        cases List.tail_eq_of_cons_eq hd
        exact ⟨hdigits, hvalue, hn⟩
  next hnil hplus' hcons =>
    rw [accumulate_eq_ok (Nat.zero_le _)]
    constructor
    · rintro ⟨hdigits, hvalue, hn⟩
      exact ⟨s.toList, hnil, hdigits, Or.inl rfl, hvalue, hn⟩
    · rintro ⟨digits, _, hdigits, hd | hd, hvalue, hn⟩
      · rw [hd]
        exact ⟨hdigits, hvalue, hn⟩
      · exact absurd hd (hcons digits)

theorem decimalFrom_eq_ofDigitChars (acc : Nat) (digits : List Char) :
    decimalFrom acc digits = Nat.ofDigitChars 10 digits acc := by
  rw [Nat.ofDigitChars_eq_foldl, decimalFrom]
  congr 1
  funext n c
  rw [Nat.mul_comm]

/-- The decimal digits of a number are read back. -/
theorem accumulate_toDigits {limit n : Nat} (h : n ≤ limit) :
    parseUnsigned.accumulate limit 0 (Nat.toDigits 10 n) = .ok n := by
  refine (accumulate_eq_ok (Nat.zero_le _)).mpr ⟨?_, ?_, h⟩
  · intro c hc
    exact Nat.isDigit_of_mem_toDigits (by decide) (by decide) hc
  · rw [decimalFrom_eq_ofDigitChars, Nat.ofDigitChars_ten_toDigits]

theorem toList_toString_ofNat (m : Nat) : (toString (Int.ofNat m)).toList = Nat.toDigits 10 m := by
  rw [show toString (Int.ofNat m) = Nat.repr m from rfl, Nat.repr, String.toList_ofList]

theorem toList_toString_negSucc (m : Nat) :
    (toString (Int.negSucc m)).toList = '-' :: Nat.toDigits 10 (m + 1) := by
  rw [show toString (Int.negSucc m) = "-" ++ Nat.repr (m + 1) from rfl, String.toList_append]
  simp only [Nat.repr, String.toList_ofList]
  rfl

theorem toDigits_ne_cons {n : Nat} {c : Char} {rest : List Char} (hc : c.isDigit = false) :
    Nat.toDigits 10 n ≠ c :: rest := by
  intro h
  have hmem : c ∈ Nat.toDigits 10 n := h ▸ List.mem_cons_self ..
  have hdigit := Nat.isDigit_of_mem_toDigits (by decide) (by decide) hmem
  rw [hc] at hdigit
  cases hdigit

theorem parseSigned_toString {largest : Nat} {n : Int} (hlow : -(largest + 1 : Int) ≤ n)
    (hhigh : n ≤ largest) : parseSigned largest (toString n) = .ok n := by
  unfold parseSigned
  cases n with
  | ofNat m =>
    have hm : m ≤ largest := Int.ofNat_le.mp hhigh
    rw [toList_toString_ofNat]
    split
    next h => exact absurd h (by simp)
    next h => exact absurd h (toDigits_ne_cons rfl)
    next h => exact absurd h (toDigits_ne_cons rfl)
    next h => exact absurd h (toDigits_ne_cons rfl)
    next h => exact absurd h (toDigits_ne_cons rfl)
    next =>
      rw [accumulate_toDigits hm]
      rfl
  | negSucc m =>
    have hm : m + 1 ≤ largest + 1 := by omega
    rw [toList_toString_negSucc]
    split
    next h => cases h
    next h => cases h
    next h => exact absurd (List.cons.inj h).2 (by simp)
    next h => cases h
    next h =>
      cases h
      rw [accumulate_toDigits hm]
      rfl
    next h => exact absurd rfl (h _)

theorem isWhitespace_of_isDigit {c : Char} (h : c.isDigit = true) : isWhitespace c = false := by
  simp only [Char.isDigit, Bool.and_eq_true, decide_eq_true_eq] at h
  have hlow : 48 ≤ c.toNat := UInt32.le_iff_toNat_le.mp h.1
  have hhigh : c.toNat ≤ 57 := UInt32.le_iff_toNat_le.mp h.2
  simp only [isWhitespace, Bool.or_eq_false_iff, Bool.and_eq_false_iff, decide_eq_false_iff_not]
  omega

theorem isWhitespace_of_mem_toString {n : Int} {c : Char} (h : c ∈ (toString n).toList) :
    isWhitespace c = false := by
  have hdigits : ∀ m, c ∈ Nat.toDigits 10 m → isWhitespace c = false := fun m hmem =>
    isWhitespace_of_isDigit (Nat.isDigit_of_mem_toDigits (by decide) (by decide) hmem)
  cases n with
  | ofNat m =>
    rw [toList_toString_ofNat] at h
    exact hdigits m h
  | negSucc m =>
    rw [toList_toString_negSucc] at h
    rcases List.mem_cons.mp h with rfl | h
    · rfl
    · exact hdigits _ h

theorem toList_toString_ne_nil (n : Int) : (toString n).toList ≠ [] := by
  cases n with
  | ofNat m =>
    rw [toList_toString_ofNat]
    simp
  | negSucc m =>
    rw [toList_toString_negSucc]
    simp

/-- The number reader shared by the address parsers of the standard library. -/
def readNumber (radix : Nat) (maxDigits : Option Nat) (allowZeroPrefix : Bool) (limit : Nat)
    (input : List Char) : Option (Nat × List Char) :=
  let digits := input.takeWhile fun c => (toDigit radix c).isSome
  let value := digits.foldl (fun acc c => acc * radix + (toDigit radix c).getD 0) 0
  if digits = [] then none
  else if maxDigits.any (· < digits.length) then none
  else if !allowZeroPrefix && digits.head? == some '0' && 1 < digits.length then none
  else if limit < value then none
  else some (value, input.drop digits.length)

def readGivenChar (c : Char) : List Char → Option (List Char)
  | [] => none
  | d :: rest => if d = c then some rest else none

def readIpv4Addr (input : List Char) : Option (Ipv4Addr × List Char) := do
  let (a, rest) ← readNumber 10 (some 3) false 255 input
  let rest ← readGivenChar '.' rest
  let (b, rest) ← readNumber 10 (some 3) false 255 rest
  let rest ← readGivenChar '.' rest
  let (c, rest) ← readNumber 10 (some 3) false 255 rest
  let rest ← readGivenChar '.' rest
  let (d, rest) ← readNumber 10 (some 3) false 255 rest
  pure (.new (.ofNat a) (.ofNat b) (.ofNat c) (.ofNat d), rest)

def parseIpv4Addr (s : String) : Except String Ipv4Addr :=
  match readIpv4Addr s.toList with
  | some (addr, []) =>
    if 15 < (asBytes s).length then .error "invalid IPv4 address syntax" else .ok addr
  | _ => .error "invalid IPv4 address syntax"

/-- Groups of an IPv6 address, each but the first after a colon, with an
embedded IPv4 address allowed where two groups are left. Returns the groups
read, whether they end in an IPv4 address, and the remaining input. -/
def readGroups (limit : Nat) : Nat → List UInt16 → List Char → List UInt16 × Bool × List Char
  | 0, groups, input => (groups, false, input)
  | left + 1, groups, input =>
    let afterSeparator := if groups = [] then some input else readGivenChar ':' input
    let ipv4 := if groups.length < limit - 1 then afterSeparator.bind readIpv4Addr else none
    match ipv4 with
    | some (addr, rest) =>
      (groups ++ [UInt16.ofNat (addr.bits.toNat / 2 ^ 16), UInt16.ofNat (addr.bits.toNat % 2 ^ 16)],
        true, rest)
    | none =>
      match afterSeparator.bind (readNumber 16 (some 4) true 0xFFFF) with
      | some (group, rest) => readGroups limit left (groups ++ [UInt16.ofNat group]) rest
      | none => (groups, false, input)

/-- The remaining input after an IPv6 address; its value is not used here. -/
def readIpv6Addr (input : List Char) : Option (List Char) :=
  let (head, headIpv4, rest) := readGroups 8 8 [] input
  if head.length = 8 then some rest
  else if headIpv4 then none
  else do
    let rest ← readGivenChar ':' rest
    let rest ← readGivenChar ':' rest
    let limit := 8 - (head.length + 1)
    pure (readGroups limit limit [] rest).2.2

def readPort (input : List Char) : Option (List Char) := do
  let rest ← readGivenChar ':' input
  let (_, rest) ← readNumber 10 none true 0xFFFF rest
  pure rest

def readScopeId (input : List Char) : Option (List Char) := do
  let rest ← readGivenChar '%' input
  let (_, rest) ← readNumber 10 none true 0xFFFFFFFF rest
  pure rest

def readSocketAddrV4 (input : List Char) : Option (List Char) := do
  let (_, rest) ← readIpv4Addr input
  readPort rest

def readSocketAddrV6 (input : List Char) : Option (List Char) := do
  let rest ← readGivenChar '[' input
  let rest ← readIpv6Addr rest
  let rest := (readScopeId rest).getD rest
  let rest ← readGivenChar ']' rest
  readPort rest

/-- Whether a text parses as `SocketAddr`. -/
def isSocketAddr (s : String) : Bool :=
  (readSocketAddrV4 s.toList).or (readSocketAddrV6 s.toList) == some []

example : ["127.0.0.1:80", "[::1]:8080", "[fe80::1%3]:53", "[::ffff:1.2.3.4]:1"].all isSocketAddr ∧
    ["127.0.0.01:80", "::1:80", "host:80", "1.2.3.4:65536", "[1::2::3]:4"].all
      (fun s => !isSocketAddr s) := by decide

end Scproxy
