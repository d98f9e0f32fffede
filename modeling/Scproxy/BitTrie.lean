import Mathlib.Data.List.MinMax
import Mathlib.Data.List.Basic

namespace Scproxy

/-- A binary trie whose nodes may carry a payload. An absent child is `none`,
so that the root is always a node. -/
inductive BitTrie (α : Type) where
  | node (zero one : Option (BitTrie α)) (payload : Option α)

namespace BitTrie

variable {α : Type}

def empty : BitTrie α := .node none none none

def payload : BitTrie α → Option α
  | .node _ _ a => a

def child : BitTrie α → Bool → Option (BitTrie α)
  | .node zero _ _, false => zero
  | .node _ one _, true => one

def setChild : BitTrie α → Bool → BitTrie α → BitTrie α
  | .node _ one a, false, c => .node (some c) one a
  | .node zero _ a, true, c => .node zero (some c) a

/-- The first payload offered to a node stays there. -/
def offer : BitTrie α → α → BitTrie α
  | .node zero one a, x => .node zero one (a.or (some x))

def insertPath : List Bool → α → BitTrie α → BitTrie α
  | [], x, t => t.offer x
  | b :: path, x, t => t.setChild b (insertPath path x ((t.child b).getD empty))

/-- The payload stored exactly at a path. -/
def entry : List Bool → BitTrie α → Option α
  | [], t => t.payload
  | b :: path, t => (t.child b).bind (entry path)

/-- Walk along a key, remembering the last payload met. -/
def walk : List Bool → BitTrie α → Option α → Option α
  | [], _, best => best
  | b :: key, t, best =>
    match t.child b with
    | none => best
    | some c => walk key c (c.payload.or best)

@[simp] theorem child_empty (b : Bool) : (empty : BitTrie α).child b = none := by
  cases b <;> rfl

@[simp] theorem payload_empty : (empty : BitTrie α).payload = none := rfl

@[simp] theorem payload_offer (t : BitTrie α) (x : α) :
    (t.offer x).payload = t.payload.or (some x) := by
  cases t; rfl

@[simp] theorem child_offer (t : BitTrie α) (x : α) (b : Bool) :
    (t.offer x).child b = t.child b := by
  cases t; cases b <;> rfl

@[simp] theorem payload_setChild (t c : BitTrie α) (b : Bool) :
    (t.setChild b c).payload = t.payload := by
  cases t; cases b <;> rfl

theorem child_setChild (t c : BitTrie α) (b d : Bool) :
    (t.setChild b c).child d = if d = b then some c else t.child d := by
  cases t; cases b <;> cases d <;> rfl

theorem entry_empty (path : List Bool) : entry path (empty : BitTrie α) = none := by
  cases path <;> simp [entry]

theorem entry_insertPath (p q : List Bool) (x : α) (t : BitTrie α) :
    entry q (insertPath p x t) = if q = p then (entry q t).or (some x) else entry q t := by
  induction p generalizing q t with
  | nil =>
    cases q with
    | nil => simp [insertPath, entry]
    | cons d q => simp [insertPath, entry]
  | cons b p ih =>
    cases q with
    | nil => simp [insertPath, entry]
    | cons d q =>
      simp only [insertPath, entry, child_setChild, List.cons.injEq]
      by_cases hd : d = b
      · subst d
        simp only [if_true, Option.bind_some, ih, true_and]
        cases t.child b with
        | none => simp [entry_empty]
        | some c => simp
      · simp [hd]

/-- A walk that meets no payload returns what it started with. -/
theorem walk_eq_best {key : List Bool} {t : BitTrie α} {best : Option α}
    (h : ∀ k, k < key.length → entry (key.take (k + 1)) t = none) : walk key t best = best := by
  induction key generalizing t best with
  | nil => rfl
  | cons b key ih =>
    simp only [walk]
    cases hc : t.child b with
    | none => rfl
    | some c =>
      have h0 : c.payload = none := by simpa [entry, hc] using h 0 (by simp)
      simp only [h0, Option.none_or]
      apply ih
      intro k hk
      simpa [entry, hc] using h (k + 1) (by simpa using hk)

/-- The deepest payload along the key decides the walk. -/
theorem walk_eq_deepest {key : List Bool} {t : BitTrie α} {best : Option α} {k : Nat} {x : α}
    (hk : k < key.length) (hx : entry (key.take (k + 1)) t = some x)
    (deeper : ∀ j, k < j → j < key.length → entry (key.take (j + 1)) t = none) :
    walk key t best = some x := by
  induction key generalizing t best k with
  | nil => simp at hk
  | cons b key ih =>
    simp only [List.take_succ_cons, entry] at hx
    obtain ⟨c, hc, hx⟩ := Option.bind_eq_some_iff.mp hx
    simp only [walk, hc]
    cases k with
    | zero =>
      have hp : c.payload = some x := by simpa [entry] using hx
      rw [hp, Option.some_or]
      apply walk_eq_best
      intro j hj
      simpa [entry, hc] using deeper (j + 1) (by omega) (by simpa using hj)
    | succ k =>
      apply ih (by simpa using hk) hx
      intro j hj hl
      simpa [entry, hc] using deeper (j + 1) (by omega) (by simpa using hl)

/-- The payload of the longest stored prefix of the key. -/
def get (key : List Bool) (t : BitTrie α) : Option α := walk key t t.payload

theorem get_eq_none {key : List Bool} {t : BitTrie α}
    (h : ∀ p, p <+: key → entry p t = none) : get key t = none := by
  have h0 : t.payload = none := h [] List.nil_prefix
  rw [get, h0]
  exact walk_eq_best fun k _ => h _ (List.take_prefix _ _)

theorem get_eq_deepest {key p : List Bool} {t : BitTrie α} {x : α} (hp : p <+: key)
    (hx : entry p t = some x)
    (deeper : ∀ q, q <+: key → p.length < q.length → entry q t = none) :
    get key t = some x := by
  have hlen := hp.length_le
  have htake := List.prefix_iff_eq_take.mp hp
  have below : ∀ j, p.length ≤ j → j < key.length → entry (key.take (j + 1)) t = none := by
    intro j hj hl
    exact deeper _ (List.take_prefix _ _) (by simp only [List.length_take]; omega)
  cases hpl : p.length with
  | zero =>
    have hnil : p = [] := List.length_eq_zero_iff.mp hpl
    subst p
    have h0 : t.payload = some x := hx
    rw [get, h0]
    exact walk_eq_best fun j hj => below j (by simp) hj
  | succ k =>
    rw [hpl] at htake
    rw [htake] at hx
    exact walk_eq_deepest (by omega) hx fun j hj hl => below j (by omega) hl

section Build

variable {ρ : Type} (path : ρ → List Bool) (load : ρ → α)

/-- Insert rules in order, each at its own path with its own payload. -/
def build (rules : List ρ) : BitTrie α :=
  rules.foldl (fun t r => insertPath (path r) (load r) t) empty

theorem entry_foldl (rules : List ρ) (t : BitTrie α) (q : List Bool) :
    entry q (rules.foldl (fun t r => insertPath (path r) (load r) t) t) =
      (entry q t).or ((rules.find? fun r => path r = q).map load) := by
  induction rules generalizing t with
  | nil => simp
  | cons r rules ih =>
    simp only [List.foldl_cons, ih, entry_insertPath, List.find?_cons]
    by_cases hq : q = path r
    · subst q
      cases entry (path r) t <;> simp
    · have hr : ¬path r = q := fun h => hq h.symm
      simp [hq, hr]

theorem entry_build (rules : List ρ) (q : List Bool) :
    entry q (build path load rules) = (rules.find? fun r => path r = q).map load := by
  simp [build, entry_foldl, entry_empty]

/-- `argmax` already picks the first of the elements that share its key. -/
theorem find?_argmax {β γ : Type} [DecidableEq γ] {l : List β} {f : β → Nat} {g : β → γ} {m : β}
    (hg : ∀ a b, g a = g b → f a = f b) (h : l.argmax f = some m) :
    l.find? (fun a => g a = g m) = some m := by
  classical
  obtain ⟨hm, _, hfirst⟩ := List.mem_argmax_iff.mp (Option.mem_def.mpr h)
  have hsome : (l.find? fun a => g a = g m).isSome := by
    rw [List.find?_isSome]
    exact ⟨m, hm, by simp⟩
  obtain ⟨r, hr⟩ := Option.isSome_iff_exists.mp hsome
  rw [hr]
  obtain ⟨hrm, before, after, hsplit, hbefore⟩ := List.find?_eq_some_iff_append.mp hr
  have hrm : g r = g m := by simpa using hrm
  have hidx := hfirst r (by rw [hsplit]; simp) (hg r m hrm).ge
  have hmb : m ∉ before := fun h => by simpa using hbefore m h
  have hrb : r ∉ before := fun h => by simpa [hrm] using hbefore r h
  rw [hsplit, List.idxOf_append_of_notMem hmb, List.idxOf_append_of_notMem hrb,
    List.idxOf_cons_self] at hidx
  by_cases he : r = m
  · rw [he]
  · rw [List.idxOf_cons_ne _ he] at hidx
    omega

theorem find?_longest {rules : List ρ} {key : List Bool} {m : ρ}
    (h : (rules.filter fun r => path r <+: key).argmax (fun r => (path r).length) = some m) :
    rules.find? (fun r => path r = path m) = some m := by
  have hmem := List.argmax_mem (Option.mem_def.mpr h)
  have hpre : path m <+: key := by simpa using (List.mem_filter.mp hmem).2
  rw [← find?_argmax (g := path) (fun a b hab => by rw [hab]) h, List.find?_filter]
  congr 1
  funext r
  by_cases he : path r = path m
  · simp [he, hpre]
  · simp [he]

theorem entry_build_eq_none {rules : List ρ} {p : List Bool} (h : ∀ r ∈ rules, path r ≠ p) :
    entry p (build path load rules) = none := by
  rw [entry_build, Option.map_eq_none_iff, List.find?_eq_none]
  intro r hr he
  exact h r hr (by simpa using he)

/-- Longest prefix first, then insertion order: the trie answers with the
first among the longest of the rules whose path is a prefix of the key. -/
theorem get_build (rules : List ρ) (key : List Bool) :
    get key (build path load rules) =
      ((rules.filter fun r => path r <+: key).argmax fun r => (path r).length).map load := by
  cases hm : (rules.filter fun r => path r <+: key).argmax fun r => (path r).length with
  | none =>
    have hnil := List.argmax_eq_none.mp hm
    refine get_eq_none fun p hp => entry_build_eq_none path load ?_
    intro r hr hrp
    have hmem : r ∈ rules.filter fun r => path r <+: key :=
      List.mem_filter.mpr ⟨hr, by simpa [hrp] using hp⟩
    rw [hnil] at hmem
    simp at hmem
  | some m =>
    have hmem := List.argmax_mem (Option.mem_def.mpr hm)
    have hpre : path m <+: key := by simpa using (List.mem_filter.mp hmem).2
    refine get_eq_deepest hpre ?_ ?_
    · rw [entry_build, find?_longest path hm, Option.map_some]
    · intro q hq hlt
      apply entry_build_eq_none path load
      intro r hr hrq
      have hle := List.le_of_mem_argmax (List.mem_filter.mpr ⟨hr, by simpa [hrq] using hq⟩)
        (Option.mem_def.mpr hm)
      rw [hrq] at hle
      omega

end Build

end BitTrie

end Scproxy
