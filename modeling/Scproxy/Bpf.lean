import Mathlib.Data.List.Basic
import Mathlib.Logic.Relation

namespace Scproxy.Bpf

/-- A classic BPF instruction, `struct sock_filter`. -/
structure SockFilter where
  code : UInt16
  jt : UInt8
  jf : UInt8
  k : UInt32

/-- `BPF_LD | BPF_W | BPF_ABS`. -/
def load : UInt16 := 0x20

/-- `BPF_JMP | BPF_JEQ | BPF_K`. -/
def jeq : UInt16 := 0x15

/-- `BPF_JMP | BPF_JSET | BPF_K`. -/
def jset : UInt16 := 0x45

/-- `BPF_RET | BPF_K`. -/
def ret : UInt16 := 0x06

def statement (code : UInt16) (k : UInt32) : SockFilter := ⟨code, 0, 0, k⟩

def jump (code : UInt16) (k : UInt32) (jt jf : UInt8) : SockFilter := ⟨code, jt, jf, k⟩

inductive Effect
  | next (skip : Nat) (acc : UInt32)
  | halt (value : UInt32)
  | fault

structure State where
  pc : Nat
  acc : UInt32

section Machine

variable (word : UInt32 → Option UInt32) (program : List SockFilter)

/-- What one instruction does, given the words it can load. -/
def effect (i : SockFilter) (acc : UInt32) : Effect :=
  if i.code = load then
    match word i.k with
    | some value => .next 0 value
    | none => .fault
  else if i.code = jeq then .next (if acc = i.k then i.jt else i.jf).toNat acc
  else if i.code = jset then .next (if acc &&& i.k ≠ 0 then i.jt else i.jf).toNat acc
  else if i.code = ret then .halt i.k
  else .fault

/-- The successor of a state; leaving the program is a fault. -/
def step (s : State) : Option (State ⊕ UInt32) :=
  match program[s.pc]? with
  | none => none
  | some i =>
    match effect word i s.acc with
    | .next skip acc => some (.inl ⟨s.pc + 1 + skip, acc⟩)
    | .halt value => some (.inr value)
    | .fault => none

def run : Nat → State → Option UInt32
  | 0, _ => none
  | fuel + 1, s =>
    match step word program s with
    | some (.inl next) => run fuel next
    | some (.inr value) => some value
    | none => none

/-- Every jump is forward, so a program halts within its own length. -/
def execute : Option UInt32 := run word program program.length ⟨0, 0⟩

def Reaches : State → State → Prop :=
  Relation.ReflTransGen fun s t => step word program s = some (.inl t)

/-- Execution of the instructions still ahead, the first `skip` of them jumped over. -/
def exec : Nat → List SockFilter → UInt32 → Option UInt32
  | _, [], _ => none
  | skip + 1, _ :: rest, acc => exec skip rest acc
  | 0, i :: rest, acc =>
    match effect word i acc with
    | .next skip acc => exec skip rest acc
    | .halt value => some value
    | .fault => none

end Machine

section Rules

variable {word : UInt32 → Option UInt32} {program : List SockFilter}

theorem exec_drop (skip : Nat) (rest : List SockFilter) (acc : UInt32) :
    exec word skip rest acc = exec word 0 (rest.drop skip) acc := by
  induction rest generalizing skip with
  | nil => simp [exec]
  | cons i rest ih =>
    cases skip with
    | zero => rfl
    | succ skip => exact ih skip

theorem effect_load {k value : UInt32} (acc : UInt32) (h : word k = some value) :
    effect word (statement load k) acc = .next 0 value := by
  show (match word k with | some value => Effect.next 0 value | none => .fault) = _
  rw [h]

theorem effect_jeq (k acc : UInt32) (jt jf : UInt8) :
    effect word (jump jeq k jt jf) acc = .next (if acc = k then jt else jf).toNat acc := rfl

theorem effect_jset (k acc : UInt32) (jt jf : UInt8) :
    effect word (jump jset k jt jf) acc = .next (if acc &&& k ≠ 0 then jt else jf).toNat acc := rfl

theorem effect_ret (k acc : UInt32) : effect word (statement ret k) acc = .halt k := rfl

theorem exec_load {k value acc : UInt32} {rest : List SockFilter} (h : word k = some value) :
    exec word 0 (statement load k :: rest) acc = exec word 0 rest value := by
  rw [exec, effect_load acc h]

theorem exec_jeq (k acc : UInt32) (jt jf : UInt8) (rest : List SockFilter) :
    exec word 0 (jump jeq k jt jf :: rest) acc =
      if acc = k then exec word 0 (rest.drop jt.toNat) acc
      else exec word 0 (rest.drop jf.toNat) acc := by
  rw [exec, effect_jeq]
  simp only
  rw [exec_drop]
  by_cases h : acc = k
  · rw [if_pos h, if_pos h]
  · rw [if_neg h, if_neg h]

theorem exec_jset (k acc : UInt32) (jt jf : UInt8) (rest : List SockFilter) :
    exec word 0 (jump jset k jt jf :: rest) acc =
      if acc &&& k ≠ 0 then exec word 0 (rest.drop jt.toNat) acc
      else exec word 0 (rest.drop jf.toNat) acc := by
  rw [exec, effect_jset]
  simp only
  rw [exec_drop]
  by_cases h : acc &&& k ≠ 0
  · rw [if_pos h, if_pos h]
  · rw [if_neg h, if_neg h]

theorem exec_ret (k acc : UInt32) (rest : List SockFilter) :
    exec word 0 (statement ret k :: rest) acc = some k := by
  rw [exec, effect_ret]

/-- A table of numbers that all return the same value. -/
theorem exec_table (numbers : List UInt32) (value acc : UInt32) (rest : List SockFilter) :
    exec word 0 (numbers.flatMap (fun n => [jump jeq n 0 1, statement ret value]) ++ rest) acc =
      if acc ∈ numbers then some value else exec word 0 rest acc := by
  induction numbers with
  | nil => simp
  | cons n numbers ih =>
    rw [List.flatMap_cons, List.append_assoc, List.cons_append, List.singleton_append, exec_jeq]
    by_cases h : acc = n
    · rw [if_pos h, if_pos (by simp [h])]
      exact exec_ret _ _ _
    · rw [if_neg h]
      refine ih.trans ?_
      simp [h]

theorem run_eq_exec {fuel : Nat} {s : State} (h : program.length ≤ s.pc + fuel) :
    run word program fuel s = exec word 0 (program.drop s.pc) s.acc := by
  induction fuel generalizing s with
  | zero =>
    rw [List.drop_eq_nil_of_le (show _ ≤ s.pc by omega)]
    rfl
  | succ fuel ih =>
    unfold run step
    cases hi : program[s.pc]? with
    | none =>
      rw [List.drop_eq_nil_of_le (List.getElem?_eq_none_iff.mp hi)]
      rfl
    | some i =>
      obtain ⟨hlt, rfl⟩ := List.getElem?_eq_some_iff.mp hi
      rw [List.drop_eq_getElem_cons hlt]
      unfold exec
      simp only
      cases effect word program[s.pc] s.acc with
      | next skip acc =>
        simp only
        have hnext := ih (s := ⟨s.pc + 1 + skip, acc⟩)
          (show _ ≤ s.pc + 1 + skip + fuel by omega)
        rw [hnext, exec_drop skip, List.drop_drop]
      | halt value => rfl
      | fault => rfl

theorem execute_eq_exec : execute word program = exec word 0 program 0 :=
  run_eq_exec (by simp)

theorem run_reaches {fuel : Nat} {s t : State} {value : UInt32}
    (h : run word program fuel s = some value) (hr : Reaches word program s t) :
    t.pc < program.length := by
  induction hr using Relation.ReflTransGen.head_induction_on generalizing fuel with
  | refl =>
    cases fuel with
    | zero => simp [run] at h
    | succ fuel =>
      by_contra hpc
      simp [run, step, List.getElem?_eq_none_iff.mpr (Nat.not_lt.mp hpc)] at h
  | head hstep _ ih =>
    cases fuel with
    | zero => simp [run] at h
    | succ fuel =>
      rw [run, hstep] at h
      exact ih h

end Rules

end Scproxy.Bpf
