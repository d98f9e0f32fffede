import Mathlib.Data.Nat.Bitwise
import Scproxy.Seccomp

namespace Scproxy

open Bpf

namespace Seccomp

/-- What the filter is for: the verdict on each call. -/
def verdict (arch : Arch) (data : Data) : UInt32 :=
  let nr := data.nr.toUInt32
  if data.arch ≠ arch.nativeArch then retKillProcess
  else if nr.toNat.testBit 30 ∨ nr ∈ arch.ioUring then retErrno ||| Libc.enosys
  else if nr = arch.number .getsockopt then
    if Data.low (data.args 1) = Libc.solSocket ∧ Data.low (data.args 2) = Libc.soPeername then
      retUserNotif
    else retAllow
  else if nr = arch.number .sendto then
    if Data.low (data.args 3) &&& (Libc.msgOob ||| Libc.msgFastopen) ≠ 0 ∨ data.args 4 ≠ 0 then
      retUserNotif
    else retAllow
  else if nr = arch.number .recvfrom then
    if Data.low (data.args 3) &&& Libc.msgOob ≠ 0 ∨ data.args 4 ≠ 0 then retUserNotif
    else retAllow
  else if nr ∈ arch.notified then retUserNotif
  else retAllow

end Seccomp

open Seccomp

theorem eq_zero_iff_halves (value : UInt64) :
    value = 0 ↔ Data.low value = 0 ∧ Data.high value = 0 := by
  rw [← UInt64.toNat_inj, ← UInt32.toNat_inj, ← UInt32.toNat_inj]
  have hlt := value.toNat_lt
  have hlow : (Data.low value).toNat = value.toNat % 2 ^ 32 := by simp [Data.low]
  have hhigh : (Data.high value).toNat = value.toNat / 2 ^ 32 := by
    simp [Data.high, Nat.shiftRight_eq_div_pow]
    omega
  rw [hlow, hhigh]
  simp only [UInt64.toNat_zero, UInt32.toNat_zero]
  omega

theorem and_bit30_ne_zero_iff (n : UInt32) : n &&& 0x40000000 ≠ 0 ↔ n.toNat.testBit 30 := by
  have hmask : (n &&& 0x40000000).toNat = (n.toNat.testBit 30).toNat * 2 ^ 30 := by
    rw [UInt32.toNat_and]
    exact Nat.and_two_pow _ 30
  rw [ne_eq, ← UInt32.toNat_inj, hmask]
  cases n.toNat.testBit 30 with
  | false => simp
  | true => simp

theorem exec_peerNameCheck (arch : Arch) (data : Data) (nr : UInt32) (rest : List SockFilter) :
    exec data.word 0 (peerNameCheck arch ++ rest) nr =
      if nr = arch.number .getsockopt then
        some (if Data.low (data.args 1) = Libc.solSocket ∧ Data.low (data.args 2) = Libc.soPeername
          then retUserNotif else retAllow)
      else exec data.word 0 rest nr := by
  have hlevel : data.word (Data.offsetArgs + 8) = some (Data.low (data.args 1)) := rfl
  have hname : data.word (Data.offsetArgs + 16) = some (Data.low (data.args 2)) := rfl
  simp only [peerNameCheck, List.cons_append, List.nil_append]
  rw [exec_jeq]
  by_cases hnr : nr = arch.number .getsockopt
  · rw [if_pos hnr, if_pos hnr]
    show exec data.word 0 (statement load (Data.offsetArgs + 8) :: _) nr = _
    rw [exec_load hlevel, exec_jeq]
    by_cases h1 : Data.low (data.args 1) = Libc.solSocket
    · rw [if_pos h1]
      show exec data.word 0 (statement load (Data.offsetArgs + 16) :: _) _ = _
      rw [exec_load hname, exec_jeq]
      by_cases h2 : Data.low (data.args 2) = Libc.soPeername
      · rw [if_pos h2, if_pos ⟨h1, h2⟩]
        exact exec_ret _ _ _
      · rw [if_neg h2, if_neg (fun h => h2 h.2)]
        exact exec_ret _ _ _
    · rw [if_neg h1, if_neg (fun h => h1 h.1)]
      exact exec_ret _ _ _
  · rw [if_neg hnr, if_neg hnr]
    rfl

theorem exec_addressCheck (data : Data) (syscall flags nr : UInt32) (rest : List SockFilter) :
    exec data.word 0 (addressCheck syscall flags ++ rest) nr =
      if nr = syscall then
        some (if Data.low (data.args 3) &&& flags ≠ 0 ∨ data.args 4 ≠ 0
          then retUserNotif else retAllow)
      else exec data.word 0 rest nr := by
  have hflags : data.word (Data.offsetArgs + 3 * 8) = some (Data.low (data.args 3)) := rfl
  have hlow : data.word (Data.offsetArgs + 4 * 8) = some (Data.low (data.args 4)) := rfl
  have hhigh : data.word (Data.offsetArgs + 4 * 8 + 4) = some (Data.high (data.args 4)) := rfl
  have hzero := eq_zero_iff_halves (data.args 4)
  simp only [addressCheck, List.cons_append, List.nil_append]
  rw [exec_jeq]
  by_cases hnr : nr = syscall
  · rw [if_pos hnr, if_pos hnr]
    show exec data.word 0 (statement load (Data.offsetArgs + 3 * 8) :: _) nr = _
    rw [exec_load hflags, exec_jset]
    by_cases h3 : Data.low (data.args 3) &&& flags ≠ 0
    · rw [if_pos h3, if_pos (Or.inl h3)]
      exact exec_ret _ _ _
    · rw [if_neg h3]
      show exec data.word 0 (statement load (Data.offsetArgs + 4 * 8) :: _) _ = _
      rw [exec_load hlow, exec_jeq]
      by_cases h4 : Data.low (data.args 4) = 0
      · rw [if_pos h4]
        show exec data.word 0 (statement load (Data.offsetArgs + 4 * 8 + 4) :: _) _ = _
        rw [exec_load hhigh, exec_jeq]
        by_cases h5 : Data.high (data.args 4) = 0
        · rw [if_pos h5, if_neg (not_or.mpr ⟨h3, not_not.mpr (hzero.mpr ⟨h4, h5⟩)⟩)]
          exact exec_ret _ _ _
        · rw [if_neg h5, if_pos (Or.inr fun h => h5 (hzero.mp h).2)]
          exact exec_ret _ _ _
      · rw [if_neg h4, if_pos (Or.inr fun h => h4 (hzero.mp h).1)]
        exact exec_ret _ _ _
  · rw [if_neg hnr, if_neg hnr]
    rfl

theorem exec_header (arch : Arch) (data : Data) (acc : UInt32) (rest : List SockFilter) :
    exec data.word 0 (header arch ++ rest) acc =
      if data.arch ≠ arch.nativeArch then some retKillProcess
      else if data.nr.toUInt32.toNat.testBit 30 then some (retErrno ||| Libc.enosys)
      else exec data.word 0 rest data.nr.toUInt32 := by
  have harch : data.word Data.offsetArch = some data.arch := rfl
  have hnr : data.word Data.offsetNr = some data.nr.toUInt32 := rfl
  have hbit := and_bit30_ne_zero_iff data.nr.toUInt32
  simp only [header, List.cons_append, List.nil_append]
  rw [exec_load harch, exec_jeq]
  by_cases ha : data.arch = arch.nativeArch
  · rw [if_pos ha, if_neg (not_not.mpr ha)]
    show exec data.word 0 (statement load Data.offsetNr :: _) _ = _
    rw [exec_load hnr, exec_jset]
    by_cases h30 : data.nr.toUInt32 &&& 0x40000000 ≠ 0
    · rw [if_pos h30, if_pos (hbit.mp h30)]
      exact exec_ret _ _ _
    · rw [if_neg h30, if_neg (mt hbit.mpr h30)]
      rfl
  · rw [if_neg ha, if_pos ha]
    exact exec_ret _ _ _

theorem exec_filter (arch : Arch) (data : Data) (acc : UInt32) :
    exec data.word 0 (filter arch) acc = some (verdict arch data) := by
  unfold filter table verdict
  simp only [List.append_assoc]
  rw [exec_header, exec_table, exec_peerNameCheck, exec_addressCheck, exec_addressCheck,
    exec_table, exec_ret]
  simp only [← apply_ite some, ite_or]

theorem execute_filter (arch : Arch) (data : Data) :
    execute data.word (filter arch) = some (verdict arch data) ∧
    ∀ s, Reaches data.word (filter arch) ⟨0, 0⟩ s → s.pc < (filter arch).length := by
  have hrun : execute data.word (filter arch) = some (verdict arch data) := by
    rw [execute_eq_exec, exec_filter]
  exact ⟨hrun, fun s hs => run_reaches hrun hs⟩

end Scproxy
