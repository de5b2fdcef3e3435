import PlContainer.Common.Connectivity.Fifo
import PlContainer.Docker.CreateRequest
import PlContainer.Library.CInt
import Mathlib.Algebra.Order.BigOperators.Group.List

set_option autoImplicit false

/-! # The length of the request

`plc_docker_create_container` computes the size of the buffer for the body from the length of the
format string and of the longer texts. The words and numbers and the path of the control group are
left to what the conversions take in the format string and to 100 bytes more. That is always enough
for the words and numbers, but not for a path under a configured parent. -/

namespace PlContainer

open CInt Format Json

/-- The variable `createStringSize`, which is an `int`. -/
def createStringSizeInt (env : CreateEnv) (conf : RuntimeConfEntry) (volumeShare : List Char) : ℤ :=
  wrap32 (createStringSize env conf volumeShare)

section Length

variable (env : CreateEnv) (conf : RuntimeConfEntry) (backend : PlcBackendType)
  (volumeShare : List Char)

/-- The words and numbers, which the size does not count. -/
def uncounted : List (List Char) :=
  [boolText conf.useContainerLogging,
    boolText conf.useContainerLogging,
    decimal env.uid.toInt,
    decimal env.gid.toInt,
    decimal env.pid,
    boolText backend.connectsByTcp,
    boolText !conf.enableNetwork,
    exposedPorts backend,
    decimal (conf.memoryMb * 1024 * 1024),
    decimal conf.cpuShare,
    logDriver conf,
    decimal (env.segindex.setWidth 16).toInt,
    decimal (env.databaseId.setWidth 16).toInt,
    decimal (env.segindex.setWidth 16).toInt]

def uncountedLength : ℕ := ((uncounted env conf backend).map fun t => (utf8 t).length).sum

/-- The slack of 100 bytes and what the conversions take. -/
def slack : ℕ := 148

theorem slack_eq : slack = 100 + ((conversions createRequest).map String.utf8ByteSize).sum := by
  decide

/-- What is printed, against what is counted. -/
theorem length_formattedBody :
    (formattedBody env conf backend volumeShare).length + slack =
      createStringSize env conf volumeShare + (cgroupParent env conf backend).length
        + uncountedLength env conf backend := by
  have hcount : (createArgs utf8 (printedNames env conf backend) env conf backend volumeShare).length
      = (conversions createRequest).length := rfl
  have hlength := length_sprintf _ hcount
  rw [← formattedBody] at hlength
  simp only [createArgs, printedNames, List.map_cons, List.map_nil, List.sum_cons, List.sum_nil]
    at hlength
  simp only [slack_eq, createStringSize, uncountedLength, uncounted, List.map_cons, List.map_nil,
    List.sum_cons, List.sum_nil]
  omega

/-! ## The worst case -/

theorem length_boolText (b : Bool) : (utf8 (boolText b)).length ≤ 5 := by
  cases b <;> decide

theorem length_logDriver : (utf8 (logDriver conf)).length ≤ 8 := by
  rw [logDriver]
  cases conf.useContainerLogging <;> decide

theorem length_exposedPorts :
    (utf8 (exposedPorts backend)).length ≤ if backend.connectsByTcp then 33 else 0 := by
  rw [exposedPorts]
  cases backend.connectsByTcp <;> decide

theorem length_int16 (x : BitVec 32) : (utf8 (decimal (x.setWidth 16).toInt)).length ≤ 6 := by
  have hlo := BitVec.le_toInt (x.setWidth 16)
  have hhi := BitVec.toInt_lt (x := x.setWidth 16)
  exact length_decimal_le (by decide) (by omega)

theorem length_int {x : ℤ} (h : InRange x) : (utf8 (decimal x)).length ≤ 11 := by
  obtain ⟨hlo, hhi⟩ := h
  exact length_decimal_le (by decide) (by omega)

theorem inRange_toInt (x : BitVec 32) : InRange x.toInt := ⟨BitVec.le_toInt x, BitVec.toInt_lt⟩

theorem length_memory {x : ℤ} (h : InRange x) :
    (utf8 (decimal (x * 1024 * 1024))).length ≤ 17 := by
  obtain ⟨hlo, hhi⟩ := h
  exact length_decimal_le (by decide) (by omega)

/-- The words and numbers, argument by argument. -/
theorem uncountedLength_le (hpid : InRange env.pid) (hmemory : InRange conf.memoryMb)
    (hcpu : InRange conf.cpuShare) :
    uncountedLength env conf backend ≤ 107 + if backend.connectsByTcp then 33 else 0 := by
  have hbounds : List.Forall₂ (· ≤ ·)
      ((uncounted env conf backend).map fun t => (utf8 t).length)
      [5, 5, 11, 11, 11, 5, 5, if backend.connectsByTcp then 33 else 0, 17, 11, 8, 6, 6, 6] :=
    .cons (length_boolText _) <| .cons (length_boolText _) <|
    .cons (length_int (inRange_toInt _)) <| .cons (length_int (inRange_toInt _)) <|
    .cons (length_int hpid) <| .cons (length_boolText _) <| .cons (length_boolText _) <|
    .cons (length_exposedPorts _) <| .cons (length_memory hmemory) <| .cons (length_int hcpu) <|
    .cons (length_logDriver _) <| .cons (length_int16 _) <| .cons (length_int16 _) <|
    .cons (length_int16 _) .nil
  refine hbounds.sum_le_sum.trans ?_
  cases backend.connectsByTcp <;> decide

/-! ## The path of the control group -/

/-- The configured parent, if the path is made from it. -/
def configuredParent : Option CString :=
  match backend with
  | .docker _ => if conf.resgroupOid = 0 then none else env.resourceGroupParent
  | _ => none

/-- The path without a configured parent. -/
theorem length_cgroupParent_none (h : configuredParent env conf backend = none) :
    (cgroupParent env conf backend).length ≤ if backend.connectsByTcp then 0 else 17 := by
  cases backend with
  | docker address =>
      rw [configuredParent] at h
      rw [cgroupParent]
      split at h
      next hzero =>
        rw [if_pos hzero]
        exact Nat.zero_le _
      next hne =>
        have hoid := length_int (inRange_toInt conf.resgroupOid)
        have hpath : (sprintf [.lit "/gpdb/", .arg "%d"]
            [utf8 (decimal conf.resgroupOid.toInt)]).length
              = 6 + (utf8 (decimal conf.resgroupOid.toInt)).length := by
          have hlit : (utf8 "/gpdb/".toList).length = 6 := by decide
          simp only [sprintf, fill, List.length_append, List.length_nil, hlit]
          omega
        rw [if_neg hne, h]
        simp only [snprintf, List.length_take, hpath]
        show _ ≤ 17
        omega
  | remoteDocker => exact Nat.zero_le _
  | process => exact Nat.zero_le _

/-- The path under a configured parent, which is cut to the size of its array. -/
theorem length_cgroupParent_some {parent : CString}
    (h : configuredParent env conf backend = some parent) :
    (cgroupParent env conf backend).length =
      min 255 (parent.length + (utf8 (decimal conf.resgroupOid.toInt)).length + 2) := by
  cases backend with
  | docker address =>
      rw [configuredParent] at h
      rw [cgroupParent]
      split at h
      next => cases h
      next hne =>
        rw [if_neg hne, h]
        have hpath : (sprintf [.lit "/", .arg "%s", .lit "/", .arg "%d"]
            [parent, utf8 (decimal conf.resgroupOid.toInt)]).length
              = parent.length + (utf8 (decimal conf.resgroupOid.toInt)).length + 2 := by
          have hlit : (utf8 "/".toList).length = 1 := by decide
          simp only [sprintf, fill, List.length_append, List.length_nil, hlit]
          omega
        simp only [snprintf, List.length_take, hpath]
        rfl
  | remoteDocker => cases h
  | process => cases h

/-- A size that is no `int` wraps to one that is smaller than the body. -/
theorem not_cut_iff_path :
    (formattedBody env conf backend volumeShare).length < createStringSizeInt env conf volumeShare ↔
      createStringSize env conf volumeShare < 2 ^ 31 ∧
        (cgroupParent env conf backend).length + uncountedLength env conf backend < slack := by
  have hlength := length_formattedBody env conf backend volumeShare
  rw [slack] at hlength ⊢
  rw [createStringSizeInt, wrap32, Int.bmod_def]
  generalize createStringSize env conf volumeShare = size at hlength
  generalize (formattedBody env conf backend volumeShare).length = len at hlength
  generalize (cgroupParent env conf backend).length = path at hlength
  generalize uncountedLength env conf backend = words at hlength
  split <;> omega

/-- **When the body is not cut**: the size is an `int`, and a configured parent leaves room for the
    words and numbers. Without a configured parent there is always room. -/
theorem body_not_cut_iff (hpid : InRange env.pid) (hmemory : InRange conf.memoryMb)
    (hcpu : InRange conf.cpuShare) :
    (formattedBody env conf backend volumeShare).length < createStringSizeInt env conf volumeShare ↔
      createStringSize env conf volumeShare < 2 ^ 31 ∧
      ∀ parent, configuredParent env conf backend = some parent →
        parent.length + (utf8 (decimal conf.resgroupOid.toInt)).length + 2
          + uncountedLength env conf backend < slack := by
  have hbound := uncountedLength_le env conf backend hpid hmemory hcpu
  rw [not_cut_iff_path, slack]
  refine and_congr_right fun _ => ?_
  cases hparent : configuredParent env conf backend with
  | none =>
      have hpath := length_cgroupParent_none env conf backend hparent
      refine iff_of_true ?_ (by rintro parent ⟨⟩)
      cases htcp : backend.connectsByTcp with
      | false =>
          rw [htcp] at hpath hbound
          exact lt_of_le_of_lt (Nat.add_le_add hpath hbound) (by decide)
      | true =>
          rw [htcp] at hpath hbound
          exact lt_of_le_of_lt (Nat.add_le_add hpath hbound) (by decide)
  | some parent =>
      rw [length_cgroupParent_some env conf backend hparent]
      constructor
      · rintro hfits _ ⟨⟩
        omega
      · intro hfits
        have := hfits parent rfl
        omega

end Length

/-- A session under resource groups of cgroup v2. -/
def groupEnv (parent : CString) : CreateEnv where
  uid := 1000
  gid := 1000
  pid := 4711
  username := utf8 "gpadmin".toList
  dbname := utf8 "postgres".toList
  segindex := 0
  databaseId := 16384
  resourceGroupParent := some parent
  domainSocketNo := 0
  mkdirFails := false

def groupConf : RuntimeConfEntry :=
  { RuntimeConfEntry.fresh "plc_python".toList with
    image := "plcontainer_python:latest".toList
    command := "/clientdir/pyclient.sh".toList
    resgroupOid := 16385 }

theorem body_not_cut_short_parent :
    (formattedBody (groupEnv (utf8 "gpdb.service".toList)) groupConf (.docker []) []).length <
      createStringSizeInt (groupEnv (utf8 "gpdb.service".toList)) groupConf [] :=
  (body_not_cut_iff _ _ _ _ (by decide) (by decide) (by decide)).2
    ⟨by decide +kernel, by rintro _ ⟨⟩; decide⟩

/-- The parent has 100 bytes and the path 107; what is printed for the words and numbers takes 56. -/
theorem body_cut_long_parent :
    (cgroupParent (groupEnv (List.replicate 100 97)) groupConf (.docker [])).length = 107 ∧
      ¬ (formattedBody (groupEnv (List.replicate 100 97)) groupConf (.docker []) []).length <
        createStringSizeInt (groupEnv (List.replicate 100 97)) groupConf [] := by
  refine ⟨by decide, ?_⟩
  rw [not_cut_iff_path]
  rintro ⟨-, hfits⟩
  revert hfits
  decide

end PlContainer
