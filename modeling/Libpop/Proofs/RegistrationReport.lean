import Libpop.Proofs.IoctlExits

/-!
# What a registration reports

`POP_P2PMEM_REG` should return 0 exactly when the device is on the list and its size went
back to the caller, and a negative errno otherwise. The size travels through an `int` that
is also the error code of the inner function; the requests for which the report is right
are characterised here.
-/

namespace Libpop.Proofs
open Execution

/-- On return the device is registered and its size is the one the caller reads. -/
def Reported (env : KernelEnv) (r : Registry) (reg : P2pmemReg) (res : IoctlResult) : Prop :=
  ∃ pdev ppdev out, env.lookup reg = some pdev ∧ ppdev ∈ res.registry.devList ∧ ppdev.pdev = pdev ∧
    res.copied = some out ∧ out.size = ppdev.size ∧ pageSize ∣ ppdev.size.toNat ∧
    (popFindDev r pdev = none → reg.size.toNat ≤ ppdev.size.toNat)

/-- The return value tells user space whether the registration was reported. -/
def ReportsTruly (env : KernelEnv) (r : Registry) (reg : P2pmemReg) : Prop :=
  ((popIoctl env r .p2pmemReg reg).ret = 0 ↔ Reported env r reg (popIoctl env r .p2pmemReg reg)) ∧
    ((popIoctl env r .p2pmemReg reg).ret ≠ 0 → (popIoctl env r .p2pmemReg reg).ret < 0)

/-- Once a p2pmem device is found: a listed one has to fit an `int`, or `copy_to_user` has to
fail behind a non-negative one; a new one needs every call of its registration to succeed,
and its request must neither wrap in the rounding nor leave the `int`. -/
def Reportable (env : KernelEnv) (r : Registry) (size : BitVec 64) (pdev : PciDev) : Prop :=
  env.pciHasP2pmem pdev = true → match popFindDev r pdev with
    | some ppdev => ppdev.size.toNat < 2 ^ 31 ∨ 0 ≤ Word.toInt32 ppdev.size ∧ env.copyToUser = false
    | none => Publishes env pdev size ∧ 0 ≤ Word.toInt32 (requestSize env pdev size) ∧
        (env.copyToUser = false ∨
          (requestSize env pdev size).toNat < 2 ^ 31 ∧ size.toNat ≤ 2 ^ 64 - pageSize)

lemma RegistryInv.eq_of_pdev {r : Registry} (h : RegistryInv r) {d e : PopDev} (hd : d ∈ r.devList)
    (he : e ∈ r.devList) (hp : d.pdev = e.pdev) : d = e :=
  List.inj_on_of_nodup_map h.pdevs_nodup hd he hp

lemma not_reported_of_none {env : KernelEnv} {r : Registry} {reg : P2pmemReg} {res : IoctlResult}
    (h : res.copied = none) : ¬Reported env r reg res := by
  rintro ⟨pdev, ppdev, out, -, -, -, hout, -⟩
  rw [h] at hout
  cases hout

lemma reported_iff {env : KernelEnv} {r : Registry} {reg out : P2pmemReg} {res : IoctlResult}
    {ppdev : PopDev} (hi : RegistryInv res.registry) (hd : env.lookup reg = some ppdev.pdev)
    (hm : ppdev ∈ res.registry.devList) (hout : res.copied = some out) :
    Reported env r reg res ↔ out.size = ppdev.size ∧
      (popFindDev r ppdev.pdev = none → reg.size.toNat ≤ ppdev.size.toNat) := by
  constructor
  · rintro ⟨pdev, ppdev', out', hd', hm', hp', hout', hsize, -, hreq⟩
    rw [hd, Option.some.injEq] at hd'
    rw [hout, Option.some.injEq] at hout'
    have he : ppdev' = ppdev := hi.eq_of_pdev hm' hm (hp'.trans hd'.symm)
    subst he hout' hd'
    exact ⟨hsize, hreq⟩
  · rintro ⟨hsize, hreq⟩
    exact ⟨ppdev.pdev, ppdev, out, hd, hm, rfl, hout, hsize, hi.pages ppdev hm, hreq⟩

lemma le_requestSize_iff (env : KernelEnv) (pdev : PciDev) (size : BitVec 64)
    (h : (requestSize env pdev size).toNat < 2 ^ 31) :
    size.toNat ≤ (requestSize env pdev size).toNat ↔ size.toNat ≤ 2 ^ 64 - pageSize := by
  by_cases hz : size = 0
  · subst hz
    simp
  · have hpos : 0 < size.toNat := by
      rcases Nat.eq_zero_or_pos size.toNat with h0 | h0
      · exact absurd (BitVec.eq_of_toNat_eq (by simpa using h0)) hz
      · exact h0
    have hr : (requestSize env pdev size).toNat =
        if size.toNat ≤ 2 ^ 64 - 4096 then (size.toNat + 4095) / 4096 * 4096 else 0 := by
      unfold requestSize
      rw [if_neg hz]
      exact Word.toNat_roundUp size
    rw [hr, pageSize]
    split <;> omega

/-- What is true of the ioctl's result when it reports truly. -/
def Truthful (env : KernelEnv) (r : Registry) (reg : P2pmemReg) (res : IoctlResult) : Prop :=
  (res.ret = 0 ↔ Reported env r reg res) ∧ (res.ret ≠ 0 → res.ret < 0)

lemma truthful_of_neg {env : KernelEnv} {r : Registry} {reg : P2pmemReg} {res : IoctlResult}
    (hret : res.ret < 0) (hcop : res.copied = none) : Truthful env r reg res :=
  ⟨iff_of_false (Int.ne_of_lt hret) (not_reported_of_none hcop), fun _ => hret⟩

/-- The last part of the ioctl, for a device that is on the list when it runs. -/
lemma regReport_truthful_iff {env : KernelEnv} {r s : Registry} {reg : P2pmemReg} {ppdev : PopDev}
    (hi : RegistryInv s) (hd : env.lookup reg = some ppdev.pdev) (hm : ppdev ∈ s.devList) :
    Truthful env r reg (regReport env reg ppdev.pdev ⟨s, Word.toInt32 ppdev.size, none⟩) ↔
      0 ≤ Word.toInt32 ppdev.size ∧ (env.copyToUser = false ∨ ppdev.size.toNat < 2 ^ 31 ∧
        (popFindDev r ppdev.pdev = none → reg.size.toNat ≤ ppdev.size.toNat)) := by
  unfold regReport
  by_cases hneg : Word.toInt32 ppdev.size < 0
  · simp only [hneg, if_true]
    refine iff_of_false ?_ (by omega)
    rintro ⟨hret, -⟩
    exact not_reported_of_none rfl (hret.mp rfl)
  · simp only [hneg, if_false]
    by_cases hcopy : env.copyToUser = true
    · have hnn : 0 ≤ Word.toInt32 ppdev.size := by omega
      simp only [Truthful, hcopy, if_true, Bool.true_eq_false, false_or, hnn, true_and, ne_eq,
        not_true_eq_false, false_implies, and_true, true_iff]
      rw [reported_iff hi hd hm rfl, Word.ofInt_toInt32_eq_iff _ hnn]
    · rw [if_neg hcopy]
      have hfault : -efault < 0 := by decide
      exact iff_of_true (truthful_of_neg hfault rfl) ⟨by omega, .inl (by simpa using hcopy)⟩

lemma toInt32_nonneg_of_lt {x : BitVec 64} (h : x.toNat < 2 ^ 31) : 0 ≤ Word.toInt32 x := by
  rw [Word.toInt32_of_lt x h]
  exact Int.natCast_nonneg _

/-- The inner function failed: 0 is returned for a device that is not there. -/
lemma regReport_not_truthful {env : KernelEnv} {r : Registry} {reg : P2pmemReg} {pdev : PciDev}
    {res : RegisterResult} (hneg : res.ret < 0) :
    ¬Truthful env r reg (regReport env reg pdev res) := by
  unfold regReport
  rw [if_pos hneg]
  rintro ⟨hret, -⟩
  exact not_reported_of_none rfl (hret.mp rfl)

lemma RegisterExit.truthful_iff {env : KernelEnv} {r : Registry} {reg : P2pmemReg} {pdev : PciDev}
    {res : RegisterResult} (hi : RegistryInv r) (hd : env.lookup reg = some pdev)
    (hp : env.pciHasP2pmem pdev = true)
    (hres : RegisterExit env (r.pciDevGet pdev) pdev reg.size res) :
    Truthful env r reg (regReport env reg pdev res) ↔ Reportable env r reg.size pdev := by
  have hinv : RegistryInv (r.pciDevGet pdev) := hi.congr rfl (List.Subset.refl _)
  simp only [Reportable, hp, true_implies]
  cases hres with
  | already ppdev hf =>
    have hf' : popFindDev r pdev = some ppdev := hf
    obtain ⟨hm, rfl⟩ := popFindDev_some hf'
    simp only [hf']
    rw [regReport_truthful_iff hinv hd hm]
    simp only [hf', reduceCtorEq, false_implies, and_true]
    constructor
    · rintro ⟨hnn, hcopy | hlt⟩
      · exact .inr ⟨hnn, hcopy⟩
      · exact .inl hlt
    · rintro (hlt | ⟨hnn, hcopy⟩)
      · exact ⟨toInt32_nonneg_of_lt hlt, .inr hlt⟩
      · exact ⟨hnn, .inl hcopy⟩
  | noAlloc hf ha =>
    have hf' : popFindDev r pdev = none := hf
    simp only [hf']
    exact iff_of_false (regReport_not_truthful (Int.neg_neg_of_pos (by decide)))
      (by simp [Publishes, ha])
  | noObject p2pmem hf ha hk =>
    have hf' : popFindDev r pdev = none := hf
    simp only [hf']
    exact iff_of_false (regReport_not_truthful (Int.neg_neg_of_pos (by decide)))
      (by simp [Publishes, hk])
  | noNode p2pmem hf ha hk hm =>
    have hf' : popFindDev r pdev = none := hf
    simp only [hf']
    exact iff_of_false (regReport_not_truthful (Int.neg_neg_of_pos (by decide)))
      (by simp [Publishes, hm])
  | published p2pmem hf ha hk hm =>
    have hf' : popFindDev r pdev = none := hf
    have hpub : Publishes env pdev reg.size := ⟨by simp [ha], hk, hm⟩
    have hmem : newPopDev env (r.pciDevGet pdev) pdev p2pmem (requestSize env pdev reg.size) ∈
        (registered env (r.pciDevGet pdev) pdev p2pmem (requestSize env pdev reg.size)).devList := by
      simp [registered]
    have hiff := regReport_truthful_iff (r := r)
      (hinv.registered env pdev p2pmem _ hf (pageSize_dvd_requestSize env pdev reg.size)) hd hmem
    simp only [newPopDev, hf', true_implies] at hiff
    simp only [hf', hpub, true_and]
    refine hiff.trans (and_congr_right fun _ => or_congr_right (and_congr_right fun hlt => ?_))
    exact le_requestSize_iff env pdev reg.size hlt

/-- In every reachable state and for every request, the return value of the registration
ioctl is right exactly on the reportable requests. -/
theorem reg_reports_truly_iff {ops : List RegistryOp} {r : Registry}
    (h : exec registryStep popInit ops = some r) (env : KernelEnv) (reg : P2pmemReg) :
    ReportsTruly env r reg ↔
      ∀ pdev, env.copyFromUser = true → env.lookup reg = some pdev →
        Reportable env r reg.size pdev := by
  have hx := popIoctl_reg_exit env r reg
  change Truthful env r reg (popIoctl env r .p2pmemReg reg) ↔ _
  generalize popIoctl env r .p2pmemReg reg = res at hx ⊢
  cases hx with
  | noCopy hc =>
    have hfault : -efault < 0 := by decide
    exact iff_of_true (truthful_of_neg hfault rfl) (by simp [hc])
  | noDevice hc hd =>
    have hnodev : -enodev < 0 := by decide
    exact iff_of_true (truthful_of_neg hnodev rfl) (by simp [hd])
  | noP2pmem pdev hc hd hp =>
    have hinval : -einval < 0 := by decide
    rw [forall_lookup_iff hc hd]
    exact iff_of_true (truthful_of_neg hinval rfl) (by simp [Reportable, hp])
  | report pdev res hc hd hp hres =>
    rw [forall_lookup_iff hc hd]
    exact hres.truthful_iff (registryInv_reachable h) hd hp

/-- The card registered a second time: the size of the first registration comes back. -/
theorem reg_reports_truly_card :
    exec registryStep popInit [.ioctl cardEnv .p2pmemReg cardReg] =
        some (popIoctl cardEnv popInit .p2pmemReg cardReg).registry ∧
      ReportsTruly cardEnv (popIoctl cardEnv popInit .p2pmemReg cardReg).registry cardReg := by
  have hrun : exec registryStep popInit [.ioctl cardEnv .p2pmemReg cardReg] =
      some (popIoctl cardEnv popInit .p2pmemReg cardReg).registry := rfl
  refine ⟨hrun, (reg_reports_truly_iff hrun cardEnv cardReg).mpr ?_⟩
  rw [forall_lookup_iff rfl (show cardEnv.lookup cardReg = some 7 by decide)]
  intro _
  exact .inl (by decide)

/-- The pool has no room: the ioctl returns 0 and no device is registered. -/
theorem reg_reports_success_without_memory :
    ¬∀ ops r, exec registryStep popInit ops = some r → ∀ env reg, ReportsTruly env r reg := by
  intro h
  have hfull := h [] popInit rfl { cardEnv with pciAllocP2pmem := fun _ _ => none } cardReg
  exact not_reported_of_none rfl (hfull.1.mp (by decide))

end Libpop.Proofs
