import Libpop.Proofs.IoctlExits

/-!
# References on PCI devices

Every ioctl takes a reference on the device it looks up. The module should be left with
one reference on each registered device and none on any other. Which operations keep that
balance is decided here exactly, and with it the balance along every run.
-/

namespace Libpop.Proofs
open Execution

/-- One reference on each device of the list and none on any other. -/
def RefsBalanced (r : Registry) : Prop :=
  ∀ p, r.refs p = if p ∈ r.devList.map PopDev.pdev then 1 else 0

/-- A registration that keeps the references balanced: a repeated one has to leave through
`dev_put_out`, a new one must not. -/
def RegKeepsRefs (env : KernelEnv) (r : Registry) (size : BitVec 64) (pdev : PciDev) : Prop :=
  env.pciHasP2pmem pdev = true → match popFindDev r pdev with
    | some ppdev => Word.toInt32 ppdev.size < 0 ∨ env.copyToUser = false
    | none =>
      Publishes env pdev size → 0 ≤ Word.toInt32 (requestSize env pdev size) ∧ env.copyToUser = true

/-- An operation that keeps the references balanced. No unregistration of a listed device does. -/
def KeepsRefs (r : Registry) : RegistryOp → Prop
  | .ioctl env .p2pmemReg reg =>
      ∀ pdev, env.copyFromUser = true → env.lookup reg = some pdev → RegKeepsRefs env r reg.size pdev
  | .ioctl env .p2pmemUnreg reg =>
      ∀ pdev, env.copyFromUser = true → env.lookup reg = some pdev → popFindDev r pdev = none
  | _ => True

lemma RefsBalanced.congr {r s : Registry} (h : RefsBalanced r)
    (hl : s.devList = r.devList) (hr : ∀ p, s.refs p = r.refs p) : RefsBalanced s := by
  intro p
  rw [hr p, hl]
  exact h p

lemma RefsBalanced.eq_zero {r : Registry} (h : RefsBalanced r) {pdev : PciDev}
    (hf : popFindDev r pdev = none) : r.refs pdev = 0 := by
  rw [h pdev, if_neg (popFindDev_none_iff.mp hf)]

lemma RefsBalanced.eq_one {r : Registry} (h : RefsBalanced r) {pdev : PciDev} {ppdev : PopDev}
    (hf : popFindDev r pdev = some ppdev) : r.refs pdev = 1 := by
  obtain ⟨hm, rfl⟩ := popFindDev_some hf
  rw [h ppdev.pdev, if_pos (List.mem_map_of_mem hm)]

/-- A second reference on a registered device is one too many. -/
lemma not_refsBalanced_get {r : Registry} (h : RefsBalanced r) {pdev : PciDev} {ppdev : PopDev}
    (hf : popFindDev r pdev = some ppdev) : ¬RefsBalanced (r.pciDevGet pdev) := by
  intro hb
  have htwo := hb pdev
  have hmem : pdev ∈ (r.pciDevGet pdev).devList.map PopDev.pdev :=
    List.mem_map.mpr ⟨ppdev, popFindDev_some hf⟩
  rw [if_pos hmem] at htwo
  simp [h.eq_one hf] at htwo

/-- A new registration is balanced as long as its reference is not dropped again. -/
lemma refsBalanced_registered {r : Registry} (h : RefsBalanced r) (env : KernelEnv) {pdev : PciDev}
    (p2pmem size : BitVec 64) (hf : popFindDev r pdev = none) :
    RefsBalanced (registered env (r.pciDevGet pdev) pdev p2pmem size) := by
  intro p
  by_cases hp : p = pdev
  · subst hp
    simp [registered, newPopDev, h.eq_zero hf]
  · simpa [registered, newPopDev, Function.update_of_ne hp, hp] using h p

lemma not_refsBalanced_registered_put {r : Registry} (h : RefsBalanced r) (env : KernelEnv)
    {pdev : PciDev} (p2pmem size : BitVec 64) (hf : popFindDev r pdev = none) :
    ¬RefsBalanced ((registered env (r.pciDevGet pdev) pdev p2pmem size).pciDevPut pdev) := by
  intro hb
  have hp := hb pdev
  simp [registered, newPopDev, h.eq_zero hf] at hp

lemma RegisterExit.refsBalanced_iff {env : KernelEnv} {r : Registry} {reg : P2pmemReg}
    {pdev : PciDev} {res : RegisterResult} (h : RefsBalanced r) (hp : env.pciHasP2pmem pdev = true)
    (hres : RegisterExit env (r.pciDevGet pdev) pdev reg.size res) :
    RefsBalanced (regReport env reg pdev res).registry ↔ RegKeepsRefs env r reg.size pdev := by
  simp only [RegKeepsRefs, hp, true_implies]
  unfold regReport
  cases hres with
  | already ppdev hf =>
    have hf' : popFindDev r pdev = some ppdev := hf
    simp only [hf']
    split
    · rename_i hneg
      exact iff_of_true (by simpa [devPutOut] using h) (.inl hneg)
    · rename_i hneg
      split
      · rename_i hcopy
        exact iff_of_false (not_refsBalanced_get h hf') (by simp [hneg, hcopy])
      · rename_i hcopy
        exact iff_of_true (by simpa [devPutOut] using h) (.inr (by simpa using hcopy))
  | noAlloc hf ha =>
    have hf' : popFindDev r pdev = none := hf
    simp only [hf']
    rw [if_pos (by decide)]
    exact iff_of_true (by simpa [devPutOut] using h) (by simp [Publishes, ha])
  | noObject p2pmem hf ha hk =>
    have hf' : popFindDev r pdev = none := hf
    simp only [hf']
    rw [if_pos (by decide)]
    refine iff_of_true (h.congr rfl fun p => ?_) (by simp [Publishes, hk])
    simp [devPutOut]
  | noNode p2pmem hf ha hk hm =>
    have hf' : popFindDev r pdev = none := hf
    simp only [hf']
    rw [if_pos (by decide)]
    refine iff_of_true (h.congr rfl fun p => ?_) (by simp [Publishes, hm])
    simp [devPutOut]
  | published p2pmem hf ha hk hm =>
    have hf' : popFindDev r pdev = none := hf
    have hpub : Publishes env pdev reg.size := ⟨by simp [ha], hk, hm⟩
    simp only [hf', hpub, true_implies]
    split
    · rename_i hneg
      refine iff_of_false (not_refsBalanced_registered_put h env p2pmem _ hf') ?_
      rintro ⟨hnn, -⟩
      omega
    · rename_i hneg
      split
      · rename_i hcopy
        exact iff_of_true (refsBalanced_registered h env p2pmem _ hf') ⟨by omega, hcopy⟩
      · rename_i hcopy
        exact iff_of_false (not_refsBalanced_registered_put h env p2pmem _ hf')
          (fun hk => hcopy hk.2)

lemma refsBalanced_reg_iff {r : Registry} (h : RefsBalanced r) (env : KernelEnv) (reg : P2pmemReg) :
    RefsBalanced (popIoctl env r .p2pmemReg reg).registry ↔
      KeepsRefs r (.ioctl env .p2pmemReg reg) := by
  have hx := popIoctl_reg_exit env r reg
  generalize popIoctl env r .p2pmemReg reg = res at hx ⊢
  simp only [KeepsRefs]
  cases hx with
  | noCopy hc => exact iff_of_true h (by simp [hc])
  | noDevice hc hd => exact iff_of_true h (by simp [hd])
  | noP2pmem pdev hc hd hp =>
    rw [forall_lookup_iff hc hd]
    exact iff_of_true (by simpa [devPutOut] using h) (by simp [RegKeepsRefs, hp])
  | report pdev res hc hd hp hres =>
    rw [forall_lookup_iff hc hd]
    exact hres.refsBalanced_iff h hp

lemma refsBalanced_unreg_iff {r : Registry} (hi : RegistryInv r) (h : RefsBalanced r)
    (env : KernelEnv) (reg : P2pmemReg) :
    RefsBalanced (popIoctl env r .p2pmemUnreg reg).registry ↔
      KeepsRefs r (.ioctl env .p2pmemUnreg reg) := by
  have hx := popIoctl_unreg_exit env r reg
  generalize popIoctl env r .p2pmemUnreg reg = res at hx ⊢
  simp only [KeepsRefs]
  cases hx with
  | noCopy hc => exact iff_of_true h (by simp [hc])
  | noDevice hc hd => exact iff_of_true h (by simp [hd])
  | notRegistered pdev hc hd hf =>
    rw [forall_lookup_iff hc hd]
    exact iff_of_true (by simpa [devPutOut] using h) hf
  | unregistered pdev ppdev hc hd hf =>
    obtain ⟨hm, hp⟩ := popFindDev_some hf
    rw [forall_lookup_iff hc hd]
    refine iff_of_false ?_ (by simp [hf])
    · -- the reference of the lookup is never dropped, the one of the registration is
      intro hb
      have hone := hb pdev
      have hgone := popFindDev_filter_none hi hm
      rw [hp] at hgone
      have hout : pdev ∉ (popUnregisterP2pmem (r.pciDevGet pdev) ppdev).devList.map PopDev.pdev :=
        hgone
      rw [if_neg hout] at hone
      simp [popUnregisterP2pmem, hp, h.eq_one hf] at hone

lemma refsBalanced_popExit {r : Registry} (hi : RegistryInv r) (h : RefsBalanced r) :
    RefsBalanced (popExit r) := by
  obtain ⟨hd, -, -, hr⟩ := popExit_spec hi
  intro p
  rw [hr p, h p, hd, hi.pdevs_nodup.count]
  split <;> simp

lemma refsBalanced_step_iff (r : Registry) (op : RegistryOp) (s : Registry) (hi : RegistryInv r)
    (h : RefsBalanced r) (hs : registryStep r op = some s) : RefsBalanced s ↔ KeepsRefs r op := by
  obtain ⟨-, ⟨env, cmd, reg, rfl, rfl⟩ | ⟨rfl, rfl⟩⟩ := registryStep_cases hs
  · cases cmd with
    | p2pmemReg => exact refsBalanced_reg_iff h env reg
    | p2pmemUnreg => exact refsBalanced_unreg_iff hi h env reg
    | other cmd => exact iff_of_true h trivial
  · exact iff_of_true (refsBalanced_popExit hi h) trivial

lemma refsBalanced_popInit : RefsBalanced popInit := by
  intro p
  simp [popInit]

/-- The references are balanced after every operation of a run exactly when every operation
of it is one that keeps them. -/
theorem references_balanced_iff (ops : List RegistryOp) :
    Throughout registryStep RefsBalanced popInit ops ↔ Guarded registryStep KeepsRefs popInit ops :=
  throughout_iff_guarded registryInv_step refsBalanced_step_iff registryInv_popInit
    refsBalanced_popInit

/-- Registering a card and unregistering it again leaves a reference behind. -/
theorem references_unbalanced_after_unreg :
    ¬∀ ops, Throughout registryStep RefsBalanced popInit ops := by
  intro h
  have hrun := (h [.ioctl cardEnv .p2pmemReg cardReg, .ioctl cardEnv .p2pmemUnreg cardReg]).last rfl
  exact absurd (hrun 7) (by decide)

end Libpop.Proofs
