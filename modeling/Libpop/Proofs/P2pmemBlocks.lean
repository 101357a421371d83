import Mathlib.Algebra.Order.Group.Multiset
import Mathlib.Tactic.Abel
import Libpop.Proofs.IoctlExits

/-!
# Peer-to-peer memory and the device list

The blocks taken from the pools and not yet given back are those of the listed devices,
in every reachable state, and unloading the module returns all of them. Requests that do
not complete should leave the module as it was; the two that do not are singled out.
-/

namespace Libpop.Proofs
open Execution

/-- The blocks that went through `pci_alloc_p2pmem` and not through `pci_free_p2pmem`. -/
def liveBlocks (r : Registry) : Multiset P2pBlock :=
  (r.allocs : Multiset P2pBlock) - (r.frees : Multiset P2pBlock)

/-- Every block was taken once for each time it was given back, and once more if it is listed. -/
def BlocksAccounted (r : Registry) : Prop :=
  (r.allocs : Multiset P2pBlock) = r.frees + r.devList.map PopDev.block

lemma BlocksAccounted.liveBlocks_eq {r : Registry} (h : BlocksAccounted r) :
    liveBlocks r = r.devList.map PopDev.block := by
  unfold liveBlocks
  rw [h, add_tsub_cancel_left]

lemma BlocksAccounted.frees_le {r : Registry} (h : BlocksAccounted r) :
    (r.frees : Multiset P2pBlock) ≤ r.allocs := by
  rw [h]
  exact Multiset.le_add_right _ _

/-- A block taken and given back at once changes nothing. -/
lemma BlocksAccounted.returned {r s : Registry} (h : BlocksAccounted r) (block : P2pBlock)
    (ha : s.allocs = r.allocs ++ [block]) (hf : s.frees = r.frees ++ [block])
    (hl : s.devList = r.devList) : BlocksAccounted s := by
  unfold BlocksAccounted at h ⊢
  rw [ha, hf, hl, ← Multiset.coe_add, ← Multiset.coe_add, h]
  abel

lemma BlocksAccounted.registered {r : Registry} (h : BlocksAccounted r) (env : KernelEnv)
    (pdev : PciDev) (p2pmem size : BitVec 64) :
    BlocksAccounted (registered env r pdev p2pmem size) := by
  unfold BlocksAccounted at h ⊢
  simp only [Proofs.registered, Registry.listAddTail, Registry.miscRegister, Registry.kmalloc,
    Registry.pciAllocP2pmem, List.map_append, List.map_cons, List.map_nil]
  rw [← Multiset.coe_add, ← Multiset.coe_add, h]
  abel

lemma BlocksAccounted.unregistered {r : Registry} (h : BlocksAccounted r) (hi : RegistryInv r)
    {ppdev : PopDev} (hm : ppdev ∈ r.devList) : BlocksAccounted (popUnregisterP2pmem r ppdev) := by
  have hp : (r.devList.map PopDev.block : Multiset P2pBlock) =
      ppdev.block ::ₘ (r.devList.filter (fun d => d.id != ppdev.id)).map PopDev.block :=
    Multiset.coe_eq_coe.mpr ((perm_cons_filter_id hi.ids_nodup hm).map PopDev.block)
  unfold BlocksAccounted at h ⊢
  simp only [popUnregisterP2pmem, Registry.kfree, Registry.listDel, Registry.pciDevPut,
    Registry.pciFreeP2pmem, Registry.miscDeregister]
  rw [h, hp, ← Multiset.coe_add, ← Multiset.singleton_add, Multiset.coe_singleton]
  abel

lemma RegisterExit.blocksAccounted {env : KernelEnv} {r : Registry} {pdev : PciDev}
    {size : BitVec 64} {res : RegisterResult} (hx : RegisterExit env r pdev size res)
    (h : BlocksAccounted r) : BlocksAccounted res.registry := by
  cases hx with
  | already ppdev hf => exact h
  | noAlloc hf ha => exact h
  | noObject p2pmem hf ha hk => exact h.returned _ rfl rfl rfl
  | noNode p2pmem hf ha hk hm => exact h.returned _ rfl rfl rfl
  | published p2pmem hf ha hk hm => exact h.registered env pdev p2pmem _

lemma regReport_blocksAccounted {env : KernelEnv} {reg : P2pmemReg} {pdev : PciDev}
    {res : RegisterResult} (h : BlocksAccounted res.registry) :
    BlocksAccounted (regReport env reg pdev res).registry := by
  rcases regReport_registry env reg pdev res with he | he
  · exact he ▸ h
  · rw [he]
    exact h

lemma popIoctl_blocksAccounted {r : Registry} (hi : RegistryInv r) (h : BlocksAccounted r)
    (env : KernelEnv) (cmd : IoctlCmd) (reg : P2pmemReg) :
    BlocksAccounted (popIoctl env r cmd reg).registry := by
  cases cmd with
  | p2pmemReg =>
    have hx := popIoctl_reg_exit env r reg
    generalize popIoctl env r .p2pmemReg reg = res at hx ⊢
    cases hx with
    | noCopy hc => exact h
    | noDevice hc hd => exact h
    | noP2pmem pdev hc hd hp => exact h
    | report pdev res hc hd hp hres =>
      exact regReport_blocksAccounted (hres.blocksAccounted h)
  | p2pmemUnreg =>
    have hx := popIoctl_unreg_exit env r reg
    generalize popIoctl env r .p2pmemUnreg reg = res at hx ⊢
    cases hx with
    | noCopy hc => exact h
    | noDevice hc hd => exact h
    | notRegistered pdev hc hd hf => exact h
    | unregistered pdev ppdev hc hd hf =>
      have hg : BlocksAccounted (r.pciDevGet pdev) := h
      exact hg.unregistered (hi.congr rfl (List.Subset.refl _)) (popFindDev_some hf).1
  | other cmd => exact h

lemma popExit_blocksAccounted {r : Registry} (hi : RegistryInv r) (h : BlocksAccounted r) :
    BlocksAccounted (popExit r) := by
  obtain ⟨hd, ha, hf, -⟩ := popExit_spec hi
  unfold BlocksAccounted at h ⊢
  rw [hd, ha, hf, ← Multiset.coe_add, h]
  simp

lemma blocksAccounted_step (r : Registry) (op : RegistryOp) (s : Registry)
    (h : RegistryInv r ∧ BlocksAccounted r) (hs : registryStep r op = some s) :
    RegistryInv s ∧ BlocksAccounted s := by
  refine ⟨registryInv_step r op s h.1 hs, ?_⟩
  obtain ⟨-, ⟨env, cmd, reg, rfl, rfl⟩ | ⟨rfl, rfl⟩⟩ := registryStep_cases hs
  · exact popIoctl_blocksAccounted h.1 h.2 env cmd reg
  · exact popExit_blocksAccounted h.1 h.2

/-- In every reachable state no device is listed twice, nothing was given back that was not
taken, and what is still taken is what the list holds; unloading empties both. -/
theorem p2pmem_blocks_follow_devList {ops : List RegistryOp} {r : Registry}
    (h : exec registryStep popInit ops = some r) :
    (r.devList.map PopDev.pdev).Nodup ∧ (r.frees : Multiset P2pBlock) ≤ r.allocs ∧
      liveBlocks r = r.devList.map PopDev.block ∧
      ∀ s, registryStep r .exit = some s →
        s.devList = [] ∧ liveBlocks s = 0 ∧ (s.frees : Multiset P2pBlock) = s.allocs := by
  obtain ⟨hi, hb⟩ := exec_invariant blocksAccounted_step (s := popInit) ⟨registryInv_popInit, rfl⟩ h
  refine ⟨hi.pdevs_nodup, hb.frees_le, hb.liveBlocks_eq, ?_⟩
  intro s hs
  obtain ⟨-, hbs⟩ := blocksAccounted_step r .exit s ⟨hi, hb⟩ hs
  obtain ⟨-, ⟨env, cmd, reg, hop, -⟩ | ⟨-, rfl⟩⟩ := registryStep_cases hs
  · cases hop
  · have hd := (popExit_spec hi).1
    refine ⟨hd, by simp [hbs.liveBlocks_eq, hd], ?_⟩
    rw [BlocksAccounted, hd] at hbs
    simpa using hbs.symm

/-- With the card registered, its block is the one that is taken. -/
theorem p2pmem_blocks_of_card :
    exec registryStep popInit [.ioctl cardEnv .p2pmemReg cardReg] =
        some (popIoctl cardEnv popInit .p2pmemReg cardReg).registry ∧
      liveBlocks (popIoctl cardEnv popInit .p2pmemReg cardReg).registry =
        {⟨7, 0xffff888380000000, 0x10000⟩} := by
  have hrun : exec registryStep popInit [.ioctl cardEnv .p2pmemReg cardReg] =
      some (popIoctl cardEnv popInit .p2pmemReg cardReg).registry := rfl
  exact ⟨hrun, (p2pmem_blocks_follow_devList hrun).2.2.1.trans (by decide)⟩

/-! ### Requests that do not complete -/

/-- The same list, blocks, objects and device nodes. -/
structure SameResources (r s : Registry) : Prop where
  devList : s.devList = r.devList
  blocks : liveBlocks s = liveBlocks r
  objs : s.objs = r.objs
  miscs : s.miscs = r.miscs

/-- A request that does not complete leaves no trace. -/
def RollsBack (env : KernelEnv) (r : Registry) (cmd : IoctlCmd) (reg : P2pmemReg) : Prop :=
  (popIoctl env r cmd reg).failure ≠ none → SameResources r (popIoctl env r cmd reg).registry

/-- A new registration, once it has its memory and its object, has to get its device node and,
unless the size is negative as an `int`, to reach the caller. -/
def Undoable (env : KernelEnv) (r : Registry) (size : BitVec 64) (pdev : PciDev) : Prop :=
  env.pciHasP2pmem pdev = true → popFindDev r pdev = none →
    (env.pciAllocP2pmem pdev (requestSize env pdev size)).isSome → env.kmalloc = true →
      env.miscRegister = 0 ∧ (0 ≤ Word.toInt32 (requestSize env pdev size) → env.copyToUser = true)

lemma SameResources.returned {r s : Registry} (block : P2pBlock)
    (ha : s.allocs = r.allocs ++ [block]) (hf : s.frees = r.frees ++ [block])
    (hl : s.devList = r.devList) (ho : s.objs = r.objs)
    (hm : s.miscs = r.miscs) : SameResources r s where
  devList := hl
  blocks := by
    unfold liveBlocks
    rw [ha, hf, ← Multiset.coe_add, ← Multiset.coe_add, add_tsub_add_eq_tsub_right]
  objs := ho
  miscs := hm

lemma regReport_rollsBack_iff {env : KernelEnv} {r : Registry} {reg : P2pmemReg} {pdev : PciDev}
    {res : RegisterResult} (hres : RegisterExit env (r.pciDevGet pdev) pdev reg.size res) :
    ((regReport env reg pdev res).failure ≠ none → SameResources r (regReport env reg pdev res).registry) ↔
      (popFindDev r pdev = none → (env.pciAllocP2pmem pdev (requestSize env pdev reg.size)).isSome →
        env.kmalloc = true → env.miscRegister = 0 ∧
          (0 ≤ Word.toInt32 (requestSize env pdev reg.size) → env.copyToUser = true)) := by
  unfold regReport
  cases hres with
  | already ppdev hf =>
    have hf' : popFindDev r pdev = some ppdev := hf
    refine iff_of_true (fun _ => ?_) (by simp [hf'])
    split
    · exact ⟨rfl, rfl, rfl, rfl⟩
    · split <;> exact ⟨rfl, rfl, rfl, rfl⟩
  | noAlloc hf ha =>
    rw [if_pos (show -enomem < 0 by decide)]
    exact iff_of_true (fun _ => ⟨rfl, rfl, rfl, rfl⟩) (by simp [ha])
  | noObject p2pmem hf ha hk =>
    rw [if_pos (show -enomem < 0 by decide)]
    exact iff_of_true (fun _ => .returned _ rfl rfl rfl rfl rfl) (by simp [hk])
  | noNode p2pmem hf ha hk hm =>
    have hf' : popFindDev r pdev = none := hf
    rw [if_pos (show -einval < 0 by decide)]
    refine iff_of_false ?_ (by simp [hf', ha, hk, hm])
    -- the object of the failed registration is never passed to `kfree`
    intro hsame
    have hobjs := (hsame (by simp [devPutOut])).objs
    simp [devPutOut] at hobjs
  | published p2pmem hf ha hk hm =>
    have hf' : popFindDev r pdev = none := hf
    simp only [hf', ha, hk, hm, Option.isSome_some, true_implies, true_and]
    by_cases hneg : Word.toInt32 (requestSize env pdev reg.size) < 0
    · rw [if_pos hneg]
      exact iff_of_true (by simp [devPutOut]) (by omega)
    · rw [if_neg hneg]
      by_cases hcopy : env.copyToUser = true
      · rw [if_pos hcopy]
        exact iff_of_true (by simp) (fun _ => hcopy)
      · rw [if_neg hcopy]
        refine iff_of_false ?_ (fun h => hcopy (h (by omega)))
        intro hsame
        have hlist := (hsame (by simp [devPutOut])).devList
        simp [devPutOut, registered] at hlist

/-- A request that does not complete is rolled back exactly when it is not a new registration
that fails behind its object. -/
theorem ioctl_rolls_back_iff (env : KernelEnv) (r : Registry) (cmd : IoctlCmd) (reg : P2pmemReg) :
    RollsBack env r cmd reg ↔ (cmd = .p2pmemReg → ∀ pdev, env.copyFromUser = true →
      env.lookup reg = some pdev → Undoable env r reg.size pdev) := by
  unfold RollsBack
  cases cmd with
  | p2pmemReg =>
    have hx := popIoctl_reg_exit env r reg
    generalize popIoctl env r .p2pmemReg reg = res at hx ⊢
    simp only [true_implies]
    cases hx with
    | noCopy hc => exact iff_of_true (fun _ => ⟨rfl, rfl, rfl, rfl⟩) (by simp [hc])
    | noDevice hc hd => exact iff_of_true (fun _ => ⟨rfl, rfl, rfl, rfl⟩) (by simp [hd])
    | noP2pmem pdev hc hd hp =>
      rw [forall_lookup_iff hc hd]
      exact iff_of_true (fun _ => ⟨rfl, rfl, rfl, rfl⟩) (by simp [Undoable, hp])
    | report pdev res hc hd hp hres =>
      rw [forall_lookup_iff hc hd, regReport_rollsBack_iff hres]
      simp only [Undoable, hp, true_implies]
  | p2pmemUnreg =>
    have hx := popIoctl_unreg_exit env r reg
    generalize popIoctl env r .p2pmemUnreg reg = res at hx ⊢
    refine iff_of_true ?_ (by simp)
    cases hx with
    | noCopy hc => exact fun _ => ⟨rfl, rfl, rfl, rfl⟩
    | noDevice hc hd => exact fun _ => ⟨rfl, rfl, rfl, rfl⟩
    | notRegistered pdev hc hd hf => exact fun _ => ⟨rfl, rfl, rfl, rfl⟩
    | unregistered pdev ppdev hc hd hf => exact fun hne => absurd rfl hne
  | other cmd => exact iff_of_true (fun hne => absurd rfl hne) (by simp)

/-- `misc_register` fails and the object stays allocated. -/
theorem failed_registration_leaks_object :
    ¬∀ ops r, exec registryStep popInit ops = some r → ∀ env cmd reg, RollsBack env r cmd reg := by
  intro h
  have hleak := h [] popInit rfl { cardEnv with miscRegister := -16 } .p2pmemReg cardReg (by decide)
  exact absurd hleak.objs (by decide)

end Libpop.Proofs
