import Mathlib.Algebra.Order.BigOperators.Group.List
import Mathlib.Algebra.Order.Group.Nat
import Mathlib.Data.List.Nodup
import Mathlib.Data.List.Perm.Basic
import Libpop.Execution
import Libpop.Kmod

/-!
# Exits of the ioctl handler

Every way out of `pop_ioctl`, with the guards that lead to it and the state it leaves.
The resource theorems split on these exits and never unfold the handler again.
-/

namespace Libpop.Proofs
open Execution

attribute [simp] Registry.pciDevGet Registry.pciDevPut Registry.pciAllocP2pmem
  Registry.pciFreeP2pmem Registry.kmalloc Registry.kfree Registry.miscRegister
  Registry.miscDeregister Registry.listAddTail Registry.listDel

/-- The name of the node of a device. -/
def nodeName (pciName : PciDev → List Char) (pdev : PciDev) : List Char :=
  ("pop/".toList ++ pciName pdev).take (devnamelen - 1)

/-- The `pop_dev` that a registration builds on the object that `kmalloc` gives. -/
def newPopDev (env : KernelEnv) (r : Registry) (pdev : PciDev) (p2pmem size : BitVec 64) : PopDev :=
  { id := (env.kmallocAddr r.objs).val, pdev := pdev, p2pmem := p2pmem, size := size, refcnt := 0
    devname := nodeName env.pciName pdev }

/-- The state in which a registration has published its device. -/
def registered (env : KernelEnv) (r : Registry) (pdev : PciDev)
    (p2pmem size : BitVec 64) : Registry :=
  let ppdev := newPopDev env r pdev p2pmem size
  (((r.pciAllocP2pmem ppdev.block).kmalloc ppdev.id).miscRegister ppdev).listAddTail ppdev

/-- The external calls of a new registration all succeed. -/
def Publishes (env : KernelEnv) (pdev : PciDev) (size : BitVec 64) : Prop :=
  (env.pciAllocP2pmem pdev (requestSize env pdev size)).isSome ∧ env.kmalloc = true ∧ env.miscRegister = 0

/-- `POP_P2PMEM_REG` adds a device to the list: it finds one that is not there yet, and every call
succeeds up to the publication. -/
structure Registers (env : KernelEnv) (r : Registry) (reg : P2pmemReg) (pdev : PciDev) : Prop where
  copied : env.copyFromUser = true
  found : env.lookup reg = some pdev
  p2pmem : env.pciHasP2pmem pdev = true
  new : popFindDev r pdev = none
  published : Publishes env pdev reg.size

inductive RegisterExit (env : KernelEnv) (r : Registry) (pdev : PciDev) (size : BitVec 64) :
    RegisterResult → Prop
  | already (ppdev : PopDev) (hf : popFindDev r pdev = some ppdev) :
      RegisterExit env r pdev size ⟨r, Word.toInt32 ppdev.size, none⟩
  | noAlloc (hf : popFindDev r pdev = none)
      (ha : env.pciAllocP2pmem pdev (requestSize env pdev size) = none) :
      RegisterExit env r pdev size ⟨r, -enomem, some .allocP2pmem⟩
  | noObject (p2pmem : BitVec 64) (hf : popFindDev r pdev = none)
      (ha : env.pciAllocP2pmem pdev (requestSize env pdev size) = some p2pmem)
      (hk : env.kmalloc = false) :
      RegisterExit env r pdev size
        ⟨(r.pciAllocP2pmem ⟨pdev, p2pmem, requestSize env pdev size⟩).pciFreeP2pmem
          ⟨pdev, p2pmem, requestSize env pdev size⟩, -enomem, some .kmalloc⟩
  | noNode (p2pmem : BitVec 64) (hf : popFindDev r pdev = none)
      (ha : env.pciAllocP2pmem pdev (requestSize env pdev size) = some p2pmem)
      (hk : env.kmalloc = true) (hm : env.miscRegister ≠ 0) :
      RegisterExit env r pdev size
        ⟨((r.pciAllocP2pmem ⟨pdev, p2pmem, requestSize env pdev size⟩).kmalloc
            (env.kmallocAddr r.objs).val).pciFreeP2pmem
          ⟨pdev, p2pmem, requestSize env pdev size⟩, -einval, some .miscRegister⟩
  | published (p2pmem : BitVec 64) (hf : popFindDev r pdev = none)
      (ha : env.pciAllocP2pmem pdev (requestSize env pdev size) = some p2pmem)
      (hk : env.kmalloc = true) (hm : env.miscRegister = 0) :
      RegisterExit env r pdev size
        ⟨registered env r pdev p2pmem (requestSize env pdev size),
          Word.toInt32 (requestSize env pdev size), none⟩

theorem popRegisterP2pmem_exit (env : KernelEnv) (r : Registry) (pdev : PciDev) (size : BitVec 64) :
    RegisterExit env r pdev size (popRegisterP2pmem env r pdev size) := by
  unfold popRegisterP2pmem
  cases hf : popFindDev r pdev with
  | some ppdev => exact .already ppdev hf
  | none =>
    dsimp only
    cases ha : env.pciAllocP2pmem pdev (requestSize env pdev size) with
    | none => exact .noAlloc hf ha
    | some p2pmem =>
      dsimp only
      by_cases hk : env.kmalloc = true
      · rw [if_pos hk]
        by_cases hm : env.miscRegister = 0
        · rw [if_pos hm]
          exact .published p2pmem hf ha hk hm
        · rw [if_neg hm]
          exact .noNode p2pmem hf ha hk hm
      · rw [if_neg hk]
        exact .noObject p2pmem hf ha (by simpa using hk)

/-- Exits of `POP_P2PMEM_REG`. From `pci_has_p2pmem` on, the reference of this call is held. -/
inductive RegExit (env : KernelEnv) (r : Registry) (reg : P2pmemReg) : IoctlResult → Prop
  | noCopy (hc : env.copyFromUser = false) :
      RegExit env r reg ⟨r, -efault, none, some .copyFromUser⟩
  | noDevice (hc : env.copyFromUser = true) (hd : env.lookup reg = none) :
      RegExit env r reg ⟨r, -enodev, none, some .unknownDevice⟩
  | noP2pmem (pdev : PciDev) (hc : env.copyFromUser = true) (hd : env.lookup reg = some pdev)
      (hp : env.pciHasP2pmem pdev = false) :
      RegExit env r reg (devPutOut (r.pciDevGet pdev) pdev (-einval) (some .noP2pmem))
  | report (pdev : PciDev) (res : RegisterResult) (hc : env.copyFromUser = true)
      (hd : env.lookup reg = some pdev) (hp : env.pciHasP2pmem pdev = true)
      (hres : RegisterExit env (r.pciDevGet pdev) pdev reg.size res) :
      RegExit env r reg (regReport env reg pdev res)

theorem popIoctl_reg_exit (env : KernelEnv) (r : Registry) (reg : P2pmemReg) :
    RegExit env r reg (popIoctl env r .p2pmemReg reg) := by
  dsimp only [popIoctl]
  by_cases hc : env.copyFromUser = true
  · rw [if_pos hc]
    cases hd : env.lookup reg with
    | none => exact .noDevice hc hd
    | some pdev =>
      dsimp only
      by_cases hp : env.pciHasP2pmem pdev = true
      · rw [if_pos hp]
        exact .report pdev _ hc hd hp (popRegisterP2pmem_exit env _ pdev reg.size)
      · rw [if_neg hp]
        exact .noP2pmem pdev hc hd (by simpa using hp)
  · rw [if_neg hc]
    exact .noCopy (by simpa using hc)

/-- What a registration that adds its device leaves and reports. -/
lemma Registers.popIoctl_eq {env : KernelEnv} {r : Registry} {reg : P2pmemReg} {pdev : PciDev}
    (h : Registers env r reg pdev) :
    ∃ p2pmem, popIoctl env r .p2pmemReg reg = regReport env reg pdev
      ⟨registered env (r.pciDevGet pdev) pdev p2pmem (requestSize env pdev reg.size),
        Word.toInt32 (requestSize env pdev reg.size), none⟩ := by
  obtain ⟨halloc, hobject, hnode⟩ := h.published
  have hx := popIoctl_reg_exit env r reg
  generalize popIoctl env r .p2pmemReg reg = res at hx ⊢
  cases hx with
  | noCopy hc => simp [h.copied] at hc
  | noDevice hc hd => simp [h.found] at hd
  | noP2pmem pdev' hc hd hp =>
    rw [h.found, Option.some.injEq] at hd
    subst hd
    simp [h.p2pmem] at hp
  | report pdev' res hc hd hp hres =>
    rw [h.found, Option.some.injEq] at hd
    subst hd
    cases hres with
    | already ppdev hf =>
      have hnone : popFindDev (r.pciDevGet pdev) pdev = none := h.new
      rw [hnone] at hf
      cases hf
    | noAlloc hf ha => simp [ha] at halloc
    | noObject p2pmem hf ha hk => simp [hk] at hobject
    | noNode p2pmem hf ha hk hm => exact absurd hnode hm
    | published p2pmem hf ha hk hm => exact ⟨p2pmem, rfl⟩

inductive UnregExit (env : KernelEnv) (r : Registry) (reg : P2pmemReg) : IoctlResult → Prop
  | noCopy (hc : env.copyFromUser = false) :
      UnregExit env r reg ⟨r, -efault, none, some .copyFromUser⟩
  | noDevice (hc : env.copyFromUser = true) (hd : env.lookup reg = none) :
      UnregExit env r reg ⟨r, -enodev, none, some .unknownDevice⟩
  | notRegistered (pdev : PciDev) (hc : env.copyFromUser = true) (hd : env.lookup reg = some pdev)
      (hf : popFindDev r pdev = none) :
      UnregExit env r reg (devPutOut (r.pciDevGet pdev) pdev (-enodev) (some .unknownDevice))
  | unregistered (pdev : PciDev) (ppdev : PopDev) (hc : env.copyFromUser = true)
      (hd : env.lookup reg = some pdev) (hf : popFindDev r pdev = some ppdev) :
      UnregExit env r reg ⟨popUnregisterP2pmem (r.pciDevGet pdev) ppdev, 0, none, none⟩

theorem popIoctl_unreg_exit (env : KernelEnv) (r : Registry) (reg : P2pmemReg) :
    UnregExit env r reg (popIoctl env r .p2pmemUnreg reg) := by
  dsimp only [popIoctl]
  by_cases hc : env.copyFromUser = true
  · rw [if_pos hc]
    cases hd : env.lookup reg with
    | none => exact .noDevice hc hd
    | some pdev =>
      dsimp only
      cases hf : popFindDev r pdev with
      | none =>
        have hf' : popFindDev (r.pciDevGet pdev) pdev = none := hf
        rw [hf']
        exact .notRegistered pdev hc hd hf
      | some ppdev =>
        have hf' : popFindDev (r.pciDevGet pdev) pdev = some ppdev := hf
        rw [hf']
        exact .unregistered pdev ppdev hc hd hf
  · rw [if_neg hc]
    exact .noCopy (by simpa using hc)

/-- Once the lookup has answered, a condition on the device it finds is about that device. -/
lemma forall_lookup_iff {env : KernelEnv} {reg : P2pmemReg} {pdev : PciDev}
    (hc : env.copyFromUser = true) (hd : env.lookup reg = some pdev) (Q : PciDev → Prop) :
    (∀ pdev', env.copyFromUser = true → env.lookup reg = some pdev' → Q pdev') ↔ Q pdev := by
  constructor
  · intro h
    exact h pdev hc hd
  · intro h pdev' _ hd'
    rw [hd, Option.some.injEq] at hd'
    exact hd' ▸ h

/-! ### Devices on the list -/

lemma popFindDev_some {r : Registry} {pdev : PciDev} {ppdev : PopDev}
    (h : popFindDev r pdev = some ppdev) : ppdev ∈ r.devList ∧ ppdev.pdev = pdev :=
  ⟨List.mem_of_find?_eq_some h, by simpa using List.find?_some h⟩

lemma popFindDev_none_iff {r : Registry} {pdev : PciDev} :
    popFindDev r pdev = none ↔ pdev ∉ r.devList.map PopDev.pdev := by
  simp [popFindDev, List.find?_eq_none]

lemma filter_id_of_notMem {l : List PopDev} {id : PopDevId} (h : id ∉ l.map PopDev.id) :
    l.filter (fun d => d.id != id) = l := by
  apply List.filter_eq_self.mpr
  intro d hd
  have hne : d.id ≠ id := fun he => h (he ▸ List.mem_map_of_mem hd)
  simpa using hne

/-- Unlinking by address splits exactly one entry off the list. -/
lemma perm_cons_filter_id {l : List PopDev} {ppdev : PopDev} (hl : (l.map PopDev.id).Nodup)
    (hm : ppdev ∈ l) : l.Perm (ppdev :: l.filter (fun d => d.id != ppdev.id)) := by
  induction l with
  | nil => simp at hm
  | cons d l ih =>
    rw [List.map_cons, List.nodup_cons] at hl
    by_cases hd : d = ppdev
    · subst hd
      simp [filter_id_of_notMem hl.1]
    · have hm' : ppdev ∈ l := (List.mem_cons.mp hm).resolve_left (fun h => hd h.symm)
      have hne : d.id ≠ ppdev.id := fun h => hl.1 (h ▸ List.mem_map_of_mem hm')
      rw [List.filter_cons_of_pos (by simpa using hne)]
      exact ((ih hl.2 hm').cons d).trans (List.Perm.swap _ _ _)

/-- What every reachable registry keeps: one entry per device and per object, live objects and
whole pages. -/
structure RegistryInv (r : Registry) : Prop where
  pdevs_nodup : (r.devList.map PopDev.pdev).Nodup
  ids_nodup : (r.devList.map PopDev.id).Nodup
  ids_live : ∀ d ∈ r.devList, d.id ∈ r.objs
  pages : ∀ d ∈ r.devList, pageSize ∣ d.size.toNat

lemma registryInv_popInit : RegistryInv popInit where
  pdevs_nodup := List.nodup_nil
  ids_nodup := List.nodup_nil
  ids_live := by simp [popInit]
  pages := by simp [popInit]

/-- The invariant depends on the list and the live objects only. -/
lemma RegistryInv.congr {r s : Registry} (h : RegistryInv r) (hl : s.devList = r.devList)
    (ho : r.objs ⊆ s.objs) : RegistryInv s where
  pdevs_nodup := hl ▸ h.pdevs_nodup
  ids_nodup := hl ▸ h.ids_nodup
  ids_live := fun d hd => ho (h.ids_live d (hl ▸ hd))
  pages := hl ▸ h.pages

lemma RegistryInv.sublist {r s : Registry} (h : RegistryInv r) (hl : s.devList.Sublist r.devList)
    (ho : ∀ d ∈ s.devList, d.id ∈ r.objs → d.id ∈ s.objs) : RegistryInv s where
  pdevs_nodup := h.pdevs_nodup.sublist (hl.map _)
  ids_nodup := h.ids_nodup.sublist (hl.map _)
  ids_live := fun d hd => ho d hd (h.ids_live d (hl.subset hd))
  pages := fun d hd => h.pages d (hl.subset hd)

lemma RegistryInv.fresh_notMem {r : Registry} (h : RegistryInv r) {id : PopDevId}
    (hid : id ∉ r.objs) : id ∉ r.devList.map PopDev.id := by
  intro hmem
  obtain ⟨d, hd, rfl⟩ := List.mem_map.mp hmem
  exact hid (h.ids_live d hd)

lemma RegistryInv.registered {r : Registry} (h : RegistryInv r) (env : KernelEnv) (pdev : PciDev)
    (p2pmem size : BitVec 64) (hf : popFindDev r pdev = none) (hs : pageSize ∣ size.toNat) :
    RegistryInv (registered env r pdev p2pmem size) where
  pdevs_nodup := by
    have hnot := popFindDev_none_iff.mp hf
    simp only [Proofs.registered, newPopDev, Registry.listAddTail, Registry.miscRegister,
      Registry.kmalloc, Registry.pciAllocP2pmem, List.map_append, List.map_cons, List.map_nil]
    exact List.nodup_append'.mpr ⟨h.pdevs_nodup, List.nodup_singleton _, by simpa using hnot⟩
  ids_nodup := by
    have hnot := h.fresh_notMem (env.kmallocAddr r.objs).property
    simp only [Proofs.registered, newPopDev, Registry.listAddTail, Registry.miscRegister,
      Registry.kmalloc, Registry.pciAllocP2pmem, List.map_append, List.map_cons, List.map_nil]
    exact List.nodup_append'.mpr ⟨h.ids_nodup, List.nodup_singleton _, by simpa using hnot⟩
  ids_live := by
    intro d hd
    simp only [Proofs.registered, newPopDev, Registry.listAddTail, Registry.miscRegister,
      Registry.kmalloc, Registry.pciAllocP2pmem, List.mem_append, List.mem_singleton] at hd ⊢
    rcases hd with hd | rfl
    · exact .inl (h.ids_live d hd)
    · exact .inr rfl
  pages := by
    intro d hd
    simp only [Proofs.registered, newPopDev, Registry.listAddTail, Registry.miscRegister,
      Registry.kmalloc, Registry.pciAllocP2pmem, List.mem_append, List.mem_singleton] at hd
    rcases hd with hd | rfl
    · exact h.pages d hd
    · exact hs

lemma popFindDev_filter_none {r : Registry} (h : RegistryInv r) {ppdev : PopDev}
    (hm : ppdev ∈ r.devList) :
    ppdev.pdev ∉ (r.devList.filter (fun d => d.id != ppdev.id)).map PopDev.pdev := by
  have hp := (perm_cons_filter_id h.ids_nodup hm).map PopDev.pdev
  have hn := hp.nodup_iff.mp h.pdevs_nodup
  exact (List.nodup_cons.mp hn).1

/-! ### Unloading -/

/-- `pop_exit` walks the list it is emptying: every entry is unregistered once. -/
lemma foldl_popUnregisterP2pmem (l : List PopDev) (r : Registry) (hl : r.devList = l)
    (hn : (l.map PopDev.id).Nodup) :
    (l.foldl popUnregisterP2pmem r).devList = [] ∧
      (l.foldl popUnregisterP2pmem r).allocs = r.allocs ∧
      (l.foldl popUnregisterP2pmem r).frees = r.frees ++ l.map PopDev.block ∧
      ∀ p, (l.foldl popUnregisterP2pmem r).refs p = r.refs p - (l.map PopDev.pdev).count p := by
  induction l generalizing r with
  | nil => simp [hl]
  | cons d l ih =>
    rw [List.map_cons, List.nodup_cons] at hn
    have hstep : (popUnregisterP2pmem r d).devList = l := by
      simp [popUnregisterP2pmem, hl, filter_id_of_notMem hn.1]
    obtain ⟨hd, ha, hfr, hr⟩ := ih (popUnregisterP2pmem r d) hstep hn.2
    rw [List.foldl_cons]
    refine ⟨hd, by simpa [popUnregisterP2pmem] using ha, ?_, ?_⟩
    · simpa [popUnregisterP2pmem] using hfr
    · intro p
      rw [hr p]
      by_cases hp : p = d.pdev
      · subst hp
        simp [popUnregisterP2pmem]
        omega
      · have hp' : d.pdev ≠ p := fun h => hp h.symm
        simp [popUnregisterP2pmem, Function.update_of_ne hp, List.count_cons_of_ne hp']

theorem popExit_spec {r : Registry} (h : RegistryInv r) :
    (popExit r).devList = [] ∧ (popExit r).allocs = r.allocs ∧
      (popExit r).frees = r.frees ++ r.devList.map PopDev.block ∧
      ∀ p, (popExit r).refs p = r.refs p - (r.devList.map PopDev.pdev).count p :=
  foldl_popUnregisterP2pmem r.devList r rfl h.ids_nodup

/-! ### The invariant along runs -/

lemma pageSize_dvd_requestSize (env : KernelEnv) (pdev : PciDev) (size : BitVec 64) :
    pageSize ∣ (requestSize env pdev size).toNat :=
  Word.dvd_toNat_roundUp _

lemma RegisterExit.inv {env : KernelEnv} {r : Registry} {pdev : PciDev} {size : BitVec 64}
    {res : RegisterResult} (hx : RegisterExit env r pdev size res) (h : RegistryInv r) :
    RegistryInv res.registry := by
  cases hx with
  | already ppdev hf => exact h
  | noAlloc hf ha => exact h
  | noObject p2pmem hf ha hk => exact h.congr rfl (List.Subset.refl _)
  | noNode p2pmem hf ha hk hm => exact h.congr rfl (List.subset_append_left _ _)
  | published p2pmem hf ha hk hm =>
    exact h.registered env pdev p2pmem _ hf (pageSize_dvd_requestSize _ _ _)

/-- Reporting at most drops a reference. -/
lemma regReport_registry (env : KernelEnv) (reg : P2pmemReg) (pdev : PciDev)
    (res : RegisterResult) :
    (regReport env reg pdev res).registry = res.registry ∨
      (regReport env reg pdev res).registry = res.registry.pciDevPut pdev := by
  unfold regReport
  split
  · exact .inr rfl
  · split
    · exact .inl rfl
    · exact .inr rfl

lemma regReport_inv {env : KernelEnv} {reg : P2pmemReg} {pdev : PciDev} {res : RegisterResult}
    (h : RegistryInv res.registry) : RegistryInv (regReport env reg pdev res).registry := by
  rcases regReport_registry env reg pdev res with he | he
  · exact he ▸ h
  · exact he ▸ h.congr rfl (List.Subset.refl _)

lemma popIoctl_inv {r : Registry} (h : RegistryInv r) (env : KernelEnv) (cmd : IoctlCmd)
    (reg : P2pmemReg) : RegistryInv (popIoctl env r cmd reg).registry := by
  cases cmd with
  | p2pmemReg =>
    have hx := popIoctl_reg_exit env r reg
    generalize popIoctl env r .p2pmemReg reg = res at hx ⊢
    cases hx with
    | noCopy hc => exact h
    | noDevice hc hd => exact h
    | noP2pmem pdev hc hd hp => exact h.congr rfl (List.Subset.refl _)
    | report pdev res hc hd hp hres =>
      exact regReport_inv (hres.inv (h.congr rfl (List.Subset.refl _)))
  | p2pmemUnreg =>
    have hx := popIoctl_unreg_exit env r reg
    generalize popIoctl env r .p2pmemUnreg reg = res at hx ⊢
    cases hx with
    | noCopy hc => exact h
    | noDevice hc hd => exact h
    | notRegistered pdev hc hd hf => exact h.congr rfl (List.Subset.refl _)
    | unregistered pdev ppdev hc hd hf =>
      refine h.sublist List.filter_sublist fun d hd hmem => ?_
      have hne : d.id ≠ ppdev.id := by simpa using (List.mem_filter.mp hd).2
      exact (List.mem_erase_of_ne hne).mpr hmem
  | other cmd => exact h

lemma registryStep_cases {r s : Registry} {op : RegistryOp} (h : registryStep r op = some s) :
    r.popMdev = true ∧ ((∃ env cmd reg, op = .ioctl env cmd reg ∧ s = (popIoctl env r cmd reg).registry) ∨
      (op = .exit ∧ s = popExit r)) := by
  unfold registryStep at h
  split at h
  · rename_i hm
    refine ⟨hm, ?_⟩
    cases op with
    | ioctl env cmd reg => exact .inl ⟨env, cmd, reg, rfl, by simpa using h.symm⟩
    | exit => exact .inr ⟨rfl, by simpa using h.symm⟩
  · cases h

lemma registryInv_step (r : Registry) (op : RegistryOp) (s : Registry) (h : RegistryInv r)
    (hs : registryStep r op = some s) : RegistryInv s := by
  obtain ⟨-, ⟨env, cmd, reg, -, rfl⟩ | ⟨-, rfl⟩⟩ := registryStep_cases hs
  · exact popIoctl_inv h env cmd reg
  · obtain ⟨hd, -⟩ := popExit_spec h
    refine h.sublist (hd ▸ List.nil_sublist _) fun d hmem => ?_
    rw [hd] at hmem
    exact absurd hmem List.not_mem_nil

/-- Every reachable registry has one entry per device, whole pages and live objects. -/
theorem registryInv_reachable {ops : List RegistryOp} {r : Registry}
    (h : exec registryStep popInit ops = some r) : RegistryInv r :=
  exec_invariant registryInv_step registryInv_popInit h

/-! ### A card for concrete runs -/

/-- An address beyond all live ones, which is the first one again once all objects are freed. -/
def nextObj (live : List PopDevId) : { id : PopDevId // id ∉ live } where
  val := live.sum + live.length
  property := by
    intro hmem
    have hlt := Nat.lt_add_of_pos_right (n := live.sum) (List.length_pos_of_mem hmem)
    exact absurd (List.le_sum_of_mem hmem) (Nat.not_le.mpr hlt)

/-- A machine with one p2pmem card, in slot 0000:17:00.0, on which every call succeeds. -/
def cardEnv : KernelEnv where
  copyFromUser := true
  pciGetDomainBusAndSlot := fun domain bus devfn =>
    if domain = 0 ∧ bus = 0x17 ∧ devfn = 0 then some 7 else none
  pciName := fun _ => "0000:17:00.0".toList
  pciHasP2pmem := fun _ => true
  genPoolSize := fun _ => some 0x10000
  pciAllocP2pmem := fun _ _ => some 0xffff888380000000
  kmalloc := true
  kmallocAddr := nextObj
  miscRegister := 0
  copyToUser := true

def cardReg : P2pmemReg := ⟨0, 0x17, 0, 0, 0⟩

end Libpop.Proofs
