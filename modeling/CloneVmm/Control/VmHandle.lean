import CloneVmm.Memory.DirtyLog

namespace CloneVmm.Control

open CloneVmm.Memory

structure VmHandle where
  memMb : Nat
  kvmSlotSize : Nat
  memMb_lt : memMb < 2 ^ 32
  covers : memMb * 2 ^ 20 ≤ kvmSlotSize

namespace VmHandle

def memSize (vm : VmHandle) : Nat := vm.memMb * 2 ^ 20

def totalPages (vm : VmHandle) : Nat := vm.memSize / pageSize

def getDirtyBitmap (vm : VmHandle) (kvm : DirtyLog) : List UInt8 × DirtyLog :=
  (DirtyPageTracker.new vm.kvmSlotSize).getDirtyBitmap kvm

theorem memSize_eq (vm : VmHandle) : vm.memSize = vm.totalPages * pageSize := by
  simp only [totalPages, memSize, pageSize]
  omega

theorem lt_totalPages (vm : VmHandle) {a : Nat} (ha : a < vm.memSize) :
    a / pageSize < vm.totalPages := by
  simp only [totalPages, memSize, pageSize] at *
  omega

theorem totalPages_le (vm : VmHandle) : vm.totalPages ≤ vm.kvmSlotSize / pageSize :=
  Nat.div_le_div_right vm.covers

theorem pageDirty_getDirtyBitmap (vm : VmHandle) (kvm : DirtyLog) {page : Nat}
    (hpage : page < vm.totalPages) : pageDirty (vm.getDirtyBitmap kvm).1 page = kvm.reported page := by
  have hle := vm.totalPages_le
  exact getDirtyBitmap_pageDirty _ _ _ (by omega)

end VmHandle

def smallVm : VmHandle := ⟨1, 2 ^ 20, by decide, by decide⟩

end CloneVmm.Control
