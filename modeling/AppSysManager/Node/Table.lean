import Mathlib.Algebra.Ring.Nat
import Mathlib.Data.List.Basic
import Mathlib.Data.Int.Basic

/-!
# Parameter Table of app-sys-manager

The parameters `main.c` defines with `PARAM_DEFINE_STATIC_VMEM` and
`PARAM_DEFINE_STATIC_RAM`, in the order of their definitions, and the lookup
`param_list_find_id` over them.  In which order the linker places them in the `param` section
is not for the source to say; as no two have the same id, the lookup does not depend on it.

All nine parameters are local (`node = 0`).  The program never calls
`param_list_add`, so the dynamic part of the list stays empty and the table is the
whole list.  Units, names as text and doc strings are not read by any modelled
function and are left out, as are the floating-point types, of which the node has no
parameter.
-/

namespace AppSysManager.Node

/-! ## §1 Parameter descriptions -/

/-- The parameters of `main.c`. -/
inductive ParamName where
  | canAddr
  | canNetmask
  | suspendOnBoot
  | suspendA53
  | vimbaInstall
  | mngCameraControl
  | mngDipp
  | switchM7Bin
  | stdoutBuf
  deriving DecidableEq, Repr

/-- `param_type_e` without `PARAM_TYPE_FLOAT`, `PARAM_TYPE_DOUBLE` and
    `PARAM_TYPE_INVALID`. -/
inductive ParamType where
  | uint8 | uint16 | uint32 | uint64
  | int8 | int16 | int32 | int64
  | xint8 | xint16 | xint32 | xint64
  | string | data
  deriving DecidableEq, Repr

/-- `param_typesize`. -/
def ParamType.size : ParamType → Nat
  | .uint8 | .int8 | .xint8 => 1
  | .uint16 | .int16 | .xint16 => 2
  | .uint32 | .int32 | .xint32 => 4
  | .uint64 | .int64 | .xint64 => 8
  | .string | .data => 1

/-- The callbacks of `main.c`; `switch_m7_bin_callback` is not attached to any parameter. -/
inductive Callback where
  | canAddr
  | canNetmask
  | suspendOnBoot
  | suspendA53
  | vimbaInstall
  | mngCameraControl
  | mngDipp
  deriving DecidableEq, Repr

/-- `PM_READONLY`: "Readonly by any". -/
def PM_READONLY : Nat := 2 ^ 0

/-- `PM_CONF`. -/
def PM_CONF : Nat := 2 ^ 2

/-- `PM_SYSCONF`. -/
def PM_SYSCONF : Nat := 2 ^ 7

/-- `param_t`. `addr` is the offset in `vmem_config_buf` of a VMEM parameter; a RAM
    parameter starts at offset 0 of its own object. -/
structure Param where
  name : ParamName
  id : Nat
  node : Nat
  type : ParamType
  mask : Nat
  addr : Nat
  vmem : Bool
  arraySize : Nat
  arrayStep : Nat
  callback : Option Callback
  deriving DecidableEq, Repr

/-- `.array_size = _array_count < 1 ? 1 : _array_count`. -/
def arraySizeOf (arrayCount : Int) : Nat := if arrayCount < 1 then 1 else arrayCount.toNat

/-- `PARAM_DEFINE_STATIC_RAM`. -/
def paramDefineStaticRam (id : Nat) (name : ParamName) (type : ParamType) (arrayCount : Int)
    (arrayStep flags : Nat) (callback : Option Callback) : Param :=
  { name, id, node := 0, type, mask := flags, addr := 0, vmem := false,
    arraySize := arraySizeOf arrayCount, arrayStep, callback }

/-- `PARAM_DEFINE_STATIC_VMEM` in the vmem area `config`. -/
def paramDefineStaticVmem (id : Nat) (name : ParamName) (type : ParamType) (arrayCount : Int)
    (arrayStep flags : Nat) (callback : Option Callback) (vmemAddr : Nat) : Param :=
  { name, id, node := 0, type, mask := flags, addr := vmemAddr, vmem := true,
    arraySize := arraySizeOf arrayCount, arrayStep, callback }

/-! ## §2 The table -/

/-- `STDBUF_SIZE`. -/
def STDBUF_SIZE : Nat := 110

def canAddr : Param :=
  paramDefineStaticVmem 21 .canAddr .uint16 (-1) 0 PM_SYSCONF (some .canAddr) 0x10

def canNetmask : Param :=
  paramDefineStaticVmem 22 .canNetmask .uint16 (-1) 0 PM_SYSCONF (some .canNetmask) 0x12

def suspendOnBoot : Param :=
  paramDefineStaticVmem 23 .suspendOnBoot .uint8 (-1) 0 PM_SYSCONF (some .suspendOnBoot) 0x100

def suspendA53 : Param :=
  paramDefineStaticRam 31 .suspendA53 .uint8 (-1) 0 PM_CONF (some .suspendA53)

def vimbaInstall : Param :=
  paramDefineStaticRam 32 .vimbaInstall .uint8 (-1) 0 PM_CONF (some .vimbaInstall)

def mngCameraControl : Param :=
  paramDefineStaticRam 33 .mngCameraControl .uint8 (-1) 0 PM_CONF (some .mngCameraControl)

def mngDipp : Param :=
  paramDefineStaticRam 34 .mngDipp .uint8 (-1) 0 PM_CONF (some .mngDipp)

def switchM7Bin : Param :=
  paramDefineStaticRam 35 .switchM7Bin .uint8 (-1) 0 PM_READONLY none

def stdoutBuf : Param :=
  paramDefineStaticRam 41 .stdoutBuf .string (STDBUF_SIZE + 1) 1 PM_READONLY none

/-- The parameters in the `param` section of the program, in the order of the definitions. -/
def paramTable : List Param :=
  [canAddr, canNetmask, suspendOnBoot, suspendA53, vimbaInstall, mngCameraControl, mngDipp,
    switchM7Bin, stdoutBuf]

/-- The table entry of a parameter. -/
def ParamName.param : ParamName → Param
  | .canAddr => Node.canAddr
  | .canNetmask => Node.canNetmask
  | .suspendOnBoot => Node.suspendOnBoot
  | .suspendA53 => Node.suspendA53
  | .vimbaInstall => Node.vimbaInstall
  | .mngCameraControl => Node.mngCameraControl
  | .mngDipp => Node.mngDipp
  | .switchM7Bin => Node.switchM7Bin
  | .stdoutBuf => Node.stdoutBuf

/-- Bytes of storage declared for a parameter: the object `_stdbuf[STDBUF_SIZE + 1]`, a
    `uint8_t` global, or the place of its type in `vmem_config_buf`. -/
def ParamName.storage : ParamName → Nat
  | .canAddr | .canNetmask => 2
  | .stdoutBuf => STDBUF_SIZE + 1
  | _ => 1

/-- `param_list_find_id`. -/
def paramListFindId (node id : Int) : Option Param :=
  let node := if node < 0 then 0 else node
  paramTable.find? fun p => decide ((p.node : Int) = node ∧ (p.id : Int) = id)

/-! ## §3 Facts about the table -/

/-- The table holds exactly one entry for each name. -/
theorem eq_param_of_mem {p : Param} (h : p ∈ paramTable) : p = p.name.param := by
  simp only [paramTable, List.mem_cons, List.not_mem_nil, or_false] at h
  rcases h with rfl | rfl | rfl | rfl | rfl | rfl | rfl | rfl | rfl <;> rfl

theorem mem_of_paramListFindId {node id : Int} {p : Param}
    (h : paramListFindId node id = some p) : p ∈ paramTable := by
  unfold paramListFindId at h
  exact List.mem_of_find?_eq_some h

/-- Only node 0, and negative nodes, have parameters here. -/
theorem paramListFindId_remote {node : Int} (id : Int) (h : 0 < node) :
    paramListFindId node id = none := by
  have hneg : ¬ node < 0 := by omega
  rw [paramListFindId, List.find?_eq_none]
  intro p hp
  have hnode : (p.node : Int) = 0 := by rw [eq_param_of_mem hp]; cases p.name <;> rfl
  simp only [hneg, if_false, hnode, decide_eq_true_eq]
  omega

/-- Every parameter is found under its own id. -/
theorem paramListFindId_param (name : ParamName) :
    paramListFindId 0 name.param.id = some name.param := by
  cases name <;> decide

/-- No two parameters have the same id. -/
theorem eq_of_id_eq {p q : Param} (hp : p ∈ paramTable) (hq : q ∈ paramTable) (h : p.id = q.id) :
    p = q := by
  have hfind : some p = some q := by
    rw [eq_param_of_mem hp, eq_param_of_mem hq, ← paramListFindId_param, ← paramListFindId_param,
      ← eq_param_of_mem hp, ← eq_param_of_mem hq, h]
  exact Option.some.inj hfind

/-- A lookup finds the same parameter in whatever order the linker has placed them. -/
theorem paramListFindId_perm {table : List Param} (h : table.Perm paramTable) (node id : Int) :
    (table.find? fun p =>
      decide ((p.node : Int) = (if node < 0 then 0 else node) ∧ (p.id : Int) = id)) =
      paramListFindId node id := by
  rw [paramListFindId]
  cases hfind : table.find? fun p =>
      decide ((p.node : Int) = (if node < 0 then 0 else node) ∧ (p.id : Int) = id) with
  | none =>
    rw [List.find?_eq_none] at hfind
    exact (List.find?_eq_none.mpr fun p hp => hfind p (h.mem_iff.mpr hp)).symm
  | some p =>
    have hp : p ∈ paramTable := h.mem_iff.mp (List.mem_of_find?_eq_some hfind)
    have hmatch := List.find?_some hfind
    cases hfind' : paramTable.find? fun p =>
        decide ((p.node : Int) = (if node < 0 then 0 else node) ∧ (p.id : Int) = id) with
    | none => exact absurd hmatch (List.find?_eq_none.mp hfind' p hp)
    -- both have the same id
    | some q =>
      have hmatch' := List.find?_some hfind'
      have hid := (of_decide_eq_true hmatch).2
      have hid' := (of_decide_eq_true hmatch').2
      have hsame : p.id = q.id := by exact_mod_cast hid.trans hid'.symm
      exact congrArg some (eq_of_id_eq hp (List.mem_of_find?_eq_some hfind') hsame)

end AppSysManager.Node
