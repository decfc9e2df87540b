import AppSysManager.Shell.Command
import AppSysManager.Shell.Environment

/-!
# The Installer Script

`update.txt` of the boot medium: the script that the boot loader runs at every boot from the
medium to install `uboot`, `nboot` and the root file system, one of them per boot.

A `Machine` has the environment in RAM and its saved copy, the memory behind `loadaddr` and the
eMMC user area.  A boot starts with the saved environment and loses everything else but the
eMMC; `saveenv` copies RAM to the saved environment.  Whatever the outside world answers
(`load`, `size`, `fsimage save`, `mmc write`) is an input of the boot.

`run name` executes the text of a variable.  The variables that the script runs this way are
the four that it sets in its first lines, so they are modelled as commands, and the macros of
the boot loader (`.kernel_mmc` and its like), which are inputs.  In
`fsimage save || run do_message && run do_cleanup && exit 1` the shell skips everything behind
`||` when `fsimage save` succeeds.  `setexpr` and `itest` work on numbers of any size.
-/

namespace AppSysManager.Installer

open Shell

/-! ## §1 The machine -/

/-- The variables that the script reads or writes, and all others. -/
inductive Var where
  | updateState
  | updateChunkSize
  | updateChunkPos
  | updateImageSizeRest
  | uCSizeBlk
  | uCPosBlk
  | updatedev
  | doCheck
  | doMessage
  | doCleanup
  | isError
  | filesize
  | loadaddr
  | arch
  | bdKernel
  | bootfile
  | bootfdt
  | platform
  | m7image
  | loadm7image
  | m7boot
  | bootcmd
  | other (name : Text)
  deriving DecidableEq, Repr

/-- The partitions of the NAND flash. -/
inductive Partition where
  | kernel
  | fdt
  | targetFS
  deriving DecidableEq, Repr

/-- The commands for the NAND flash, whose contents are not modelled. -/
inductive NandCommand where
  | erasePart (part : Partition)
  | write (part : Partition) (bytes : Text)
  | ubiPart (part : Partition)
  | ubiCreate
  | ubiWrite (bytes : Text)
  deriving DecidableEq, Repr

/-- What the script does that can be seen from outside.  A `load` carries the number of bytes
    and the offset it was asked for (0 bytes for the whole file), and how many bytes it
    delivered, unless it failed. -/
inductive Event where
  | echo (text : Text)
  | load (file : Text) (bytes pos : Nat) (delivered : Option Nat)
  | fsimageSave (ok : Bool)
  | mmcWrite (blk cnt : Nat) (ok : Bool)
  | nand (command : NandCommand)
  deriving DecidableEq, Repr

/-- What a boot meets: the device it was started from, the memory behind `loadaddr`, the
    answers to its commands and the macros of the boot loader. -/
structure Inputs where
  updatedev : Text
  memory : Nat → UInt8
  /-- What the n-th `load` delivers of a file, given the bytes asked for and the offset. -/
  load : Nat → Text → Nat → Nat → Option (List UInt8)
  size : Option Nat
  fsimageSave : Bool
  /-- Does the n-th `mmc write` succeed? -/
  mmcWrite : Nat → Bool
  kernelMmc : Environment Var → Environment Var
  fdtMmc : Environment Var → Environment Var
  rootfsMmc : Environment Var → Environment Var
  kernelNand : Environment Var → Environment Var
  fdtNand : Environment Var → Environment Var
  rootfsUbifs : Environment Var → Environment Var

/-- The machine while the script runs; `returned` says whether `$?` is zero. -/
structure Machine where
  ram : Environment Var
  saved : Environment Var
  memory : Nat → UInt8
  emmc : Nat → UInt8
  returned : Bool
  loads : Nat
  writes : Nat
  trace : List Event

/-! ## §2 Commands of the boot loader -/

/-- The machine with another `$?`. -/
def Machine.returning (m : Machine) (ok : Bool) : Machine :=
  { m with returned := ok }

/-- A simple command; it sets `$?`. -/
def command (f : Machine → Machine × Bool) : Cmd Machine :=
  simple fun m => ((f m).1.returning (f m).2, (f m).2)

/-- `setenv`. -/
def setenv (v : Var) (text : Environment Var → Text) : Cmd Machine :=
  command fun m => ({ m with ram := m.ram.set v (text m.ram) }, true)

/-- `env delete`. -/
def envDelete (vs : List Var) : Cmd Machine :=
  command fun m => ({ m with ram := m.ram.delete vs }, true)

/-- `saveenv`. -/
def saveenv : Cmd Machine :=
  command fun m => ({ m with saved := m.ram }, true)

/-- `echo`. -/
def echo (text : Environment Var → Text) : Cmd Machine :=
  command fun m => ({ m with trace := m.trace ++ [.echo (text m.ram)] }, true)

/-- `test`. -/
def test (condition : Environment Var → Bool) : Cmd Machine :=
  command fun m => (m, condition m.ram)

/-- `itest`, which fails when one of the numbers is missing. -/
def itest (v : Var) (relation : Nat → Nat → Bool) (w : Environment Var → Option Nat) :
    Cmd Machine :=
  test fun env => match env.number v, w env with
    | some a, some b => relation a b
    | _, _ => false

/-- `setexpr`, which fails when one of the numbers is missing. -/
def setexpr (v : Var) (a : Var) (op : Nat → Nat → Nat) (b : Environment Var → Option Nat) :
    Cmd Machine :=
  command fun m => match m.ram.number a, b m.ram with
    | some x, some y => ({ m with ram := m.ram.set v (hexText (op x y)) }, true)
    | _, _ => (m, false)

/-- `run` of a macro of the boot loader. -/
def runMacro (f : Environment Var → Environment Var) : Cmd Machine :=
  command fun m => ({ m with ram := f m.ram }, true)

/-- Memory after bytes were loaded to its beginning. -/
def loaded (bs : List UInt8) (memory : Nat → UInt8) : Nat → UInt8 :=
  fun k => bs.getD k (memory k)

/-- `load ${updatedev} ${loadaddr} file bytes pos`. -/
def load (i : Inputs) (file : Environment Var → Text) (bytes pos : Environment Var → Nat) :
    Cmd Machine :=
  command fun m =>
    let content := i.load m.loads (file m.ram) (bytes m.ram) (pos m.ram)
    let m := { m with
      loads := m.loads + 1
      trace := m.trace ++
        [.load (file m.ram) (bytes m.ram) (pos m.ram) (content.map List.length)] }
    -- only a load that delivers something sets `filesize`
    match content with
    | some bs =>
      ({ m with memory := loaded bs m.memory, ram := m.ram.set .filesize (hexText bs.length) },
        true)
    | none => (m, false)

/-- `size ${updatedev} file`. -/
def size (i : Inputs) : Cmd Machine :=
  command fun m => match i.size with
    | some n => ({ m with ram := m.ram.set .filesize (hexText n) }, true)
    | none => (m, false)

/-- `fsimage save`. -/
def fsimageSave (i : Inputs) : Cmd Machine :=
  command fun m =>
    ({ m with trace := m.trace ++ [.fsimageSave i.fsimageSave] }, i.fsimageSave)

/-- Bytes in a block of the eMMC. -/
def BLOCK : Nat := 0x200

/-- The eMMC after so many blocks of memory were written to it. -/
def written (memory : Nat → UInt8) (blk cnt : Nat) (emmc : Nat → UInt8) : Nat → UInt8 :=
  fun k => if blk * BLOCK ≤ k ∧ k < (blk + cnt) * BLOCK then memory (k - blk * BLOCK) else emmc k

/-- `mmc write ${loadaddr} blk cnt`. -/
def mmcWrite (i : Inputs) (blk cnt : Var) : Cmd Machine :=
  command fun m => match m.ram.number blk, m.ram.number cnt with
    | some blk, some cnt =>
      ({ m with
          writes := m.writes + 1
          trace := m.trace ++ [.mmcWrite blk cnt (i.mmcWrite m.writes)]
          emmc := bif i.mmcWrite m.writes then written m.memory blk cnt m.emmc else m.emmc },
        i.mmcWrite m.writes)
    | _, _ => (m, false)

/-- A command for the NAND flash. -/
def nand (c : Environment Var → NandCommand) : Cmd Machine :=
  command fun m => ({ m with trace := m.trace ++ [.nand (c m.ram)] }, true)

/-! ## §3 Error handling -/

/-- `do_check`: `$?` is not zero, or more bytes were loaded than a chunk has. -/
def doCheck : Cmd Machine :=
  either (command fun m => (m, !m.returned))
    (itest .filesize (fun a b => decide (b < a)) (·.number .updateChunkSize))

/-- The text of `do_message`. -/
def abortText (dev : Text) : Text :=
  "Loading from ".toList ++ dev ++ " failed! Aborting installation..".toList

/-- `do_message`. -/
def doMessage : Cmd Machine :=
  echo fun env => abortText (env.expand .updatedev)

/-- The variables that `do_cleanup` deletes. -/
def cleanupVars : List Var :=
  [.updateChunkSize, .updateChunkPos, .updateImageSizeRest, .uCSizeBlk, .uCPosBlk, .updatedev,
    .doCheck, .doMessage, .doCleanup, .isError, .updateState]

/-- `do_cleanup`. -/
def doCleanup : Cmd Machine :=
  seq (envDelete cleanupVars) (test fun _ => true)

/-- `is_error`. -/
def isError : Cmd Machine :=
  both doCheck (both doMessage doCleanup)

/-- The first lines of the script, which set the variables it runs. -/
def setup : List (Cmd Machine) :=
  [setenv .doCheck fun _ =>
      "itest $? != 0 || itest $filesize -gt $update_chunk_size".toList,
    setenv .doMessage fun _ =>
      "echo \"Loading from \"$updatedev\" failed! Aborting installation..\"".toList,
    setenv .doCleanup fun _ =>
      ("env delete update_chunk_size update_chunk_pos update_image_size_rest u_c_size_blk " ++
        "u_c_pos_blk updatedev do_check do_message do_cleanup is_error update_state; true").toList,
    setenv .isError fun _ => "run do_check && run do_message do_cleanup".toList]

/-! ## §4 Stages -/

/-- The stages of an installation. -/
inductive Stage where
  | uboot
  | nboot
  | rootfs
  deriving DecidableEq, Repr

/-- The value of `update_state` in a stage. -/
def Stage.text : Stage → Text
  | .uboot => "uboot".toList
  | .nboot => "nboot".toList
  | .rootfs => "rootfs".toList

/-- `test ${update_state} = stage`. -/
def testStage (stage : Stage) : Cmd Machine :=
  test fun env => decide (env.expand .updateState = stage.text)

/-- `setenv update_state stage`. -/
def setStage (stage : Stage) : Cmd Machine :=
  setenv .updateState fun _ => stage.text

/-- The stage is advanced before its work is done. -/
def advance : Cmd Machine :=
  ite (test fun env => decide (env.expand .updateState = []))
    (setStage .uboot)
    (ite (testStage .uboot)
      (setStage .nboot)
      (when (testStage .nboot) (setStage .rootfs)))

/-- `${update_state}-${arch}.fs`. -/
def fsFile (state arch : Text) : Text :=
  state ++ "-".toList ++ arch ++ ".fs".toList

/-- The stages `uboot` and `nboot`. -/
def fsStage (i : Inputs) : Cmd Machine :=
  script
    [load i (fun env => fsFile (env.expand .updateState) (env.expand .arch))
        (fun _ => 0) (fun _ => 0),
      either (fsimageSave i) (both doMessage (both doCleanup exit)),
      saveenv,
      reset]

/-- The branch for boards that boot from NAND. -/
def nandBoot (i : Inputs) : Cmd Machine :=
  script
    [load i (fun env => env.expand .bootfile ++ "-".toList ++ env.expand .arch)
        (fun _ => 0) (fun _ => 0),
      -- from here on the script looks at the status of no command
      nand fun _ => .erasePart .kernel,
      nand fun env => .write .kernel (env.expand .filesize),
      load i (fun env => env.expand .bootfdt) (fun _ => 0) (fun _ => 0),
      nand fun _ => .erasePart .fdt,
      nand fun env => .write .fdt (env.expand .filesize),
      load i (fun env => "rootfs-".toList ++ env.expand .arch ++ ".ubifs".toList)
        (fun _ => 0) (fun _ => 0),
      nand fun _ => .erasePart .targetFS,
      nand fun _ => .ubiPart .targetFS,
      nand fun _ => .ubiCreate,
      nand fun env => .ubiWrite (env.expand .filesize),
      runMacro i.kernelNand,
      runMacro i.fdtNand,
      runMacro i.rootfsUbifs]

/-- `emmc-${arch}.sysimg`. -/
def imageFile (arch : Text) : Text :=
  "emmc-".toList ++ arch ++ ".sysimg".toList

/-- `while itest ${update_image_size_rest} != 0`. -/
def restLeft : Cmd Machine :=
  itest .updateImageSizeRest (fun a b => decide (a ≠ b)) (fun _ => some 0)

/-- The load command of the chunk loop, and what follows it. -/
def loadChunk (i : Inputs) : Cmd Machine :=
  seq
    (load i (fun env => imageFile (env.expand .arch))
      (fun env => (env.number .updateChunkSize).getD 0)
      (fun env => (env.number .updateChunkPos).getD 0))
    (both isError exit)

/-- The arithmetic between loading a chunk and writing it. -/
def countBlocks : List (Cmd Machine) :=
  [setexpr .updateImageSizeRest .updateImageSizeRest (· - ·) (·.number .updateChunkSize),
    setexpr .uCSizeBlk .updateChunkSize (· + ·) (fun _ => some 0x1ff),
    setexpr .uCSizeBlk .uCSizeBlk (· / ·) (fun _ => some 0x200),
    setexpr .uCPosBlk .updateChunkPos (· / ·) (fun _ => some 0x200)]

/-- `if itest ${update_image_size_rest} -lt ${update_chunk_size}`: the last chunk is smaller. -/
def shrinkChunk : Cmd Machine :=
  when (itest .updateImageSizeRest (fun a b => decide (a < b)) (·.number .updateChunkSize))
    (setenv .updateChunkSize (·.expand .updateImageSizeRest))

/-- The body of the chunk loop. -/
def chunk (i : Inputs) : Cmd Machine :=
  script <| [shrinkChunk, loadChunk i] ++ countBlocks ++
    [mmcWrite i .uCPosBlk .uCSizeBlk,
      setexpr .updateChunkPos .updateChunkPos (· + ·) (·.number .updateChunkSize)]

/-- The lines in front of the chunk loop.  `mmc dev` selects the user area, the only part of
    the eMMC that is modelled. -/
def beforeChunks (i : Inputs) : List (Cmd Machine) :=
  [setenv .updateChunkSize fun _ => "E00000".toList,
    setenv .updateChunkPos fun _ => "0".toList,
    test fun _ => true,
    size i,
    setenv .updateImageSizeRest (·.expand .filesize)]

/-- The chunk loop. -/
def chunks (i : Inputs) : Cmd Machine :=
  whileDo (fun m => (m.ram.number .updateImageSizeRest).getD 0) restLeft (chunk i)

/-- The copying part of the branch for boards that boot from eMMC. -/
def copyImage (i : Inputs) : Cmd Machine :=
  script (beforeChunks i ++ [chunks i])

/-- The branch for boards that boot from eMMC. -/
def mmcBoot (i : Inputs) : Cmd Machine :=
  script
    [copyImage i,
      setenv .bootfdt fun _ => "picocoremx8mp.dtb".toList,
      setenv .platform fun _ => "picocoremx8mp".toList,
      runMacro i.kernelMmc,
      runMacro i.fdtMmc,
      runMacro i.rootfsMmc]

/-- The stage `rootfs`. -/
def rootfsStage (i : Inputs) : Cmd Machine :=
  ite (test fun env => decide (env.expand .bdKernel = "nand".toList)) (nandBoot i) (mmcBoot i)

/-- The script is in no state that it knows. -/
def unknownState : Cmd Machine :=
  script
    [echo fun env => "Error! Unknwon state: ".toList ++ env.expand .updateState,
      exit]

/-- The text that `bootcmd` gets in front. -/
def m7Call : Text :=
  "run m7boot; ".toList

/-- The end of the script: the boot of the Cortex-M7 core, and the final environment. -/
def finish : List (Cmd Machine) :=
  [echo fun _ => "Configuring Cortex-M7 core boot".toList,
    setenv .m7image fun _ => "/home/root/disco_scheduler.bin".toList,
    setenv .loadm7image fun env =>
      "ext4load mmc 2:2 ".toList ++ env.expand .loadaddr ++ " ".toList ++ env.expand .m7image,
    setenv .m7boot fun env =>
      env.expand .loadm7image ++ "; cp.b ".toList ++ env.expand .loadaddr ++
        " 0x7e0000 0x1fc00; dcache flush; bootaux 0x7e0000".toList,
    setenv .bootcmd fun env => m7Call ++ env.expand .bootcmd,
    -- the stage is among the variables that are deleted
    doCleanup,
    saveenv,
    echo fun _ => "Installation complete".toList,
    echo fun _ => []]

/-- The work of the stage that the script is in. -/
def stages (i : Inputs) : List (Cmd Machine) :=
  [when (either (testStage .uboot) (testStage .nboot)) (fsStage i),
    ite (testStage .rootfs) (rootfsStage i) unknownState]

/-- `update.txt`. -/
def updateTxt (i : Inputs) : Cmd Machine :=
  script <| setup ++ [advance] ++ stages i ++ finish

/-! ## §5 Boots -/

/-- What outlives a boot. -/
structure Storage where
  saved : Environment Var
  emmc : Nat → UInt8

/-- The machine when the script starts. -/
def start (i : Inputs) (st : Storage) : Machine :=
  { ram := st.saved.set .updatedev i.updatedev
    saved := st.saved
    memory := i.memory
    emmc := st.emmc
    returned := true
    loads := 0
    writes := 0
    trace := [] }

/-- The script as it runs at a boot. -/
def bootRun (i : Inputs) (st : Storage) : Outcome Machine :=
  updateTxt i (start i st)

/-- What a machine leaves behind when it stops. -/
def Machine.storage (m : Machine) : Storage :=
  ⟨m.saved, m.emmc⟩

/-! ## §6 A board -/

/-- A boot medium with the files of an installation: `uboot` and `nboot`, and the given image.
    There is nothing behind the end of the image, and no other file. -/
def mediumLoad (image : List UInt8) (file : Text) (bytes pos : Nat) : Option (List UInt8) :=
  if file = imageFile "mx8mp".toList then
    if pos + bytes ≤ image.length then some ((image.drop pos).take bytes) else none
  else if file = fsFile Stage.uboot.text "mx8mp".toList ∨
      file = fsFile Stage.nboot.text "mx8mp".toList then
    some [0x46, 0x53]
  else none

/-- A boot from this medium, on which every command does what it is asked to, with macros that
    change nothing. -/
def plainInputs (image : List UInt8) : Inputs where
  updatedev := "mmc 1".toList
  memory := fun _ => 0
  load := fun _ => mediumLoad image
  size := some image.length
  fsimageSave := true
  mmcWrite := fun _ => true
  kernelMmc := fun env => env
  fdtMmc := fun env => env
  rootfsMmc := fun env => env
  kernelNand := fun env => env
  fdtNand := fun env => env
  rootfsUbifs := fun env => env

/-- A board that boots from eMMC, with the given `update_state`. -/
def plainStorage (state : Text) : Storage where
  saved := fun v => match v with
    | .updateState => if state = [] then none else some state
    | .arch => some "mx8mp".toList
    | .loadaddr => some "48000000".toList
    | .bdKernel => some "mmc".toList
    | .bootcmd => some "run mmcboot".toList
    | _ => none
  emmc := fun _ => 0xff

end AppSysManager.Installer
