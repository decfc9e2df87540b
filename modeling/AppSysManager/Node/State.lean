import AppSysManager.Bytes.Memory
import AppSysManager.Node.Table
import Mathlib.Logic.Function.Basic

/-!
# State of the Node

The memory of app-sys-manager that its parameters live in, the two files it keeps, and
the setters and callbacks that change them (`param.c`, `vmem_file.c`, `main.c`).

Every C object is a block of its own: a store behind the end of `_stdbuf` is undefined
in C, and here it changes no object.  It does leave a `store` event with its range, so
that such stores can be spoken about.

What the node does to the outside world, and when, is recorded in `trace`.  What the
outside world answers (`popen`, `fopen`, `csp_buffer_get`, opening the CAN interface) is
given by an `Env`; the n-th call of each kind gets the n-th answer.  An `Env` also says what
the linker and the loader have decided: in which order the `param` section holds the
parameters, and how much memory behind `_stdbuf` is mapped.
-/

namespace AppSysManager.Node

open AppSysManager.Bytes

/-! ## §1 Events and environment -/

/-- `csp_id_t`. -/
structure CspId where
  pri : Nat
  flags : Nat
  src : Nat
  dst : Nat
  dport : Nat
  sport : Nat
  deriving DecidableEq, Repr

/-- The shell commands the callbacks start with `popen`. -/
inductive Command where
  | vimbaInstall
  | killCameraControl
  | startCameraControl (node : Nat)
  | killDipp
  | startDipp (node : Nat)
  deriving DecidableEq, Repr

/-- The command line of a command. -/
def Command.text : Command → String
  | .vimbaInstall => "/etc/lib/VimbaX_2023-4-ARM64/cti/VimbaUSBTL_Install.sh 2>&1"
  | .killCameraControl => "pkill -f /usr/bin/Disco2CameraControl 2>&1"
  | .startCameraControl node =>
    "/usr/bin/Disco2CameraControl -i can -d can0 -n " ++ toString node ++ " 2>&1"
  | .killDipp => "pkill -f /usr/bin/dipp 2>&1"
  | .startDipp node => "/usr/bin/dipp -i CAN -p can0 -a " ++ toString node ++ " 2>&1"

/-- The files the node opens: `sys-man-config.vmem` and `/home/root/suspend_on_boot`. -/
inductive FileName where
  | config
  | suspendOnBoot
  deriving DecidableEq, Repr

/-- What the node does, in the order in which it does it. -/
inductive Event where
  /-- Bytes `[off, off + len)` behind the start of the parameter's storage are written. -/
  | store (p : ParamName) (off len : Nat)
  /-- The parameter's callback starts; `value` is what `param_get` shows it. -/
  | callback (p : ParamName) (value : Nat)
  /-- A plain `memcpy` of `len` bytes to the address `off` bytes behind `vmem_config_buf`. -/
  | memcpy (off : Int) (len : Nat)
  /-- `csp_print_func` with this text. -/
  | print (text : List UInt8)
  | popen (cmd : Command) (ok : Bool)
  | system (cmd : String)
  | fopen (file : FileName) (ok : Bool)
  | fclose (file : FileName)
  /-- The bytes of the packet fetched by one pass over it lie in `[lo, hi)`; the packet's
      length field is `length` at that time. -/
  | fetch (lo hi : Int) (length : Nat)
  /-- A packet with this id and payload is handed to CSP. -/
  | reply (id : CspId) (data : List UInt8)
  /-- The address `csp_can_socketcan_open_and_add_interface` is called with. -/
  | canOpen (addr : Nat)
  /-- Address and netmask written to the opened CAN interface. -/
  | canConfig (addr netmask : Nat)
  deriving DecidableEq, Repr

/-- The answers of the outside world, and the layout of the program. -/
structure Env where
  /-- The n-th `popen`: `none` for `NULL`, else what `fgets` returns until end of file. -/
  popen : Nat → Option (List (List UInt8))
  /-- Does the n-th `fopen` for writing succeed? -/
  fopen : Nat → Bool
  /-- Does the n-th `csp_buffer_get` find a free buffer? -/
  cspBufferGet : Nat → Bool
  /-- Does opening `can0` succeed? -/
  canOpen : Bool
  /-- `serial_get()`, a hash of the build time. -/
  serial : UInt32
  /-- What `int param_val;` holds in `suspend_on_boot_read` before `fscanf`. -/
  paramVal : Int
  /-- The `param` section, in the order in which the linker has placed the parameters. -/
  section_ : List Param
  section_perm : section_.Perm paramTable
  /-- A `memcpy` of this many bytes from a packet to `_stdbuf` leaves the mapped memory; one of
      a packet's buffer does not. -/
  mapped : Nat
  mapped_ge : 2048 < mapped

/-- A world in which everything succeeds and no command prints anything.  The section is
    in the order in which an optimising compiler emits it. -/
def plainEnv : Env :=
  { popen := fun _ => some [], fopen := fun _ => true, cspBufferGet := fun _ => true,
    canOpen := true, serial := 77, paramVal := 0, section_ := paramTable.reverse,
    section_perm := paramTable.reverse_perm, mapped := 2 ^ 16, mapped_ge := by decide }

theorem plainEnv_fopen (n : Nat) : plainEnv.fopen n = true := rfl

/-- The node.  `ram` are the objects behind the RAM parameters, `canAddrVar` and
    `canNetmaskVar` the globals `_can_addr` and `_can_netmask`. -/
@[ext]
structure State where
  ram : ParamName → Nat → UInt8
  vmemConfigBuf : Nat → UInt8
  timestamp : ParamName → Nat
  tmpbuf : Nat → UInt8
  stdbufPos : Nat
  canAddrVar : Nat
  canNetmaskVar : Nat
  configFile : Option (List UInt8)
  flagFile : Option (List Char)
  popens : Nat
  fopens : Nat
  buffers : Nat
  /-- The process has ended: it was killed by a `memcpy` that left the mapped memory, or `main`
      has returned. -/
  dead : Bool
  trace : List Event

/-- The node when the program is loaded: all objects hold zeros, and only the two files are
    still what they were. -/
def initialState (configFile : Option (List UInt8)) (flagFile : Option (List Char)) : State :=
  { ram := fun _ _ => 0, vmemConfigBuf := fun _ => 0, timestamp := fun _ => 0,
    tmpbuf := fun _ => 0, stdbufPos := 0, canAddrVar := 0, canNetmaskVar := 0,
    configFile, flagFile, popens := 0, fopens := 0, buffers := 0, dead := false, trace := [] }

/-- Append an event to the trace. -/
def State.emit (s : State) (e : Event) : State := { s with trace := s.trace ++ [e] }

/-- `VMEM_DEFINE_FILE(config, "config", "sys-man-config.vmem", 1000)`. -/
def VMEM_CONFIG_SIZE : Nat := 1000

/-! ## §2 Raw storage -/

/-- `memcpy` into the RAM object of a parameter. -/
def ramWrite (s : State) (p : ParamName) (off len : Nat) (src : Nat → UInt8) : State :=
  { s with ram := Function.update s.ram p (overwrite p.storage (s.ram p) off len src) }

/-- `vmem_file_write`: update the RAM image, then write all of it back to the file. -/
def vmemFileWrite (env : Env) (s : State) (addr len : Nat) (src : Nat → UInt8) : State :=
  let buf := overwrite VMEM_CONFIG_SIZE s.vmemConfigBuf addr len src
  let ok := env.fopen s.fopens
  let s := { s with vmemConfigBuf := buf, fopens := s.fopens + 1 }.emit (.fopen .config ok)
  if ok then
    { s with configFile := some ((List.range VMEM_CONFIG_SIZE).map buf) }.emit (.fclose .config)
  else s

/-- The two branches `param->vmem` / RAM of every setter in `param.c`: `len` bytes to
    `off` behind the start of the parameter. -/
def paramWrite (env : Env) (s : State) (p : Param) (off len : Nat) (src : Nat → UInt8) : State :=
  let s := s.emit (.store p.name off len)
  if p.vmem then vmemFileWrite env s (p.addr + off) len src
  else ramWrite s p.name off len src

/-- `PARAM_GET`: the value of element `i`. -/
def paramGetArray (s : State) (p : Param) (i : Nat) : Nat :=
  if i > p.arraySize then 0
  else if p.vmem then loadLE s.vmemConfigBuf (p.addr + i * p.arrayStep) p.type.size
  else loadLE (s.ram p.name) (i * p.arrayStep) p.type.size

/-- `param_get_uint8` and `param_get_uint16`: element 0. -/
def paramGet (s : State) (p : Param) : Nat := paramGetArray s p 0

/-- `param_get_data` of `len` bytes. -/
def paramGetData (s : State) (p : Param) (len : Nat) : List UInt8 :=
  (List.range len).map fun j => if p.vmem then s.vmemConfigBuf (p.addr + j) else s.ram p.name j

/-! ## §3 `csp_print_func` -/

/-- The part of a byte string in front of its first NUL. -/
def cString (bs : List UInt8) : List UInt8 := bs.takeWhile (· ≠ 0)

/-- Characters of a string literal. -/
def asciiBytes (text : String) : List UInt8 := text.toList.map fun c => UInt8.ofNat c.toNat

/-- One round of the copy loop of `csp_print_func`. -/
def stdbufPut (s : State) (c : UInt8) : State :=
  { s with
    tmpbuf := Function.update s.tmpbuf s.stdbufPos c
    stdbufPos := (s.stdbufPos + 1) % STDBUF_SIZE }

/-- `param_set_string` for a parameter without a callback: the bytes, then a terminator
    behind them. -/
def paramSetStringNoCallback (env : Env) (s : State) (p : Param) (inbuf : Nat → UInt8)
    (len : Nat) : State :=
  let s := paramWrite env s p 0 len inbuf
  paramWrite env s p len 1 fun _ => 0

/-- `csp_print_func`: `text` is what the format expands to; `vsnprintf` keeps 255 bytes. -/
def cspPrintFunc (env : Env) (s : State) (text : List UInt8) : State :=
  let buf := cString (text.take 255)
  let s := s.emit (.print buf)
  let s := buf.foldl stdbufPut s
  -- linearise the ring into `_stdbuf`
  let s := paramWrite env s stdoutBuf 0 STDBUF_SIZE
    fun i => s.tmpbuf ((s.stdbufPos + i) % STDBUF_SIZE)
  let s := paramWrite env s stdoutBuf STDBUF_SIZE 1 fun _ => 0
  paramSetStringNoCallback env s stdoutBuf (s.ram .stdoutBuf) (STDBUF_SIZE + 1)

/-! ## §4 Callbacks -/

/-- `popen`: the answer of the environment, recorded in the trace. -/
def popen (env : Env) (s : State) (cmd : Command) : State × Option (List (List UInt8)) :=
  let answer := env.popen s.popens
  ({ s with popens := s.popens + 1 }.emit (.popen cmd answer.isSome), answer)

/-- `while (fgets(...) != NULL) csp_print("%s", buffer);` -/
def printLines (env : Env) (s : State) (lines : List (List UInt8)) : State :=
  lines.foldl (fun s line => cspPrintFunc env s (cString line)) s

/-- `can_addr_callback`. -/
def canAddrCallback (s : State) : State := { s with canAddrVar := paramGet s canAddr }

/-- `can_netmask_callback`. -/
def canNetmaskCallback (s : State) : State := { s with canNetmaskVar := paramGet s canNetmask }

/-- `suspend_a53_callback`. -/
def suspendA53Callback (s : State) : State :=
  (s.emit (.system "echo N > /sys/module/printk/parameters/console_suspend")).emit
    (.system "echo mem > /sys/power/state")

/-- `vimba_install_callback`. -/
def vimbaInstallCallback (env : Env) (s : State) : State :=
  match popen env s .vimbaInstall with
  | (s, none) => cspPrintFunc env s (asciiBytes "Failed to run command\n")
  | (s, some lines) => printLines env s lines

/-- The common body of `mng_camera_control_callback` and `mng_dipp_callback`: value 0 runs
    the kill command and prints its output, any other value starts the program. -/
def mngCallback (env : Env) (s : State) (p : Param) (kill : Command) (start : Nat → Command) :
    State :=
  let paramVal := paramGet s p
  if paramVal = 0 then
    match popen env s kill with
    | (s, none) => cspPrintFunc env s (asciiBytes "Failed to run command\n")
    | (s, some lines) => printLines env s lines
  else
    match popen env s (start paramVal) with
    | (s, none) => cspPrintFunc env s (asciiBytes ("Failed " ++ (start paramVal).text ++ "\n"))
    -- the output of the started program is never read
    | (s, some _) => s

/-- `mng_camera_control_callback`. -/
def mngCameraControlCallback (env : Env) (s : State) : State :=
  mngCallback env s mngCameraControl .killCameraControl .startCameraControl

/-- `mng_dipp_callback`. -/
def mngDippCallback (env : Env) (s : State) : State :=
  mngCallback env s mngDipp .killDipp .startDipp

/-- What `fprintf(file, "%d", param_val)` writes for a non-negative value. -/
def decimal (v : Nat) : List Char := Nat.toDigits 10 v

/-- The steps in which a write reaches a file: the truncation by `fopen("w")`, the
    buffered text of `fprintf`, and `fclose`. -/
inductive FileStep where
  | truncate
  | flush (text : List Char)
  | close
  deriving DecidableEq, Repr

/-- The content of the file after a step; `none` is a file that does not exist. -/
def FileStep.apply (file : Option (List Char)) : FileStep → Option (List Char)
  | .truncate => some []
  | .flush text => file.map (· ++ text)
  | .close => file

/-- The file after a number of steps. -/
def applySteps (file : Option (List Char)) (steps : List FileStep) : Option (List Char) :=
  steps.foldl FileStep.apply file

/-- The steps of `suspend_on_boot_callback` on its file. -/
def suspendOnBootSteps (paramVal : Nat) : List FileStep :=
  [.truncate, .flush (decimal paramVal), .close]

/-- `suspend_on_boot_callback`: truncate the flag file and write the value in decimal. -/
def suspendOnBootCallback (env : Env) (s : State) : State :=
  let paramVal := paramGet s suspendOnBoot
  let ok := env.fopen s.fopens
  let s := { s with fopens := s.fopens + 1 }.emit (.fopen .suspendOnBoot ok)
  if ok then
    { s with flagFile := applySteps s.flagFile (suspendOnBootSteps paramVal) }.emit
      (.fclose .suspendOnBoot)
  else s

/-- `param->callback(param, i)`. -/
def Callback.run (env : Env) (s : State) : Callback → State
  | .canAddr => canAddrCallback s
  | .canNetmask => canNetmaskCallback s
  | .suspendOnBoot => suspendOnBootCallback env s
  | .suspendA53 => suspendA53Callback s
  | .vimbaInstall => vimbaInstallCallback env s
  | .mngCameraControl => mngCameraControlCallback env s
  | .mngDipp => mngDippCallback env s

/-! ## §5 Setters -/

/-- `if (param->callback) param->callback(param, i);` -/
def runCallback (env : Env) (s : State) (p : Param) : State :=
  match p.callback with
  | none => s
  | some callback => callback.run env (s.emit (.callback p.name (paramGet s p)))

/-- `PARAM_SET`: element `i` of a number parameter, with its callback.  The guard is the
    source's `i > array_size`. -/
def paramSetArray (env : Env) (s : State) (p : Param) (i : Nat) (value : Int) : State :=
  if i > p.arraySize then s
  else
    -- conversion to the parameter's type
    let value := (value % 2 ^ (8 * p.type.size)).toNat
    runCallback env (paramWrite env s p (i * p.arrayStep) p.type.size (byteLE value)) p

/-- `param_set_uint8` and `param_set_uint16`: element 0. -/
def paramSet (env : Env) (s : State) (p : Param) (value : Int) : State :=
  paramSetArray env s p 0 value

/-- `param_set_string`. -/
def paramSetString (env : Env) (s : State) (p : Param) (inbuf : Nat → UInt8) (len : Nat) : State :=
  runCallback env (paramSetStringNoCallback env s p inbuf len) p

/-- `param_set_data`. -/
def paramSetData (env : Env) (s : State) (p : Param) (inbuf : Nat → UInt8) (len : Nat) : State :=
  runCallback env (paramWrite env s p 0 len inbuf) p

end AppSysManager.Node
