import Mongoose.J2534
import Mongoose.Lib.Prog

/-!
# Mongoose.Usb

Taking an adapter over libusb, and giving it back.

`acquire` finds the one adapter that matches, locks and opens its node, checks the
endpoints, detaches the kernel's drivers and claims the interfaces; whatever it has come to,
`cleanup` gives back.  Each call of libusb or the kernel goes through `call`, which keeps it
with its answer.  The transfers, which there are only between `start` and `stop`, are left
out.
-/

namespace Mongoose

namespace Usb

/-! ## errors -/

def LIBUSB_ERROR_NO_DEVICE : Int := -4
def LIBUSB_ERROR_BUSY : Int := -6
def LIBUSB_ERROR_TIMEOUT : Int := -7

def ERR_NOT_UNIQUE : Int := 24

def api_error (code : Int) : Int :=
  if code = LIBUSB_ERROR_NO_DEVICE then ERR_DEVICE_NOT_CONNECTED
  else if code = LIBUSB_ERROR_BUSY then ERR_DEVICE_IN_USE
  else if code = LIBUSB_ERROR_TIMEOUT then ERR_TIMEOUT
  else ERR_FAILED

/-! ## what is on the bus -/

structure Endpoint where
  bEndpointAddress : Nat
  bmAttributes : Nat
  deriving DecidableEq, Repr

structure AltSetting where
  bInterfaceNumber : Nat
  bAlternateSetting : Nat
  endpoint : List Endpoint
  deriving DecidableEq, Repr

/-- A configuration: its interfaces, each with its alternate settings. -/
abbrev Config := List (List AltSetting)

/-- A device of the list: its two ids if its descriptor can be read, its serial number and its node. -/
structure Device where
  descriptor : Option (Nat × Nat)
  serial_number : String
  location : String
  deriving DecidableEq, Repr

def matches_adapter (device : Device) : Bool := device.descriptor = some (0x18e1, 0x0104)

/-- The only adapter, or the only one with that serial number if one is given. -/
def select (devices : List Device) (serial : String) : Except Exception Device :=
  match devices.filter fun device => matches_adapter device && (serial = "" || device.serial_number = serial) with
  | [] => .error (.Error ERR_DEVICE_NOT_CONNECTED "no matching MongoosePro JLR USB device")
  | [device] => .ok device
  | _ => .error (.Error ERR_NOT_UNIQUE "multiple adapters match; specify a unique serial")

/-! ## endpoints -/

def LIBUSB_TRANSFER_TYPE_MASK : Nat := 0x03
def LIBUSB_TRANSFER_TYPE_BULK : Nat := 2
def LIBUSB_TRANSFER_TYPE_INTERRUPT : Nat := 3

/-- A set of interfaces in order, after one was inserted. -/
def insert (i : Nat) : List Nat → List Nat
  | [] => [i]
  | j :: js => if i < j then i :: j :: js else if i = j then j :: js else j :: insert i js

/-- The endpoints that were found, and the interfaces they are on. -/
structure Found where
  interfaces : List Nat := []
  inbound : Bool := false
  outbound : Bool := false
  interrupt : Bool := false
  deriving DecidableEq, Repr

def Found.endpoint (number : Nat) (found : Found) (ep : Endpoint) : Found :=
  let type := ep.bmAttributes &&& LIBUSB_TRANSFER_TYPE_MASK
  let inbound := ep.bEndpointAddress = 0x82 ∧ type = LIBUSB_TRANSFER_TYPE_BULK
  let outbound := ep.bEndpointAddress = 0x01 ∧ type = LIBUSB_TRANSFER_TYPE_BULK
  let interrupt := ep.bEndpointAddress = 0x83 ∧ type = LIBUSB_TRANSFER_TYPE_INTERRUPT
  { interfaces := if inbound ∨ outbound ∨ interrupt then insert number found.interfaces else found.interfaces
    inbound := found.inbound || inbound
    outbound := found.outbound || outbound
    interrupt := found.interrupt || interrupt }

def Found.alt (found : Found) (alt : AltSetting) : Found :=
  if alt.bAlternateSetting ≠ 0 then found else alt.endpoint.foldl (Found.endpoint alt.bInterfaceNumber) found

def scan (config : Config) : Found := config.flatten.foldl Found.alt {}

/-! ## calls -/

inductive Call
  | libusb_init
  | libusb_exit
  | libusb_get_device_list
  | libusb_free_device_list
  /-- `open` and `close` of the node that carries the lock. -/
  | open_node (path : String)
  | flock
  | close_node
  | libusb_open
  | libusb_close
  | libusb_get_active_config_descriptor
  | libusb_free_config_descriptor
  | libusb_kernel_driver_active (interface : Nat)
  | libusb_detach_kernel_driver (interface : Nat)
  | libusb_attach_kernel_driver (interface : Nat)
  | libusb_claim_interface (interface : Nat)
  | libusb_release_interface (interface : Nat)
  deriving DecidableEq, Repr

/-- The members that acquiring changes, and the calls so far with what they returned. -/
structure Members where
  handle : Bool := false
  lock_fd : Int := -1
  claimed : List Nat := []
  detached : List Nat := []
  calls : List (Call × Int) := []
  deriving DecidableEq, Repr

/-- A call that was made. -/
def Members.logged (usb : Members) (c : Call × Int) : Members := { usb with calls := usb.calls ++ [c] }

/-- What libusb and the system show and answer. -/
structure System where
  devices : List Device
  config : Config
  /-- What a call returns after those before it. -/
  answer : List (Call × Int) → Call → Int
  libusb_error_name : Int → String
  /-- The text of the error that `open` leaves. -/
  open_error : String

abbrev Op (α : Type) := Prog Exception Members α

section calls

open Prog

variable (system : System)

def call (c : Call) : Op Int := do
  let usb ← read
  let result := system.answer usb.calls c
  alter fun usb => usb.logged (c, result)
  pure result

def check (code : Int) (action : String) : Op Unit :=
  throw_if (code < 0) (.Error (api_error code) (action ++ ": " ++ system.libusb_error_name code))

/-- A scope whose end makes a call, also when it is left by an exception. -/
def with_guard (last : Call) (body : Op Unit) : Op Unit := do
  tryCatch body fun e => do
    let _ ← call system last
    throw e
  let _ ← call system last

/-! ## acquire -/

/-- Explicit detachment lets cleanup report reattachment failures. -/
def detach (interface : Nat) : Op Unit := do
  let active ← call system (.libusb_kernel_driver_active interface)
  check system active "checking kernel interface owner"
  when (active ≠ 0) do
    let result ← call system (.libusb_detach_kernel_driver interface)
    check system result "detaching CDC interface"
    alter fun usb => { usb with detached := usb.detached ++ [interface] }

def claim (interface : Nat) : Op Unit := do
  let result ← call system (.libusb_claim_interface interface)
  check system result "claiming USB interface"
  alter fun usb => { usb with claimed := usb.claimed ++ [interface] }

/-- With the handle open: the endpoints and their interfaces. -/
def acquire_interfaces : Op Unit := do
  let result ← call system .libusb_get_active_config_descriptor
  check system result "reading active USB configuration"
  with_guard system .libusb_free_config_descriptor do
    let found := scan system.config
    throw_if (¬ found.inbound ∨ ¬ found.outbound ∨ ¬ found.interrupt)
      (.Error ERR_NOT_SUPPORTED "USB endpoints differ from researched adapter")
    found.interfaces.forM (detach system)
    found.interfaces.forM (claim system)

/-- With the device selected: its node, the lock and the handle. -/
def acquire_device (selected : Device) : Op Unit := do
  let path := selected.location
  let fd ← call system (.open_node path)
  alter fun usb => { usb with lock_fd := fd }
  throw_if (fd < 0)
    (.Error ERR_FAILED ("cannot open " ++ path ++ ": " ++ system.open_error ++ "; install the narrow udev rule"))
  let locked ← call system .flock
  throw_if (locked < 0) (.Error ERR_DEVICE_IN_USE "adapter is locked by another native driver instance")
  let result ← call system .libusb_open
  -- libusb stores a handle only if it returns success
  alter fun usb => { usb with handle := decide (0 ≤ result) }
  check system result "opening adapter"
  acquire_interfaces system

def acquire (serial : String) : Op Unit := do
  let count ← call system .libusb_get_device_list
  check system count "enumerating USB devices"
  with_guard system .libusb_free_device_list do
    let selected ← of (select system.devices serial)
    acquire_device system selected

/-! ## cleanup -/

/-- Some interfaces are given back, the last one first; a device that has gone is no failure. -/
def give_back (c : Nat → Call) (complaint : String) (failure : String) : List Nat → Op String
  | [] => pure failure
  | interface :: rest => do
      let result ← call system (c interface)
      give_back c complaint (if result < 0 ∧ result ≠ LIBUSB_ERROR_NO_DEVICE then complaint else failure) rest

def cleanup_handle : Op String := do
  let usb ← read
  if usb.handle then do
    let failure ← give_back system .libusb_release_interface "USB interface release failed" "" usb.claimed.reverse
    let failure ← give_back system .libusb_attach_kernel_driver "CDC kernel driver reattachment failed" failure
      usb.detached.reverse
    let _ ← call system .libusb_close
    alter fun usb => { usb with handle := false }
    pure failure
  else pure ""

def cleanup : Op String := do
  let failure ← cleanup_handle system
  alter fun usb => { usb with claimed := [], detached := [] }
  let usb ← read
  when (usb.lock_fd ≥ 0) do
    let _ ← call system .close_node
    alter fun usb => { usb with lock_fd := -1 }
  pure failure

/-! ## a transport from its constructor to its destructor -/

end calls

end Usb

end Mongoose
