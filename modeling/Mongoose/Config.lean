import Mongoose.J2534

/-!
# Mongoose.Config

The configuration parameters of a channel: where each one lives and what it may
be set to.
-/

namespace Mongoose

/-! ## parameters -/

def cfg_data_rate : UInt32 := 0x01
def cfg_loopback : UInt32 := 0x03
def cfg_bit_sample_point : UInt32 := 0x17
def cfg_sync_jump_width : UInt32 := 0x18
def cfg_iso15765_bs : UInt32 := 0x1e
def cfg_iso15765_stmin : UInt32 := 0x1f
def cfg_bs_tx : UInt32 := 0x22
def cfg_stmin_tx : UInt32 := 0x23
def cfg_iso15765_wft_max : UInt32 := 0x25
def cfg_n_br_min : UInt32 := 0x2a
def cfg_iso15765_pad_value : UInt32 := 0x2b
def cfg_n_as_max : UInt32 := 0x2c
def cfg_n_ar_max : UInt32 := 0x2d
def cfg_n_bs_max : UInt32 := 0x2e
def cfg_n_cr_max : UInt32 := 0x2f
def cfg_n_cs_min : UInt32 := 0x30
def cfg_j1962_pins : UInt32 := 0x8001
def cfg_dt_pullup_value : UInt32 := 0x10008
def cfg_dt_iso15765_pad_byte : UInt32 := 0x10000001
def cfg_dt_half_duplex : UInt32 := 0x10000007

/-! ## routes -/

namespace ConfigRoute

/-- The firmware keeps most parameters; LOOPBACK never leaves the host. -/
inductive Where
  | Firmware
  | HostLoopback
  deriving DecidableEq, Repr

end ConfigRoute

/-- Where a parameter lives and what it may be set to. -/
structure ConfigRoute where
  location : ConfigRoute.Where
  selector : UInt32
  settable : Bool
  minimum : UInt32
  maximum : UInt32
  allow_ffff : Bool
  deriving DecidableEq, Repr

def fw (selector low high : UInt32) (ffff : Bool := false) : ConfigRoute :=
  { location := .Firmware, selector := selector, settable := true, minimum := low, maximum := high
    allow_ffff := ffff }

def read_only (selector : UInt32) : ConfigRoute :=
  { location := .Firmware, selector := selector, settable := false, minimum := 0
    maximum := 0xffffffff, allow_ffff := false }

def host_loopback : ConfigRoute :=
  { location := .HostLoopback, selector := 0, settable := true, minimum := 0, maximum := 1
    allow_ffff := false }

def can_table : List (UInt32 × ConfigRoute) :=
  [(cfg_data_rate, fw 0x04 1 1000000),
    (cfg_loopback, host_loopback),
    (cfg_bit_sample_point, fw 0x14 68 80),
    (cfg_sync_jump_width, fw 0x15 0 100),
    (cfg_dt_pullup_value, read_only 0x31)]

def iso_table : List (UInt32 × ConfigRoute) :=
  [(cfg_data_rate, fw 0x04 1 1000000),
    (cfg_loopback, host_loopback),
    (cfg_bit_sample_point, fw 0x14 80 80),
    (cfg_sync_jump_width, fw 0x15 0 100),
    (cfg_iso15765_bs, fw 0x1b 0 0xff),
    (cfg_iso15765_stmin, fw 0x1c 0 0xff),
    (cfg_bs_tx, fw 0x1d 0 0xff true),
    (cfg_stmin_tx, fw 0x1e 0 0xff true),
    (cfg_iso15765_wft_max, fw 0x21 0 0xff),
    (cfg_n_br_min, fw 0x26 0 0xffff),
    (cfg_iso15765_pad_value, fw 0x22 0 0xff),
    (cfg_dt_iso15765_pad_byte, fw 0x22 0 0xff),
    (cfg_n_as_max, fw 0x23 1 0xffff),
    (cfg_n_ar_max, fw 0x24 1 0xffff),
    (cfg_n_bs_max, fw 0x25 1 0xffff),
    (cfg_n_cr_max, fw 0x28 1 0xffff),
    (cfg_n_cs_min, fw 0x27 0 0xffff),
    (cfg_dt_pullup_value, read_only 0x31),
    (cfg_dt_half_duplex, read_only 0x2c)]

def supported_rates : List UInt32 :=
  [33300, 33333, 50000, 62500, 83300, 83333, 95200, 95238, 100000, 125000, 166666, 166667, 200000,
    250000, 500000, 666666, 666667, 1000000]

def config_route (protocol parameter : UInt32) : Except Exception ConfigRoute :=
  if protocol ≠ CAN ∧ protocol ≠ ISO15765 then
    throw (.Error ERR_NOT_SUPPORTED "configuration is implemented for CAN and ISO15765 only")
  else if parameter = cfg_j1962_pins then
    throw (.Error ERR_FAILED "J1962_PINS only valid for *_PS ProtocolIDs")
  else
    match (if protocol = CAN then can_table else iso_table).lookup parameter with
    | none =>
        throw (.Error ERR_NOT_SUPPORTED "configuration parameter not supported on this channel")
    | some route => pure route

def can_baud_supported (rate : UInt32) : Bool := supported_rates.contains rate

def config_validate_set (protocol parameter value : UInt32) : Except Exception Unit := do
  let route ← config_route protocol parameter
  if ¬ route.settable then
    throw (.Error ERR_NOT_SUPPORTED
      "this driver reads but does not change that parameter (electrical setting)")
  if parameter = cfg_data_rate ∧ ¬ can_baud_supported value then
    throw (.Error ERR_INVALID_IOCTL_VALUE "unsupported CAN bit rate")
  if route.allow_ffff ∧ value = 0xffff then pure ()
  else if value < route.minimum ∨ value > route.maximum then
    throw (.Error ERR_INVALID_IOCTL_VALUE "configuration value out of range")

end Mongoose
