import Mongoose.Bytes

/-!
# Mongoose.J2534

The part of the SAE J2534 C interface the driver's logic reads: status codes,
protocol, filter and IOCTL identifiers, flag bits, and the message record.
-/

namespace Mongoose

/-! ## status codes -/

def STATUS_NOERROR : Int := 0
def ERR_NOT_SUPPORTED : Int := 1
def ERR_INVALID_CHANNEL_ID : Int := 2
def ERR_INVALID_PROTOCOL_ID : Int := 3
def ERR_NULL_PARAMETER : Int := 4
def ERR_INVALID_IOCTL_VALUE : Int := 5
def ERR_INVALID_FLAGS : Int := 6
def ERR_FAILED : Int := 7
def ERR_DEVICE_NOT_CONNECTED : Int := 8
def ERR_TIMEOUT : Int := 9
def ERR_INVALID_MSG : Int := 10
def ERR_INVALID_TIME_INTERVAL : Int := 11
def ERR_EXCEEDED_LIMIT : Int := 12
def ERR_INVALID_MSG_ID : Int := 13
def ERR_DEVICE_IN_USE : Int := 14
def ERR_INVALID_IOCTL_ID : Int := 15
def ERR_BUFFER_EMPTY : Int := 16
def ERR_BUFFER_FULL : Int := 17
def ERR_BUFFER_OVERFLOW : Int := 18
def ERR_CHANNEL_IN_USE : Int := 20
def ERR_MSG_PROTOCOL_ID : Int := 21
def ERR_INVALID_FILTER_ID : Int := 22
def ERR_NO_FLOW_CONTROL : Int := 23
def ERR_INVALID_BAUDRATE : Int := 25
def ERR_INVALID_DEVICE_ID : Int := 26

/-! ## identifiers -/

def J1850VPW : UInt32 := 1
def CAN : UInt32 := 5
def ISO15765 : UInt32 := 6

def PASS_FILTER : UInt32 := 1
def BLOCK_FILTER : UInt32 := 2
def FLOW_CONTROL_FILTER : UInt32 := 3

def GET_CONFIG : UInt32 := 1
def SET_CONFIG : UInt32 := 2
def READ_VBATT : UInt32 := 3
def CLEAR_TX_BUFFER : UInt32 := 7
def CLEAR_RX_BUFFER : UInt32 := 8
def CLEAR_PERIODIC_MSGS : UInt32 := 9
def CLEAR_MSG_FILTERS : UInt32 := 10
def READ_PROG_VOLTAGE : UInt32 := 14

/-! ## flag bits -/

def CAN_29BIT_ID : UInt32 := 0x100
def ISO15765_FRAME_PAD : UInt32 := 0x40

def TX_MSG_TYPE : UInt32 := 0x01
def START_OF_MESSAGE : UInt32 := 0x02
def TX_DONE : UInt32 := 0x08

/-! ## messages -/

/-- The capacity of a message's data field. -/
def dataCapacity : Nat := 4128

theorem length_replicate_capacity : (List.replicate dataCapacity (0 : UInt8)).length = dataCapacity :=
  List.length_replicate

/-- A J2534 message.  `Data` is a C array, so it has its capacity whatever
`DataSize` says. -/
structure PASSTHRU_MSG where
  ProtocolID : UInt32 := 0
  RxStatus : UInt32 := 0
  TxFlags : UInt32 := 0
  Timestamp : UInt32 := 0
  DataSize : UInt32 := 0
  ExtraDataIndex : UInt32 := 0
  Data : Bytes := List.replicate dataCapacity 0
  length_Data : Data.length = dataCapacity := by first | exact length_replicate_capacity | simp
  deriving DecidableEq, Repr

/-- A data field: `bytes` in front, zeros behind. -/
def padData (bytes : Bytes) : Bytes := bytes ++ List.replicate (dataCapacity - bytes.length) 0

theorem length_padData {bytes : Bytes} (h : bytes.length ≤ dataCapacity) :
    (padData bytes).length = dataCapacity := by
  rw [padData, List.length_append, List.length_replicate]; omega

/-- The data field `bytes` are copied into, as far as it holds them. -/
def dataField (bytes : Bytes) : Bytes := padData (bytes.take dataCapacity)

theorem length_dataField (bytes : Bytes) : (dataField bytes).length = dataCapacity :=
  length_padData (List.length_take_le ..)

/-- The first `DataSize` bytes of a message, as far as the field holds them. -/
def PASSTHRU_MSG.bytes (m : PASSTHRU_MSG) : Bytes := m.Data.take m.DataSize.toNat

end Mongoose
