import Mongoose.J2534
import Mongoose.Lib.Demux
import Mongoose.Lib.Slots

/-!
# Mongoose.IsoTp

Host-side ISO 15765 receive reassembly, one conversation a source CAN ID.

An inbound frame is four big-endian identifier bytes followed by the CAN data,
whose first byte (the PCI byte) carries the frame type in its high nibble.
`feed` routes a frame by type and by whether its ID has a conversation;
`single`, `first` and `consecutive` handle the three types that matter.
-/

namespace Mongoose

/-- Big-endian CAN ID ahead of every payload. -/
def identifier : Nat := 4

def single_limit : Nat := 7

/-- A message that would fit in a single frame must not be segmented. -/
def segmented_minimum : Nat := 8

def with_identifier (frame : Bytes) : Bytes := frame.take identifier

/-- The four bytes as one word; the shifted bytes do not overlap, so the
source's or is a sum. -/
def source_id (frame : Bytes) : UInt32 :=
  UInt32.ofNat ((frame.getD 0 0).toNat * 2 ^ 24 + (frame.getD 1 0).toNat * 2 ^ 16 +
    (frame.getD 2 0).toNat * 2 ^ 8 + (frame.getD 3 0).toNat)

/-- The PCI byte, `frame[identifier]`. -/
def pci (frame : Bytes) : Nat := (frame.getD identifier 0).toNat

namespace IsoTpReassembler

def max_message : Nat := 0xfff

/-- Conversations kept; a new one past them pushes out the oldest. -/
def max_conversations : Nat := 32

/-- A completed message (`rx_status` 0) or a first-frame indication, which
carries the ID alone. -/
structure Output where
  rx_status : UInt32 := 0
  data : Bytes
  deriving DecidableEq, Repr

/-- A conversation in progress: the ID and payload accumulated so far, the
payload length announced, and the sequence nibble expected next. -/
structure Assembly where
  id : UInt32
  message : Bytes
  expected : Nat
  sequence : Nat
  deriving DecidableEq, Repr

end IsoTpReassembler

open IsoTpReassembler in
/-- The conversations in progress, oldest first. -/
structure IsoTpReassembler where
  assemblies : List Assembly := []
  deriving DecidableEq, Repr

namespace IsoTpReassembler

def reset (_ : IsoTpReassembler) : IsoTpReassembler := {}

def find (r : IsoTpReassembler) (id : UInt32) : Option Assembly :=
  Slots.find Assembly.id id r.assemblies

def assembling (r : IsoTpReassembler) (id : UInt32) : Bool := (r.find id).isSome

def drop (r : IsoTpReassembler) (id : UInt32) : IsoTpReassembler :=
  { assemblies := Slots.drop Assembly.id id r.assemblies }

def single (r : IsoTpReassembler) (frame : Bytes) : List Output × IsoTpReassembler :=
  if frame.length < identifier + 1 then ([], r.drop (source_id frame))
  else
    let length := pci frame % 16
    if length > single_limit then ([], r.drop (source_id frame))
    -- a frame that announces more than it holds is refused
    else if length > frame.length - identifier - 1 then ([], r.drop (source_id frame))
    else ([{ data := with_identifier frame ++ (frame.drop (identifier + 1)).take length }], r)

def first (r : IsoTpReassembler) (frame : Bytes) : List Output × IsoTpReassembler :=
  if frame.length < identifier + 2 then ([], r)
  else
    let announced := pci frame % 16 * 256 + (frame.getD (identifier + 1) 0).toNat
    if announced < segmented_minimum ∨ announced > max_message then ([], r)
    else
      let payload := frame.drop (identifier + 2)
      let taken := min payload.length announced
      let assembly : Assembly :=
        { id := source_id frame, message := with_identifier frame ++ payload.take taken,
          expected := announced, sequence := 1 }
      let kept :=
        if r.assemblies.length = max_conversations then r.assemblies.tail else r.assemblies
      ([{ rx_status := START_OF_MESSAGE, data := with_identifier frame }],
        { assemblies := kept ++ [assembly] })

def consecutive (r : IsoTpReassembler) (frame : Bytes) : List Output × IsoTpReassembler :=
  match r.find (source_id frame) with
  | none => ([], r)
  | some found =>
      if frame.length < identifier + 2 then ([], r.drop (source_id frame))
      -- a gap: the rest of the message can never be trusted
      else if pci frame % 16 ≠ found.sequence then ([], r.drop (source_id frame))
      else
        let payload := frame.drop (identifier + 1)
        let outstanding := found.expected - (found.message.length - identifier)
        let taken := min payload.length outstanding
        let grown : Assembly :=
          { found with
            sequence := (found.sequence + 1) % 16
            message := found.message ++ payload.take taken }
        if grown.message.length - identifier < grown.expected then
          ([], { assemblies := Slots.put Assembly.id grown r.assemblies })
        else ([{ data := grown.message }], r.drop (source_id frame))

def feed (r : IsoTpReassembler) (frame : Bytes) : List Output × IsoTpReassembler :=
  if frame.length ≤ identifier then ([], r)
  else
    let type := pci frame / 16
    match r.find (source_id frame) with
    | none =>
        if type = 0 then r.single frame
        else if type = 1 then r.first frame
        else ([], r)
    | some _ =>
        match type with
        -- a single frame is delivered and leaves the partial message in place
        | 0 => r.single frame
        -- a first frame discards the partial message before it starts its own
        | 1 => (r.drop (source_id frame)).first frame
        | 2 => r.consecutive frame
        | _ => ([], r)

/-! ## runs -/

/-- Feed frames one by one: each frame with what it produced, and the final state. -/
def trace (r : IsoTpReassembler) (frames : List Bytes) :
    List (Bytes × List Output) × IsoTpReassembler :=
  Demux.trace feed r frames

/-- The state after a run of frames. -/
def run (r : IsoTpReassembler) (frames : List Bytes) : IsoTpReassembler := (r.trace frames).2

/-- Everything a run of frames produced, in order. -/
def outputs (r : IsoTpReassembler) (frames : List Bytes) : List Output :=
  (r.trace frames).1.flatMap Prod.snd

end IsoTpReassembler

end Mongoose
