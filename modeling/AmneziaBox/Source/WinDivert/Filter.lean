import AmneziaBox.Library.Codec
import AmneziaBox.Source.Adapter.InboundContext

/-!
# WinDivert filters

`common/windivert/filter.go`: filters as lists of tests, all of which must hold or one of
which must hold, and their encoding as a program of the driver's filter machine. The flags
of a filter choose the packets that the driver looks at.
-/
namespace AmneziaBox.Source.WinDivert
open Adapter Library

def filterInstBytes : Nat := 24
def filterMaxInsts : Nat := 256

def fieldZero : BitVec 16 := 0
def fieldInbound : BitVec 16 := 1
def fieldOutbound : BitVec 16 := 2
def fieldIP : BitVec 16 := 5
def fieldIPv6 : BitVec 16 := 6
def fieldICMP : BitVec 16 := 7
def fieldTCP : BitVec 16 := 8
def fieldUDP : BitVec 16 := 9
def fieldICMPv6 : BitVec 16 := 10
def fieldIPSrcAddr : BitVec 16 := 21
def fieldIPDstAddr : BitVec 16 := 22
def fieldIPv6SrcAddr : BitVec 16 := 28
def fieldIPv6DstAddr : BitVec 16 := 29
def fieldICMPType : BitVec 16 := 30
def fieldICMPv6Type : BitVec 16 := 34
def fieldTCPSrcPort : BitVec 16 := 38
def fieldTCPDstPort : BitVec 16 := 39
def fieldUDPDstPort : BitVec 16 := 54

def testEQ : BitVec 8 := 0
def testLEQ : BitVec 8 := 3
def testGEQ : BitVec 8 := 5

def resultAccept : BitVec 16 := 0x7ffe
def resultReject : BitVec 16 := 0x7fff

def filterFlagInbound : BitVec 64 := 0x0010
def filterFlagOutbound : BitVec 64 := 0x0020
def filterFlagIP : BitVec 64 := 0x0040
def filterFlagIPv6 : BitVec 64 := 0x0080

/-- The four words of an argument. -/
structure Arg where
  word0 : BitVec 32
  word1 : BitVec 32
  word2 : BitVec 32
  word3 : BitVec 32
  deriving DecidableEq, Repr

structure FilterInst where
  field : BitVec 16
  test : BitVec 8
  success : BitVec 16 := 0
  failure : BitVec 16 := 0
  neg : Bool := false
  arg : Arg
  deriving DecidableEq, Repr

structure Filter where
  insts : List FilterInst := []
  anyInsts : List FilterInst := []
  flags : BitVec 64 := 0
  deriving DecidableEq, Repr

/-! ## Constructors -/

def argUint32 (value : BitVec 32) : Arg := ⟨value, 0, 0, 0⟩

/-- The driver has IPv4 addresses in their IPv4-mapped form. -/
def argIPv4 (addr : BitVec 32) : Arg := ⟨addr, 0x0000ffff, 0, 0⟩

/-- The driver has the words of an IPv6 address in reversed order. -/
def argIPv6 (addr : BitVec 128) : Arg :=
  ⟨addr.extractLsb' 0 32, addr.extractLsb' 32 32, addr.extractLsb' 64 32, addr.extractLsb' 96 32⟩

def Filter.add (filter : Filter) (field : BitVec 16) (test : BitVec 8) (arg : Arg) : Filter :=
  { filter with insts := filter.insts ++ [{ field := field, test := test, arg := arg }] }

def Filter.addAny (filter : Filter) (field : BitVec 16) (test : BitVec 8) (arg : Arg) : Filter :=
  { filter with anyInsts := filter.anyInsts ++ [{ field := field, test := test, arg := arg }] }

def reject : Filter := {}

structure AddrPort where
  addr : Addr
  port : BitVec 16
  deriving DecidableEq, Repr

/-- The flag of a direction and its test. -/
def direction (flags : BitVec 64) (field : BitVec 16) : Filter :=
  Filter.add { flags := flags } field testEQ (argUint32 1)

/-- The flag of an address family and its test. -/
def Filter.addFamily (filter : Filter) (flags : BitVec 64) (field : BitVec 16) : Filter :=
  Filter.add { filter with flags := filter.flags ||| flags } field testEQ (argUint32 1)

def outboundTCP (src dst : AddrPort) : Except String Filter :=
  let filter := direction filterFlagOutbound fieldOutbound
  let ports (filter : Filter) : Filter :=
    (filter.add fieldTCPSrcPort testEQ (argUint32 (src.port.setWidth 32))).add
      fieldTCPDstPort testEQ (argUint32 (dst.port.setWidth 32))
  match src.addr, dst.addr with
  | .invalid, _ => .error "windivert: filter: invalid address port"
  | _, .invalid => .error "windivert: filter: invalid address port"
  | .ipv4 source, .ipv4 destination =>
    let filter := filter.addFamily filterFlagIP fieldIP
    let filter := filter.add fieldTCP testEQ (argUint32 1)
    let filter := filter.add fieldIPSrcAddr testEQ (argIPv4 source)
    let filter := filter.add fieldIPDstAddr testEQ (argIPv4 destination)
    .ok (ports filter)
  | .ipv6 source, .ipv6 destination =>
    let filter := filter.addFamily filterFlagIPv6 fieldIPv6
    let filter := filter.add fieldTCP testEQ (argUint32 1)
    let filter := filter.add fieldIPv6SrcAddr testEQ (argIPv6 source)
    let filter := filter.add fieldIPv6DstAddr testEQ (argIPv6 destination)
    .ok (ports filter)
  | .ipv4 _, .ipv6 _ => .error "windivert: filter: mixed IPv4/IPv6"
  | .ipv6 _, .ipv4 _ => .error "windivert: filter: mixed IPv4/IPv6"

def is6 : Addr → Bool
  | .ipv6 _ => true
  | _ => false

/-- The checks of `inboundTo` on each destination, in order. -/
def checkDestinations (isV6 : Bool) : List Addr → Except String Unit
  | [] => .ok ()
  | destination :: rest =>
    if !destination.isValid then .error "windivert: filter: invalid address"
    else if is6 destination ≠ isV6 then .error "windivert: filter: mixed IPv4/IPv6"
    else checkDestinations isV6 rest

/-- One alternative for a destination of the family that was checked. -/
def Filter.addDestination (filter : Filter) : Addr → Filter
  | .ipv4 addr => filter.addAny fieldIPDstAddr testEQ (argIPv4 addr)
  | .ipv6 addr => filter.addAny fieldIPv6DstAddr testEQ (argIPv6 addr)
  | .invalid => filter

def inboundTo (destinations : List Addr) : Except String Filter :=
  match destinations with
  | [] => .error "windivert: filter: no destination address"
  | first :: _ => do
    checkDestinations (is6 first) destinations
    let filter := direction filterFlagInbound fieldInbound
    let filter :=
      if is6 first then filter.addFamily filterFlagIPv6 fieldIPv6
      else filter.addFamily filterFlagIP fieldIP
    pure (destinations.foldl Filter.addDestination filter)

/-- A protocol and a range of one of its fields, behind the destinations. -/
def inboundRange (destinations : List Addr) (protocol field low high : BitVec 16) :
    Except String Filter := do
  let filter ← inboundTo destinations
  pure (((filter.add protocol testEQ (argUint32 1)).add field testGEQ
    (argUint32 (low.setWidth 32))).add field testLEQ (argUint32 (high.setWidth 32)))

def inboundTCPPortRange (destinations : List Addr) (portLow portHigh : BitVec 16) :
    Except String Filter :=
  inboundRange destinations fieldTCP fieldTCPDstPort portLow portHigh

def inboundUDPPortRange (destinations : List Addr) (portLow portHigh : BitVec 16) :
    Except String Filter :=
  inboundRange destinations fieldUDP fieldUDPDstPort portLow portHigh

def isV4First (destinations : List Addr) : Bool :=
  match destinations with
  | .ipv4 _ :: _ => true
  | _ => false

def inboundICMPEchoReply (destinations : List Addr) : Except String Filter := do
  let filter ← inboundTo destinations
  pure (if isV4First destinations then
      (filter.add fieldICMP testEQ (argUint32 1)).add fieldICMPType testEQ (argUint32 0)
    else (filter.add fieldICMPv6 testEQ (argUint32 1)).add fieldICMPv6Type testEQ (argUint32 129))

def inboundICMPError (destinations : List Addr) : Except String Filter :=
  if isV4First destinations then inboundRange destinations fieldICMP fieldICMPType 3 12
  else inboundRange destinations fieldICMPv6 fieldICMPv6Type 1 4

/-! ## Encoding -/

def word0 (inst : FilterInst) : BitVec 32 :=
  (inst.field &&& 0x7ff).setWidth 32 ||| (inst.test &&& 0x1f).setWidth 32 <<< 11 |||
    inst.success.setWidth 32 <<< 16

def word1 (inst : FilterInst) : BitVec 32 :=
  inst.failure.setWidth 32 ||| if inst.neg then (1 : BitVec 32) <<< 16 else (0 : BitVec 32)

def encodeInst (inst : FilterInst) : Bytes :=
  [word0 inst, word1 inst, inst.arg.word0, inst.arg.word1, inst.arg.word2, inst.arg.word3].flatMap
    fun word => Endian.little.put 4 word.toNat

/-- The targets of the mandatory tests: the next one, and accept behind the last of all. -/
def linkInst (total : Nat) (index : Nat) (inst : FilterInst) : FilterInst :=
  { inst with
    success := if index = total - 1 then resultAccept else BitVec.ofNat 16 (index + 1)
    failure := resultReject }

/-- The targets of the alternatives: accept, or the next one. -/
def linkAnyInst (total : Nat) (index : Nat) (inst : FilterInst) : FilterInst :=
  { inst with
    success := resultAccept
    failure := if index = total - 1 then resultReject else BitVec.ofNat 16 (index + 1) }

def Filter.total (filter : Filter) : Nat := filter.insts.length + filter.anyInsts.length

/-- The instructions as they are encoded. -/
def Filter.program (filter : Filter) : List FilterInst :=
  filter.insts.mapIdx (fun i => linkInst filter.total i) ++
    filter.anyInsts.mapIdx fun i => linkAnyInst filter.total (filter.insts.length + i)

def rejectInst : FilterInst :=
  { field := fieldZero, test := testEQ, success := resultReject, failure := resultReject,
    arg := ⟨0, 0, 0, 0⟩ }

def Filter.encode (filter : Filter) : Except String (Bytes × BitVec 64) :=
  if filter.total = 0 then .ok (encodeInst rejectInst, 0)
  else if filter.total > filterMaxInsts - 1 then .error "windivert: filter too long"
  else .ok (filter.program.flatMap encodeInst, filter.flags)

end AmneziaBox.Source.WinDivert
