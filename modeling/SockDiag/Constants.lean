import Mathlib.Tactic.Common

/-!
# `constants.rs`

The numbers the codecs compare with and write: message types, address families (`libc`'s on Linux),
the types of attributes, socket states, and the flags that say what is to be reported of a unix
socket. They are the kernel's; here they stand under the source's names and have the source's
widths, so that a comparison in a decoder is the comparison of the source.

Only what some function of the crate reads is here: the type of an attribute that is neither in an
arm of a decoder nor in a flag is not. Which types have an arm, and so are known to the crate, is
what the lists `Inet.Nla.kinds` and `Unix.Nla.kinds` say.
-/

set_option autoImplicit false

namespace SockDiag

def sockDiagByFamily : UInt16 := 20
def sockDestroy : UInt16 := 21

def afUnix : UInt8 := 1
def afInet : UInt8 := 2
def afInet6 : UInt8 := 10

def ipprotoTcp : UInt8 := 6

/-! ## Attributes of an inet response -/

def inetDiagMeminfo : UInt16 := 1
def inetDiagInfo : UInt16 := 2
def inetDiagVegasinfo : UInt16 := 3
def inetDiagCong : UInt16 := 4
def inetDiagTos : UInt16 := 5
def inetDiagTclass : UInt16 := 6
def inetDiagSkmeminfo : UInt16 := 7
def inetDiagShutdown : UInt16 := 8
def inetDiagProtocol : UInt16 := 10
def inetDiagSkv6only : UInt16 := 11
def inetDiagMark : UInt16 := 15
def inetDiagClassId : UInt16 := 17

/-! ## Socket states -/

def tcpEstablished : UInt8 := 1
def tcpSynSent : UInt8 := 2
def tcpSynRecv : UInt8 := 3
def tcpFinWait1 : UInt8 := 4
def tcpFinWait2 : UInt8 := 5
def tcpTimeWait : UInt8 := 6
def tcpClose : UInt8 := 7
def tcpCloseWait : UInt8 := 8
def tcpLastAck : UInt8 := 9
def tcpListen : UInt8 := 10
def tcpClosing : UInt8 := 11

/-! ## Attributes of a unix response -/

def unixDiagName : UInt16 := 0
def unixDiagVfs : UInt16 := 1
def unixDiagPeer : UInt16 := 2
def unixDiagIcons : UInt16 := 3
def unixDiagRqlen : UInt16 := 4
def unixDiagMeminfo : UInt16 := 5
def unixDiagShutdown : UInt16 := 6

def udiagShowName : UInt32 := 1 <<< unixDiagName.toUInt32
def udiagShowVfs : UInt32 := 1 <<< unixDiagVfs.toUInt32
def udiagShowPeer : UInt32 := 1 <<< unixDiagPeer.toUInt32
def udiagShowIcons : UInt32 := 1 <<< unixDiagIcons.toUInt32
def udiagShowRqlen : UInt32 := 1 <<< unixDiagRqlen.toUInt32
def udiagShowMeminfo : UInt32 := 1 <<< unixDiagMeminfo.toUInt32

end SockDiag
