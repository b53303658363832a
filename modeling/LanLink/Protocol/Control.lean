import LanLink.Protocol.Crypto

/-! Control messages and their encryption. The serializer and the cipher are
outside the repository and are parameters of what uses them. -/
namespace LanLink.Control
open Words LanLink.Frame Crypto

inductive ServiceActionType where
  | list (active failed : Bool)
  | status (name : String)
  | start (name : String)
  | stop (name : String)
  | restart (name : String)
  | reload (name : String)
  | enable (name : String)
  | disable (name : String)

inductive PkgActionType where
  | list (installed : Bool)
  | search (query : String)
  | install (name : String)
  | remove (name : String)
  | update
  | upgrade

inductive DockerActionType where
  | ps (all running : Bool)
  | logs (name : String) (tail : UInt32) (follow : Bool)
  | stats (intervalSecs : UInt64)
  | exec (container : String) (cmd : List String) (interactive : Bool)
  | info
  | images
  | rm (container : String) (force : Bool)
  | control (container action : String)

inductive CrontabActionType where
  | list | edit | remove

inductive NativeCmdType where
  | ls (path : String) (long all : Bool)
  | cat (path : String)
  | tail (path : String) (lines : UInt32) (follow : Bool) (followSecs : UInt64)
  | head (path : String) (lines : UInt32)
  | find (path : String) (name type : Option String) (maxdepth : UInt32)
  | grep (pattern path : String) (recursive lineNumber count : Bool)
  | du (path : String) (summarize : Bool) (maxdepth : UInt32)
  | df (human all : Bool)
  | tree (path : String) (depth : UInt32) (dirsOnly : Bool)
  | stat (path : String)
  | mkdir (recursive : Bool) (paths : List String)
  | rm (recursive force : Bool) (paths : List String)
  | mv (src dest : String)
  | cp (recursive : Bool) (src dest : String)
  | chmod (mode : String) (paths : List String)
  | chown (owner : String) (paths : List String)
  | diff (file1 file2 : String)
  | wc (lines words : Bool) (paths : List String)
  | lsblk
  | mount
  | ps (full : Bool) (user : Option String) (tree : Bool)
  | kill (pid signal : UInt32)
  | pgrep (name : String) (full count : Bool)
  | pkill (name : String) (signal : UInt32)
  | top (intervalSecs : UInt64) (iterations : UInt32)
  | uptime
  | hostname
  | uname (all release machine : Bool)
  | whoami
  | who
  | last (lines : UInt32)
  | free (human : Bool)
  | cpu
  | dmesg (lines : UInt32) (level : Option String)
  | info
  | netstat (tcp udp numeric listening : Bool)
  | ip (addr route link : Bool)
  | portScan (host : String) (startPort endPort : UInt16) (timeoutMs : UInt64)
  | arp
  | dns (hostname : String) (type : Option String)
  | service (action : ServiceActionType)
  | journal (unit : Option String) (follow : Bool) (lines : UInt32) (priority since : Option String)
  | pkg (action : PkgActionType)
  | docker (action : DockerActionType)
  | crontab (action : CrontabActionType)
  | firewall (backend : String)
  | ssh
  | checksum (path algorithm : String)
  | shellExec (cmd : String) (timeoutSecs : UInt32)
  | readFile (path : String)
  | batchContent (lines : List String) (timeout : UInt64)
  | watch (intervalSecs : UInt64) (cmd : List String)
  | writeFile (path : String) (data : Bytes) (append : Bool)
  | sed (path pattern replacement : String) (global regex : Bool)
  | touch (path : String)

inductive ControlMsg where
  | exec (id : UInt32) (cmd : String)
  | filePush (id : UInt32) (path : String) (size : UInt64)
  | fileChunk (id : UInt32) (offset : UInt64) (data : Bytes)
  | fileAck (id : UInt32) (offset : UInt64)
  | keyEvent (down : Bool) (scancode vk : UInt16)
  | mouseMove (dx dy : Int16)
  | mouseButton (button : UInt8) (down : Bool)
  | mouseWheel (delta : Int16)
  | videoStart (width height : UInt16) (fps : UInt8) (bitrateKbps : UInt32)
  | videoStop
  | audioStart (sampleRate : UInt32) (channels : UInt8)
  | audioStop
  | hello (version : UInt16) (capabilities : List String)
  | helloAck (version : UInt16) (capabilities : List String)
  | execStarted (id : UInt32)
  | execChunk (id : UInt32) (stream : UInt8) (data : Bytes)
  | execDone (id : UInt32) (exitCode : Option Int32)
  | execStdin (id : UInt32) (data : Bytes) (close : Bool)
  | execSignal (id signo : UInt32)
  | nativeCmd (id : UInt32) (cmd : NativeCmdType)
  | nativeSpawn (id : UInt32) (cmd : NativeCmdType)

/-- The messages the daemon sends; the client sends none of them. -/
def ControlMsg.isReply : ControlMsg → Bool
  | .helloAck _ _ | .execStarted _ | .execChunk _ _ _ | .execDone _ _ | .fileAck _ _ => true
  | _ => false

/-- What is handed to the cipher for one packet. -/
structure Sealed where
  nonce : Nonce
  plaintext : Bytes
  deriving DecidableEq

section
variable (serialize : ControlMsg → Bytes) (encrypt : Psk → Nonce → Bytes → Option Bytes)

/-- Both ends derive the nonce from the connection and their own counter. -/
def sealing (connId : UInt64) (seq : UInt32) (msg : ControlMsg) : Sealed :=
  ⟨makeNonce connId seq, serialize msg⟩

def encodePacket (connId : UInt64) (pktType : PacketType) (streamId : UInt16) (seq : UInt32)
    (flags : Flags) (payload : Bytes) (nonce : Nonce) : Bytes :=
  PacketHeader.encode
    { connId, pktType, flags, streamId, seq, ackSeq := 0, ackBitmap := 0,
      payloadLen := payload.length.toUInt16, nonce } ++ payload

/-- An encrypted packet on the control stream; `none` is a cipher failure. -/
def controlPacket (connId : UInt64) (psk : Psk) (seq : UInt32) (msg : ControlMsg) : Option Bytes :=
  let s := sealing serialize connId seq msg
  (encrypt psk s.nonce s.plaintext).map fun encrypted =>
    encodePacket connId .data StreamId.control.toU16 seq .reliable encrypted s.nonce

end

end LanLink.Control
