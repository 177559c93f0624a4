import OpenBSDCiv.Lib.Bytes

namespace Libutil

def imsgHeaderSize : Nat := 16
def ibufReadSize : Nat := 65535
def maxImsgsize : UInt32 := 16384
def iovMax : Nat := 1024
def imsgFdMark : UInt32 := 0x80000000
def ibufFdMarkOnStack : Int := -2
def sizeMax : Nat := 2 ^ 64 - 1

inductive Eff where
  | close (fd : Int)
  | abort
  deriving DecidableEq

structure Ibuf where
  buf : List UInt8
  max : Nat
  wpos : Nat
  rpos : Nat
  fd : Int
  deriving DecidableEq

structure Ibufqueue where
  bufs : List Ibuf
  queued : UInt32
  deriving DecidableEq

structure Msgbuf where
  bufs : Ibufqueue
  rbufs : Ibufqueue
  rbuf : List UInt8
  rpmsg : Option Ibuf
  hdrsize : Nat
  deriving DecidableEq

namespace Msgbuf

def roff (msgbuf : Msgbuf) : Nat :=
  msgbuf.rbuf.length

end Msgbuf

structure Imsgbuf where
  w : Msgbuf
  pid : UInt32
  maxsize : UInt32
  allowFdpass : Bool
  deriving DecidableEq

structure ImsgHdr where
  type : UInt32
  len : UInt32
  peerid : UInt32
  pid : UInt32
  deriving DecidableEq

structure Imsg where
  hdr : ImsgHdr
  data : List UInt8
  buf : Ibuf
  deriving DecidableEq

namespace ImsgHdr

-- The structure is copied as it lies in memory: four little endian words.
def encode (hdr : ImsgHdr) : List UInt8 :=
  Bytes.toLE 4 hdr.type.toNat ++ Bytes.toLE 4 hdr.len.toNat ++ Bytes.toLE 4 hdr.peerid.toNat
    ++ Bytes.toLE 4 hdr.pid.toNat

def decode (bs : List UInt8) : ImsgHdr :=
  {
    type := UInt32.ofNat (Bytes.ofLE (bs.take 4))
    len := UInt32.ofNat (Bytes.ofLE ((bs.drop 4).take 4))
    peerid := UInt32.ofNat (Bytes.ofLE ((bs.drop 8).take 4))
    pid := UInt32.ofNat (Bytes.ofLE ((bs.drop 12).take 4))
  }

@[simp]
theorem encode_length (hdr : ImsgHdr) : hdr.encode.length = 16 := by
  simp [encode]

theorem ofNat_ofLE_toLE (x : UInt32) : UInt32.ofNat (Bytes.ofLE (Bytes.toLE 4 x.toNat)) = x := by
  rw [Bytes.ofLE_toLE]
  . apply UInt32.ofNat_toNat
  . apply x.toNat_lt

@[simp]
theorem decode_encode (hdr : ImsgHdr) : decode hdr.encode = hdr := by
  unfold decode encode
  simp [List.drop_append, List.drop_of_length_le, List.take_of_length_le, ofNat_ofLE_toLE]

end ImsgHdr

def ibufOpen (mem : Bool) (len : Nat) : Option Ibuf :=
  if mem then
    some { buf := List.replicate len 0, max := len, wpos := 0, rpos := 0, fd := -1 }
  else
    none

def ibufDynamic (mem : Bool) (len max : Nat) : Option Ibuf :=
  if max = 0 ∨ max < len then
    none
  else if mem then
    some { buf := List.replicate len 0, max := max, wpos := 0, rpos := 0, fd := -1 }
  else
    none

def ibufSize (buf : Ibuf) : Nat :=
  buf.wpos - buf.rpos

def ibufData (buf : Ibuf) : List UInt8 :=
  (buf.buf.take buf.wpos).drop buf.rpos

def ibufLeft (buf : Ibuf) : Nat :=
  if buf.fd = ibufFdMarkOnStack then 0 else buf.max - buf.wpos

def memcpy (mem : List UInt8) (pos : Nat) (data : List UInt8) : List UInt8 :=
  mem.take pos ++ data ++ mem.drop (pos + data.length)

def ibufReserve (mem : Bool) (buf : Ibuf) (len : Nat) : Option (Nat × Ibuf) :=
  if len > sizeMax - buf.wpos then
    none
  else if buf.fd = ibufFdMarkOnStack then
    none
  else if buf.wpos + len > buf.buf.length then
    if buf.wpos + len > buf.max then
      none
    else if mem then
      let grown := buf.buf ++ List.replicate (buf.wpos + len - buf.buf.length) 0
      some (buf.wpos, { buf with buf := grown, wpos := buf.wpos + len })
    else
      none
  else
    some (buf.wpos, { buf with wpos := buf.wpos + len })

def ibufAdd (mem : Bool) (buf : Ibuf) (data : List UInt8) : Option Ibuf :=
  if data.length = 0 then
    some buf
  else
    match ibufReserve mem buf data.length with
    | none => none
    | some (b, buf) => some { buf with buf := memcpy buf.buf b data }

def ibufAddIbuf (mem : Bool) (buf from_ : Ibuf) : Option Ibuf :=
  ibufAdd mem buf (ibufData from_)

def ibufSeek (buf : Ibuf) (pos len : Nat) : Option Nat :=
  if ibufSize buf < pos ∨ sizeMax - pos < len ∨ ibufSize buf < pos + len then
    none
  else
    some (buf.rpos + pos)

def ibufSet (buf : Ibuf) (pos : Nat) (data : List UInt8) : Option Ibuf :=
  match ibufSeek buf pos data.length with
  | none => none
  | some b => some { buf with buf := memcpy buf.buf b data }

def ibufSetH32 (buf : Ibuf) (pos : Nat) (value : UInt32) : Option Ibuf :=
  ibufSet buf pos (Bytes.toLE 4 value.toNat)

def ibufRewind (buf : Ibuf) : Ibuf :=
  { buf with rpos := 0 }

def ibufFromBuffer (data : List UInt8) : Ibuf :=
  { buf := data, max := 0, wpos := data.length, rpos := 0, fd := ibufFdMarkOnStack }

def ibufGet (buf : Ibuf) (len : Nat) : Option (List UInt8 × Ibuf) :=
  if ibufSize buf < len then
    none
  else
    some ((ibufData buf).take len, { buf with rpos := buf.rpos + len })

def ibufGetIbuf (buf : Ibuf) (len : Nat) : Option (Ibuf × Ibuf) :=
  if ibufSize buf < len then
    none
  else
    some (ibufFromBuffer ((ibufData buf).take len), { buf with rpos := buf.rpos + len })

def ibufSkip (buf : Ibuf) (len : Nat) : Option Ibuf :=
  if ibufSize buf < len then
    none
  else
    some { buf with rpos := buf.rpos + len }

def ibufFree : Option Ibuf → List Eff
  | none => []
  | some buf =>
    if buf.fd = ibufFdMarkOnStack then
      [.abort]
    else if buf.fd ≥ 0 then
      [.close buf.fd]
    else
      []

def ibufFdAvail (buf : Ibuf) : Bool :=
  buf.fd ≥ 0

def ibufFdGet (buf : Ibuf) : Int × Ibuf :=
  if buf.fd < 0 then
    (-1, buf)
  else
    (buf.fd, { buf with fd := -1 })

def ibufFdSet (buf : Ibuf) (fd : Int) : Ibuf × List Eff :=
  let effs : List Eff :=
    if buf.fd = ibufFdMarkOnStack then
      [.abort]
    else if buf.fd ≥ 0 then
      [.close buf.fd]
    else
      []
  if fd ≥ 0 then
    ({ buf with fd }, effs)
  else
    ({ buf with fd := -1 }, effs)

end Libutil
