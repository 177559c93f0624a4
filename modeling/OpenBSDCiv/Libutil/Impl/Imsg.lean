import OpenBSDCiv.Libutil.Impl.Msgbuf

namespace Libutil

def imsgbufSetMaxsize (imsgbuf : Imsgbuf) (max : UInt32) : Option Imsgbuf :=
  if max.toNat > 2 ^ 32 - 1 - imsgHeaderSize then
    none
  else
    let max := max + 16
    if max &&& imsgFdMark ≠ 0 then
      none
    else
      some { imsgbuf with maxsize := max }

def imsgParseHdr (maxsize : UInt32) : ReadHdr := fun mem buf fd =>
  match ibufGet buf imsgHeaderSize with
  | none => (none, fd, [])
  | some (hdr, _) =>
    let hdr := ImsgHdr.decode hdr
    let len := hdr.len &&& ~~~imsgFdMark
    if len.toNat < imsgHeaderSize ∨ len > maxsize then
      (none, fd, [])
    else
      match ibufOpen mem len.toNat with
      | none => (none, fd, [])
      | some b =>
        if hdr.len &&& imsgFdMark ≠ 0 then
          let (b, effs) := ibufFdSet b fd
          (some b, -1, effs)
        else
          (some b, fd, [])

def imsgbufInit (pid : UInt32) : Imsgbuf :=
  { w := msgbufNewReader imsgHeaderSize, pid, maxsize := maxImsgsize, allowFdpass := false }

def imsgbufAllowFdpass (imsgbuf : Imsgbuf) : Imsgbuf :=
  { imsgbuf with allowFdpass := true }

def imsgbufRead (mem : Nat → Bool) (imsgbuf : Imsgbuf) (res : Received) :
    Option (Int × Imsgbuf × List Eff) :=
  let read := if imsgbuf.allowFdpass then msgbufRead else ibufRead
  match read (imsgParseHdr imsgbuf.maxsize) mem imsgbuf.w res with
  | none => none
  | some (ret, w, effs) => some (ret, { imsgbuf with w }, effs)

def imsgbufWrite (imsgbuf : Imsgbuf) (res : Sent) : Int × Imsgbuf × List Eff :=
  let write := if imsgbuf.allowFdpass then msgbufWrite else ibufWrite
  let (ret, w, effs) := write imsgbuf.w res
  (ret, { imsgbuf with w }, effs)

inductive Got where
  | empty
  | error (lost : Ibuf) (imsgbuf : Imsgbuf)
  | message (imsg : Imsg) (imsgbuf : Imsgbuf)

def imsgbufGet (imsgbuf : Imsgbuf) : Got :=
  match msgbufGet imsgbuf.w with
  | none => .empty
  | some (buf, w) =>
    match ibufGet buf imsgHeaderSize with
    | none => .error buf { imsgbuf with w }
    | some (hdr, buf) =>
      let hdr := ImsgHdr.decode hdr
      let hdr := { hdr with len := hdr.len &&& ~~~imsgFdMark }
      .message { hdr, data := ibufData buf, buf } { imsgbuf with w }

def imsgGetFd (imsg : Imsg) : Int × Imsg :=
  let (fd, buf) := ibufFdGet imsg.buf
  (fd, { imsg with buf })

def imsgFree (imsg : Imsg) : List Eff :=
  ibufFree (some imsg.buf)

def imsgCreate (mem : Nat → Bool) (imsgbuf : Imsgbuf) (type id pid : UInt32) (datalen : Nat) :
    Option Ibuf :=
  -- `size_t`
  let datalen := (datalen + imsgHeaderSize) % 2 ^ 64
  if datalen > imsgbuf.maxsize.toNat then
    none
  else
    let hdr : ImsgHdr :=
      { type, len := 0, peerid := id, pid := if pid = 0 then imsgbuf.pid else pid }
    match ibufDynamic (mem 0) datalen imsgbuf.maxsize.toNat with
    | none => none
    -- the buffer has no descriptor yet, so `ibuf_free` has no effect if this fails
    | some wbuf => ibufAdd (mem 1) wbuf hdr.encode

def imsgClose (imsgbuf : Imsgbuf) (msg : Ibuf) : Imsgbuf × List Eff :=
  let len := UInt32.ofNat (ibufSize msg)
  let len := if ibufFdAvail msg then len ||| imsgFdMark else len
  let msg := (ibufSetH32 msg 4 len).getD msg
  let (w, effs) := ibufClose imsgbuf.w msg
  ({ imsgbuf with w }, effs)

def imsgFinish (imsgbuf : Imsgbuf) (wbuf : Ibuf) (fd : Int) : Int × Imsgbuf × List Eff :=
  let (wbuf, effs) := ibufFdSet wbuf fd
  let (imsgbuf, effs') := imsgClose imsgbuf wbuf
  (1, imsgbuf, effs ++ effs')

def imsgCompose (mem : Nat → Bool) (imsgbuf : Imsgbuf) (type id pid : UInt32) (fd : Int)
    (data : List UInt8) : Int × Imsgbuf × List Eff :=
  match imsgCreate mem imsgbuf type id pid data.length with
  | none => (-1, imsgbuf, [])
  | some wbuf =>
    match ibufAdd (mem 2) wbuf data with
    | none => (-1, imsgbuf, ibufFree (some wbuf))
    | some wbuf => imsgFinish imsgbuf wbuf fd

def imsgComposev (mem : Nat → Bool) (imsgbuf : Imsgbuf) (type id pid : UInt32) (fd : Int)
    (iov : List (List UInt8)) : Int × Imsgbuf × List Eff :=
  let datalen := (iov.map List.length).sum % 2 ^ 64
  match imsgCreate mem imsgbuf type id pid datalen with
  | none => (-1, imsgbuf, [])
  | some wbuf =>
    match addAll 2 wbuf iov with
    | .error wbuf => (-1, imsgbuf, ibufFree (some wbuf))
    | .ok wbuf => imsgFinish imsgbuf wbuf fd
where
  addAll (k : Nat) (wbuf : Ibuf) : List (List UInt8) → Except Ibuf Ibuf
    | [] => .ok wbuf
    | data :: iov =>
      match ibufAdd (mem k) wbuf data with
      | none => .error wbuf
      | some wbuf => addAll (k + 1) wbuf iov

def imsgComposeIbuf (mem : Nat → Bool) (imsgbuf : Imsgbuf) (type id pid : UInt32) (buf : Ibuf) :
    Int × Imsgbuf × List Eff :=
  if ibufSize buf + imsgHeaderSize > imsgbuf.maxsize.toNat then
    (-1, imsgbuf, ibufFree (some buf))
  else
    let hdr : ImsgHdr :=
      {
        type
        len := UInt32.ofNat (ibufSize buf + imsgHeaderSize)
        peerid := id
        pid := if pid = 0 then imsgbuf.pid else pid
      }
    match ibufOpen (mem 0) imsgHeaderSize with
    | none => (-1, imsgbuf, ibufFree (some buf))
    | some hdrbuf =>
      match ibufAdd (mem 1) hdrbuf hdr.encode with
      | none => (-1, imsgbuf, ibufFree (some buf) ++ ibufFree (some hdrbuf))
      | some hdrbuf =>
        let (w, effs) := ibufClose imsgbuf.w hdrbuf
        let (w, effs') := ibufClose w buf
        (1, { imsgbuf with w }, effs ++ effs')

def imsgForward (mem : Nat → Bool) (imsgbuf : Imsgbuf) (msg : Imsg) :
    Int × Imsgbuf × Imsg × List Eff :=
  let buf := ibufRewind msg.buf
  match ibufSkip buf imsgHeaderSize with
  | none => (-1, imsgbuf, { msg with buf }, [])
  | some buf =>
    let msg := { msg with buf }
    let len := ibufSize buf
    match imsgCreate mem imsgbuf msg.hdr.type msg.hdr.peerid msg.hdr.pid len with
    | none => (-1, imsgbuf, msg, [])
    | some wbuf =>
      match (if len ≠ 0 then ibufAddIbuf (mem 2) wbuf buf else some wbuf) with
      | none => (-1, imsgbuf, msg, ibufFree (some wbuf))
      | some wbuf =>
        let (imsgbuf, effs) := imsgClose imsgbuf wbuf
        (1, imsgbuf, msg, effs)

end Libutil
