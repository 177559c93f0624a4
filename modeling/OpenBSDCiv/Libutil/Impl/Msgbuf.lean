import OpenBSDCiv.Libutil.Impl.Ibuf

namespace Libutil

def ibufqInit : Ibufqueue :=
  { bufs := [], queued := 0 }

def ibufqPop (bufq : Ibufqueue) : Option (Ibuf × Ibufqueue) :=
  match bufq.bufs with
  | [] => none
  | buf :: bufs => some (buf, { bufs, queued := bufq.queued - 1 })

def ibufqPush (bufq : Ibufqueue) (buf : Ibuf) : Ibufqueue × List Eff :=
  let effs : List Eff := if buf.fd = ibufFdMarkOnStack then [.abort] else []
  ({ bufs := bufq.bufs ++ [buf], queued := bufq.queued + 1 }, effs)

def ibufqFlush (bufq : Ibufqueue) : Ibufqueue × List Eff :=
  (ibufqInit, bufq.bufs.flatMap fun buf => ibufFree (some buf))

def msgbufNewReader (hdrsize : Nat) : Msgbuf :=
  { bufs := ibufqInit, rbufs := ibufqInit, rbuf := [], rpmsg := none, hdrsize }

def ibufClose (msgbuf : Msgbuf) (buf : Ibuf) : Msgbuf × List Eff :=
  let (bufs, effs) := ibufqPush msgbuf.bufs buf
  ({ msgbuf with bufs }, effs)

def msgbufClear (msgbuf : Msgbuf) : Msgbuf × List Eff :=
  let (bufs, effs) := ibufqFlush msgbuf.bufs
  let (rbufs, effs') := ibufqFlush msgbuf.rbufs
  ({ msgbuf with bufs, rbufs, rbuf := [], rpmsg := none }, effs ++ effs' ++ ibufFree msgbuf.rpmsg)

def msgbufGet (msgbuf : Msgbuf) : Option (Ibuf × Msgbuf) :=
  match ibufqPop msgbuf.rbufs with
  | none => none
  | some (buf, rbufs) => some (buf, { msgbuf with rbufs })

def msgbufDrain (msgbuf : Msgbuf) (n : Nat) : Msgbuf × List Eff :=
  let (bufs, effs) := go msgbuf.bufs.bufs msgbuf.bufs.queued n
  ({ msgbuf with bufs }, effs)
where
  go : List Ibuf → UInt32 → Nat → Ibufqueue × List Eff
    | [], queued, _ => ({ bufs := [], queued }, [])
    | buf :: bufs, queued, n =>
      if n ≥ ibufSize buf then
        let (bufq, effs) := go bufs (queued - 1) (n - ibufSize buf)
        (bufq, ibufFree (some buf) ++ effs)
      else
        ({ bufs := { buf with rpos := buf.rpos + n } :: bufs, queued }, [])

inductive Sent where
  | bytes (n : Nat)
  | again
  | error
  deriving DecidableEq

def ibufWriteIov (msgbuf : Msgbuf) : List Ibuf :=
  msgbuf.bufs.bufs.take iovMax

def ibufWrite (msgbuf : Msgbuf) (res : Sent) : Int × Msgbuf × List Eff :=
  if ibufWriteIov msgbuf = [] then
    (0, msgbuf, [])
  else
    match res with
    | .again => (0, msgbuf, [])
    | .error => (-1, msgbuf, [])
    | .bytes n => (0, msgbufDrain msgbuf n)

def msgbufWriteIov (msgbuf : Msgbuf) : List Ibuf :=
  go 0 msgbuf.bufs.bufs
where
  go (i : Nat) : List Ibuf → List Ibuf
    | [] => []
    | buf :: bufs =>
      if i ≥ iovMax then
        []
      else if i > 0 ∧ buf.fd ≠ -1 then
        []
      else
        buf :: go (i + 1) bufs

def msgbufWriteFd (msgbuf : Msgbuf) : Option Int :=
  match msgbufWriteIov msgbuf with
  | [] => none
  | buf0 :: _ => if buf0.fd ≠ -1 then some buf0.fd else none

-- `buf0` is the head of the queue
def clearBuf0 (msgbuf : Msgbuf) : Msgbuf :=
  match msgbuf.bufs.bufs with
  | [] => msgbuf
  | buf0 :: bufs => { msgbuf with bufs := { msgbuf.bufs with bufs := { buf0 with fd := -1 } :: bufs } }

def msgbufWrite (msgbuf : Msgbuf) (res : Sent) : Int × Msgbuf × List Eff :=
  if msgbufWriteIov msgbuf = [] then
    (0, msgbuf, [])
  else
    match res with
    | .again => (0, msgbuf, [])
    | .error => (-1, msgbuf, [])
    | .bytes n =>
      match msgbufWriteFd msgbuf with
      | none => (0, msgbufDrain msgbuf n)
      | some fd =>
        let (msgbuf, effs) := msgbufDrain (clearBuf0 msgbuf) n
        (0, msgbuf, .close fd :: effs)

def ReadHdr := Bool → Ibuf → Int → Option Ibuf × Int × List Eff

structure ReadState where
  rbuf : Ibuf
  rpmsg : Option Ibuf
  rbufs : Ibufqueue
  fd : Int
  effs : List Eff
  deriving DecidableEq

inductive Turn where
  | next (st : ReadState)
  | leave (st : ReadState)
  | fail (st : ReadState)

def readTurn.fill (mem : Bool) (rpmsg : Ibuf) (st : ReadState) : Turn :=
  let sz := if ibufLeft rpmsg ≤ ibufSize st.rbuf then ibufLeft rpmsg else ibufSize st.rbuf
  match ibufGetIbuf st.rbuf sz with
  | none => .fail { st with rpmsg := some rpmsg }
  | some (msg, rbuf) =>
    match ibufAddIbuf mem rpmsg msg with
    | none => .fail { st with rbuf, rpmsg := some rpmsg }
    | some rpmsg =>
      if ibufLeft rpmsg = 0 then
        let (rbufs, effs) := ibufqPush st.rbufs rpmsg
        .next { st with rbuf, rpmsg := none, rbufs, effs := st.effs ++ effs }
      else
        .next { st with rbuf, rpmsg := some rpmsg }

def readTurn (hdrsize : Nat) (readhdr : ReadHdr) (mem : Bool) (st : ReadState) : Turn :=
  match st.rpmsg with
  | some rpmsg => readTurn.fill mem rpmsg st
  | none =>
    if ibufSize st.rbuf < hdrsize then
      .leave st
    else
      let msg := ibufFromBuffer ((ibufData st.rbuf).take hdrsize)
      match readhdr mem msg st.fd with
      | (none, fd, effs) => .fail { st with fd, effs := st.effs ++ effs }
      | (some rpmsg, fd, effs) => readTurn.fill mem rpmsg { st with fd, effs := st.effs ++ effs }

def readLoop (hdrsize : Nat) (readhdr : ReadHdr) (mem : Nat → Bool) :
    Nat → Nat → ReadState → Option (Bool × ReadState)
  | 0, _, _ => none
  | fuel + 1, k, st =>
    match readTurn hdrsize readhdr (mem k) st with
    | .leave st => some (true, st)
    | .fail st => some (false, st)
    | .next st =>
      if ibufSize st.rbuf > 0 then
        readLoop hdrsize readhdr mem fuel (k + 1) st
      else
        some (true, st)

def closeFd (fd : Int) : List Eff :=
  if fd ≠ -1 then [.close fd] else []

def ibufReadProcess (readhdr : ReadHdr) (mem : Nat → Bool) (msgbuf : Msgbuf) (fd : Int) :
    Option (Int × Msgbuf × List Eff) :=
  let st : ReadState :=
    {
      rbuf := ibufFromBuffer msgbuf.rbuf
      rpmsg := msgbuf.rpmsg
      rbufs := msgbuf.rbufs
      fd
      effs := []
    }
  match readLoop msgbuf.hdrsize readhdr mem (msgbuf.roff + 1) 0 st with
  | none => none
  | some (true, st) =>
    let msgbuf := { msgbuf with rbufs := st.rbufs, rpmsg := st.rpmsg, rbuf := ibufData st.rbuf }
    some (1, msgbuf, st.effs ++ closeFd st.fd)
  | some (false, st) =>
    let msgbuf := { msgbuf with rbufs := st.rbufs, rpmsg := st.rpmsg }
    some (-1, msgbuf, st.effs ++ closeFd st.fd)

structure Cmsg where
  rights : Bool
  fds : List Int
  deriving DecidableEq

inductive Received where
  | bytes (bs : List UInt8) (control : List Cmsg)
  | again
  | error
  deriving DecidableEq

def ibufRead (readhdr : ReadHdr) (mem : Nat → Bool) (msgbuf : Msgbuf) (res : Received) :
    Option (Int × Msgbuf × List Eff) :=
  match res with
  | .again => some (1, msgbuf, [])
  | .error => some (-1, msgbuf, [])
  | .bytes bs _ =>
    if bs.length = 0 then
      some (0, msgbuf, [])
    else
      ibufReadProcess readhdr mem { msgbuf with rbuf := msgbuf.rbuf ++ bs } (-1)

def takeFds : List Cmsg → Int → Int × List Eff
  | [], fdpass => (fdpass, [])
  | cmsg :: control, fdpass =>
    match cmsg.rights, cmsg.fds with
    | false, _ => takeFds control fdpass
    | true, [] => takeFds control fdpass
    | true, f :: fds =>
      let (fdpass, effs) := takeFds control f
      (fdpass, fds.map Eff.close ++ effs)

def msgbufRead (readhdr : ReadHdr) (mem : Nat → Bool) (msgbuf : Msgbuf) (res : Received) :
    Option (Int × Msgbuf × List Eff) :=
  match res with
  | .again => some (1, msgbuf, [])
  | .error => some (-1, msgbuf, [])
  | .bytes bs control =>
    if bs.length = 0 then
      some (0, msgbuf, [])
    else
      let (fdpass, effs) := takeFds control (-1)
      match ibufReadProcess readhdr mem { msgbuf with rbuf := msgbuf.rbuf ++ bs } fdpass with
      | none => none
      | some (ret, msgbuf, effs') => some (ret, msgbuf, effs ++ effs')

end Libutil
