import OpenBSDCiv.Libutil.Lemmas.Compose
import OpenBSDCiv.Libutil.Lemmas.Write

namespace Libutil
namespace Transport

structure Socket where
  stream : List UInt8
  fds : List (Nat × Int)

structure Sender where
  imsgbuf : Imsgbuf
  socket : Socket

inductive SendAct where
  | compose (msg : Msg)
  | write (res : Sent)

def Sender.write (s : Sender) (res : Sent) : Option Sender :=
  let imsgbuf := (imsgbufWrite s.imsgbuf res).2.1
  match res with
  | .again => some { s with imsgbuf }
  | .error => some { s with imsgbuf }
  | .bytes n =>
    let iov := queueBytes (msgbufWriteIov s.imsgbuf.w)
    if n ≤ iov.length then
      let fds := (msgbufWriteFd s.imsgbuf.w).toList.map fun fd => (s.socket.stream.length, fd)
      some { imsgbuf, socket := ⟨s.socket.stream ++ iov.take n, s.socket.fds ++ fds⟩ }
    else
      none

def Sender.compose (s : Sender) (msg : Msg) : Sender :=
  { s with
    imsgbuf :=
      (imsgCompose (fun _ => true) s.imsgbuf msg.type msg.id msg.pid msg.fd msg.data).2.1
  }

def Sender.run (s : Sender) : List SendAct → Option Sender
  | [] => some s
  | .compose msg :: acts => (s.compose msg).run acts
  | .write res :: acts =>
    match s.write res with
    | none => none
    | some s => s.run acts

def composed : List SendAct → List Msg
  | [] => []
  | .compose msg :: acts => msg :: composed acts
  | .write _ :: acts => composed acts

inductive RecvAct where
  | read (bs : List UInt8) (fd : Option Int)
  | get

def controlOf : Option Int → List Cmsg
  | none => []
  | some fd => [⟨true, [fd]⟩]

def receive (imsgbuf : Imsgbuf) (got : List Imsg) : List RecvAct → Option (Imsgbuf × List Imsg)
  | [] => some (imsgbuf, got)
  | .read bs fd :: acts =>
    match imsgbufRead (fun _ => true) imsgbuf (.bytes bs (controlOf fd)) with
    | none => none
    | some (ret, imsgbuf, _) => if ret = 1 then receive imsgbuf got acts else none
  | .get :: acts =>
    match imsgbufGet imsgbuf with
    | .empty => receive imsgbuf got acts
    | .error _ _ => none
    | .message imsg imsgbuf => receive imsgbuf (got ++ [imsg]) acts

def getAll (imsgbuf : Imsgbuf) : List Imsg :=
  go imsgbuf.w.rbufs.bufs.length imsgbuf
where
  go : Nat → Imsgbuf → List Imsg
    | 0, _ => []
    | n + 1, imsgbuf =>
      match imsgbufGet imsgbuf with
      | .empty => []
      | .error _ _ => []
      | .message imsg imsgbuf => imsg :: go n imsgbuf

def readsOf : List RecvAct → List (List UInt8 × Option Int)
  | [] => []
  | .read bs fd :: acts => (bs, fd) :: readsOf acts
  | .get :: acts => readsOf acts

def Delivers (pos : Nat) : List (List UInt8 × Option Int) → List (Nat × Int) → Prop
  | [], fds => fds = []
  | (bs, none) :: reads, fds =>
    (∀ x ∈ fds, pos + bs.length ≤ x.1) ∧ Delivers (pos + bs.length) reads fds
  | (bs, some fd) :: reads, fds =>
    ∃ p fds', fds = (p, fd) :: fds'
      ∧ pos ≤ p ∧ p + imsgHeaderSize ≤ pos + bs.length
      ∧ (∀ x ∈ fds', pos + bs.length ≤ x.1)
      ∧ Delivers (pos + bs.length) reads fds'

structure Carries (socket : Socket) (reads : List (List UInt8 × Option Int)) : Prop where
  bytes_eq : reads.flatMap Prod.fst = socket.stream
  ne_nil : ∀ r ∈ reads, r.1 ≠ []
  delivers : Delivers 0 reads socket.fds

def view (imsg : Imsg) : ImsgHdr × List UInt8 × Int :=
  (imsg.hdr, imsg.data, (imsgGetFd imsg).1)

def expected (pid : UInt32) (msg : Msg) : ImsgHdr × List UInt8 × Int :=
  (msg.hdr pid (UInt32.ofNat msg.len), msg.data, normFd msg.fd)

structure Opened (imsgbuf : Imsgbuf) : Prop where
  w_eq : imsgbuf.w = msgbufNewReader imsgHeaderSize
  maxsize_lt : imsgbuf.maxsize.toNat < 2 ^ 31
  allowFdpass_eq : imsgbuf.allowFdpass = true

theorem imsgbufInit_opened (pid : UInt32)
    : Opened (imsgbufAllowFdpass (imsgbufInit pid)) where
  w_eq := rfl
  maxsize_lt := show maxImsgsize.toNat < 2 ^ 31 by decide
  allowFdpass_eq := rfl

end Transport
end Libutil
